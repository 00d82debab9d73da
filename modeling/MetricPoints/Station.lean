import MetricPoints.Plan

/-
  Stations: a tracker on a clock that is set by hand and beside a timer, with a sweeper that ticks
  on the timer. The clock wraps like any 64-bit word; the timer only moves while someone sleeps,
  and a tick sweeps with the clock as it then is. When ticks come is up to the runtime that the
  sweeper is started on (`Ticker`). Main statements: sleeping in two parts is sleeping at once
  (`sleep_sleep`), and without a running sweeper sleeping forgets nothing
  (`tracker_sleep_of_not_running`).
-/

namespace MetricPoints

variable {V : Type}

/-- Nanoseconds in a millisecond. -/
def millisecond : Nat := 1000000

/-- What the timer of a runtime makes of an interval: how many ticks there were some time after the
start, in nanoseconds. Time never takes a tick back. -/
structure Ticker where
  ticks : Nat → Nat → Nat
  mono : ∀ interval {elapsed later : Nat}, elapsed ≤ later →
    ticks interval elapsed ≤ ticks interval later

namespace Ticker

/-- Ticks come one, two, three intervals after the start, and so on. -/
def Regular (ticker : Ticker) : Prop :=
  ∀ interval elapsed k, 0 < interval → (k ≤ ticker.ticks interval elapsed ↔ k * interval ≤ elapsed)

/-- The ticker that counts the intervals that have passed. -/
def regular : Ticker where
  ticks interval elapsed := elapsed / interval
  mono _ _ _ h := Nat.div_le_div_right h

theorem regular_regular : regular.Regular := fun _ _ _ h => Nat.le_div_iff_mul_le h

theorem Regular.ticks_eq {ticker : Ticker} (h : ticker.Regular) {interval : Nat}
    (hpos : 0 < interval) (elapsed : Nat) : ticker.ticks interval elapsed = elapsed / interval :=
  Nat.le_antisymm
    ((Nat.le_div_iff_mul_le hpos).mpr ((h interval elapsed _ hpos).mp (Nat.le_refl _)))
    ((h interval elapsed _ hpos).mpr (Nat.div_mul_le_self _ _))

end Ticker

/-- A sweeper that was started at `start` on the timer and may have stopped since. -/
structure Sweeper where
  ticker : Ticker
  start : Nat
  running : Bool

/-- A tracker with its clock, its timer and the interval between ticks, all in nanoseconds, and the
sweeper in hand. -/
structure Station (V : Type) where
  tracker : Tracker V
  clock : UInt64
  timer : Nat
  interval : Nat
  sweeper : Option Sweeper

/-- What can be done at a station. -/
inductive Action (V : Type) where
  | increase (series : Series) (time : Nat) (value : V)
  | rate (series : Series) (time : Nat) (value : V)
  | moved (series : Series) (time : Nat) (value : V)
  | run (plan : Plan V)
  | knows (series : Series)
  | size
  | isEmpty
  | sweep
  | advance (nanoseconds : Nat)
  | rewind (nanoseconds : Nat)
  | spawn (ticker : Ticker)
  | sleep (milliseconds : Nat)
  | stop
  | release

/-- What an action answers. -/
inductive Answer (V : Type) where
  | nothing
  | amount (value : Option V)
  | outcome (value : Outcome V)
  | flag (value : Bool)
  | count (value : Nat)

/-- How many ticks a sweeper has made of an interval when the timer stands at `timer`. -/
def Sweeper.ticks (sweeper : Sweeper) (interval timer : Nat) : Nat :=
  sweeper.ticker.ticks interval (timer - sweeper.start)

theorem Sweeper.ticks_le_ticks (sweeper : Sweeper) (interval : Nat) {timer later : Nat}
    (h : timer ≤ later) : sweeper.ticks interval timer ≤ sweeper.ticks interval later :=
  sweeper.ticker.mono interval (Nat.sub_le_sub_right h _)

namespace Station

/-- A station with an empty tracker, on a clock and a timer at zero. -/
def new (ttl interval : Nat) : Station V := ⟨.empty ttl, 0, 0, interval, none⟩

/-- The reading of the clock. -/
def now (station : Station V) : Nat := station.clock.toNat

/-- Says whether the sweeper ticks while the timer moves to `timer`. -/
def due (station : Station V) (timer : Nat) : Bool :=
  station.sweeper.any fun sweeper =>
    sweeper.running &&
      sweeper.ticks station.interval station.timer < sweeper.ticks station.interval timer

/-- Lets the timer run. However many ticks are due, the clock stands still, so that one sweep does
the work of all. -/
def sleep (station : Station V) (milliseconds : Nat) : Station V :=
  let timer := station.timer + milliseconds * millisecond
  { station with
    timer
    tracker :=
      if station.due timer then station.tracker.sweep station.now else station.tracker }

/-- Observes a value with the clock as it is. -/
def observe (station : Station V) (series : Series) (time : Nat) (value : V) :
    Change V × Station V :=
  let (change, tracker) := station.tracker.observe station.now series time value
  (change, { station with tracker })

/-- Does one thing. -/
def act [Amount V] (station : Station V) : Action V → Answer V × Station V
  | .increase series time value =>
    let (change, station) := station.observe series time value
    (.amount change.increase?, station)
  | .rate series time value =>
    let (change, station) := station.observe series time value
    (.amount change.rate?, station)
  | .moved series time value =>
    let (change, station) := station.observe series time value
    (.flag change.moved, station)
  | .run plan =>
    let (outcome, tracker) := Plan.run station.now plan station.tracker
    (.outcome outcome, { station with tracker })
  | .knows series => (.flag (station.tracker.knows series), station)
  | .size => (.count station.tracker.size, station)
  | .isEmpty => (.flag (station.tracker.size == 0), station)
  | .sweep =>
    (.count (station.tracker.expired station.now),
      { station with tracker := station.tracker.sweep station.now })
  | .advance n => (.nothing, { station with clock := station.clock + UInt64.ofNat n })
  | .rewind n => (.nothing, { station with clock := station.clock - UInt64.ofNat n })
  | .spawn ticker =>
    -- without an interval the sweeper ends at once
    (.nothing, { station with sweeper := some ⟨ticker, station.timer, station.interval ≠ 0⟩ })
  | .sleep n => (.nothing, station.sleep n)
  | .stop =>
    (.nothing, { station with sweeper := station.sweeper.map ({ · with running := false }) })
  | .release => (.nothing, { station with sweeper := none })

/-- Does one thing after the other; gives each answer with the station after it. -/
def acts [Amount V] (station : Station V) : List (Action V) → List (Answer V × Station V)
  | [] => []
  | action :: rest =>
    let done := station.act action
    done :: done.2.acts rest

theorem sweep_sweep (tracker : Tracker V) (now : Nat) :
    (tracker.sweep now).sweep now = tracker.sweep now := by
  have h : ((tracker.sweep now).sweep now).entries = (tracker.sweep now).entries := by
    apply Table.ext
    simp [Tracker.sweep, Table.keep]
  simp only [Tracker.sweep] at h ⊢
  rw [h]

theorem tracker_sleep_of_not_running {station : Station V}
    (h : ∀ sweeper, station.sweeper = some sweeper → sweeper.running = false) (n : Nat) :
    (station.sleep n).tracker = station.tracker := by
  have hd (timer : Nat) : station.due timer = false := by
    unfold due
    cases hs : station.sweeper with
    | none => rfl
    | some sweeper => simp [h sweeper hs]
  simp [sleep, hd]

theorem decide_lt_of_le {a b c : Nat} (h₁ : a ≤ b) (h₂ : b ≤ c) :
    decide (a < c) = (decide (a < b) || decide (b < c)) := by
  rw [Bool.eq_iff_iff, Bool.or_eq_true, decide_eq_true_eq, decide_eq_true_eq, decide_eq_true_eq]
  omega

/-- Sleeping in two parts is sleeping at once. -/
theorem sleep_sleep (station : Station V) (m n : Nat) :
    (station.sleep m).sleep n = station.sleep (m + n) := by
  have e : station.timer + (m + n) * millisecond =
      station.timer + m * millisecond + n * millisecond := by
    rw [Nat.add_mul, Nat.add_assoc]
  have hd : station.due (station.timer + (m + n) * millisecond) =
      (station.due (station.timer + m * millisecond) ||
        (station.sleep m).due (station.timer + m * millisecond + n * millisecond)) := by
    rw [e]
    simp only [due, sleep]
    cases station.sweeper with
    | none => rfl
    | some sweeper =>
      have h₁ : sweeper.ticks station.interval station.timer ≤
          sweeper.ticks station.interval (station.timer + m * millisecond) :=
        sweeper.ticks_le_ticks _ (Nat.le_add_right _ _)
      have h₂ : sweeper.ticks station.interval (station.timer + m * millisecond) ≤
          sweeper.ticks station.interval
            (station.timer + m * millisecond + n * millisecond) :=
        sweeper.ticks_le_ticks _ (Nat.le_add_right _ _)
      rw [Option.any_some, Option.any_some, Option.any_some]
      cases sweeper.running with
      | false => rfl
      | true => exact decide_lt_of_le h₁ h₂
  have ht : ((station.sleep m).sleep n).tracker = (station.sleep (m + n)).tracker := by
    have ht₂ : ((station.sleep m).sleep n).tracker =
        if (station.sleep m).due (station.timer + m * millisecond + n * millisecond) then
          (station.sleep m).tracker.sweep station.now
        else (station.sleep m).tracker := rfl
    have ht₁ : (station.sleep m).tracker =
        if station.due (station.timer + m * millisecond) then station.tracker.sweep station.now
        else station.tracker := rfl
    have ht₃ : (station.sleep (m + n)).tracker =
        if station.due (station.timer + (m + n) * millisecond) then
          station.tracker.sweep station.now
        else station.tracker := rfl
    rw [ht₂, ht₁, ht₃, hd]
    cases station.due (station.timer + m * millisecond)
    · simp
    · simp [sweep_sweep]
  have heta (s t : Station V) (h₁ : s.tracker = t.tracker) (h₂ : s.clock = t.clock)
      (h₃ : s.timer = t.timer) (h₄ : s.interval = t.interval) (h₅ : s.sweeper = t.sweeper) :
      s = t := by
    cases s; cases t; cases h₁; cases h₂; cases h₃; cases h₄; cases h₅; rfl
  exact heta _ _ ht rfl e.symm rfl rfl

end Station

end MetricPoints
