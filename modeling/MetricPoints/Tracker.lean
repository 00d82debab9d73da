import MetricPoints.Amount
import MetricPoints.Series
import MetricPoints.Table

/-
  The tracker: the last accepted value of every cumulative series, which turns totals into
  increases. All times are in nanoseconds; the clock is read by the caller. Main statements: what
  a series finds after an observation of any series (`get?_observe`) and after a sweep
  (`get?_sweep`).
-/

namespace MetricPoints

variable {V : Type}

/-- What is known of one series: its last accepted value, the time of that value, and when the
series was last observed. -/
structure Entry (V : Type) where
  value : V
  time : Nat
  access : Nat
  deriving DecidableEq, Repr

/-- What an observation means. The first one is the baseline; one that is not newer than the last
accepted one is late and is ignored; any other is a step from the last value to the new one. -/
inductive Change (V : Type) where
  | baseline
  | late
  | step (previous current : V) (elapsed : Nat)
  deriving DecidableEq, Repr

namespace Change

variable [Amount V]

/-- What was added by a step. A total that has dropped was counted anew from zero. -/
def increase? : Change V → Option V
  | .step previous current _ =>
    some (if Amount.less current previous then current else Amount.minus current previous)
  | _ => none

/-- What was added by a step, for each second of it. -/
def rate? : Change V → Option V
  | change@(.step _ _ elapsed) => change.increase?.map (Amount.perSecond · elapsed)
  | _ => none

/-- Says whether the value is another one after a step. -/
def moved : Change V → Bool
  | .step previous current _ => Amount.differs current previous
  | _ => false

/-- Says whether the observation was ignored. -/
def isLate : Change V → Bool
  | .late => true
  | _ => false

end Change

/-- The last accepted values, and how long a series may stay idle. -/
structure Tracker (V : Type) where
  ttl : Nat
  entries : Table Series (Entry V)

namespace Tracker

/-- A tracker that knows no series. -/
def empty (ttl : Nat) : Tracker V := ⟨ttl, .empty⟩

/-- The number of series. -/
def size (tracker : Tracker V) : Nat := tracker.entries.size

/-- Says whether a series is known. -/
def knows (tracker : Tracker V) (series : Series) : Bool := tracker.entries.contains series

/-- What an observation means to an entry, if there is one. -/
def changeOf (known : Option (Entry V)) (time : Nat) (value : V) : Change V :=
  match known with
  | none => .baseline
  | some entry =>
    if time ≤ entry.time then .late else .step entry.value value (time - entry.time)

/-- The entry after an observation. A late one only counts as an access. -/
def entryAfter (now : Nat) (known : Option (Entry V)) (time : Nat) (value : V) : Entry V :=
  match known with
  | none => ⟨value, time, now⟩
  | some entry => if time ≤ entry.time then { entry with access := now } else ⟨value, time, now⟩

/-- Observes the value of a series at a time, while the clock reads `now`. -/
def observe (tracker : Tracker V) (now : Nat) (series : Series) (time : Nat) (value : V) :
    Change V × Tracker V :=
  let known := tracker.entries.get? series
  (changeOf known time value,
    { tracker with entries := tracker.entries.put series (entryAfter now known time value) })

/-- Says whether an entry may stay when the clock reads `now`. -/
def fresh (ttl now : Nat) (entry : Entry V) : Bool := now - entry.access ≤ ttl

/-- Forgets every series that has been idle for too long. -/
def sweep (tracker : Tracker V) (now : Nat) : Tracker V :=
  { tracker with entries := tracker.entries.keep fun _ entry => fresh tracker.ttl now entry }

/-- How many series a sweep would forget. -/
def expired (tracker : Tracker V) (now : Nat) : Nat := tracker.size - (tracker.sweep now).size

@[simp] theorem ttl_observe (tracker : Tracker V) (now : Nat) (series : Series) (time : Nat)
    (value : V) : (tracker.observe now series time value).2.ttl = tracker.ttl := rfl

@[simp] theorem ttl_sweep (tracker : Tracker V) (now : Nat) :
    (tracker.sweep now).ttl = tracker.ttl := rfl

theorem fst_observe (tracker : Tracker V) (now : Nat) (series : Series) (time : Nat) (value : V) :
    (tracker.observe now series time value).1 =
      changeOf (tracker.entries.get? series) time value := rfl

theorem get?_observe (tracker : Tracker V) (now : Nat) (series other : Series) (time : Nat)
    (value : V) :
    (tracker.observe now series time value).2.entries.get? other =
      if other = series then
        some (entryAfter now (tracker.entries.get? series) time value)
      else tracker.entries.get? other :=
  Table.get?_put _ _ _ _

theorem get?_sweep (tracker : Tracker V) (now : Nat) (series : Series) :
    (tracker.sweep now).entries.get? series =
      (tracker.entries.get? series).filter (fresh tracker.ttl now) :=
  Table.get?_keep _ _ _

theorem size_sweep_le (tracker : Tracker V) (now : Nat) :
    (tracker.sweep now).size ≤ tracker.size :=
  Table.size_keep_le _ _

theorem size_sweep_add_expired (tracker : Tracker V) (now : Nat) :
    (tracker.sweep now).size + tracker.expired now = tracker.size := by
  have := tracker.size_sweep_le now
  unfold expired
  omega

end Tracker

end MetricPoints
