import MetricPoints.Proofs.Expiry

/-
  Sweepers at work. The clock of a station is set by hand and its timer runs while someone sleeps;
  here both go together, so that idle times can be compared with the time from one tick to the next.
  The invariant (`Tended`) names a moment on the timer since which there was no tick: no series has
  been idle for longer than the lifetime and the time since that moment, which is less than the
  interval (`sub_lt_of_ticks_eq`). The moment moves on to the present with every tick, since the
  tick sweeps with the clock as it then is.

  Main statement: `sweeper_bounds_idle_time`.
-/

namespace MetricPoints

variable {V : Type}

namespace Action

/-- Says whether an action works on the tracker alone. -/
def operates : Action V → Bool
  | increase _ _ _ | rate _ _ _ | moved _ _ _ | run _ | knows _ | size | isEmpty | sweep => true
  | advance _ | rewind _ | spawn _ | sleep _ | stop | release => false

/-- Says whether an action starts a sweeper. -/
def spawns : Action V → Bool
  | spawn _ => true
  | _ => false

/-- Says whether an action ends the sweeper: it is told to stop, or nobody holds it any more. -/
def ends : Action V → Bool
  | stop | release => true
  | _ => false

end Action

/-- What happens while clock and timer go together: something is done with the tracker, or time
passes for both. -/
inductive Stretch (V : Type) where
  | operate (action : Action V) (operates : action.operates = true)
  | pass (milliseconds : Nat)

/-- The actions of a stretch: the clock is set on by as much as one then sleeps. -/
def Stretch.actions : Stretch V → List (Action V)
  | operate action _ => [action]
  | pass n => [.advance (n * millisecond), .sleep n]

namespace Station

/-! ## Ticks and readings -/

/-- Between two moments without a tick lies less than an interval, also before the first tick. -/
theorem sub_lt_of_ticks_eq {interval last timer : Nat} {sweeper : Sweeper}
    (hregular : sweeper.ticker.Regular) (hpos : 0 < interval) (hstart : sweeper.start ≤ last)
    (hle : last ≤ timer) (h : sweeper.ticks interval last = sweeper.ticks interval timer) :
    timer - last < interval := by
  by_contra hlong
  have hmore : last - sweeper.start + interval ≤ timer - sweeper.start := by omega
  have hticks : sweeper.ticks interval last + 1 ≤ sweeper.ticks interval timer := by
    unfold Sweeper.ticks
    rw [hregular.ticks_eq hpos, hregular.ticks_eq hpos, ← Nat.add_div_right _ hpos]
    exact Nat.div_le_div_right hmore
  omega

variable [Amount V] {station : Station V} {series : Series} {a : Nat}

/-- The clock never reads more than what it was set on by, since it may wrap. -/
theorem now_advance_le (station : Station V) (n : Nat) :
    (station.act (.advance n)).2.now ≤ station.now + n := by
  show (station.clock + UInt64.ofNat n).toNat ≤ station.clock.toNat + n
  rw [UInt64.toNat_add, UInt64.toNat_ofNat']
  have := Nat.mod_le (station.clock.toNat + n % 2 ^ 64) (2 ^ 64)
  have := Nat.mod_le n (2 ^ 64)
  omega

/-- A series that is known after an action was observed by it, or was known before and has not been
idle for too long if the action swept. -/
theorem access?_of_act {action : Action V} (h : (station.act action).2.access? series = some a) :
    a = station.now ∨
      station.access? series = some a ∧
        (station.sweeps action = true → station.now - a ≤ station.tracker.ttl) := by
  rw [access?_act] at h
  unfold moment? at h
  split at h
  · exact .inl (Option.some.inj h).symm
  · split at h
    · simp only [Option.toList_some, List.foldl_cons, List.foldl_nil, accessAfter,
        Option.filter_eq_some_iff, decide_eq_true_eq] at h
      exact .inr ⟨h.1, fun _ => h.2⟩
    · rename_i hsweeps
      exact .inr ⟨h, fun hs => absurd hs hsweeps⟩

/-- A series that an action makes the tracker forget has been idle for too long. -/
theorem lt_idle_of_forgotten {action : Action V} (ha : station.access? series = some a)
    (h : (station.act action).2.tracker.knows series = false) :
    station.tracker.ttl < station.now - a := by
  have hnone : (station.act action).2.access? series = none := by
    rw [knows_eq_isSome, Option.isSome_eq_false_iff, Option.isNone_iff_eq_none] at h
    exact congrArg (Option.map Entry.access) h
  rw [access?_act, ha] at hnone
  unfold moment? at hnone
  split at hnone
  · exact absurd hnone (Option.some_ne_none _)
  · split at hnone
    · have hlong : ¬ station.now - a ≤ station.tracker.ttl := by
        simpa only [Option.toList_some, List.foldl_cons, List.foldl_nil, accessAfter,
          Option.filter_eq_none_iff, Option.some.injEq, forall_eq', decide_eq_true_eq] using hnone
      exact Nat.lt_of_not_le hlong
    · exact absurd hnone (Option.some_ne_none _)

theorem ttl_after (station : Station V) (actions : List (Action V)) :
    (station.after actions).tracker.ttl = station.tracker.ttl := by
  induction actions generalizing station with
  | nil => rfl
  | cons action rest ih => rw [after_cons, ih, ttl_act]

/-! ## A sweeper at work -/

/-- A station with a running sweeper, as the ticks of the sweeper leave it: since some moment on the
timer there was no tick, and no series has been idle for longer than the lifetime and the time since
that moment. -/
structure Tended (ttl interval : Nat) (sweeper : Sweeper) (station : Station V) : Prop where
  ttl_eq : station.tracker.ttl = ttl
  interval_eq : station.interval = interval
  sweeper_eq : station.sweeper = some sweeper
  running : sweeper.running = true
  idle : ∃ last, sweeper.start ≤ last ∧ last ≤ station.timer ∧
    sweeper.ticks interval last = sweeper.ticks interval station.timer ∧
    ∀ series a, station.access? series = some a →
      station.now - a ≤ ttl + (station.timer - last)

namespace Tended

variable {ttl interval : Nat} {sweeper : Sweeper}

omit [Amount V] in
/-- Less than an interval has passed since the last tick. -/
theorem idle_le (h : Tended ttl interval sweeper station) (hregular : sweeper.ticker.Regular)
    (hpos : 0 < interval) (ha : station.access? series = some a) :
    station.now - a ≤ ttl + interval := by
  obtain ⟨last, hstart, hle, hticks, hidle⟩ := h.idle
  have hlt := sub_lt_of_ticks_eq hregular hpos hstart hle hticks
  exact Nat.le_trans (hidle series a ha) (Nat.add_le_add_left (Nat.le_of_lt hlt) _)

/-- An empty tracker is tended from the start of its sweeper. -/
theorem spawn {cache : Station V} (hempty : cache.tracker.size = 0) (hpos : 0 < cache.interval)
    (ticker : Ticker) :
    Tended cache.tracker.ttl cache.interval ⟨ticker, cache.timer, true⟩
      (cache.act (.spawn ticker)).2 where
  ttl_eq := rfl
  interval_eq := rfl
  sweeper_eq := by
    show some (Sweeper.mk _ _ _) = some (Sweeper.mk _ _ _)
    rw [decide_eq_true (Nat.pos_iff_ne_zero.mp hpos)]
  running := rfl
  idle := by
    refine ⟨cache.timer, Nat.le_refl _, Nat.le_refl _, rfl, fun series a ha => ?_⟩
    have hnil : cache.tracker.entries.toList = [] := List.eq_nil_of_length_eq_zero hempty
    have hnone : (cache.act (.spawn ticker)).2.access? series = none := by
      show Option.map _ (Table.findIn series cache.tracker.entries.toList) = none
      rw [hnil]
      rfl
    exact nomatch hnone.symm.trans ha

/-- What is done with the tracker neither moves the clock nor the timer. -/
theorem operate (h : Tended ttl interval sweeper station) {action : Action V}
    (ho : action.operates = true) : Tended ttl interval sweeper (station.act action).2 := by
  have hkept : (station.act action).2.interval = station.interval ∧
      (station.act action).2.sweeper = station.sweeper ∧
      (station.act action).2.timer = station.timer ∧
      (station.act action).2.now = station.now := by
    cases action with
    | increase | rate | moved | run | knows | size | isEmpty | sweep => exact ⟨rfl, rfl, rfl, rfl⟩
    | advance | rewind | spawn | sleep | stop | release => exact nomatch ho
  obtain ⟨hinterval, hsweeper, htimer, hnow⟩ := hkept
  obtain ⟨last, hstart, hle, hticks, hidle⟩ := h.idle
  refine ⟨(ttl_act _ _).trans h.ttl_eq, hinterval.trans h.interval_eq, hsweeper.trans h.sweeper_eq,
    h.running, last, hstart, htimer ▸ hle, htimer ▸ hticks, fun series a ha => ?_⟩
  rw [hnow, htimer]
  rcases access?_of_act ha with rfl | ⟨ha, -⟩
  · omega
  · exact hidle series a ha

/-- Sleeping sweeps if a tick is due, whatever the clock was set to before. -/
theorem sweeps_sleep (h : Tended ttl interval sweeper station) (m n : Nat) :
    (station.act (.advance m)).2.sweeps (.sleep n) =
      decide (sweeper.ticks interval station.timer <
        sweeper.ticks interval (station.timer + n * millisecond)) := by
  show station.sweeper.any (fun sweeper => sweeper.running &&
    decide (sweeper.ticks station.interval station.timer <
      sweeper.ticks station.interval (station.timer + n * millisecond))) = _
  rw [h.sweeper_eq, h.interval_eq, Option.any_some, h.running, Bool.true_and]

/-- A series that is known after a while was known before, and not idle for too long if there was a
tick. -/
theorem access?_of_pass (h : Tended ttl interval sweeper station) {m n : Nat}
    (ha : ((station.act (.advance m)).2.act (.sleep n)).2.access? series = some a) :
    a = (station.act (.advance m)).2.now ∨ station.access? series = some a ∧
      (sweeper.ticks interval station.timer <
          sweeper.ticks interval (station.timer + n * millisecond) →
        (station.act (.advance m)).2.now - a ≤ ttl) := by
  refine (access?_of_act ha).imp_right fun ⟨ha, hfresh⟩ => ⟨ha, fun hdue => ?_⟩
  exact h.ttl_eq ▸ hfresh ((h.sweeps_sleep m n).trans (decide_eq_true hdue))

/-- A tick takes away what has been idle for too long; without one, idle times grow as the time
since the last tick does. -/
theorem pass (h : Tended ttl interval sweeper station) {m n : Nat} (hm : m = n * millisecond) :
    Tended ttl interval sweeper ((station.act (.advance m)).2.act (.sleep n)).2 := by
  have hnow := now_advance_le station m
  obtain ⟨last, hstart, hle, hticks, hidle⟩ := h.idle
  have hlater : station.timer ≤ station.timer + n * millisecond := Nat.le_add_right _ _
  refine ⟨(ttl_act _ _).trans ((ttl_act _ _).trans h.ttl_eq), h.interval_eq, h.sweeper_eq,
    h.running, ?_⟩
  by_cases hs : sweeper.ticks interval station.timer <
      sweeper.ticks interval (station.timer + n * millisecond)
  · refine ⟨station.timer + n * millisecond, by omega, Nat.le_refl _, rfl, fun series a ha => ?_⟩
    show (station.act (.advance m)).2.now - a ≤ _
    rcases h.access?_of_pass ha with rfl | ⟨-, hfresh⟩
    · omega
    · exact Nat.le_trans (hfresh hs) (Nat.le_add_right _ _)
  · have hsame : sweeper.ticks interval station.timer =
        sweeper.ticks interval (station.timer + n * millisecond) :=
      Nat.le_antisymm (sweeper.ticks_le_ticks _ hlater) (Nat.le_of_not_lt hs)
    refine ⟨last, hstart, Nat.le_trans hle hlater, hticks.trans hsame, fun series a ha => ?_⟩
    show (station.act (.advance m)).2.now - a ≤ ttl + (station.timer + n * millisecond - last)
    rw [← hm]
    rcases h.access?_of_pass ha with rfl | ⟨ha, -⟩
    · omega
    · have := hidle series a ha
      omega

theorem stretch (h : Tended ttl interval sweeper station) (stretch : Stretch V) :
    Tended ttl interval sweeper (station.after stretch.actions) := by
  cases stretch with
  | operate action operates => exact h.operate operates
  | pass n => exact h.pass rfl

theorem after (h : Tended ttl interval sweeper station) (stretches : List (Stretch V)) :
    Tended ttl interval sweeper (station.after (stretches.flatMap Stretch.actions)) := by
  induction stretches generalizing station with
  | nil => exact h
  | cons stretch rest ih =>
    rw [List.flatMap_cons, after_append]
    exact ih (h.stretch stretch)

end Tended

/-! ## A sweeper that has ended -/

/-- Says whether a sweeper still ticks. -/
def ticking (station : Station V) : Bool := station.sweeper.any Sweeper.running

omit [Amount V] in
/-- Without a sweeper that ticks, sleeping forgets nothing. -/
theorem tracker_sleep_of_not_ticking (h : station.ticking = false) (n : Nat) :
    (station.sleep n).tracker = station.tracker := by
  refine tracker_sleep_of_not_running (fun sweeper hs => ?_) n
  rwa [ticking, hs] at h

theorem ticking_act_of_ends {action : Action V} (h : action.ends = true) :
    (station.act action).2.ticking = false := by
  cases action with
  | stop =>
    show (station.sweeper.map _).any _ = false
    cases station.sweeper <;> rfl
  | release => rfl
  | _ => exact nomatch h

/-- A sweeper that has ended does not tick again; another one has to be started. -/
theorem ticking_act_of_not_spawns (h : station.ticking = false) {action : Action V}
    (hs : action.spawns = false) : (station.act action).2.ticking = false := by
  cases action with
  | spawn => exact nomatch hs
  | stop => exact ticking_act_of_ends rfl
  | release => rfl
  | _ => exact h

theorem ticking_after (h : station.ticking = false) {actions : List (Action V)}
    (hs : ∀ action ∈ actions, action.spawns = false) :
    (station.after actions).ticking = false := by
  induction actions generalizing station with
  | nil => exact h
  | cons action rest ih =>
    obtain ⟨hfirst, hrest⟩ := List.forall_mem_cons.mp hs
    rw [after_cons]
    exact ih (ticking_act_of_not_spawns h hfirst) hrest

/-- Let a sweeper be started beside an empty tracker, with any interval, on a timer that ticks one,
two, three intervals later, and so on. As long as clock and timer go together, no series stays known
that has been idle for longer than the lifetime and one interval, whatever is done with the tracker
meanwhile; and no action at all, on whatever clock, forgets a series that has been idle for the
lifetime or less. While the clock stands still, sleeping in two parts is sleeping at once. Once the
sweeper was told to stop or was given up, sleeping forgets nothing any more, until another one is
started. -/
theorem sweeper_bounds_idle_time {cache : Station V} {ticker : Ticker}
    (hempty : cache.tracker.size = 0) (hpos : 0 < cache.interval) (hregular : ticker.Regular) :
    let start := (cache.act (.spawn ticker)).2
    (∀ stretches : List (Stretch V),
      let station := start.after (stretches.flatMap Stretch.actions)
      ∀ series a, station.access? series = some a →
        station.now - a ≤ cache.tracker.ttl + cache.interval) ∧
    (∀ actions action,
      let station := start.after actions
      ∀ series a, station.access? series = some a →
        (station.act action).2.tracker.knows series = false →
        cache.tracker.ttl < station.now - a) ∧
    (∀ actions m n,
      let station := start.after actions
      (station.sleep m).sleep n = station.sleep (m + n)) ∧
    ∀ actions ending later n, ending.ends = true → (∀ action ∈ later, action.spawns = false) →
      let station := start.after (actions ++ ending :: later)
      (station.sleep n).tracker = station.tracker := by
  intro start
  refine ⟨?_, ?_, ?_, ?_⟩
  · intro stretches station series a ha
    exact ((Tended.spawn hempty hpos ticker).after stretches).idle_le hregular hpos ha
  · intro actions action station series a ha hn
    have httl : station.tracker.ttl = cache.tracker.ttl := ttl_after start actions
    exact httl ▸ lt_idle_of_forgotten ha hn
  · intro actions m n
    exact sleep_sleep _ m n
  · intro actions ending later n hends hlater station
    have hstopped : station.ticking = false := by
      show (start.after (actions ++ ending :: later)).ticking = false
      rw [after_append, after_cons]
      exact ticking_after (ticking_act_of_ends hends) hlater
    exact tracker_sleep_of_not_ticking hstopped n

/-- Two observations of a series while fourteen milliseconds pass in uneven stretches. -/
def unevenStretches : List (Stretch Rat) :=
  [.operate (.increase requests 1 5) rfl, .pass 3, .operate (.rate requests 2 9) rfl, .pass 7,
    .pass 4]

/-- With a lifetime of ten milliseconds and a tick every five, the series is still known after
eleven idle ones, and the next tick takes it away. -/
theorem idle_after_unevenStretches :
    let cache : Station Rat := .new (10 * millisecond) (5 * millisecond)
    let start := (cache.act (.spawn .regular)).2
    let station := start.after (unevenStretches.flatMap Stretch.actions)
    let ahead := start.after (unevenStretches.flatMap Stretch.actions ++ [.advance millisecond])
    cache.tracker.size = 0 ∧ 0 < cache.interval ∧ Ticker.regular.Regular ∧
      station.access? requests = some (3 * millisecond) ∧
      station.now - 3 * millisecond = 11 * millisecond ∧
      station.now - 3 * millisecond ≤ 10 * millisecond + 5 * millisecond ∧
      (ahead.act (.sleep 1)).2.tracker.knows requests = false ∧
      10 * millisecond < ahead.now - 3 * millisecond := by
  intro cache start station ahead
  have hempty : cache.tracker.size = 0 := rfl
  have hpos : 0 < cache.interval := by decide
  have ha : station.access? requests = some (3 * millisecond) := by decide +kernel
  have ha' : ahead.access? requests = some (3 * millisecond) := by decide +kernel
  have hn : (ahead.act (.sleep 1)).2.tracker.knows requests = false := by decide +kernel
  obtain ⟨hidle, hforgotten, -, -⟩ :=
    sweeper_bounds_idle_time hempty hpos Ticker.regular_regular
  exact ⟨hempty, hpos, Ticker.regular_regular, ha, by decide +kernel,
    hidle unevenStretches requests _ ha, hn, hforgotten _ _ requests _ ha' hn⟩

end Station

end MetricPoints
