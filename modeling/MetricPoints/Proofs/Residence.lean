import Mathlib.Data.Finset.Card
import Mathlib.Data.Set.Card
import MetricPoints.Proofs.Observed
import MetricPoints.Station

/-
  The history of a series at a station. Its residence is the list of observations made of it since
  a sweep last took it away; the first of the latest ones among them is its record. The entry of the
  tracker is the record of the residence (`keeps_residence`), whatever was observed of other series
  in between, late or not, and however often the series was taken away and came back. What one
  action does to an entry is said once (`known?_act_eq`): only a sweep takes entries away.

  Main statement: `observation_follows_residence`.
-/

namespace MetricPoints

variable {V : Type}

/-! ## The record of a list of observations -/

/-- `best` is the first of the latest observations in `held`. -/
def Record (held : List (Observation V)) (best : Observation V) : Prop :=
  ∃ before after, held = before ++ best :: after ∧ (∀ o ∈ before, o.time < best.time) ∧
    ∀ o ∈ after, o.time ≤ best.time

namespace Record

variable {held : List (Observation V)} {best o : Observation V}

theorem singleton (o : Observation V) : Record [o] o :=
  ⟨[], [], rfl, by simp, by simp⟩

theorem ne_nil (h : Record held best) : held ≠ [] := by
  obtain ⟨before, after, rfl, -, -⟩ := h
  simp

theorem time_le (h : Record held best) (ho : o ∈ held) : o.time ≤ best.time := by
  obtain ⟨before, after, rfl, hb, ha⟩ := h
  rcases List.mem_append.mp ho with ho | ho
  · exact Nat.le_of_lt (hb o ho)
  · rcases List.mem_cons.mp ho with rfl | ho
    · exact Nat.le_refl _
    · exact ha o ho

/-- An observation that is not newer leaves the record. -/
theorem append_of_le (h : Record held best) (hle : o.time ≤ best.time) :
    Record (held ++ [o]) best := by
  obtain ⟨before, after, rfl, hb, ha⟩ := h
  refine ⟨before, after ++ [o], by simp, hb, fun p hp => ?_⟩
  rcases List.mem_append.mp hp with hp | hp
  · exact ha p hp
  · rw [List.mem_singleton.mp hp]
    exact hle

/-- A newer observation is the record. -/
theorem append_of_lt (h : Record held best) (hlt : best.time < o.time) :
    Record (held ++ [o]) o :=
  ⟨held, [], rfl, fun _ hp => Nat.lt_of_le_of_lt (h.time_le hp) hlt, by simp⟩

end Record

/-- What is known of a series is the record of the observations that are held of it. -/
def Keeps (held : List (Observation V)) : Option (Entry V) → Prop
  | none => held = []
  | some entry => Record held ⟨entry.time, entry.value⟩

namespace Keeps

@[simp] theorem none_iff {held : List (Observation V)} : Keeps held none ↔ held = [] := Iff.rfl

@[simp] theorem some_iff {held : List (Observation V)} {entry : Entry V} :
    Keeps held (some entry) ↔ Record held ⟨entry.time, entry.value⟩ := Iff.rfl

theorem isSome_iff {held : List (Observation V)} {known : Option (Entry V)} (h : Keeps held known) :
    known.isSome = true ↔ held ≠ [] := by
  cases known with
  | none => simp [none_iff.mp h]
  | some entry => simpa using (some_iff.mp h).ne_nil

theorem snoc {held : List (Observation V)} {known : Option (Entry V)} (h : Keeps held known)
    (now : Nat) (o : Observation V) :
    Keeps (held ++ [o]) (some (Tracker.entryAfter now known o.time o.value)) := by
  cases known with
  | none =>
    rw [none_iff.mp h]
    exact Record.singleton o
  | some entry =>
    by_cases hle : o.time ≤ entry.time
    · simp only [Tracker.entryAfter, if_pos hle]
      exact Record.append_of_le h hle
    · simp only [Tracker.entryAfter, if_neg hle]
      exact Record.append_of_lt h (Nat.lt_of_not_le hle)

theorem append {held : List (Observation V)} {known : Option (Entry V)} (h : Keeps held known)
    (now : Nat) (observations : List (Observation V)) :
    Keeps (held ++ observations) (Tracker.entryOver now known observations) := by
  induction observations generalizing held known with
  | nil => simpa using h
  | cons o rest ih => simpa using ih (h.snoc now o)

end Keeps

/-- Only an observation of a series that is not held is a baseline. -/
theorem Keeps.changeOf_eq_baseline_iff {held : List (Observation V)} {known : Option (Entry V)}
    (h : Keeps held known) (time : Nat) (value : V) :
    Tracker.changeOf known time value = .baseline ↔ held = [] := by
  cases known with
  | none => simpa [Tracker.changeOf] using h
  | some entry =>
    have hne := (some_iff.mp h).ne_nil
    simp only [Tracker.changeOf]
    split <;> simpa using hne

/-- Any other observation is late, or it is a step from the record of what is held. -/
theorem Keeps.changeOf_record [Amount V] {held : List (Observation V)} {known : Option (Entry V)}
    (h : Keeps held known) (hne : held ≠ []) :
    ∃ best, Record held best ∧ ∀ (time : Nat) (value : V),
      let change := Tracker.changeOf known time value
      (change = .late ↔ time ≤ best.time) ∧
      (best.time < time →
        change = .step best.value value (time - best.time) ∧ 0 < time - best.time ∧
        change.increase? =
          some (if Amount.less value best.value then value
            else Amount.minus value best.value) ∧
        change.rate? = change.increase?.map (Amount.perSecond · (time - best.time))) := by
  cases known with
  | none => exact absurd (none_iff.mp h) hne
  | some entry =>
    refine ⟨_, some_iff.mp h, fun time value => ?_⟩
    by_cases hle : time ≤ entry.time
    · simp [Tracker.changeOf, hle]
    · have hlt := Nat.lt_of_not_le hle
      have hc : Tracker.changeOf (some entry) time value =
          .step entry.value value (time - entry.time) := if_neg hle
      rw [hc]
      exact ⟨by simp [hle], fun _ => ⟨rfl, Nat.sub_pos_of_lt hlt, rfl, rfl⟩⟩

/-! ## What an action does to one series -/

/-- The observations that an action makes of a series, in order. -/
def Action.observations (series : Series) : Action V → List (Observation V)
  | .increase other time value | .rate other time value | .moved other time value =>
    if other = series then [⟨time, value⟩] else []
  | .run plan => observationsOf series plan.samples
  | _ => []

namespace Station

variable [Amount V]

/-- The station once all actions are done. -/
def after (station : Station V) (actions : List (Action V)) : Station V :=
  ((station.acts actions).getLast?.map Prod.snd).getD station

theorem after_cons (station : Station V) (action : Action V) (rest : List (Action V)) :
    station.after (action :: rest) = (station.act action).2.after rest := by
  unfold after
  rw [acts]
  cases rest with
  | nil => rfl
  | cons next rest => rw [acts, List.getLast?_cons_cons, List.getLast?_cons]; rfl

theorem after_append (station : Station V) (actions more : List (Action V)) :
    station.after (actions ++ more) = (station.after actions).after more := by
  induction actions generalizing station with
  | nil => rfl
  | cons action rest ih => rw [List.cons_append, after_cons, ih, after_cons]

/-- What the tracker of a station knows of a series. -/
def known? (station : Station V) (series : Series) : Option (Entry V) :=
  station.tracker.entries.get? series

omit [Amount V] in
theorem knows_eq_isSome (station : Station V) (series : Series) :
    station.tracker.knows series = (station.known? series).isSome := rfl

omit [Amount V] in
theorem known?_observe (station : Station V) (other series : Series) (time : Nat) (value : V) :
    (station.observe other time value).2.known? series =
      Tracker.entryOver station.now (station.known? series)
        (if other = series then [⟨time, value⟩] else []) := by
  rw [known?, observe]
  dsimp only
  rw [Tracker.get?_observe]
  by_cases h : other = series
  · subst h
    rw [if_pos rfl, if_pos rfl]
    rfl
  · rw [if_neg (Ne.symm h), if_neg h]
    rfl

omit [Amount V] in
/-- A sweep keeps what is known of a series or drops it. -/
theorem known?_sweep (station : Station V) (now : Nat) (series : Series) :
    (station.tracker.sweep now).entries.get? series = station.known? series ∨
      (station.tracker.sweep now).entries.get? series = none := by
  rw [Tracker.get?_sweep]
  show (station.known? series).filter _ = _ ∨ (station.known? series).filter _ = none
  cases station.known? series with
  | none => exact .inl rfl
  | some entry =>
    rw [Option.filter_some]
    split
    · exact .inl rfl
    · exact .inr rfl

/-- Says whether an action sweeps: by hand, or by a tick of the sweeper while time passes. -/
def sweeps (station : Station V) : Action V → Bool
  | .sweep => true
  | .sleep n => station.due (station.timer + n * millisecond)
  | _ => false

omit [Amount V] in
/-- An action that sweeps observes nothing. -/
theorem observations_eq_nil_of_sweeps {station : Station V} {action : Action V}
    (h : station.sweeps action = true) (series : Series) : action.observations series = [] := by
  cases action with
  | sweep | sleep => rfl
  | _ => exact absurd h Bool.noConfusion

/-- An action takes up its observations of a series, and it drops an entry that is not fresh when
it sweeps. -/
theorem known?_act_eq (station : Station V) (action : Action V) (series : Series) :
    (station.act action).2.known? series =
      if station.sweeps action then
        (station.known? series).filter (Tracker.fresh station.tracker.ttl station.now)
      else
        Tracker.entryOver station.now (station.known? series) (action.observations series) := by
  cases action with
  | increase other time value => exact station.known?_observe other series time value
  | rate other time value => exact station.known?_observe other series time value
  | moved other time value => exact station.known?_observe other series time value
  | run plan =>
    show (Plan.run station.now plan station.tracker).2.entries.get? series = _
    rw [Plan.tracker_run, Tracker.get?_observeAll]
    rfl
  | sweep => exact Tracker.get?_sweep _ _ _
  | sleep n =>
    show (station.sleep n).tracker.entries.get? series = _
    unfold sleep sweeps
    dsimp only
    split
    · exact Tracker.get?_sweep _ _ _
    · rfl
  | knows other => rfl
  | size => rfl
  | isEmpty => rfl
  | advance n => rfl
  | rewind n => rfl
  | spawn ticker => rfl
  | stop => rfl
  | release => rfl

/-- Says whether an action makes the tracker forget a series. -/
def forgets (station : Station V) (action : Action V) (series : Series) : Bool :=
  station.tracker.knows series && !(station.act action).2.tracker.knows series

/-- Says whether an action is a sweep that takes a series away. -/
def evicts (station : Station V) (action : Action V) (series : Series) : Bool :=
  station.sweeps action && station.forgets action series

/-- Only sweeps make the tracker forget. -/
theorem sweeps_of_forgets {station : Station V} {action : Action V} {series : Series}
    (h : station.forgets action series = true) : station.sweeps action = true := by
  by_contra hs
  rw [forgets, knows_eq_isSome, knows_eq_isSome, known?_act_eq, if_neg hs] at h
  cases hk : station.known? series with
  | none => simp [hk] at h
  | some entry => simp [hk, Tracker.isSome_entryOver] at h

/-- The observations made of a series since a sweep last took it away, over a run of actions that
begins with `held`. -/
def residence (series : Series) (station : Station V) (held : List (Observation V)) :
    List (Action V) → List (Observation V)
  | [] => held
  | action :: rest =>
    residence series (station.act action).2
      (if station.evicts action series then [] else held ++ action.observations series) rest

theorem keeps_act {station : Station V} {held : List (Observation V)} {series : Series}
    (h : Keeps held (station.known? series)) (action : Action V) :
    Keeps (if station.evicts action series then [] else held ++ action.observations series)
      ((station.act action).2.known? series) := by
  by_cases hs : station.sweeps action = true
  · rw [evicts, forgets, hs, Bool.true_and, knows_eq_isSome, knows_eq_isSome, known?_act_eq,
      if_pos hs, observations_eq_nil_of_sweeps hs, List.append_nil]
    -- what a sweep drops it takes away, and what it keeps is as it was
    cases hk : station.known? series with
    | none => simpa [hk] using h
    | some entry =>
      rw [Option.filter_some]
      split
      · simpa [hk] using h
      · simp
  · rw [evicts, Bool.eq_false_iff.mpr hs, Bool.false_and, if_neg Bool.false_ne_true, known?_act_eq,
      if_neg hs]
    exact h.append station.now (action.observations series)

/-- What is known of a series is the record of its residence. -/
theorem keeps_residence {station : Station V} {held : List (Observation V)} {series : Series}
    (h : Keeps held (station.known? series)) (actions : List (Action V)) :
    Keeps (residence series station held actions) ((station.after actions).known? series) := by
  induction actions generalizing station held with
  | nil => exact h
  | cons action rest ih =>
    rw [after_cons]
    exact ih (keeps_act h action)

end Station

/-! ## One series alone -/

/-- What is left of an action when only one series counts. -/
def Action.only (series : Series) : Action V → Option (Action V)
  | .increase other time value =>
    if other = series then some (.increase other time value) else none
  | .rate other time value => if other = series then some (.rate other time value) else none
  | .moved other time value => if other = series then some (.moved other time value) else none
  | .run plan => some (.run ((plan.samples.filter (·.series = series)).map (.track .part)))
  | .knows _ | .size | .isEmpty => none
  | action => some action

namespace Station

/-- Two stations that differ at most in what their trackers know of other series. -/
structure AlikeFor (series : Series) (station other : Station V) : Prop where
  ttl : station.tracker.ttl = other.tracker.ttl
  clock : station.clock = other.clock
  timer : station.timer = other.timer
  interval : station.interval = other.interval
  sweeper : station.sweeper = other.sweeper
  entry : station.known? series = other.known? series

namespace AlikeFor

variable {series : Series} {station other : Station V}

theorem refl (series : Series) (station : Station V) : AlikeFor series station station :=
  ⟨rfl, rfl, rfl, rfl, rfl, rfl⟩

theorem now (h : AlikeFor series station other) : station.now = other.now := by
  rw [Station.now, h.clock, Station.now]

theorem due (h : AlikeFor series station other) (timer : Nat) :
    station.due timer = other.due timer := by
  rw [Station.due, h.sweeper, h.interval, h.timer, Station.due]

/-- Stations with the same clockwork are alike as soon as their entries are. -/
theorem withTracker (h : AlikeFor series station other) {tracker tracker' : Tracker V}
    (ht : tracker.ttl = tracker'.ttl)
    (he : tracker.entries.get? series = tracker'.entries.get? series) :
    AlikeFor series { station with tracker } { other with tracker := tracker' } :=
  ⟨ht, h.clock, h.timer, h.interval, h.sweeper, he⟩

theorem sweep (h : AlikeFor series station other) :
    (station.tracker.sweep station.now).entries.get? series =
      (other.tracker.sweep other.now).entries.get? series := by
  rw [Tracker.get?_sweep, Tracker.get?_sweep, h.ttl, h.now]
  exact congrArg _ h.entry

theorem observe (h : AlikeFor series station other) (time : Nat) (value : V) :
    AlikeFor series (station.observe series time value).2 (other.observe series time value).2 := by
  refine h.withTracker h.ttl ?_
  have hs := station.known?_observe series series time value
  have ho := other.known?_observe series series time value
  rw [h.now, h.entry, ← ho] at hs
  exact hs

/-- Observations of another series are not seen. -/
theorem observe_other (h : AlikeFor series station other) {third : Series} (hne : third ≠ series)
    (time : Nat) (value : V) : AlikeFor series (station.observe third time value).2 other := by
  refine h.withTracker h.ttl ?_
  have hs := station.known?_observe third series time value
  rw [if_neg hne] at hs
  exact hs.trans h.entry

end AlikeFor

variable [Amount V]

/-- The station after an action, if there is one. -/
def actIf (station : Station V) : Option (Action V) → Station V
  | none => station
  | some action => (station.act action).2

theorem AlikeFor.observeIf {series third : Series} {station other : Station V}
    (h : AlikeFor series station other) (time : Nat) (value : V) (action : Action V)
    (ha : (other.act action).2 = (other.observe third time value).2) :
    AlikeFor series (station.observe third time value).2
      (other.actIf (if third = series then some action else none)) := by
  by_cases he : third = series
  · subst he
    rw [if_pos rfl, actIf, ha]
    exact h.observe time value
  · rw [if_neg he]
    exact h.observe_other he time value

omit [Amount V] in
theorem samples_map_track (samples : List (Sample V)) :
    Plan.samples (samples.map (Step.track .part)) = samples := by
  induction samples with
  | nil => rfl
  | cons sample rest ih => rw [List.map_cons, Plan.samples_cons, ih]; rfl

theorem AlikeFor.act {series : Series} {station other : Station V}
    (h : AlikeFor series station other) (action : Action V) :
    AlikeFor series (station.act action).2 (other.actIf (action.only series)) := by
  cases action with
  | increase third time value => exact h.observeIf time value (.increase third time value) rfl
  | rate third time value => exact h.observeIf time value (.rate third time value) rfl
  | moved third time value => exact h.observeIf time value (.moved third time value) rfl
  | run plan =>
    refine h.withTracker ?_ ?_
    · rw [Plan.tracker_run, Plan.tracker_run, Tracker.ttl_observeAll, Tracker.ttl_observeAll, h.ttl]
    · rw [Plan.tracker_run, Plan.tracker_run, Tracker.get?_observeAll, Tracker.get?_observeAll,
        samples_map_track, h.now]
      have hf : observationsOf series (plan.samples.filter (·.series = series)) =
          observationsOf series plan.samples := by
        simp [observationsOf]
      rw [hf]
      exact congrArg (Tracker.entryOver other.now · _) h.entry
  | knows third => exact h
  | size => exact h
  | isEmpty => exact h
  | sweep => exact h.withTracker h.ttl h.sweep
  | advance n =>
    refine ⟨h.ttl, ?_, h.timer, h.interval, h.sweeper, h.entry⟩
    exact congrArg (· + UInt64.ofNat n) h.clock
  | rewind n =>
    refine ⟨h.ttl, ?_, h.timer, h.interval, h.sweeper, h.entry⟩
    exact congrArg (· - UInt64.ofNat n) h.clock
  | spawn ticker =>
    refine ⟨h.ttl, h.clock, h.timer, h.interval, ?_, h.entry⟩
    show some (Sweeper.mk _ _ _) = some (Sweeper.mk _ _ _)
    rw [h.timer, h.interval]
  | sleep n =>
    have ht : station.timer + n * millisecond = other.timer + n * millisecond := by rw [h.timer]
    refine ⟨?_, h.clock, ht, h.interval, h.sweeper, ?_⟩
    · show (if _ then _ else _ : Tracker V).ttl = (if _ then _ else _ : Tracker V).ttl
      rw [ht, h.due]
      split
      · exact h.ttl
      · exact h.ttl
    · show (if _ then _ else _ : Tracker V).entries.get? series =
        (if _ then _ else _ : Tracker V).entries.get? series
      rw [ht, h.due]
      split
      · exact h.sweep
      · exact h.entry
  | stop =>
    refine ⟨h.ttl, h.clock, h.timer, h.interval, ?_, h.entry⟩
    exact congrArg (Option.map _) h.sweeper
  | release => exact ⟨h.ttl, h.clock, h.timer, h.interval, rfl, h.entry⟩

/-- What other series do leaves no trace on a series. -/
theorem AlikeFor.after {series : Series} {station other : Station V}
    (h : AlikeFor series station other) (actions : List (Action V)) :
    AlikeFor series (station.after actions)
      (other.after (actions.filterMap (Action.only series))) := by
  induction actions generalizing station other with
  | nil => exact h
  | cons action rest ih =>
    rw [after_cons, List.filterMap_cons]
    have hn := h.act action
    split
    · rename_i ho
      rw [ho] at hn
      exact ih hn
    · rename_i left ho
      rw [ho] at hn
      rw [after_cons]
      exact ih hn

/-! ## Observations and residences -/

omit [Amount V] in
theorem size_eq_ncard (tracker : Tracker V) :
    tracker.size = {series | tracker.knows series = true}.ncard := by
  have hk : {series | tracker.knows series = true} =
      ((tracker.entries.toList.map Prod.fst).toFinset : Set Series) := by
    ext series
    show tracker.entries.contains series = true ↔ _
    simpa using Table.contains_iff_mem_keys
  rw [hk, Set.ncard_coe_finset, List.toFinset_card_of_nodup tracker.entries.nodup, List.length_map]
  rfl

/-- After any run of actions from an empty tracker, the tracker knows exactly the series with a
residence, and that many; only sweeps make it forget. An observation of a series means what the
record of its residence says: the first one is the baseline, one that is not newer than the record
is late, and any other is a step from the record over a time that is positive. The other series play
no part in it. -/
theorem observation_follows_residence (ttl interval : Nat) (actions : List (Action V)) :
    let start : Station V := .new ttl interval
    let station := start.after actions
    let held := fun series => residence series start [] actions
    (∀ series, station.tracker.knows series = true ↔ held series ≠ []) ∧
    (station.act .size).1 = .count {series | held series ≠ []}.ncard ∧
    (∀ action series, station.forgets action series = true → station.sweeps action = true) ∧
    ∀ series,
      (∀ time value, (station.observe series time value).1 = .baseline ↔ held series = []) ∧
      (held series ≠ [] → ∃ best, Record (held series) best ∧ ∀ time value,
        let change := (station.observe series time value).1
        (change = .late ↔ time ≤ best.time) ∧
        (best.time < time →
          change = .step best.value value (time - best.time) ∧ 0 < time - best.time ∧
          change.increase? =
            some (if Amount.less value best.value then value
              else Amount.minus value best.value) ∧
          change.rate? =
            change.increase?.map (Amount.perSecond · (time - best.time)))) ∧
      let alone := start.after (actions.filterMap (Action.only series))
      alone.tracker.knows series = station.tracker.knows series ∧
      ∀ time value,
        (alone.observe series time value).1 = (station.observe series time value).1 := by
  intro start station held
  have keeps (series : Series) : Keeps (held series) (station.known? series) :=
    keeps_residence (show Keeps [] (start.known? series) from rfl) actions
  have known (series : Series) : station.tracker.knows series = true ↔ held series ≠ [] := by
    rw [knows_eq_isSome]
    exact (keeps series).isSome_iff
  have hsize : station.tracker.size = {series | held series ≠ []}.ncard := by
    rw [size_eq_ncard]
    simp only [known]
  refine ⟨known, congrArg Answer.count hsize, fun _ _ => sweeps_of_forgets,
    fun series => ⟨?_, ?_, ?_⟩⟩
  · exact (keeps series).changeOf_eq_baseline_iff
  · exact (keeps series).changeOf_record
  · have h := (AlikeFor.refl series start).after actions
    refine ⟨?_, fun time value => ?_⟩
    · rw [knows_eq_isSome, knows_eq_isSome, h.entry]
    · exact congrArg (Tracker.changeOf · time value) h.entry.symm

end Station

end MetricPoints
