import Mathlib.Data.List.Chain
import MetricPoints.Proofs.Residence

/-
  When a series is forgotten. Of all that happens at a station only two kinds of moments matter to
  a series: its observations, late ones too, and the sweeps, each with the reading of the clock at
  that time (`timeline`). The last access of a series is a fold over its timeline
  (`access?_after`), so that the series is known exactly when it was observed and no sweep since
  the last observation read the clock more than the lifetime later (`lastAccess_eq_some_iff`),
  wherever the clock was set in between.

  Main statement: `expires_after_last_access`. Observations at readings that are close to each
  other do not keep a series by themselves, since the clock can be set ahead, swept at, and set
  back between the two (`forgotten_between_close_observations`); they do when the clock is never set
  back (`NeverSetBack.onward`).
-/

namespace MetricPoints

variable {V : Type}

/-- What matters to the life of a series, with the reading of the clock at that moment. -/
inductive Moment where
  | observed (reading : Nat)
  | swept (reading : Nat)
  deriving DecidableEq, Repr

namespace Moment

/-- The reading at an observation. -/
def observation? : Moment → Option Nat
  | observed reading => some reading
  | swept _ => none

end Moment

/-- The last access of a series after a moment. A sweep drops one that is too long ago. -/
def accessAfter (ttl : Nat) (access : Option Nat) : Moment → Option Nat
  | .observed reading => some reading
  | .swept reading => access.filter fun last => reading - last ≤ ttl

/-- The last access of a series that was unknown before its timeline. -/
def lastAccess (ttl : Nat) (timeline : List Moment) : Option Nat :=
  timeline.foldl (accessAfter ttl) none

theorem lastAccess_append_singleton (ttl : Nat) (timeline : List Moment) (moment : Moment) :
    lastAccess ttl (timeline ++ [moment]) = accessAfter ttl (lastAccess ttl timeline) moment := by
  simp [lastAccess]

theorem eq_of_append_observed {timeline before : List Moment} {b a : Nat} {sweeps : List Nat}
    (h : timeline ++ [.observed b] = before ++ .observed a :: sweeps.map .swept) : b = a := by
  rcases sweeps.eq_nil_or_concat with rfl | ⟨earlier, s, rfl⟩
  · exact Moment.observed.inj (List.cons.inj (List.append_inj_right' h rfl)).1
  · rw [List.concat_eq_append, List.map_append, ← List.cons_append, ← List.append_assoc] at h
    exact absurd (List.append_inj_right' h rfl) (by simp)

theorem eq_of_append_swept {timeline before : List Moment} {s a : Nat} {sweeps : List Nat}
    (h : timeline ++ [.swept s] = before ++ .observed a :: sweeps.map .swept) :
    ∃ earlier, sweeps = earlier ++ [s] ∧
      timeline = before ++ .observed a :: earlier.map .swept := by
  rcases sweeps.eq_nil_or_concat with rfl | ⟨earlier, r, rfl⟩
  · exact absurd (List.append_inj_right' h rfl) (by simp)
  · rw [List.concat_eq_append, List.map_append, ← List.cons_append, ← List.append_assoc] at h
    have hr : s = r := Moment.swept.inj (List.cons.inj (List.append_inj_right' h rfl)).1
    exact ⟨earlier, hr ▸ List.concat_eq_append, List.append_inj_left' h rfl⟩

/-- The last access is the last observation, as long as no sweep since then came too late for it. -/
theorem lastAccess_eq_some_iff {ttl : Nat} {timeline : List Moment} {a : Nat} :
    lastAccess ttl timeline = some a ↔
      ∃ before, ∃ sweeps : List Nat, timeline = before ++ .observed a :: sweeps.map .swept ∧
        ∀ s ∈ sweeps, s - a ≤ ttl := by
  induction timeline using List.reverseRecOn with
  | nil => simp [lastAccess]
  | append_singleton timeline moment ih =>
    rw [lastAccess_append_singleton]
    cases moment with
    | observed b =>
      constructor
      · intro h
        exact ⟨timeline, [], by rw [Option.some.inj h]; rfl, by simp⟩
      · rintro ⟨before, sweeps, h, -⟩
        rw [eq_of_append_observed h]
        rfl
    | swept s =>
      rw [accessAfter, Option.filter_eq_some_iff, ih]
      constructor
      · rintro ⟨⟨before, sweeps, rfl, hs⟩, hlast⟩
        refine ⟨before, sweeps ++ [s], by simp, fun r hr => ?_⟩
        rcases List.mem_append.mp hr with hr | hr
        · exact hs r hr
        · rw [List.mem_singleton.mp hr]
          simpa using hlast
      · rintro ⟨before, sweeps, h, hs⟩
        obtain ⟨earlier, rfl, ht⟩ := eq_of_append_swept h
        refine ⟨⟨before, earlier, ht, fun r hr => hs r (List.mem_append_left _ hr)⟩, ?_⟩
        simpa using hs s (List.mem_append_right _ List.mem_cons_self)

/-- A timeline with an observation has a last one. -/
theorem exists_last_observation {timeline : List Moment} {a : Nat} (h : .observed a ∈ timeline) :
    ∃ before last, ∃ sweeps : List Nat,
      timeline = before ++ .observed last :: sweeps.map .swept := by
  induction timeline using List.reverseRecOn with
  | nil => exact absurd h List.not_mem_nil
  | append_singleton timeline moment ih =>
    cases moment with
    | observed b => exact ⟨timeline, b, [], rfl⟩
    | swept s =>
      have hm : .observed a ∈ timeline := by simpa using h
      obtain ⟨before, last, sweeps, rfl⟩ := ih hm
      exact ⟨before, last, sweeps ++ [s], by simp⟩

/-- And a first one. -/
theorem exists_first_observation {timeline : List Moment} {a : Nat} (h : .observed a ∈ timeline) :
    ∃ sweeps : List Nat, ∃ first after,
      timeline = sweeps.map .swept ++ .observed first :: after := by
  induction timeline with
  | nil => exact absurd h List.not_mem_nil
  | cons moment timeline ih =>
    cases moment with
    | observed b => exact ⟨[], b, timeline, rfl⟩
    | swept s =>
      have hm : .observed a ∈ timeline := by simpa using h
      obtain ⟨sweeps, first, after, rfl⟩ := ih hm
      exact ⟨s :: sweeps, first, after, rfl⟩

/-- The readings at the observations of a timeline. -/
def observationReadings (timeline : List Moment) : List Nat :=
  timeline.filterMap Moment.observation?

theorem observationReadings_sweeps (sweeps : List Nat) :
    observationReadings (sweeps.map .swept) = [] := by
  induction sweeps with
  | nil => rfl
  | cons s sweeps ih => exact ih

/-- Consecutive observations are never further apart than the lifetime. -/
def Close (ttl : Nat) (timeline : List Moment) : Prop :=
  (observationReadings timeline).IsChain fun a b => b - a ≤ ttl

instance (ttl : Nat) (timeline : List Moment) : Decidable (Close ttl timeline) :=
  inferInstanceAs (Decidable (List.IsChain _ _))

theorem Close.sub_le {ttl a b : Nat} {before after : List Moment} {sweeps : List Nat}
    (h : Close ttl (before ++ .observed a :: (sweeps.map .swept ++ .observed b :: after))) :
    b - a ≤ ttl := by
  have hr : observationReadings
        (before ++ .observed a :: (sweeps.map .swept ++ .observed b :: after)) =
      observationReadings before ++ a :: b :: observationReadings after := by
    have hs := observationReadings_sweeps sweeps
    unfold observationReadings at hs ⊢
    simp [hs, List.filterMap_append, Moment.observation?]
  rw [Close, hr, List.isChain_append_cons_cons] at h
  exact h.2.1

/-- No sweep reads the clock ahead of its reading at the next observation, as when the clock is
never set back. -/
def Onward : List Moment → Prop
  | [] => True
  | .observed _ :: rest => Onward rest
  | .swept s :: rest => (∀ b ∈ (observationReadings rest).head?, s ≤ b) ∧ Onward rest

instance decidableOnward : (timeline : List Moment) → Decidable (Onward timeline)
  | [] => inferInstanceAs (Decidable True)
  | .observed _ :: rest => decidableOnward rest
  | .swept _ :: rest =>
    have := decidableOnward rest
    inferInstanceAs (Decidable (_ ∧ _))

theorem Onward.of_append {before timeline : List Moment} (h : Onward (before ++ timeline)) :
    Onward timeline := by
  induction before with
  | nil => exact h
  | cons moment before ih =>
    cases moment with
    | observed a => exact ih h
    | swept s => exact ih h.2

theorem Onward.le {b : Nat} {sweeps : List Nat} {after : List Moment}
    (h : Onward (sweeps.map .swept ++ .observed b :: after)) : ∀ s ∈ sweeps, s ≤ b := by
  induction sweeps with
  | nil => simp
  | cons s sweeps ih =>
    have hb : (observationReadings (sweeps.map .swept ++ .observed b :: after)).head? = some b := by
      have hs := observationReadings_sweeps sweeps
      unfold observationReadings at hs ⊢
      rw [List.filterMap_append, hs]
      rfl
    exact List.forall_mem_cons.mpr ⟨h.1 b hb, ih h.2⟩

/-- A series whose observations are close to each other, on a clock that goes onward, is not
dropped between two of them. -/
theorem lastAccess_ne_none {ttl a b : Nat} {done rest : List Moment}
    (hc : Close ttl (done ++ rest)) (ho : Onward (done ++ rest)) (ha : .observed a ∈ done)
    (hb : .observed b ∈ rest) : ∃ last, lastAccess ttl done = some last := by
  obtain ⟨before, last, sweeps, rfl⟩ := exists_last_observation ha
  obtain ⟨more, next, after, rfl⟩ := exists_first_observation hb
  have hsplit : before ++ .observed last :: sweeps.map .swept ++
        (more.map .swept ++ .observed next :: after) =
      before ++ .observed last :: ((sweeps ++ more).map .swept ++ .observed next :: after) := by
    simp
  rw [hsplit] at hc ho
  have hgap : next - last ≤ ttl := hc.sub_le
  have honward : Onward (.observed last :: ((sweeps ++ more).map .swept ++
      .observed next :: after)) := ho.of_append
  have hle : ∀ s ∈ sweeps ++ more, s ≤ next := Onward.le honward
  refine ⟨last, lastAccess_eq_some_iff.mpr ⟨before, sweeps, rfl, fun s hs => ?_⟩⟩
  have := hle s (List.mem_append_left _ hs)
  omega

namespace Station

variable [Amount V]

/-- What an action is to a series. -/
def moment? (series : Series) (station : Station V) (action : Action V) : Option Moment :=
  if action.observations series ≠ [] then some (.observed station.now)
  else if station.sweeps action then some (.swept station.now)
  else none

/-- The observations of a series and the sweeps of a run, in order. -/
def timeline (series : Series) (station : Station V) : List (Action V) → List Moment
  | [] => []
  | action :: rest =>
    (moment? series station action).toList ++ timeline series (station.act action).2 rest

theorem timeline_append (series : Series) (station : Station V) (actions more : List (Action V)) :
    timeline series station (actions ++ more) =
      timeline series station actions ++ timeline series (station.after actions) more := by
  induction actions generalizing station with
  | nil => rfl
  | cons action rest ih =>
    rw [List.cons_append, timeline, timeline, ih, List.append_assoc, after_cons]

/-! ## A clock that only goes forward -/

/-- Says that no action of a run sets the clock back. -/
def NeverSetBack (station : Station V) : List (Action V) → Prop
  | [] => True
  | action :: rest =>
    let next := (station.act action).2
    station.now ≤ next.now ∧ next.NeverSetBack rest

instance decidableNeverSetBack : (station : Station V) → (actions : List (Action V)) →
    Decidable (station.NeverSetBack actions)
  | _, [] => inferInstanceAs (Decidable True)
  | station, action :: rest =>
    have := decidableNeverSetBack (station.act action).2 rest
    inferInstanceAs (Decidable (_ ∧ _))

/-- On such a clock no series is observed at an earlier reading than the present one. -/
theorem NeverSetBack.now_le {station : Station V} {actions : List (Action V)}
    (h : station.NeverSetBack actions) (series : Series) :
    ∀ b ∈ observationReadings (timeline series station actions), station.now ≤ b := by
  induction actions generalizing station with
  | nil => exact fun _ hb => absurd hb List.not_mem_nil
  | cons action rest ih =>
    obtain ⟨hnow, hrest⟩ := h
    intro b hb
    rw [timeline, observationReadings, List.filterMap_append, List.mem_append] at hb
    rcases hb with hb | hb
    · -- what the action itself observes carries the present reading
      unfold moment? at hb
      split at hb
      · exact Nat.le_of_eq (List.mem_singleton.mp hb).symm
      · split at hb
        · exact absurd hb List.not_mem_nil
        · exact absurd hb List.not_mem_nil
    · exact Nat.le_trans hnow (ih hrest b hb)

/-- On such a clock no sweep reads ahead of the next observation. -/
theorem NeverSetBack.onward {station : Station V} {actions : List (Action V)}
    (h : station.NeverSetBack actions) (series : Series) :
    Onward (timeline series station actions) := by
  induction actions generalizing station with
  | nil => trivial
  | cons action rest ih =>
    obtain ⟨hnow, hrest⟩ := h
    have honward := ih hrest
    have hnext (b : Nat) (hb : b ∈ (observationReadings
        (timeline series (station.act action).2 rest)).head?) : station.now ≤ b :=
      Nat.le_trans hnow (hrest.now_le series b (List.mem_of_mem_head? hb))
    rw [timeline, moment?]
    split
    · exact honward
    · split
      · exact ⟨hnext, honward⟩
      · exact honward

/-! ## The last access of a series -/

omit [Amount V] in
/-- When a series was last observed, as far as the tracker knows it. -/
def access? (station : Station V) (series : Series) : Option Nat :=
  (station.known? series).map Entry.access

omit [Amount V] in
theorem knows_iff_access? {station : Station V} {series : Series} :
    station.tracker.knows series = true ↔ ∃ a, station.access? series = some a := by
  rw [knows_eq_isSome, access?, ← Option.isSome_iff_exists, Option.isSome_map]

@[simp] theorem ttl_act (station : Station V) (action : Action V) :
    (station.act action).2.tracker.ttl = station.tracker.ttl := by
  cases action with
  | run plan =>
    show (Plan.run station.now plan station.tracker).2.ttl = station.tracker.ttl
    rw [Plan.tracker_run, Tracker.ttl_observeAll]
  | sleep n =>
    show (if station.due _ then _ else _ : Tracker V).ttl = station.tracker.ttl
    split <;> rfl
  | _ => rfl

/-- What an action does to the last access of a series is what its moment does. -/
theorem access?_act (station : Station V) (action : Action V) (series : Series) :
    (station.act action).2.access? series =
      (moment? series station action).toList.foldl (accessAfter station.tracker.ttl)
        (station.access? series) := by
  unfold access? moment?
  rw [known?_act_eq]
  by_cases hs : station.sweeps action = true
  · rw [observations_eq_nil_of_sweeps hs]
    simp only [hs, if_true, ne_eq, not_true_eq_false, if_false, Option.toList_some,
      List.foldl_cons, List.foldl_nil, accessAfter]
    rw [Option.filter_map]
    rfl
  · rw [if_neg hs]
    by_cases ho : action.observations series = []
    · simp [ho, hs]
    · rw [Tracker.access_entryOver _ _ ho]
      simp [ho, accessAfter]

/-- The last access after a run is a fold over the timeline of the run. -/
theorem access?_after (station : Station V) (actions : List (Action V)) (series : Series) :
    (station.after actions).access? series =
      (timeline series station actions).foldl (accessAfter station.tracker.ttl)
        (station.access? series) := by
  induction actions generalizing station with
  | nil => rfl
  | cons action rest ih =>
    rw [after_cons, ih, ttl_act, access?_act, timeline, List.foldl_append]

/-- From an empty tracker, a series is known exactly while its last access counts. -/
theorem access?_after_new (ttl interval : Nat) (actions : List (Action V)) (series : Series) :
    ((new ttl interval : Station V).after actions).access? series =
      lastAccess ttl (timeline series (new ttl interval) actions) :=
  access?_after _ _ _

/-! ## What a sweep takes away -/

omit [Amount V] in
theorem finite_knows (tracker : Tracker V) : {series | tracker.knows series = true}.Finite := by
  apply (tracker.entries.toList.map Prod.fst).finite_toSet.subset
  intro series h
  exact Table.contains_iff_mem_keys.mp h

/-- A sweep answers how many series it made the tracker forget. -/
theorem sweep_counts_forgotten (station : Station V) :
    ∃ n, (station.act .sweep).1 = .count n ∧
      n + (station.act .sweep).2.tracker.size = station.tracker.size ∧
      n = {series | station.forgets .sweep series = true}.ncard := by
  have hsize := station.tracker.size_sweep_add_expired station.now
  refine ⟨station.tracker.expired station.now, rfl, (Nat.add_comm _ _).trans hsize, ?_⟩
  have hsub : {series | (station.tracker.sweep station.now).knows series = true} ⊆
      {series | station.tracker.knows series = true} := by
    intro series h
    rcases station.known?_sweep station.now series with he | he
    · exact (congrArg Option.isSome he).symm.trans h
    · exact absurd ((congrArg Option.isSome he).symm.trans h) Bool.noConfusion
  have hdiff : {series | station.forgets .sweep series = true} =
      {series | station.tracker.knows series = true} \
        {series | (station.tracker.sweep station.now).knows series = true} := by
    ext series
    show (station.tracker.knows series && !(station.tracker.sweep station.now).knows series) =
      true ↔ station.tracker.knows series = true ∧ ¬ _
    simp
  have hcard := Set.ncard_sdiff_add_ncard_of_subset hsub (finite_knows _)
  rw [← hdiff, ← size_eq_ncard, ← size_eq_ncard] at hcard
  omega

/-! ## Runs -/

omit [Amount V] in
/-- Says whether an action only asks: whether a series is known, how many are, or whether any is. -/
def asks : Action V → Bool
  | .knows _ | .size | .isEmpty => true
  | _ => false

/-- Asking leaves no trace. -/
theorem after_filter_asks (station : Station V) (actions : List (Action V)) :
    station.after (actions.filter fun action => !asks action) = station.after actions := by
  induction actions generalizing station with
  | nil => rfl
  | cons action rest ih =>
    cases action with
    | knows | size | isEmpty =>
      rw [after_cons]
      exact ih station
    | _ => rw [List.filter_cons_of_pos rfl, after_cons, after_cons, ih]

/-- After any run from an empty tracker, a series is known exactly when it was observed and every
sweep since its last observation read the clock at most the lifetime later, whichever way the
clock was set. Asking for series changes nothing, and a sweep answers how many series it made the
tracker forget. Hence a series whose observations are never further apart than the lifetime stays
known from its first to its last observation, as long as no sweep reads the clock ahead of its
reading at the next observation, as none does on a clock that is never set back. -/
theorem expires_after_last_access (ttl interval : Nat) (actions : List (Action V))
    (series : Series) :
    let start : Station V := .new ttl interval
    let station := start.after actions
    (station.tracker.knows series = true ↔
      ∃ before a, ∃ sweeps : List Nat,
        timeline series start actions = before ++ .observed a :: sweeps.map .swept ∧
        ∀ s ∈ sweeps, s - a ≤ ttl) ∧
    start.after (actions.filter fun action => !asks action) = station ∧
    (∃ n, (station.act .sweep).1 = .count n ∧
      n + (station.act .sweep).2.tracker.size = station.tracker.size ∧
      n = {other | station.forgets .sweep other = true}.ncard) ∧
    (Close ttl (timeline series start actions) → Onward (timeline series start actions) →
      ∀ done rest, actions = done ++ rest →
        (∃ a, .observed a ∈ timeline series start done) →
        (∃ b, .observed b ∈ timeline series (start.after done) rest) →
        (start.after done).tracker.knows series = true) ∧
    (start.NeverSetBack actions → Onward (timeline series start actions)) := by
  intro start station
  refine ⟨?_, after_filter_asks start actions, sweep_counts_forgotten station, ?_,
    fun h => h.onward series⟩
  · rw [knows_iff_access?, access?_after_new]
    simp only [lastAccess_eq_some_iff]
    exact exists_comm
  · rintro hc ho done rest rfl ⟨a, ha⟩ ⟨b, hb⟩
    rw [timeline_append] at hc ho
    rw [knows_iff_access?, access?_after_new]
    exact lastAccess_ne_none hc ho ha hb

/-- A series of requests. -/
def requests : Series := .of "requests" [] none none

/-- A series that is observed twice after its first observation, once late, with sweeps between. -/
def visits : List (Action Rat) :=
  [.increase requests 1 5, .advance 6, .sweep, .rate requests 0 3, .advance 10, .sweep]

theorem knows_after_visits :
    let start : Station Rat := .new 10 0
    Close 10 (timeline requests start (visits ++ [.moved requests 2 9])) ∧
      start.NeverSetBack (visits ++ [.moved requests 2 9]) ∧
      Onward (timeline requests start (visits ++ [.moved requests 2 9])) ∧
      (start.after visits).tracker.knows requests = true := by
  intro start
  have hc : Close 10 (timeline requests start (visits ++ [.moved requests 2 9])) := by decide
  have hforward : start.NeverSetBack (visits ++ [.moved requests 2 9]) := by decide
  have ha : .observed 0 ∈ timeline requests start visits := by decide
  have hb : .observed 16 ∈ timeline requests (start.after visits) [.moved requests 2 9] := by
    decide
  obtain ⟨-, -, -, hknown, honward⟩ :=
    expires_after_last_access 10 0 (visits ++ [.moved requests 2 9]) requests
  have ho := honward hforward
  exact ⟨hc, hforward, ho, hknown hc ho _ _ rfl ⟨_, ha⟩ ⟨_, hb⟩⟩

/-- The observations are five apart and the lifetime is ten, but in between the clock was set
twenty ahead, swept at, and set back. -/
theorem forgotten_between_close_observations :
    let start : Station Rat := .new 10 0
    let done : List (Action Rat) :=
      [.increase requests 1 5, .advance 20, .sweep, .rewind 15]
    let rest : List (Action Rat) := [.increase requests 2 9]
    timeline requests start (done ++ rest) = [.observed 0, .swept 20, .observed 5] ∧
      Close 10 (timeline requests start (done ++ rest)) ∧
      (start.after done).tracker.knows requests = false := by
  decide

end Station

end MetricPoints
