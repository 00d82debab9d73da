import MetricPoints.Plan

/-
  What a tracker knows after samples were submitted in order. The entry of a series is a fold over
  the observations of that series alone (`get?_observeAll`); samples of distinct series do not see
  each other (`fst_observeAll_of_nodup`), so that a plan whose samples are of distinct series
  yields, step by step, what each step yields from the state before the plan
  (`outcome_run_of_nodup`). Plans that run one after the other, each at a reading of the clock of
  its own, are `runEach`.
-/

namespace MetricPoints

variable {V : Type}

/-- A value at a time, whatever it is a value of. -/
structure Observation (V : Type) where
  time : Nat
  value : V
  deriving DecidableEq, Repr

/-- The observation in a sample. -/
def Sample.observation (sample : Sample V) : Observation V := ⟨sample.time, sample.value⟩

/-- The observations that samples make of a series, in order. -/
def observationsOf (series : Series) (samples : List (Sample V)) : List (Observation V) :=
  (samples.filter (·.series = series)).map Sample.observation

theorem observationsOf_cons_of_eq {series : Series} {sample : Sample V} (h : sample.series = series)
    (rest : List (Sample V)) :
    observationsOf series (sample :: rest) = sample.observation :: observationsOf series rest := by
  simp [observationsOf, h]

theorem observationsOf_cons_of_ne {series : Series} {sample : Sample V} (h : sample.series ≠ series)
    (rest : List (Sample V)) :
    observationsOf series (sample :: rest) = observationsOf series rest := by
  simp [observationsOf, h]

theorem observationsOf_eq_nil {series : Series} {samples : List (Sample V)}
    (h : ∀ sample ∈ samples, sample.series ≠ series) : observationsOf series samples = [] := by
  rw [observationsOf, List.map_eq_nil_iff, List.filter_eq_nil_iff]
  exact fun sample hs => by simpa using h sample hs

namespace Tracker

/-- The entry after observations in order, while the clock reads `now`. -/
def entryOver (now : Nat) (known : Option (Entry V)) (observations : List (Observation V)) :
    Option (Entry V) :=
  observations.foldl (fun known o => some (entryAfter now known o.time o.value)) known

@[simp] theorem entryOver_nil (now : Nat) (known : Option (Entry V)) :
    entryOver now known [] = known := rfl

@[simp] theorem entryOver_cons (now : Nat) (known : Option (Entry V)) (o : Observation V)
    (rest : List (Observation V)) :
    entryOver now known (o :: rest) =
      entryOver now (some (entryAfter now known o.time o.value)) rest := rfl

/-- Every observation counts as an access, a late one too. -/
theorem access_entryAfter (now : Nat) (known : Option (Entry V)) (time : Nat) (value : V) :
    (entryAfter now known time value).access = now := by
  cases known with
  | none => rfl
  | some entry =>
    simp only [entryAfter]
    split <;> rfl

/-- What is known stays known when more is observed. -/
theorem isSome_entryOver (now : Nat) (entry : Entry V) (observations : List (Observation V)) :
    (entryOver now (some entry) observations).isSome = true := by
  induction observations generalizing entry with
  | nil => rfl
  | cons o rest ih => exact ih _

theorem access_entryOver (now : Nat) (known : Option (Entry V))
    {observations : List (Observation V)} (h : observations ≠ []) : (entryOver now known observations).map Entry.access = some now := by
  induction observations generalizing known with
  | nil => exact absurd rfl h
  | cons o rest ih =>
    cases rest with
    | nil => exact congrArg some (access_entryAfter now known o.time o.value)
    | cons next rest => exact ih _ (List.cons_ne_nil next rest)

/-- What a sample means to the tracker as it stands. -/
def changeFor (tracker : Tracker V) (sample : Sample V) : Change V :=
  changeOf (tracker.entries.get? sample.series) sample.time sample.value

/-- The tracker after one sample. -/
def submit (tracker : Tracker V) (now : Nat) (sample : Sample V) : Tracker V :=
  (tracker.observe now sample.series sample.time sample.value).2

theorem get?_submit (tracker : Tracker V) (now : Nat) (sample : Sample V) (series : Series) :
    (tracker.submit now sample).entries.get? series =
      if series = sample.series then
        some (entryAfter now (tracker.entries.get? series) sample.time sample.value)
      else tracker.entries.get? series := by
  rw [submit, get?_observe]
  by_cases h : series = sample.series
  · rw [if_pos h, if_pos h, h]
  · rw [if_neg h, if_neg h]

theorem get?_submit_of_ne (tracker : Tracker V) (now : Nat) {sample : Sample V} {series : Series}
    (h : sample.series ≠ series) :
    (tracker.submit now sample).entries.get? series = tracker.entries.get? series := by
  rw [get?_submit, if_neg (Ne.symm h)]

theorem fst_observeAll_cons (tracker : Tracker V) (now : Nat) (sample : Sample V)
    (rest : List (Sample V)) :
    (tracker.observeAll now (sample :: rest)).1 =
      tracker.changeFor sample :: ((tracker.submit now sample).observeAll now rest).1 := rfl

theorem snd_observeAll_cons (tracker : Tracker V) (now : Nat) (sample : Sample V)
    (rest : List (Sample V)) :
    (tracker.observeAll now (sample :: rest)).2 =
      ((tracker.submit now sample).observeAll now rest).2 := rfl

@[simp] theorem ttl_observeAll (tracker : Tracker V) (now : Nat) (samples : List (Sample V)) :
    (tracker.observeAll now samples).2.ttl = tracker.ttl := by
  induction samples generalizing tracker with
  | nil => rfl
  | cons sample rest ih => rw [snd_observeAll_cons, ih]; rfl

/-- Only the observations of a series change its entry, in their order. -/
theorem get?_observeAll (tracker : Tracker V) (now : Nat) (samples : List (Sample V))
    (series : Series) :
    (tracker.observeAll now samples).2.entries.get? series =
      entryOver now (tracker.entries.get? series) (observationsOf series samples) := by
  induction samples generalizing tracker with
  | nil => rfl
  | cons sample rest ih =>
    rw [snd_observeAll_cons, ih, get?_submit]
    by_cases h : sample.series = series
    · rw [if_pos h.symm, observationsOf_cons_of_eq h]
      rfl
    · rw [if_neg (Ne.symm h), observationsOf_cons_of_ne h]

/-- A series that no sample is of keeps its entry. -/
theorem get?_observeAll_of_not_sampled (tracker : Tracker V) (now : Nat)
    {samples : List (Sample V)} {series : Series}
    (h : ∀ sample ∈ samples, sample.series ≠ series) :
    (tracker.observeAll now samples).2.entries.get? series = tracker.entries.get? series := by
  rw [get?_observeAll, observationsOf_eq_nil h, entryOver_nil]

theorem changeFor_submit_of_ne (tracker : Tracker V) (now : Nat) {sample other : Sample V}
    (h : sample.series ≠ other.series) :
    (tracker.submit now sample).changeFor other = tracker.changeFor other := by
  rw [changeFor, get?_submit_of_ne tracker now h, changeFor]

/-- Samples of distinct series mean what each of them means alone. -/
theorem fst_observeAll_of_nodup (tracker : Tracker V) (now : Nat) {samples : List (Sample V)}
    (h : (samples.map Sample.series).Nodup) :
    (tracker.observeAll now samples).1 = samples.map tracker.changeFor := by
  induction samples generalizing tracker with
  | nil => rfl
  | cons sample rest ih =>
    have ⟨hn, hr⟩ := List.nodup_cons.mp h
    rw [fst_observeAll_cons, ih _ hr, List.map_cons]
    congr 1
    apply List.map_congr_left
    intro other ho
    apply changeFor_submit_of_ne
    exact fun e => hn (e ▸ List.mem_map_of_mem ho)

theorem observationsOf_of_nodup {samples : List (Sample V)}
    (h : (samples.map Sample.series).Nodup) {sample : Sample V} (hs : sample ∈ samples) :
    observationsOf sample.series samples = [sample.observation] := by
  induction samples with
  | nil => exact absurd hs List.not_mem_nil
  | cons first rest ih =>
    have ⟨hn, hr⟩ := List.nodup_cons.mp h
    rcases List.mem_cons.mp hs with rfl | hs
    · rw [observationsOf_cons_of_eq rfl, observationsOf_eq_nil]
      exact fun other ho e => hn (e ▸ List.mem_map_of_mem ho)
    · rw [observationsOf_cons_of_ne (fun e => hn (e ▸ List.mem_map_of_mem hs)), ih hr hs]

theorem get?_observeAll_of_nodup (tracker : Tracker V) (now : Nat) {samples : List (Sample V)}
    (h : (samples.map Sample.series).Nodup) {sample : Sample V} (hs : sample ∈ samples) :
    (tracker.observeAll now samples).2.entries.get? sample.series =
      some (entryAfter now (tracker.entries.get? sample.series) sample.time sample.value) := by
  rw [get?_observeAll, observationsOf_of_nodup h hs]
  rfl

end Tracker

/-- A sample that means the same to related trackers, and leaves them related. -/
structure Sample.Respects (R : Tracker V → Tracker V → Prop) (now now' : Nat) (sample : Sample V) :
    Prop where
  changeFor {tracker other : Tracker V} (h : R tracker other) :
    tracker.changeFor sample = other.changeFor sample
  submit {tracker other : Tracker V} (h : R tracker other) :
    R (tracker.submit now sample) (other.submit now' sample)

theorem Tracker.observeAll_of_respects {R : Tracker V → Tracker V → Prop} {now now' : Nat}
    {samples : List (Sample V)} (hs : ∀ sample ∈ samples, sample.Respects R now now')
    {tracker other : Tracker V} (h : R tracker other) :
    (tracker.observeAll now samples).1 = (other.observeAll now' samples).1 ∧
      R (tracker.observeAll now samples).2 (other.observeAll now' samples).2 := by
  induction samples generalizing tracker other with
  | nil => exact ⟨rfl, h⟩
  | cons sample rest ih =>
    obtain ⟨hsample, hrest⟩ := List.forall_mem_cons.mp hs
    obtain ⟨hc, hr⟩ := ih hrest (hsample.submit h)
    rw [fst_observeAll_cons, fst_observeAll_cons, hc, hsample.changeFor h]
    exact ⟨rfl, hr⟩

/-- Outcomes one after the other. -/
def Outcome.join (outcomes : List (Outcome V)) : Outcome V := outcomes.foldr (· ++ ·) .empty

@[simp] theorem Outcome.join_cons (outcome : Outcome V) (rest : List (Outcome V)) :
    Outcome.join (outcome :: rest) = outcome ++ Outcome.join rest := rfl

theorem Outcome.points_join (outcomes : List (Outcome V)) :
    (Outcome.join outcomes).points = outcomes.flatMap Outcome.points := by
  induction outcomes with
  | nil => rfl
  | cons outcome rest ih => rw [join_cons, points_append, ih, List.flatMap_cons]

variable [Amount V]

/-- What a step yields when each of its samples meets the tracker as it stands. -/
def Step.outcomeFrom (tracker : Tracker V) (step : Step V) : Outcome V :=
  step.outcome (step.samples.map tracker.changeFor)

theorem Step.outcomeFrom_congr {tracker other : Tracker V} {step : Step V}
    (h : ∀ sample ∈ step.samples,
      tracker.entries.get? sample.series = other.entries.get? sample.series) :
    step.outcomeFrom tracker = step.outcomeFrom other := by
  have hm : step.samples.map tracker.changeFor = step.samples.map other.changeFor :=
    List.map_congr_left fun sample hs => by rw [Tracker.changeFor, h sample hs, Tracker.changeFor]
  rw [outcomeFrom, hm, outcomeFrom]

namespace Plan

/-- Related trackers give the same outcome and stay related. -/
theorem run_of_respects {R : Tracker V → Tracker V → Prop} {now now' : Nat} {plan : Plan V}
    (hs : ∀ sample ∈ plan.samples, sample.Respects R now now') {tracker other : Tracker V}
    (h : R tracker other) :
    (run now plan tracker).1 = (run now' plan other).1 ∧
      R (run now plan tracker).2 (run now' plan other).2 := by
  induction plan generalizing tracker other with
  | nil => exact ⟨rfl, h⟩
  | cons step rest ih =>
    rw [samples_cons] at hs
    obtain ⟨hstep, hrest⟩ := List.forall_mem_append.mp hs
    obtain ⟨hc, hr⟩ := Tracker.observeAll_of_respects hstep h
    have hsame : (step.run now tracker).1 = (step.run now' other).1 := by
      rw [Step.run, hc, Step.run]
    have hafter : R (step.run now tracker).2 (step.run now' other).2 := hr
    obtain ⟨ho, hlast⟩ := ih hrest hafter
    rw [run_cons, run_cons, hsame, ho]
    exact ⟨rfl, hlast⟩

/-- A plan whose samples are of distinct series yields what its steps yield from the tracker before
the plan. -/
theorem outcome_run_of_nodup (now : Nat) {plan : Plan V}
    (h : (plan.samples.map Sample.series).Nodup) (tracker : Tracker V) :
    (run now plan tracker).1 = Outcome.join (plan.map (Step.outcomeFrom tracker)) := by
  induction plan generalizing tracker with
  | nil => rfl
  | cons step rest ih =>
    rw [samples_cons, List.map_append, List.nodup_append] at h
    obtain ⟨hs, hr, hd⟩ := h
    have hfirst : (step.run now tracker).1 = step.outcomeFrom tracker := by
      rw [Step.run, Step.outcomeFrom, ← Tracker.fst_observeAll_of_nodup tracker now hs]
    have hrest : rest.map (Step.outcomeFrom (step.run now tracker).2) =
        rest.map (Step.outcomeFrom tracker) := by
      apply List.map_congr_left
      intro other ho
      apply Step.outcomeFrom_congr
      intro sample hm
      apply Tracker.get?_observeAll_of_not_sampled
      intro earlier he
      have hm' : sample ∈ samples rest := List.mem_flatMap.mpr ⟨other, ho, hm⟩
      exact hd _ (List.mem_map_of_mem he) _ (List.mem_map_of_mem hm')
    rw [run_cons, ih hr, hfirst, hrest]
    rfl

/-- Runs plans one after the other, each while the clock shows the reading beside it. -/
def runEach : List (Nat × Plan V) → Tracker V → List (Outcome V) × Tracker V
  | [], tracker => ([], tracker)
  | (now, plan) :: rest, tracker =>
    let first := run now plan tracker
    let more := runEach rest first.2
    (first.1 :: more.1, more.2)

theorem fst_runEach_cons (timed : Nat × Plan V) (rest : List (Nat × Plan V))
    (tracker : Tracker V) :
    (runEach (timed :: rest) tracker).1 =
      (run timed.1 timed.2 tracker).1 :: (runEach rest (run timed.1 timed.2 tracker).2).1 := rfl

end Plan

end MetricPoints
