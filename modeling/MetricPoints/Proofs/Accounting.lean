import MetricPoints.Proofs.Replay

/-
  Every observation of a batch of totals is accounted for once, as long as no statistics are
  reported: it gives a point, or it counts as late, or its series is new and known from then on. For
  one sample this is what a change means (`Role.accounts`), and a plan whose steps submit at most
  one sample each adds it up (`Plan.accounts_run`).

  Main statement: `Converter.observations_are_accounted_for`.
-/

namespace MetricPoints

variable {V : Type}

theorem Tracker.size_submit (tracker : Tracker V) (now : Nat) (sample : Sample V) :
    (tracker.submit now sample).size =
      if tracker.knows sample.series then tracker.size else tracker.size + 1 :=
  Table.size_put _ _ _

/-- Without a sweep no series is forgotten. -/
theorem Tracker.size_le_observeAll (tracker : Tracker V) (now : Nat) (samples : List (Sample V)) :
    tracker.size ≤ (tracker.observeAll now samples).2.size := by
  induction samples generalizing tracker with
  | nil => exact Nat.le_refl _
  | cons sample rest ih =>
    refine Nat.le_trans ?_ (ih (tracker.submit now sample))
    rw [size_submit]
    split <;> omega

/-- Says whether a step takes samples together. -/
def Step.joint : Step V → Bool
  | aggregate _ => true
  | _ => false

section Steps

variable [Amount V]

/-- A sample of a known series gives a point or is late; of a new series it is neither. -/
theorem Role.accounts (role : Role) (tracker : Tracker V) (sample : Sample V) :
    (role.outcome sample (tracker.changeFor sample)).points.length +
        (role.outcome sample (tracker.changeFor sample)).late =
      if tracker.knows sample.series then 1 else 0 := by
  have hknows : tracker.knows sample.series = (tracker.stored? sample.series).isSome := by
    rw [Tracker.stored?, Option.isSome_map]
    rfl
  rw [Tracker.changeFor_eq, hknows]
  cases tracker.stored? sample.series with
  | none => cases role <;> rfl
  | some held =>
    dsimp only
    split
    · cases role <;> rfl
    · cases role <;> rfl

/-- A step that submits at most one sample, and gives no point otherwise, accounts for it. -/
theorem Step.accounts {step : Step V} (he : step.emits = false) (hj : step.joint = false)
    (now : Nat) (tracker : Tracker V) :
    step.counted + tracker.size =
      (step.run now tracker).1.points.length + (step.run now tracker).1.late +
        (step.run now tracker).2.size := by
  cases step with
  | emit point => exact absurd he Bool.noConfusion
  | note notice => rfl
  | aggregate a => exact absurd hj Bool.noConfusion
  | track role sample =>
    show 1 + tracker.size = (role.outcome sample (tracker.changeFor sample)).points.length +
      (role.outcome sample (tracker.changeFor sample)).late + (tracker.submit now sample).size
    rw [role.accounts, Tracker.size_submit]
    split <;> omega

end Steps

namespace Plan

variable {plan : Plan V} {n : Nat}

/-- Every sample is counted where no step takes samples together. -/
theorem Submits.length_samples (h : plan.Submits n) (hj : ∀ step ∈ plan, step.joint = false) :
    plan.samples.length = n := by
  rw [← h.counted, samples, List.length_flatMap]
  congr 1
  apply List.map_congr_left
  intro step hs
  cases step with
  | aggregate a => exact absurd (hj _ hs) Bool.noConfusion
  | _ => rfl

/-- Every sample of a run gives a point, is late, or makes a series known. -/
theorem accounts_run [Amount V] (now : Nat) (h : plan.Submits n)
    (hj : ∀ step ∈ plan, step.joint = false) (tracker : Tracker V) :
    n + tracker.size =
      (run now plan tracker).1.points.length + (run now plan tracker).1.late +
        (run now plan tracker).2.size := by
  obtain ⟨he, rfl⟩ := h
  induction plan generalizing tracker with
  | nil => simp [run_nil, Outcome.empty]
  | cons step rest ih =>
    obtain ⟨hestep, herest⟩ := List.forall_mem_cons.mp he
    obtain ⟨hjstep, hjrest⟩ := List.forall_mem_cons.mp hj
    have hstep := Step.accounts hestep hjstep now tracker
    have hrest := ih hjrest (step.run now tracker).2 herest
    rw [run_cons, List.map_cons, List.sum_cons, Outcome.points_append, List.length_append,
      Outcome.late_append]
    dsimp only
    omega

end Plan

/-! ## Plans whose steps submit at most one sample each -/

section Plans

variable [Amount V] {settings : Settings}

theorem NumberPoint.joint_totalPlan (labels : Labels) (point : DataPoint (Option (Number V))) :
    ∀ step ∈ totalPlan labels point, step.joint = false := by
  refine List.forall_mem_map.mpr fun number _ => ?_
  unfold Number.step
  split <;> rfl

theorem Histogram.joint_bucketPlan (labels : Labels) (time : Nat) (histogram : Histogram V) :
    ∀ step ∈ histogram.bucketPlan labels time .cumulative, step.joint = false := by
  unfold bucketPlan
  split
  · exact List.forall_mem_nil _
  · split
    · exact List.forall_mem_map.mpr fun _ _ => rfl
    · exact List.forall_mem_singleton.mpr rfl

theorem Histogram.joint_plan (hmode : settings.bucketMode = .counters)
    (hplain : settings.aggregations = false) (labels : Labels) (time : Nat)
    (histogram : Histogram V) :
    ∀ step ∈ histogram.plan settings labels time .cumulative, step.joint = false := by
  have hnone : histogram.stats.plan settings labels time .cumulative = [] :=
    if_neg (by simp [Settings.showsStatistics, hmode, hplain])
  rw [Histogram.plan, hnone, List.nil_append, hmode]
  exact histogram.joint_bucketPlan labels time

theorem Summary.joint_plan (hq : settings.quantiles = false) (labels : Labels) (time : Nat)
    (summary : Summary V) : ∀ step ∈ summary.plan settings labels time, step.joint = false := by
  have hsum : (sumStep labels time summary.sum).joint = false := by
    unfold sumStep
    split <;> rfl
  rw [Summary.plan, hq]
  exact List.forall_mem_cons.mpr ⟨rfl, List.forall_mem_singleton.mpr hsum⟩

omit [Amount V] in
theorem joint_pointPlans {α : Type} {plan : DataPoint α → Plan V}
    (h : ∀ point, ∀ step ∈ plan point, step.joint = false) (points : List (DataPoint α)) :
    ∀ step ∈ pointPlans plan points, step.joint = false := by
  intro step hs
  obtain ⟨point, -, hp⟩ := List.mem_flatMap.mp hs
  exact h point step hp

variable (htotals : settings.totalMode = .increases) (hmode : settings.bucketMode = .counters)
  (hplain : settings.aggregations = false) (hq : settings.quantiles = false)

include htotals hmode hplain hq

theorem MetricData.joint_plan (labels : Labels) {data : MetricData V} (h : data.Cumulative) :
    ∀ step ∈ data.plan settings labels, step.joint = false := by
  cases data with
  | sum code monotonic points =>
    obtain ⟨hcode, rfl⟩ := h
    unfold MetricData.plan
    simp only [hcode, htotals, decide_true, Bool.and_self, if_true]
    exact joint_pointPlans (NumberPoint.joint_totalPlan labels) points
  | histogram code points =>
    have hcode : Temporality.ofCode? code = some .cumulative := h
    unfold MetricData.plan
    simp only [hcode]
    exact joint_pointPlans (fun point => Histogram.joint_plan hmode hplain _ _ point.value) points
  | summary points =>
    exact joint_pointPlans (fun point => Summary.joint_plan hq _ _ point.value) points
  | unknown | gauge | exponential => exact absurd h id

/-- The plan of totals submits its samples one by one. -/
theorem Batch.joint_plan {batch : Batch V} (h : batch.Cumulative) :
    ∀ step ∈ Batch.plan settings batch, step.joint = false := by
  intro step hstep
  obtain ⟨resource, hr, hstep⟩ := List.mem_flatMap.mp hstep
  rcases List.mem_append.mp hstep with hstep | hstep
  · unfold sourceProblems at hstep
    split at hstep
    · exact absurd hstep List.not_mem_nil
    · rw [List.mem_singleton.mp hstep]
      rfl
  · obtain ⟨scope, hs, hstep⟩ := List.mem_flatMap.mp hstep
    obtain ⟨metric, hm, hstep⟩ := List.mem_flatMap.mp hstep
    exact MetricData.joint_plan htotals hmode hplain hq _ (h resource hr scope hs metric hm) step
      hstep

end Plans

namespace Converter

variable [Amount V]

/-- Where buckets are counters and neither statistics nor quantiles are reported, a batch of totals
submits as many samples as it holds observations, and each of them gives a point, is late, or makes
one more series known. -/
theorem observations_are_accounted_for {converter : Converter V}
    (htotals : converter.settings.totalMode = .increases)
    (hmode : converter.settings.bucketMode = .counters)
    (hplain : converter.settings.aggregations = false)
    (hq : converter.settings.quantiles = false) {batch : Batch V} (hb : batch.Cumulative)
    (now : Nat) :
    let converted := converter.convert now batch
    let observations := batch.observations converter.settings
    (Batch.plan converter.settings batch).samples.length = observations ∧
      converter.tracker.size ≤ converted.2.tracker.size ∧
      observations = converted.1.report.points + converted.1.report.late +
        (converted.2.tracker.size - converter.tracker.size) := by
  intro converted observations
  have hmode' : converter.settings.bucketMode ≠ .distributions := by
    rw [hmode]
    decide
  have hplan : (Batch.plan converter.settings batch).Submits observations :=
    Batch.submits_plan htotals hmode' hq hb
  have hjoint := Batch.joint_plan htotals hmode hplain hq hb
  have hsize : converter.tracker.size ≤ converted.2.tracker.size := by
    rw [tracker_convert]
    exact converter.tracker.size_le_observeAll now _
  have hrun : observations + converter.tracker.size = converted.1.report.points +
      converted.1.report.late + converted.2.tracker.size := by
    rw [show converted = _ from converter.convert_eq now batch]
    exact Plan.accounts_run now hplan hjoint converter.tracker
  exact ⟨hplan.length_samples hjoint, hsize, by omega⟩

/-- A batch with a running total of three data points, one of them sent twice and one not recorded,
a histogram of two buckets and one with a bucket too few, and a summary. -/
def sevenObservations : Batch Rat :=
  [⟨[], [⟨none,
    [⟨"requests", .sum 2 true
      [⟨1, [], 0, some (.integer 5)⟩, ⟨2, [], 0, some (.integer 9)⟩, ⟨2, [], 0, some (.integer 9)⟩,
        ⟨3, [], 1, some (.integer 12)⟩]⟩,
     ⟨"latency", .histogram 2
      [⟨1, [], 0, ⟨⟨3, some 4, none, none⟩, [0.5], [1, 2]⟩⟩,
        ⟨2, [], 0, ⟨⟨3, some 4, none, none⟩, [0.5], [3]⟩⟩]⟩,
     ⟨"sizes", .summary [⟨1, [], 0, ⟨2, 7, []⟩⟩]⟩]⟩]⟩]

theorem sevenObservations_accounted :
    let converter : Converter Rat :=
      ⟨{ Settings.default with bucketMode := .counters }, .empty 0, .logger, false, .zero⟩
    let converted := converter.convert 0 sevenObservations
    sevenObservations.Cumulative ∧ 7 = converted.1.report.points + converted.1.report.late +
        (converted.2.tracker.size - converter.tracker.size) := by
  intro converter converted
  have hb : sevenObservations.Cumulative := by simp [Batch.Cumulative, sevenObservations,
    MetricData.Cumulative, Temporality.ofCode?]
  have htotals : converter.settings.totalMode = .increases := rfl
  have h := (observations_are_accounted_for htotals rfl rfl rfl hb 0).2.2
  have hseven : sevenObservations.observations converter.settings = 7 := by decide +kernel
  exact ⟨hb, hseven.symm.trans h⟩

end Converter

end MetricPoints
