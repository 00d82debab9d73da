import MetricPoints.Proofs.Reported

/-
  Input that is skipped: data points for which no value was recorded, numbers that are missing or
  not finite, and metrics with a problem. `Batch.pruned` is a batch without it. The plan of a
  skipped data point or metric holds notices at most, so that the plan of the pruned batch does the
  same work (`Batch.working_plan_pruned`), and of the problems only those of the metrics are gone
  (`Batch.problems_pruned`).

  Main statement: `Converter.skipped_input_leaves_no_trace`.
-/

namespace MetricPoints

variable {V : Type} [Amount V]

/-! ## Batches without what is skipped -/

/-- Says whether a number is reported: it was recorded, it is there, and it is finite. -/
def NumberPoint.reported (point : DataPoint (Option (Number V))) : Bool :=
  point.recorded && point.value.any fun number => Amount.finite number.amount

/-- The data without the data points that are skipped. -/
def MetricData.pruned : MetricData V → MetricData V
  | .unknown => .unknown
  | .gauge points => .gauge (points.filter NumberPoint.reported)
  | .sum code monotonic points => .sum code monotonic (points.filter NumberPoint.reported)
  | .histogram code points => .histogram code (points.filter DataPoint.recorded)
  | .exponential code points => .exponential code (points.filter DataPoint.recorded)
  | .summary points => .summary (points.filter DataPoint.recorded)

/-- The metric without the data points that are skipped. -/
def Metric.pruned (metric : Metric V) : Metric V := ⟨metric.name, metric.data.pruned⟩

/-- The scope without the metrics that have a problem, the others pruned. -/
def ScopeMetrics.pruned (scope : ScopeMetrics V) : ScopeMetrics V :=
  ⟨scope.scope, (scope.metrics.filter (·.problem?.isNone)).map Metric.pruned⟩

/-- The resource with its scopes pruned. -/
def ResourceMetrics.pruned (resource : ResourceMetrics V) : ResourceMetrics V :=
  ⟨resource.attributes, resource.scopes.map ScopeMetrics.pruned⟩

/-- The batch without the data points and the metrics that are skipped. -/
def Batch.pruned (batch : Batch V) : Batch V := batch.map ResourceMetrics.pruned

/-! ## The work of what is skipped -/

theorem Number.working_eq_nil {value : Option (Number V)}
    (h : (value.any fun number => Amount.finite number.amount) = false) (labels : Labels)
    (use : V → Step V) : Plan.working (value.toList.map (Number.step labels use)) = [] := by
  cases value with
  | none => rfl
  | some number =>
    have hnot : ¬ Amount.finite number.amount = true := by simpa using h
    show Plan.working [Number.step labels use number] = []
    rw [Number.step, if_neg hnot]
    rfl

omit [Amount V] in
/-- Data points whose plans hold notices at most can be left out. -/
theorem working_pointPlans_filter {α : Type} {plan : DataPoint α → Plan V}
    {keep : DataPoint α → Bool}
    (h : ∀ point, point.recorded = true → keep point = false → (plan point).working = [])
    (points : List (DataPoint α)) :
    (pointPlans plan (points.filter keep)).working = (pointPlans plan points).working := by
  induction points with
  | nil => rfl
  | cons point rest ih =>
    have hcons (points : List (DataPoint α)) : (pointPlans plan (point :: points)).working =
        (pointPlans plan [point]).working ++ (pointPlans plan points).working := by
      rw [pointPlans_eq_flatMap, List.flatMap_cons, ← pointPlans_eq_flatMap, Plan.working_append]
    cases hk : keep point with
    | true => rw [List.filter_cons_of_pos hk, hcons, ih, ← hcons]
    | false =>
      have hnone : (pointPlans plan [point]).working = [] := by
        unfold pointPlans
        cases hr : point.recorded with
        | true =>
          rw [List.filter_cons_of_pos hr, List.filter_nil, List.flatMap_singleton]
          exact h point hr hk
        | false =>
          rw [List.filter_cons_of_neg (by simp [hr])]
          rfl
      rw [List.filter_cons_of_neg (by simp [hk]), hcons, hnone, List.nil_append, ih]

theorem NumberPoint.working_pointPlans_reported {plan : DataPoint (Option (Number V)) → Plan V}
    (h : ∀ point, ∃ labels use, plan point = point.value.toList.map (Number.step labels use))
    (points : List (DataPoint (Option (Number V)))) :
    (pointPlans plan (points.filter reported)).working = (pointPlans plan points).working := by
  refine working_pointPlans_filter (fun point hr hk => ?_) points
  obtain ⟨labels, use, hp⟩ := h point
  rw [hp]
  refine Number.working_eq_nil ?_ labels use
  simpa [reported, hr] using hk

omit [Amount V] in
theorem pointPlans_recorded {α : Type} (plan : DataPoint α → Plan V)
    (points : List (DataPoint α)) :
    pointPlans plan (points.filter DataPoint.recorded) = pointPlans plan points := by
  simp [pointPlans]

/-- The data points that are skipped are no work. -/
theorem MetricData.working_plan_pruned (settings : Settings) (labels : Labels)
    (data : MetricData V) :
    (data.pruned.plan settings labels).working = (data.plan settings labels).working := by
  cases data with
  | unknown => rfl
  | gauge points => exact NumberPoint.working_pointPlans_reported (fun _ => ⟨_, _, rfl⟩) points
  | sum code monotonic points =>
    simp only [pruned, plan]
    split
    · split
      · exact NumberPoint.working_pointPlans_reported (fun _ => ⟨_, _, rfl⟩) points
      · exact NumberPoint.working_pointPlans_reported (fun _ => ⟨_, _, rfl⟩) points
    · exact NumberPoint.working_pointPlans_reported (fun _ => ⟨_, _, rfl⟩) points
    · rfl
  | histogram code points => simp only [pruned, plan, pointPlans_recorded]
  | exponential code points => simp only [pruned, plan, pointPlans_recorded]
  | summary points => simp only [pruned, plan, pointPlans_recorded]

theorem Metric.working_plan_pruned (settings : Settings) (context : Context)
    (metric : Metric V) :
    (metric.pruned.plan settings context).working = (metric.plan settings context).working :=
  metric.data.working_plan_pruned settings (context.labels metric.name)

/-- A metric with a problem is no work. -/
theorem Metric.working_plan_of_problem {metric : Metric V} (h : metric.problem?.isNone = false)
    (settings : Settings) (context : Context) : (metric.plan settings context).working = [] := by
  obtain ⟨problem, hp⟩ := Option.isSome_iff_exists.mp (by simpa using h)
  rw [metric.plan_of_problem hp]
  rfl

theorem ScopeMetrics.working_plan_pruned (settings : Settings) (context : Context)
    (scope : ScopeMetrics V) :
    (scope.pruned.plan settings context).working = (scope.plan settings context).working := by
  obtain ⟨scope, metrics⟩ := scope
  simp only [ScopeMetrics.plan, pruned, Plan.working_flatMap, List.flatMap_map,
    Metric.working_plan_pruned]
  induction metrics with
  | nil => rfl
  | cons metric rest ih =>
    rw [List.flatMap_cons, ← ih]
    cases h : metric.problem?.isNone with
    | true => rw [List.filter_cons, if_pos h, List.flatMap_cons]
    | false =>
      rw [List.filter_cons, if_neg (by simp [h]), Metric.working_plan_of_problem h,
        List.nil_append]

/-- The plan of a batch does the same work without what is skipped. -/
theorem Batch.working_plan_pruned (settings : Settings) (batch : Batch V) :
    (Batch.plan settings batch.pruned).working = (Batch.plan settings batch).working := by
  simp only [Batch.plan, pruned, ResourceMetrics.plan, ResourceMetrics.pruned,
    Plan.working_flatMap, Plan.working_append, List.flatMap_map, working_sourceProblems,
    ScopeMetrics.working_plan_pruned]

/-! ## The problems of what is skipped -/

theorem Metric.problem?_pruned (metric : Metric V) : metric.pruned.problem? = metric.problem? := by
  obtain ⟨name, data⟩ := metric
  cases data <;> rfl

/-- The problems of the resources stay, those of the metrics go. -/
theorem Batch.problems_pruned (fallback : Except String Source) (batch : Batch V) :
    batch.pruned.problems fallback =
      (batch.problems fallback).filter (·.kind = .sourceUnavailable) := by
  have hmetrics : batch.pruned.metrics.filterMap Metric.problem? = [] := by
    refine List.filterMap_eq_nil_iff.mpr fun metric hm => ?_
    obtain ⟨resource, hr, hm⟩ := List.mem_flatMap.mp hm
    obtain ⟨resource, -, rfl⟩ := List.mem_map.mp hr
    obtain ⟨scope, hs, hm⟩ := List.mem_flatMap.mp hm
    obtain ⟨scope, -, rfl⟩ := List.mem_map.mp hs
    obtain ⟨kept, hk, rfl⟩ := List.mem_map.mp hm
    rw [Metric.problem?_pruned]
    exact Option.isNone_iff_eq_none.mp (List.mem_filter.mp hk).2
  have hall : (batch.pruned.problems fallback).filter (·.kind = .sourceUnavailable) =
      batch.pruned.problems fallback := by
    refine List.filter_eq_self.mpr fun problem hp => decide_eq_true ?_
    rw [← filter_problems_metric fallback, List.filter_eq_nil_iff] at hmetrics
    simpa using hmetrics problem hp
  rw [← hall, filter_problems_source, filter_problems_source, pruned, List.filterMap_map]
  rfl

namespace Converter

/-- A batch gives the same points, with as many samples late, and leaves the very same tracker when
data points for which no value was recorded, numbers that are missing or not finite, and metrics
with a problem are left out of it. Of the problems, those of the metrics left out are gone and all
others are heard of in the same order. -/
theorem skipped_input_leaves_no_trace (converter : Converter V) (now : Nat) (batch : Batch V) :
    let fallback := converter.settings.fallback
    let full := converter.convert now batch
    let bare := converter.convert now batch.pruned
    bare.1.points = full.1.points ∧
      bare.1.report.late = full.1.report.late ∧
      bare.2.tracker = full.2.tracker ∧
      (∀ kind, full.1.report.problems kind = bare.1.report.problems kind +
        (batch.metrics.filterMap Metric.problem?).countP (·.kind = kind)) ∧
      converter.observer.Hears full.1 (batch.problems fallback) ∧
      converter.observer.Hears bare.1
        ((batch.problems fallback).filter (·.kind = .sourceUnavailable)) := by
  intro fallback full bare
  obtain ⟨hpoints, hlate, htracker⟩ :=
    convert_of_working_eq (Batch.working_plan_pruned converter.settings batch) now
  have hheard := converter.hears_problems now batch.pruned
  rw [Batch.problems_pruned] at hheard
  refine ⟨hpoints, hlate, htracker, fun kind => ?_, converter.hears_problems now batch, hheard⟩
  rw [problems_report, problems_report, Batch.problems_pruned]
  exact batch.countP_problems fallback kind

end Converter

end MetricPoints
