import Mathlib.Algebra.Ring.Nat
import MetricPoints.Proofs.Labelled

/-
  What is reported of batches. The problems that an observer hears of are those that can be read off
  the input, resource by resource and metric by metric (`Batch.problems`): a plan notes them and
  nothing that is submitted adds to them (`Plan.problems_run`). The report counts them. Two batches
  at once give what they give one after the other (`Converter.convert_append`), so that the report
  of a batch is the sum over its resources; and what stands under the name of a counter grows by the
  sum of the reports (`Converter.lookup_serve`).

  Main statement: `Converter.reports_agree`.
-/

namespace MetricPoints

variable {V : Type}

/-! ## The problems of a batch -/

/-- The problem of a metric: it has no data, or its kind of data is not supported with its
temporality. -/
def Metric.problem? (metric : Metric V) : Option Problem :=
  match metric.data with
  | .unknown => some (.unknownType metric.name)
  | .sum code _ _ =>
    if code = 1 ∨ code = 2 then none else some (.unsupportedTemporality metric.name .sum code)
  | .histogram code _ =>
    if code = 1 ∨ code = 2 then none
    else some (.unsupportedTemporality metric.name .histogram code)
  | .exponential code _ =>
    if code = 1 then none
    else some (.unsupportedTemporality metric.name .exponentialHistogram code)
  | .gauge _ | .summary _ => none

theorem hasSource_iff {attributes : List Attribute} :
    HasSource attributes ↔ (Source.ofAttributes? attributes).isSome = true := by
  refine ⟨Source.isSome_ofAttributes?, fun h => ?_⟩
  obtain ⟨source, hs⟩ := Option.isSome_iff_exists.mp h
  have hresolves := Source.resolves (.error "") attributes
  rw [Source.resolve, hs] at hresolves
  -- a fallback that fails is not the source found
  cases hresolves with
  | task h => exact .inl ⟨_, h⟩
  | chosenHost _ h => exact .inr (.inl ⟨_, h⟩)
  | host _ _ h => exact .inr (.inr ⟨_, h⟩)

instance (attributes : List Attribute) : Decidable (HasSource attributes) :=
  decidable_of_iff _ hasSource_iff.symm

/-- The problem of a resource: it does not tell its source, and the fallback fails. -/
def ResourceMetrics.problem? (fallback : Except String Source) (resource : ResourceMetrics V) :
    Option Problem :=
  match fallback with
  | .ok _ => none
  | .error reason =>
    if HasSource resource.attributes then none else some (.sourceUnavailable reason)

/-- The problems of a batch, in order. -/
def Batch.problems (fallback : Except String Source) (batch : Batch V) : List Problem :=
  batch.flatMap fun resource =>
    (resource.problem? fallback).toList ++
      resource.scopes.flatMap fun scope => scope.metrics.filterMap Metric.problem?

/-- The metrics of a batch, in order. -/
def Batch.metrics (batch : Batch V) : List (Metric V) :=
  batch.flatMap fun resource => resource.scopes.flatMap ScopeMetrics.metrics

theorem Metric.kind_of_problem? {metric : Metric V} {problem : Problem}
    (h : problem ∈ metric.problem?) : problem.kind ≠ .sourceUnavailable := by
  obtain ⟨name, data⟩ := metric
  cases data with
  | unknown =>
    cases h
    nofun
  | gauge | summary => exact nomatch h
  | sum | histogram | exponential =>
    simp only [problem?] at h
    split at h
    · exact nomatch h
    · cases h
      nofun

theorem ResourceMetrics.kind_of_problem? {fallback : Except String Source}
    {resource : ResourceMetrics V} {problem : Problem} (h : problem ∈ resource.problem? fallback) :
    problem.kind = .sourceUnavailable := by
  unfold problem? at h
  split at h
  · exact nomatch h
  · split at h
    · exact nomatch h
    · cases h
      rfl

/-- The problems of the resources of a batch are those of one kind. -/
theorem Batch.filter_problems_source (fallback : Except String Source) (batch : Batch V) :
    (batch.problems fallback).filter (·.kind = .sourceUnavailable) =
      batch.filterMap (ResourceMetrics.problem? fallback) := by
  have hresource (resource : ResourceMetrics V) :
      (resource.problem? fallback).toList.filter (·.kind = .sourceUnavailable) =
        (resource.problem? fallback).toList := by
    refine List.filter_eq_self.mpr fun problem hp => decide_eq_true ?_
    exact ResourceMetrics.kind_of_problem? (Option.mem_toList.mp hp)
  have hmetrics (metrics : List (Metric V)) :
      (metrics.filterMap Metric.problem?).filter (·.kind = .sourceUnavailable) = [] := by
    refine List.filter_eq_nil_iff.mpr fun problem hp => ?_
    obtain ⟨metric, -, h⟩ := List.mem_filterMap.mp hp
    simpa using Metric.kind_of_problem? h
  have hnone (scopes : List (ScopeMetrics V)) :
      (scopes.flatMap fun _ => ([] : List Problem)) = [] :=
    List.flatMap_eq_nil_iff.mpr fun _ _ => rfl
  rw [List.filterMap_eq_flatMap_toList]
  simp only [problems, List.filter_flatMap, List.filter_append, hresource, hmetrics, hnone,
    List.append_nil]

/-- The problems of the metrics of a batch are those of all other kinds. -/
theorem Batch.filter_problems_metric (fallback : Except String Source) (batch : Batch V) :
    (batch.problems fallback).filter (·.kind ≠ .sourceUnavailable) =
      batch.metrics.filterMap Metric.problem? := by
  have hresource (resource : ResourceMetrics V) :
      (resource.problem? fallback).toList.filter (·.kind ≠ .sourceUnavailable) = [] := by
    refine List.filter_eq_nil_iff.mpr fun problem hp => ?_
    simpa using ResourceMetrics.kind_of_problem? (Option.mem_toList.mp hp)
  have hmetrics (metrics : List (Metric V)) :
      (metrics.filterMap Metric.problem?).filter (·.kind ≠ .sourceUnavailable) =
        metrics.filterMap Metric.problem? := by
    refine List.filter_eq_self.mpr fun problem hp => decide_eq_true ?_
    obtain ⟨metric, -, h⟩ := List.mem_filterMap.mp hp
    exact Metric.kind_of_problem? h
  simp only [problems, metrics, List.filter_flatMap, List.filter_append, hresource, hmetrics,
    List.nil_append, List.filterMap_flatMap]

/-- The problems of a batch of one kind are those of its resources and those of its metrics. -/
theorem Batch.countP_problems (fallback : Except String Source) (batch : Batch V)
    (kind : ProblemKind) :
    (batch.problems fallback).countP (·.kind = kind) =
      ((batch.problems fallback).filter (·.kind = .sourceUnavailable)).countP (·.kind = kind) +
        (batch.metrics.filterMap Metric.problem?).countP (·.kind = kind) := by
  rw [← batch.filter_problems_metric fallback]
  simp only [ne_eq, decide_not]
  exact List.countP_eq_countP_filter_add _ _ _

theorem Batch.countP_problems_metric (fallback : Except String Source) (batch : Batch V)
    {kind : ProblemKind} (hk : kind ≠ .sourceUnavailable) :
    (batch.problems fallback).countP (·.kind = kind) =
      (batch.metrics.filterMap Metric.problem?).countP (·.kind = kind) := by
  have hnone : ((batch.problems fallback).filter (·.kind = .sourceUnavailable)).countP
      (·.kind = kind) = 0 := by
    refine List.countP_eq_zero.mpr fun problem hp => ?_
    have hsource := of_decide_eq_true (List.mem_filter.mp hp).2
    simpa [hsource] using hk.symm
  rw [countP_problems, hnone, Nat.zero_add]

/-! ## The problems that a plan notes -/

/-- The problem that a step notes. -/
def Step.problem? : Step V → Option Problem
  | note notice => notice.problem?
  | _ => none

/-- The problems that a plan notes, in order. -/
def Plan.problems (plan : Plan V) : List Problem := plan.filterMap Step.problem?

namespace Plan

theorem problems_append (p q : Plan V) : problems (p ++ q) = p.problems ++ q.problems :=
  List.filterMap_append

theorem problems_flatMap {α : Type} (xs : List α) (plan : α → Plan V) :
    problems (xs.flatMap plan) = xs.flatMap fun x => (plan x).problems :=
  List.filterMap_flatMap

theorem problems_eq_nil {plan : Plan V} (h : ∀ step ∈ plan, step.problem? = none) :
    plan.problems = [] :=
  List.filterMap_eq_nil_iff.mpr h

end Plan

section Run

variable [Amount V]

/-- Whatever samples mean, they are no problem. -/
theorem Step.problems_outcome (step : Step V) (changes : List (Change V)) :
    (step.outcome changes).notices.filterMap Notice.problem? = step.problem?.toList := by
  cases step with
  | emit point => rfl
  | note notice =>
    show [notice].filterMap Notice.problem? = notice.problem?.toList
    cases h : notice.problem? <;> simp [h]
  | aggregate a => rfl
  | track role sample =>
    show ((changes.head?.map (role.outcome sample)).getD .empty).notices.filterMap _ = []
    cases changes.head? with
    | none => rfl
    | some change =>
      show (if _ then _ else _ : List (Notice V)).filterMap Notice.problem? = []
      split <;> rfl

theorem Plan.problems_run (now : Nat) (plan : Plan V) (tracker : Tracker V) :
    (run now plan tracker).1.notices.filterMap Notice.problem? = plan.problems := by
  induction plan generalizing tracker with
  | nil => rfl
  | cons step rest ih =>
    rw [run_cons, Outcome.notices_append, List.filterMap_append, ih]
    have hstep : (step.run now tracker).1.notices.filterMap Notice.problem? =
        step.problem?.toList := step.problems_outcome _
    rw [hstep, problems, problems, List.filterMap_cons]
    cases step.problem? <;> rfl

end Run

section Plans

variable [Amount V] {settings : Settings}

theorem Number.problem?_step {labels : Labels} {use : V → Step V}
    (h : ∀ value, (use value).problem? = none) (number : Number V) :
    (Number.step labels use number).problem? = none := by
  unfold step
  split
  · exact h _
  · rfl

theorem NumberPoint.problems_plan (reading : V → Reading V) (labels : Labels)
    (point : DataPoint (Option (Number V))) : (plan reading labels point).problems = [] :=
  Plan.problems_eq_nil (List.forall_mem_map.mpr fun number _ =>
    number.problem?_step fun _ => rfl)

theorem NumberPoint.problems_totalPlan (labels : Labels)
    (point : DataPoint (Option (Number V))) : (totalPlan labels point).problems = [] :=
  Plan.problems_eq_nil (List.forall_mem_map.mpr fun number _ =>
    number.problem?_step fun _ => rfl)

theorem Stats.problems_remarks (stats : Stats V) (labels : Labels) :
    Plan.problems (stats.remarks labels) = [] := by
  apply Plan.problems_eq_nil
  intro step hs
  obtain ⟨remark, rfl⟩ := remark_of_mem_remarks hs
  rfl

theorem Stats.problems_plan (labels : Labels) (time : Nat) (temporality : Temporality)
    (stats : Stats V) : (stats.plan settings labels time temporality).problems = [] := by
  unfold Stats.plan
  split
  · rw [Plan.problems_append, problems_remarks, List.nil_append]
    cases temporality with
    | delta => exact Plan.problems_eq_nil (List.forall_mem_map.mpr fun _ _ => rfl)
    | cumulative => rfl
  · rfl

theorem Stats.problems_distributionPlan (stats : Stats V) (labels : Labels) (time : Nat)
    (temporality : Temporality) (layout : Layout) :
    (stats.distributionPlan labels time temporality layout).problems = [] := by
  rw [distributionPlan, Plan.problems_append, problems_remarks]
  rfl

theorem Histogram.problems_bucketPlan (labels : Labels) (time : Nat) (temporality : Temporality)
    (histogram : Histogram V) : (histogram.bucketPlan labels time temporality).problems = [] := by
  unfold bucketPlan
  split
  · rfl
  · split
    · refine Plan.problems_eq_nil (List.forall_mem_map.mpr fun bucket _ => ?_)
      cases temporality <;> rfl
    · rfl

theorem Histogram.problems_plan (labels : Labels) (time : Nat) (temporality : Temporality)
    (histogram : Histogram V) :
    (histogram.plan settings labels time temporality).problems = [] := by
  rw [Histogram.plan, Plan.problems_append, Stats.problems_plan, List.nil_append]
  cases settings.bucketMode with
  | omitted => rfl
  | counters => exact histogram.problems_bucketPlan labels time temporality
  | distributions => exact Stats.problems_distributionPlan _ _ _ _ _

theorem ExponentialHistogram.problems_plan (labels : Labels) (time : Nat)
    (histogram : ExponentialHistogram V) :
    (histogram.plan settings labels time).problems = [] := by
  unfold ExponentialHistogram.plan
  rw [Plan.problems_append, Stats.problems_plan, List.nil_append]
  split
  · rfl
  · exact Stats.problems_distributionPlan _ _ _ _ _

theorem Summary.problems_plan (labels : Labels) (time : Nat) (summary : Summary V) :
    (summary.plan settings labels time).problems = [] := by
  apply Plan.problems_eq_nil
  unfold Summary.plan
  refine List.forall_mem_cons.mpr ⟨rfl, List.forall_mem_cons.mpr ⟨?_, ?_⟩⟩
  · unfold sumStep
    split <;> rfl
  · split
    · refine List.forall_mem_map.mpr fun entry _ => ?_
      unfold quantileStep
      split <;> rfl
    · exact List.forall_mem_nil _

theorem Aggregated.problems_pointPlan {α : Type} (labels : Labels)
    (aggregated : α → Aggregated V) (point : DataPoint α) :
    (pointPlan settings labels aggregated point).problems = [] := by
  unfold pointPlan
  cases aggregated point.value with
  | histogram temporality h => exact h.problems_plan _ _ temporality
  | exponential h => exact h.problems_plan _ _
  | summary s => exact s.problems_plan _ _

omit [Amount V] in
theorem problems_pointPlans {α : Type} {plan : DataPoint α → Plan V}
    (h : ∀ point, (plan point).problems = []) (points : List (DataPoint α)) :
    (pointPlans plan points).problems = [] := by
  rw [pointPlans, Plan.problems_flatMap, List.flatMap_eq_nil_iff]
  exact fun point _ => h point

omit [Amount V] in
theorem problems_unsupported (name : String) (kind : DataKind) (code : Int) :
    (unsupported name kind code : Plan V).problems = [.unsupportedTemporality name kind code] :=
  rfl

theorem Temporality.ofCode?_eq_none_iff {code : Int} :
    ofCode? code = none ↔ ¬ (code = 1 ∨ code = 2) := by
  unfold ofCode?
  split <;> simp_all

theorem Temporality.ofCode?_eq_delta_iff {code : Int} :
    ofCode? code = some .delta ↔ code = 1 := by
  unfold ofCode?
  split <;> simp_all

theorem Temporality.ofCode?_eq_cumulative_iff {code : Int} :
    ofCode? code = some .cumulative ↔ code = 2 := by
  unfold ofCode?
  split <;> simp_all

theorem Temporality.eq_or_eq_of_ofCode? {code : Int} {temporality : Temporality}
    (h : ofCode? code = some temporality) : code = 1 ∨ code = 2 := by
  by_contra hcode
  rw [ofCode?_eq_none_iff.mpr hcode] at h
  exact nomatch h

/-- The plan of a metric notes its problem, if it has one, and nothing else. -/
theorem Metric.problems_plan (context : Context) (metric : Metric V) :
    (metric.plan settings context).problems = metric.problem?.toList := by
  obtain ⟨name, data⟩ := metric
  unfold Metric.plan Metric.problem?
  cases data with
  | unknown => rfl
  | gauge points => exact problems_pointPlans (NumberPoint.problems_plan _ _) points
  | sum code monotonic points =>
    unfold MetricData.plan
    dsimp only
    split
    · rename_i hcode
      rw [if_pos (Temporality.eq_or_eq_of_ofCode? hcode)]
      split
      · exact problems_pointPlans (NumberPoint.problems_totalPlan _) points
      · exact problems_pointPlans (NumberPoint.problems_plan _ _) points
    · rename_i hcode
      rw [if_pos (Temporality.eq_or_eq_of_ofCode? hcode)]
      exact problems_pointPlans (NumberPoint.problems_plan _ _) points
    · rename_i hcode
      rw [if_neg (Temporality.ofCode?_eq_none_iff.mp hcode), problems_unsupported]
      rfl
  | histogram code points =>
    unfold MetricData.plan
    dsimp only
    split
    · rename_i hcode
      rw [if_pos (Temporality.eq_or_eq_of_ofCode? hcode)]
      exact problems_pointPlans (Aggregated.problems_pointPlan _ _) points
    · rename_i hcode
      rw [if_neg (Temporality.ofCode?_eq_none_iff.mp hcode), problems_unsupported]
      rfl
  | exponential code points =>
    unfold MetricData.plan
    dsimp only
    split
    · rename_i hcode
      rw [if_pos (Temporality.ofCode?_eq_delta_iff.mp hcode)]
      exact problems_pointPlans (Aggregated.problems_pointPlan _ _) points
    · rename_i hcode
      rw [if_neg (mt Temporality.ofCode?_eq_delta_iff.mpr hcode), problems_unsupported]
      rfl
  | summary points => exact problems_pointPlans (Aggregated.problems_pointPlan _ _) points

/-- All that is planned for a metric with a problem is to note it. -/
theorem Metric.plan_of_problem {metric : Metric V} {problem : Problem}
    (h : problem ∈ metric.problem?) (context : Context) :
    metric.plan settings context = [.note (.problem problem)] := by
  obtain ⟨name, data⟩ := metric
  unfold Metric.plan
  cases data with
  | unknown =>
    cases h
    rfl
  | gauge | summary => exact nomatch h
  | sum code | histogram code =>
    simp only [problem?] at h
    split at h
    · exact nomatch h
    · rename_i hcode
      cases h
      simp only [MetricData.plan, Temporality.ofCode?_eq_none_iff.mpr hcode]
      rfl
  | exponential code =>
    simp only [problem?] at h
    split at h
    · exact nomatch h
    · rename_i hcode
      cases h
      unfold MetricData.plan
      dsimp only
      split
      · rename_i hdelta
        exact absurd (Temporality.ofCode?_eq_delta_iff.mp hdelta) hcode
      · rfl

omit [Amount V] in
theorem ResourceMetrics.problems_source (resource : ResourceMetrics V) :
    (sourceProblems (Source.resolve settings.fallback resource.attributes) : Plan V).problems =
      (resource.problem? settings.fallback).toList := by
  unfold ResourceMetrics.problem? Source.resolve
  simp only [hasSource_iff]
  cases Source.ofAttributes? resource.attributes with
  | some source =>
    cases settings.fallback <;> rfl
  | none =>
    cases settings.fallback <;> rfl

/-- The plan of a batch notes the problems of the batch. -/
theorem Batch.problems_plan (settings : Settings) (batch : Batch V) :
    (Batch.plan settings batch).problems = batch.problems settings.fallback := by
  simp only [Batch.plan, ResourceMetrics.plan, ScopeMetrics.plan, Plan.problems_flatMap,
    Plan.problems_append, ResourceMetrics.problems_source, Metric.problems_plan, Batch.problems,
    List.filterMap_eq_flatMap_toList]

end Plans

/-! ## Reports and counters -/

/-- What a sum of reports says of a counter is the sum of what each says. -/
theorem Counter.reported_sum (counter : Counter) (reports : List Report) :
    counter.reported reports.sum = (reports.map counter.reported).sum := by
  induction reports with
  | nil => exact counter.reported_zero
  | cons report rest ih =>
    rw [List.sum_cons, reported_add, ih, List.map_cons, List.sum_cons]

theorem Remark.level_event (remark : Remark V) : remark.event.level = .debug := by
  cases remark <;> rfl

theorem Problem.level_event (problem : Problem) :
    (problem.event : Event V).level = .warn := by
  cases problem <;> rfl

/-- The warnings in the log of an observer that logs are those of the problems. -/
theorem Observer.warnings_logger (notices : List (Notice V)) :
    (Observer.logger.events notices).filter (·.level = .warn) =
      (notices.filterMap Notice.problem?).map Problem.event := by
  induction notices with
  | nil => rfl
  | cons notice rest ih =>
    cases notice with
    | remark remark =>
      show (remark.event :: Observer.logger.events rest).filter _ = _
      rw [List.filter_cons_of_neg (by simp [remark.level_event]), ih]
      rfl
    | problem problem =>
      show (problem.event :: Observer.logger.events rest).filter _ = _
      rw [List.filter_cons_of_pos (by simp [problem.level_event]), ih]
      rfl

/-- What was converted bit by bit, as one: the points, problems and events in order and the reports
added up. -/
def Converted.join (each : List (Converted V)) : Converted V := each.foldr append none

/-- Says that an observer hears of these problems and of no others: it has collected them, or they
are the warnings in the log. -/
def Observer.Hears (observer : Observer) (converted : Converted V) (problems : List Problem) :
    Prop :=
  match observer with
  | .collector => converted.problems = problems
  | .logger => converted.events.filter (·.level = .warn) = problems.map Problem.event

/-- What can be asked of a converter, and what can happen to it meanwhile: idle series are swept, or
the fallback answers something else. -/
inductive Call (V : Type) where
  | convert (now : Nat) (batch : Batch V)
  | sweep (now : Nat)
  | fallback (source : Except String Source)

namespace Converter

variable [Amount V]

/-- Serves one call after the other; gives what the batches gave. -/
def serve (converter : Converter V) : List (Call V) → List (Converted V) × Converter V
  | [] => ([], converter)
  | .convert now batch :: rest =>
    let first := converter.convert now batch
    let more := first.2.serve rest
    (first.1 :: more.1, more.2)
  | .sweep now :: rest => { converter with tracker := converter.tracker.sweep now }.serve rest
  | .fallback source :: rest =>
    { converter with settings := { converter.settings with fallback := source } }.serve rest

/-- The counters grow by the sum of the reports, unless nothing is counted. -/
theorem counts_serve (converter : Converter V) (calls : List (Call V)) :
    (converter.serve calls).2.counts =
      if converter.counting then
        converter.counts.add ((converter.serve calls).1.map Converted.report).sum
      else converter.counts := by
  induction calls generalizing converter with
  | nil =>
    show converter.counts = if _ then converter.counts.add 0 else _
    rw [Counts.add_zero, ite_self]
  | cons call rest ih =>
    cases call with
    | sweep now => exact ih _
    | fallback source => exact ih _
    | convert now batch =>
      simp only [serve]
      rw [ih, counting_convert, counts_convert]
      split
      · rw [Counts.add_add, List.map_cons, List.sum_cons]
      · rfl

/-- Under the name of a counter stands what it read before and the sum of what the reports say. -/
theorem lookup_serve (converter : Converter V) (calls : List (Call V)) (counter : Counter) :
    (converter.serve calls).2.counts.named.lookup counter.name =
      some (converter.counts.reads counter +
        if converter.counting then
          (((converter.serve calls).1.map Converted.report).map counter.reported).sum
        else 0) := by
  rw [Counts.lookup_named, counts_serve, ← Counter.reported_sum]
  split
  · rfl
  · rfl

theorem notices_problems (converter : Converter V) (now : Nat) (batch : Batch V) :
    (Plan.run now (Batch.plan converter.settings batch)
        converter.tracker).1.notices.filterMap Notice.problem? =
      batch.problems converter.settings.fallback := by
  rw [Plan.problems_run, Batch.problems_plan]

theorem hears_problems (converter : Converter V) (now : Nat) (batch : Batch V) :
    converter.observer.Hears (converter.convert now batch).1
      (batch.problems converter.settings.fallback) := by
  rw [← converter.notices_problems now batch, fst_convert]
  unfold shown Observer.Hears
  cases converter.observer with
  | collector => rfl
  | logger => exact Observer.warnings_logger _

/-- A batch reports as many points as the consumer gets. -/
theorem points_report (converter : Converter V) (now : Nat) (batch : Batch V) :
    (converter.convert now batch).1.report.points =
      (converter.convert now batch).1.points.length := by
  rw [fst_convert]
  rfl

/-- A batch reports the problems that can be read off it. -/
theorem problems_report (converter : Converter V) (now : Nat) (batch : Batch V)
    (kind : ProblemKind) :
    (converter.convert now batch).1.report.problems kind =
      (batch.problems converter.settings.fallback).countP (·.kind = kind) := by
  rw [← converter.notices_problems now batch, fst_convert]
  exact Report.problems_of _ kind

theorem convert_nil (converter : Converter V) (now : Nat) :
    converter.convert now [] = (.none, converter) := rfl

/-- Two batches at once give what they give one after the other, and leave the same converter. -/
theorem convert_append (converter : Converter V) (now : Nat) (a b : Batch V) :
    let first := converter.convert now a
    let second := first.2.convert now b
    converter.convert now (a ++ b) = (first.1.append second.1, second.2) := by
  induction a generalizing converter with
  | nil => exact Prod.ext (Converted.none_append _).symm rfl
  | cons resource rest ih =>
    simp only [List.cons_append, convert]
    rw [ih, Converted.append_assoc]

/-- A batch gives what its resources give one after the other, and leaves the same converter. -/
theorem convert_eq_each (converter : Converter V) (now : Nat) (batch : Batch V) :
    let each := converter.convertAll now (batch.map fun resource => [resource])
    converter.convert now batch = (.join each.1, each.2) := by
  induction batch generalizing converter with
  | nil => rfl
  | cons resource rest ih =>
    rw [← List.singleton_append, convert_append, ih]
    rfl

/-- Problems, points, reports and counters of batches agree, although each is told at a place of its
own: every batch reports as many points as the consumer gets, and the problems that can be read off
it, of which the observer hears in order; its report is the sum over its resources. Over any calls,
with sweeps and changes of the fallback between them, the counter of points grows by the points that
the reports count, that of dropped points by what they count as late, and that of each kind of
problem by what they count of that kind, unless nothing is counted. -/
theorem reports_agree (converter : Converter V) :
    (∀ now batch,
      let converted := (converter.convert now batch).1
      let problems := Batch.problems converter.settings.fallback batch
      let each := converter.convertAll now (batch.map fun resource => [resource])
      converted.report.points = converted.points.length ∧
        (∀ kind, converted.report.problems kind = problems.countP (·.kind = kind)) ∧
        converter.observer.Hears converted problems ∧
        converter.convert now batch = (.join each.1, each.2)) ∧
      ∀ calls,
        let reports := (converter.serve calls).1.map Converted.report
        let reads := fun name => (converter.serve calls).2.counts.named.lookup name
        let grown := fun counter (count : Report → Nat) =>
          some (converter.counts.reads counter +
            if converter.counting then (reports.map count).sum else 0)
        reads "otlp_translator_points_translated_total" = grown .points Report.points ∧
          reads "otlp_translator_points_dropped_total" = grown .late Report.late ∧
          ∀ kind, reads ("otlp_translator_diagnostics_total\x7bkind=" ++ kind.name ++ "\x7d") =
            grown (.problems kind) (·.problems kind) := by
  refine ⟨fun now batch => ?_, fun calls => ⟨?_, ?_, fun kind => ?_⟩⟩
  · exact ⟨converter.points_report now batch, converter.problems_report now batch,
      converter.hears_problems now batch, converter.convert_eq_each now batch⟩
  · exact converter.lookup_serve calls .points
  · exact converter.lookup_serve calls .late
  · exact converter.lookup_serve calls (.problems kind)

end Converter

end MetricPoints
