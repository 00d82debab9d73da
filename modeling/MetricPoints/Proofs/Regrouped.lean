import MetricPoints.Proofs.Reported

/-
  Batches that are regrouped: a resource, a scope or a metric is split into consecutive ones of the
  same description that hold slices of what it held, and the resources are spread over several
  batches. The data points stay where they belong and in order (`Batch.Split.sites`), and so do the
  problems of the metrics (`Batch.Split.problems`). What batches give one after the other is what
  they give at once (`Converter.convert_flatten`).

  Main statement: `Converter.grouping_is_transparent`.
-/

namespace MetricPoints

variable {V : Type}

/-! ## Splitting -/

/-- Every element of the first list is split into parts; the second list holds the parts in
order. -/
inductive SplitEach {α : Type} (split : α → List α → Prop) : List α → List α → Prop
  | nil : SplitEach split [] []
  | cons {x : α} {parts xs ys : List α} (h : split x parts) (hr : SplitEach split xs ys) :
    SplitEach split (x :: xs) (parts ++ ys)

/-- What every split leaves as it is, splitting each element does. -/
theorem SplitEach.flatMap_eq {α β : Type} {split : α → List α → Prop} {f : α → List β}
    (hf : ∀ x parts, split x parts → parts.flatMap f = f x) {xs ys : List α}
    (h : SplitEach split xs ys) : ys.flatMap f = xs.flatMap f := by
  induction h with
  | nil => rfl
  | cons hx _ ih => rw [List.flatMap_append, List.flatMap_cons, hf _ _ hx, ih]

/-- Data of a supported kind, split into slices of its data points. -/
inductive MetricData.Split : MetricData V → List (MetricData V) → Prop
  | gauge (slices : List (List (DataPoint (Option (Number V))))) :
    Split (.gauge slices.flatten) (slices.map .gauge)
  | sum {code : Int} (h : code = 1 ∨ code = 2) (monotonic : Bool)
    (slices : List (List (DataPoint (Option (Number V))))) :
    Split (.sum code monotonic slices.flatten) (slices.map (.sum code monotonic))
  | histogram {code : Int} (h : code = 1 ∨ code = 2)
    (slices : List (List (DataPoint (Histogram V)))) :
    Split (.histogram code slices.flatten) (slices.map (.histogram code))
  | exponential (slices : List (List (DataPoint (ExponentialHistogram V)))) :
    Split (.exponential 1 slices.flatten) (slices.map (.exponential 1))
  | summary (slices : List (List (DataPoint (Summary V)))) :
    Split (.summary slices.flatten) (slices.map .summary)

/-- A metric, left whole or split into metrics of its name. -/
inductive Metric.Split : Metric V → List (Metric V) → Prop
  | whole (metric : Metric V) : Split metric [metric]
  | slices (name : String) {data : MetricData V} {slices : List (MetricData V)}
    (h : data.Split slices) : Split ⟨name, data⟩ (slices.map (⟨name, ·⟩))

/-- A scope, split into slices of its metrics once these are split. -/
inductive ScopeMetrics.Split : ScopeMetrics V → List (ScopeMetrics V) → Prop
  | slices (scope : Option Scope) {metrics : List (Metric V)} {slices : List (List (Metric V))}
    (h : SplitEach Metric.Split metrics slices.flatten) :
    Split ⟨scope, metrics⟩ (slices.map (⟨scope, ·⟩))

/-- A resource, split into slices of its scopes once these are split. -/
inductive ResourceMetrics.Split : ResourceMetrics V → List (ResourceMetrics V) → Prop
  | slices (attributes : List Attribute) {scopes : List (ScopeMetrics V)}
    {slices : List (List (ScopeMetrics V))}
    (h : SplitEach ScopeMetrics.Split scopes slices.flatten) :
    Split ⟨attributes, scopes⟩ (slices.map (⟨attributes, ·⟩))

/-- A batch, spread over several batches once its resources are split. -/
def Batch.Split (batch : Batch V) (batches : List (Batch V)) : Prop :=
  SplitEach ResourceMetrics.Split batch batches.flatten

/-! ## What splitting leaves as it is -/

/-- What is read off the elements of slices is read off the slices. -/
theorem flatMap_flatten {α β : Type} (f : α → List β) (slices : List (List α)) :
    slices.flatten.flatMap f = slices.flatMap (·.flatMap f) := by
  rw [← List.flatMap_id, List.flatMap_assoc]
  rfl

theorem MetricData.Split.points {data : MetricData V} {slices : List (MetricData V)}
    (h : data.Split slices) : slices.flatMap MetricData.points = data.points := by
  cases h <;> simp only [MetricData.points, List.map_flatten, List.flatMap_def, List.map_map] <;>
    rfl

/-- Only data without a problem is split, into data without a problem. -/
theorem MetricData.Split.problem? {data : MetricData V} {slices : List (MetricData V)}
    (h : data.Split slices) (name : String) :
    (Metric.mk name data).problem? = none ∧
      ∀ slice ∈ slices, (Metric.mk name slice).problem? = none := by
  cases h with
  | gauge | exponential | summary => exact ⟨rfl, List.forall_mem_map.mpr fun _ _ => rfl⟩
  | sum h | histogram h => exact ⟨if_pos h, List.forall_mem_map.mpr fun _ _ => if_pos h⟩

/-- What is read off each metric of a batch, with its resource and its scope, in order. -/
def Batch.gather {α : Type} (f : List Attribute → Option Scope → Metric V → List α)
    (batch : Batch V) : List α :=
  batch.flatMap fun resource => resource.scopes.flatMap fun scope =>
    scope.metrics.flatMap (f resource.attributes scope.scope)

/-- What can be read off the parts of a metric can be read off those of a batch. -/
theorem Batch.Split.gather_eq {α : Type} {f : List Attribute → Option Scope → Metric V → List α}
    (hf : ∀ attributes scope metric parts, Metric.Split metric parts →
      parts.flatMap (f attributes scope) = f attributes scope metric)
    {batch : Batch V} {batches : List (Batch V)} (h : batch.Split batches) :
    Batch.gather f batches.flatten = batch.gather f := by
  have hscope (attributes : List Attribute) (scope : ScopeMetrics V) (parts : List (ScopeMetrics V))
      (h : scope.Split parts) :
      (parts.flatMap fun part => part.metrics.flatMap (f attributes part.scope)) =
        scope.metrics.flatMap (f attributes scope.scope) := by
    obtain ⟨scope, h⟩ := h
    rw [List.flatMap_map, ← h.flatMap_eq (hf attributes scope), flatMap_flatten]
  refine SplitEach.flatMap_eq (fun resource parts hr => ?_) h
  obtain ⟨attributes, hr⟩ := hr
  rw [List.flatMap_map, ← hr.flatMap_eq (hscope attributes), flatMap_flatten]

/-- The data points stay where they belong, and in order. -/
theorem Batch.Split.sites {batch : Batch V} {batches : List (Batch V)} (h : batch.Split batches) :
    Batch.sites batches.flatten = batch.sites := by
  refine h.gather_eq (f := fun attributes scope metric =>
    metric.data.points.map (Site.mk attributes scope metric.name)) ?_
  rintro attributes scope _ _ (⟨metric⟩ | ⟨name, hdata⟩)
  · exact List.flatMap_singleton _ _
  · rw [List.flatMap_map, ← hdata.points, List.map_flatMap]

/-- The metrics have the same problems, in order. -/
theorem Batch.Split.problems {batch : Batch V} {batches : List (Batch V)}
    (h : batch.Split batches) :
    (Batch.metrics batches.flatten).filterMap Metric.problem? =
      batch.metrics.filterMap Metric.problem? := by
  have hgather (batch : Batch V) : batch.metrics.filterMap Metric.problem? =
      batch.gather fun _ _ metric => metric.problem?.toList := by
    simp only [metrics, gather, List.filterMap_eq_flatMap_toList, List.flatMap_assoc]
  rw [hgather, hgather]
  refine h.gather_eq ?_
  rintro _ _ _ _ (⟨metric⟩ | ⟨name, hdata⟩)
  · exact List.flatMap_singleton _ _
  · obtain ⟨hnone, hslices⟩ := hdata.problem? name
    rw [List.flatMap_map, hnone]
    exact List.flatMap_eq_nil_iff.mpr fun slice hs => by rw [hslices slice hs]; rfl

/-! ## What batches give one after the other -/

namespace Converted

theorem points_join (each : List (Converted V)) :
    (join each).points = each.flatMap Converted.points := by
  induction each with
  | nil => rfl
  | cons first rest ih => exact congrArg (first.points ++ ·) ih

theorem report_join (each : List (Converted V)) :
    (join each).report = (each.map Converted.report).sum := by
  induction each with
  | nil => rfl
  | cons first rest ih => exact congrArg (first.report + ·) ih

end Converted

namespace Converter

variable [Amount V]

/-- Batches at once give what they give one after the other, and leave the same converter. -/
theorem convert_flatten (converter : Converter V) (now : Nat) (batches : List (Batch V)) :
    let each := converter.convertAll now batches
    converter.convert now batches.flatten = (.join each.1, each.2) := by
  induction batches generalizing converter with
  | nil => exact converter.convert_nil now
  | cons batch rest ih =>
    rw [List.flatten_cons, convert_append, ih]
    rfl

/-- However a batch is regrouped, by spreading its resources over batches and by splitting
resources, scopes and metrics into consecutive ones that hold slices of what they held, it gives the
same points in order, with as many late and as many metrics with a problem, and leaves the very same
tracker. A source that is not available is counted for each of the resources that result, since the
fallback answers the same to each of them. -/
theorem grouping_is_transparent (converter : Converter V) (now : Nat) {batch : Batch V}
    {batches : List (Batch V)} (h : batch.Split batches) :
    let whole := converter.convert now batch
    let parts := converter.convertAll now batches
    let total := (parts.1.map Converted.report).sum
    parts.1.flatMap Converted.points = whole.1.points ∧
      parts.2.tracker = whole.2.tracker ∧
      total.points = whole.1.report.points ∧
      total.late = whole.1.report.late ∧
      total.unknownType = whole.1.report.unknownType ∧
      total.unsupportedTemporality = whole.1.report.unsupportedTemporality ∧
      total.sourceUnavailable = batches.flatten.countP fun resource =>
        (resource.problem? converter.settings.fallback).isSome := by
  intro whole parts total
  let joined := (converter.convert now batches.flatten).1
  have hjoined : converter.convert now batches.flatten = (.join parts.1, parts.2) :=
    converter.convert_flatten now batches
  have htotal : total = joined.report := by
    rw [show joined = _ from congrArg Prod.fst hjoined, Converted.report_join]
  have hwork : (Batch.plan converter.settings batches.flatten).working =
      (Batch.plan converter.settings batch).working := by
    rw [Batch.working_plan, Batch.working_plan, h.sites]
  obtain ⟨hpoints, hlate, htracker⟩ := convert_of_working_eq hwork now
  have hproblems (kind : ProblemKind) (hk : kind ≠ .sourceUnavailable) :
      joined.report.problems kind = whole.1.report.problems kind := by
    rw [problems_report, problems_report, Batch.countP_problems_metric _ _ hk,
      Batch.countP_problems_metric _ _ hk, h.problems]
  have hflat : parts.1.flatMap Converted.points = whole.1.points := by
    rw [← hpoints, hjoined, Converted.points_join]
  rw [htotal]
  refine ⟨hflat, ?_, ?_, hlate, hproblems .unknownType nofun,
    hproblems .unsupportedTemporality nofun, ?_⟩
  · rw [← htracker, hjoined]
  · rw [points_report, points_report, hpoints]
  · show joined.report.problems .sourceUnavailable = _
    rw [problems_report, List.countP_eq_length_filter, Batch.filter_problems_source,
      List.length_filterMap_eq_countP]

/-- The metric of a running total. -/
def requests (points : List (DataPoint (Option (Number Rat)))) : Metric Rat :=
  ⟨"requests", .sum 2 true points⟩

def five : DataPoint (Option (Number Rat)) := ⟨1, [], 0, some (.integer 5)⟩

def nine : DataPoint (Option (Number Rat)) := ⟨2, [], 0, some (.integer 9)⟩

/-- A running total and a metric without data, from a resource that does not tell its source. -/
def oneCall : Batch Rat := [⟨[], [⟨none, [requests [five, nine], ⟨"sizes", .unknown⟩]⟩]⟩]

/-- The same in two batches, with the running total split between them. -/
def twoCalls : List (Batch Rat) :=
  [[⟨[], [⟨none, [requests [five]]⟩]⟩],
    [⟨[], [⟨none, [requests [nine], ⟨"sizes", .unknown⟩]⟩]⟩]]

theorem oneCall_split_twoCalls : oneCall.Split twoCalls := by
  have htotal : Metric.Split (requests [five, nine]) [requests [five], requests [nine]] :=
    .slices "requests" (.sum (.inr rfl) true [[five], [nine]])
  have hmetrics : SplitEach Metric.Split [requests [five, nine], ⟨"sizes", .unknown⟩]
      ([requests [five], requests [nine]] ++ [⟨"sizes", .unknown⟩]) :=
    .cons htotal (.cons (Metric.Split.whole _) .nil)
  have hscope := @ScopeMetrics.Split.slices Rat none _
    [[requests [five]], [requests [nine], ⟨"sizes", .unknown⟩]] hmetrics
  have hscopes := SplitEach.cons hscope .nil
  have hresource := @ResourceMetrics.Split.slices Rat [] _
    [[⟨none, [requests [five]]⟩], [⟨none, [requests [nine], ⟨"sizes", .unknown⟩]⟩]] hscopes
  have hbatch := SplitEach.cons hresource .nil
  exact hbatch

theorem oneCall_in_two :
    let settings := { Settings.default with fallback := .error "no host" }
    let converter : Converter Rat := ⟨settings, .empty 0, .collector, false, .zero⟩
    let parts := (converter.convertAll 0 twoCalls).1
    oneCall.Split twoCalls ∧
      parts.flatMap Converted.points = (converter.convert 0 oneCall).1.points ∧
      (converter.convert 0 oneCall).1.points.length = 1 ∧
      (parts.map Converted.report).sum.unknownType = 1 ∧
      (parts.map Converted.report).sum.sourceUnavailable = 2 := by
  intro settings converter parts
  have hsplit := oneCall_split_twoCalls
  obtain ⟨hpoints, -, -, -, hunknown, -, hsource⟩ := grouping_is_transparent converter 0 hsplit
  exact ⟨hsplit, hpoints, by decide +kernel, hunknown, hsource⟩

end Converter

end MetricPoints
