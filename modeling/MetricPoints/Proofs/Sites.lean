import Mathlib.Data.List.Forall2
import MetricPoints.Proofs.Channels

/-
  Data points where they stand in a batch, with the resource, the scope and the metric that they
  belong to. The points of a batch are those that its data points give one after the other, each of
  them as if it were converted alone (`Converter.convert_eq_alone`): a metric or a resource with a
  problem adds notices, but neither points nor samples.
-/

namespace MetricPoints

variable {V : Type}

/-- What a data point measures, with what its metric says of all its data points. -/
inductive Measured (V : Type) where
  | gauge (value : Option (Number V))
  | sum (temporality : Int) (monotonic : Bool) (value : Option (Number V))
  | histogram (temporality : Int) (value : Histogram V)
  | exponential (temporality : Int) (value : ExponentialHistogram V)
  | summary (value : Summary V)

/-- The data point with another value. -/
def DataPoint.map {α β : Type} (f : α → β) (point : DataPoint α) : DataPoint β :=
  ⟨point.time, point.attributes, point.flags, f point.value⟩

namespace MetricData

/-- The data points of a metric, in order. -/
def points : MetricData V → List (DataPoint (Measured V))
  | .unknown => []
  | .gauge points => points.map (.map .gauge)
  | .sum temporality monotonic points => points.map (.map (.sum temporality monotonic))
  | .histogram temporality points => points.map (.map (.histogram temporality))
  | .exponential temporality points => points.map (.map (.exponential temporality))
  | .summary points => points.map (.map .summary)

/-- The data of a metric with one data point. -/
def single (point : DataPoint (Measured V)) : MetricData V :=
  match point.value with
  | .gauge value => .gauge [point.map fun _ => value]
  | .sum temporality monotonic value => .sum temporality monotonic [point.map fun _ => value]
  | .histogram temporality value => .histogram temporality [point.map fun _ => value]
  | .exponential temporality value => .exponential temporality [point.map fun _ => value]
  | .summary value => .summary [point.map fun _ => value]

end MetricData

/-- A data point with what it belongs to: a resource by its attributes, a scope, and a metric by its
name. -/
structure Site (V : Type) where
  resource : List Attribute
  scope : Option Scope
  metric : String
  point : DataPoint (Measured V)

/-- A resource that holds one data point and nothing else. -/
def Site.alone (site : Site V) : ResourceMetrics V :=
  ⟨site.resource, [⟨site.scope, [⟨site.metric, .single site.point⟩]⟩]⟩

/-- The data points of a batch, in order. -/
def Batch.sites (batch : Batch V) : List (Site V) :=
  batch.flatMap fun resource => resource.scopes.flatMap fun scope =>
    scope.metrics.flatMap fun metric =>
      metric.data.points.map fun point => ⟨resource.attributes, scope.scope, metric.name, point⟩

/-! ## Plans without their notices -/

/-- Says whether a step is more than a notice. -/
def Step.works : Step V → Bool
  | .note _ => false
  | _ => true

namespace Plan

/-- The steps of a plan that give points or submit samples. -/
def working (plan : Plan V) : Plan V := plan.filter Step.works

theorem working_append (p q : Plan V) : (p ++ q : Plan V).working = p.working ++ q.working :=
  List.filter_append ..

theorem working_flatMap {α : Type} (xs : List α) (plan : α → Plan V) :
    working (xs.flatMap plan) = xs.flatMap fun x => (plan x).working :=
  List.filter_flatMap

variable [Amount V]

/-- Notices give no points and leave the tracker alone. -/
theorem run_working (now : Nat) (plan : Plan V) (tracker : Tracker V) :
    (run now plan.working tracker).1.points = (run now plan tracker).1.points ∧
      (run now plan.working tracker).2 = (run now plan tracker).2 := by
  induction plan generalizing tracker with
  | nil => exact ⟨rfl, rfl⟩
  | cons step rest ih =>
    cases step with
    | note notice => exact ih tracker
    | _ =>
      rw [working, List.filter_cons_of_pos rfl, run_cons, run_cons]
      exact ⟨congrArg (_ ++ ·) (ih _).1, (ih _).2⟩

theorem late_run_working (now : Nat) (plan : Plan V) (tracker : Tracker V) :
    (run now plan.working tracker).1.late = (run now plan tracker).1.late := by
  induction plan generalizing tracker with
  | nil => rfl
  | cons step rest ih =>
    cases step with
    | note notice =>
      rw [run_cons, Outcome.late_append]
      exact (ih tracker).trans (Nat.zero_add _).symm
    | _ =>
      rw [working, List.filter_cons_of_pos rfl, run_cons, run_cons]
      exact congrArg (_ + ·) (ih _)

/-- Plans that differ in their notices only give the same points, find as many samples late, and
leave the same tracker. -/
theorem run_of_working_eq {p q : Plan V} (h : p.working = q.working) (now : Nat)
    (tracker : Tracker V) :
    (run now p tracker).1.points = (run now q tracker).1.points ∧
      (run now p tracker).1.late = (run now q tracker).1.late ∧
      (run now p tracker).2 = (run now q tracker).2 := by
  obtain ⟨hp, hpt⟩ := run_working now p tracker
  obtain ⟨hq, hqt⟩ := run_working now q tracker
  rw [← hp, ← hpt, ← late_run_working now p, h, hq, hqt, late_run_working now q]
  exact ⟨rfl, rfl, rfl⟩

end Plan

variable [Amount V]

omit [Amount V] in
theorem pointPlans_eq_flatMap {α : Type} (plan : DataPoint α → Plan V)
    (points : List (DataPoint α)) :
    pointPlans plan points = points.flatMap fun point => pointPlans plan [point] := by
  induction points with
  | nil => rfl
  | cons point rest ih =>
    rw [List.flatMap_cons, ← ih]
    show ((point :: rest).filter _).flatMap plan = _
    rw [← List.singleton_append, List.filter_append, List.flatMap_append]
    rfl

namespace MetricData

variable {settings : Settings} {labels : Labels} {α : Type} {measured : α → Measured V}

theorem working_pointPlans {plan : DataPoint α → Plan V}
    (h : ∀ point : DataPoint α,
      (single (point.map measured)).plan settings labels = pointPlans plan [point])
    (points : List (DataPoint α)) :
    (pointPlans plan points).working =
      (points.map (.map measured)).flatMap fun point =>
        ((single point).plan settings labels).working := by
  rw [pointPlans_eq_flatMap, Plan.working_flatMap, List.flatMap_map]
  simp only [h]

theorem working_unsupported {kind : DataKind} {code : Int}
    (h : ∀ point : DataPoint α,
      (single (point.map measured)).plan settings labels = unsupported labels.name kind code)
    (points : List (DataPoint α)) :
    (unsupported labels.name kind code : Plan V).working =
      (points.map (.map measured)).flatMap fun point =>
        ((single point).plan settings labels).working := by
  rw [List.flatMap_map]
  simp only [h]
  exact (List.flatMap_eq_nil_iff.mpr fun _ _ => rfl).symm

/-- The plan of a metric is that of its data points one after the other. -/
theorem working_plan (settings : Settings) (labels : Labels) (data : MetricData V) :
    (data.plan settings labels).working =
      data.points.flatMap fun point => ((single point).plan settings labels).working := by
  cases data with
  | unknown => rfl
  | gauge points => exact working_pointPlans (fun _ => rfl) points
  | sum code monotonic points =>
    unfold MetricData.plan
    dsimp only
    split
    · rename_i hcode
      split
      · rename_i htotal
        refine working_pointPlans (fun point => ?_) points
        simp only [DataPoint.map, single, MetricData.plan, hcode, htotal, if_true]
      · rename_i hstanding
        refine working_pointPlans (fun point => ?_) points
        simp only [DataPoint.map, single, MetricData.plan, hcode]
        exact if_neg hstanding
    · rename_i hcode
      refine working_pointPlans (fun point => ?_) points
      simp only [DataPoint.map, single, MetricData.plan, hcode]
    · rename_i hcode
      refine working_unsupported (fun point => ?_) points
      simp only [DataPoint.map, single, MetricData.plan, hcode]
  | histogram code points =>
    unfold MetricData.plan
    dsimp only
    split
    · rename_i hcode
      refine working_pointPlans (fun point => ?_) points
      simp only [DataPoint.map, single, MetricData.plan, hcode]
    · rename_i hcode
      refine working_unsupported (fun point => ?_) points
      simp only [DataPoint.map, single, MetricData.plan, hcode]
  | exponential code points =>
    unfold MetricData.plan
    dsimp only
    split
    · rename_i hcode
      refine working_pointPlans (fun point => ?_) points
      simp only [DataPoint.map, single, MetricData.plan, hcode]
    · rename_i hcode
      refine working_unsupported (fun point => ?_) points
      simp only [DataPoint.map, single, MetricData.plan]
  | summary points => exact working_pointPlans (fun _ => rfl) points

end MetricData

omit [Amount V] in
theorem working_sourceProblems (source : Except String Source) :
    (sourceProblems source : Plan V).working = [] := by
  unfold sourceProblems
  split <;> rfl

/-- The labels of the metric that a data point belongs to. -/
def Site.labels (settings : Settings) (site : Site V) : Labels :=
  ((Context.ofResource settings site.resource).inScope settings site.scope).labels site.metric

/-- The plan of a data point alone has the steps of its metric. -/
theorem Site.working_alone (settings : Settings) (site : Site V) :
    (site.alone.plan settings).working =
      ((MetricData.single site.point).plan settings (site.labels settings)).working := by
  simp only [alone, ResourceMetrics.plan, ScopeMetrics.plan, Metric.plan, Plan.working_append,
    working_sourceProblems, List.flatMap_singleton, List.nil_append, Site.labels]

/-- The plan of a batch is that of its data points one after the other. -/
theorem Batch.working_plan (settings : Settings) (batch : Batch V) :
    (Batch.plan settings batch).working =
      batch.sites.flatMap fun site => (site.alone.plan settings).working := by
  simp only [Batch.sites, List.flatMap_assoc, List.flatMap_map, Site.working_alone, Site.labels,
    ← MetricData.working_plan]
  simp only [Batch.plan, ResourceMetrics.plan, ScopeMetrics.plan, Metric.plan,
    Plan.working_flatMap, Plan.working_append, working_sourceProblems, List.nil_append]

namespace Converter

/-- Batches whose plans differ in their notices only give the same points, find as many samples
late, and leave the same tracker. -/
theorem convert_of_working_eq {converter : Converter V} {a b : Batch V}
    (h : (Batch.plan converter.settings a).working = (Batch.plan converter.settings b).working)
    (now : Nat) :
    (converter.convert now a).1.points = (converter.convert now b).1.points ∧
      (converter.convert now a).1.report.late = (converter.convert now b).1.report.late ∧
      (converter.convert now a).2.tracker = (converter.convert now b).2.tracker := by
  rw [convert_eq, convert_eq]
  exact Plan.run_of_working_eq h now converter.tracker

/-- A batch gives the points that its data points give one after the other, each converted alone. -/
theorem convert_eq_alone (converter : Converter V) (now : Nat) (batch : Batch V) :
    (converter.convert now batch).1.points =
        (converter.convertAll now (batch.sites.map fun site => [site.alone])).1.flatMap
          Converted.points ∧
      (converter.convert now batch).2.tracker =
        (converter.convertAll now (batch.sites.map fun site => [site.alone])).2.tracker := by
  have hrun (sites : List (Site V)) : ∀ converter : Converter V,
      let run := Plan.run now
        (sites.flatMap fun site => (site.alone.plan converter.settings).working) converter.tracker
      let alone := converter.convertAll now (sites.map fun site => [site.alone])
      run.1.points = alone.1.flatMap Converted.points ∧ run.2 = alone.2.tracker := by
    induction sites with
    | nil => exact fun converter => ⟨rfl, rfl⟩
    | cons site rest ih =>
      intro converter run alone
      obtain ⟨hp, ht⟩ := Plan.run_working now (site.alone.plan converter.settings) converter.tracker
      obtain ⟨hps, hts⟩ := ih (converter.convert now [site.alone]).2
      rw [settings_convert] at hps hts
      rw [← tracker_convert_singleton] at ht
      refine ⟨?_, ?_⟩
      · show (Plan.run now (_ ++ _) _).1.points = _ ++ _
        rw [Plan.run_append, Outcome.points_append, hp, ht, fst_convert_singleton]
        exact congrArg _ hps
      · show (Plan.run now (_ ++ _) _).2 = _
        rw [Plan.run_append, ht]
        exact hts
  obtain ⟨hp, ht⟩ := hrun batch.sites converter
  rw [← Batch.working_plan] at hp ht
  obtain ⟨hpw, htw⟩ := Plan.run_working now (Batch.plan converter.settings batch) converter.tracker
  rw [convert_eq]
  exact ⟨hpw.symm.trans hp, htw.symm.trans ht⟩

end Converter

end MetricPoints
