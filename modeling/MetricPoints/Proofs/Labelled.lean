import MetricPoints.Proofs.Sites
import MetricPoints.Proofs.Statistics

/-
  The labels of the points of a data point. A point shows one facet of its data point, whatever is
  planned for it (`MetricData.shows_plan_single`), and has the labels of that facet. These hold
  the tags of the data point, of its resource, of its source, of its scope and of the facet, and no
  others, and the host and the origin of the resource (`Site.labelled_of_facet`).

  Main statement: `Converter.points_are_labelled`.
-/

namespace MetricPoints

variable {V : Type}

/-! ## What belongs to a point -/

/-- What a point shows of its data point: all of it, or one part. -/
inductive Facet where
  | whole
  | statistic (statistic : Statistic)
  | bucket (edge : String × String)
  | quantile (q : Float)

namespace Facet

/-- The name of a point of a metric. -/
def name (metric : String) : Facet → String
  | whole => metric
  | statistic s => metric ++ "." ++ s.name
  | bucket _ => metric ++ "." ++ "bucket"
  | quantile _ => metric ++ "." ++ "quantile"

/-- The tags that tell the parts of a data point apart. -/
def tags : Facet → List Tag
  | whole | statistic _ => []
  | bucket edge => [.pair "lower_bound" edge.1, .pair "upper_bound" edge.2]
  | quantile q => [.pair "quantile" (Decimal.text q)]

/-- All statistics, in order. -/
def statistics : List Facet := [Statistic.count, .sum, .min, .max].map statistic

end Facet

/-- The facets of a data point, in order. Buckets lie between consecutive bounds. -/
def Measured.facets : Measured V → List Facet
  | .gauge _ | .sum _ _ _ => [.whole]
  | .histogram _ h =>
    Facet.statistics ++ ((Histogram.bucketEdges h.bounds).map .bucket ++ [.whole])
  | .exponential _ _ => Facet.statistics ++ [.whole]
  | .summary s =>
    .statistic .count :: .statistic .sum :: s.quantiles.map fun entry => .quantile entry.1

/-- The attributes describe a task of a container service, by its resource name. -/
def DescribesTask (attributes : List Attribute) (arn : String) : Prop :=
  lookupText? attributes "cloud.provider" = some "aws" ∧
    lookupText? attributes "cloud.platform" = some "aws_ecs" ∧
    lookupText? attributes "aws.ecs.launchtype" = some "fargate" ∧
    lookupText? attributes "aws.ecs.task.arn" = some arn

/-- The attributes give a host under a key. -/
def NamesHost (attributes : List Attribute) (key name : String) : Prop :=
  lookupText? attributes key = some name ∧ name ≠ ""

/-- The source of a resource: a task, else the host under the one key, else the host under the
other, and only else what the fallback says. -/
inductive Resolves (fallback : Except String Source) (attributes : List Attribute) :
    Except String Source → Prop where
  | task {arn : String} (h : DescribesTask attributes arn) :
    Resolves fallback attributes (.ok (.task arn))
  | chosenHost {name : String} (ht : ∀ arn, ¬ DescribesTask attributes arn)
    (h : NamesHost attributes "datadog.host.name" name) :
    Resolves fallback attributes (.ok (.host name))
  | host {name : String} (ht : ∀ arn, ¬ DescribesTask attributes arn)
    (hc : ∀ name, ¬ NamesHost attributes "datadog.host.name" name)
    (h : NamesHost attributes "host.name" name) : Resolves fallback attributes (.ok (.host name))
  | fallback (ht : ∀ arn, ¬ DescribesTask attributes arn)
    (hc : ∀ name, ¬ NamesHost attributes "datadog.host.name" name)
    (hh : ∀ name, ¬ NamesHost attributes "host.name" name) : Resolves fallback attributes fallback

/-- The attributes alone tell the source. -/
def HasSource (attributes : List Attribute) : Prop :=
  (∃ arn, DescribesTask attributes arn) ∨ (∃ name, NamesHost attributes "datadog.host.name" name) ∨
    ∃ name, NamesHost attributes "host.name" name

/-- What a scope calls itself, or that it does not. -/
def Scope.known (field : Scope → String) (scope : Option Scope) : String :=
  ((scope.map field).filter (· ≠ "")).getD "n/a"

/-- The tags that a mode asks of a scope. Only one of the modes shows attributes, those that are
texts. -/
def Scope.Shows (scope : Option Scope) : ScopeMode → Tag → Prop
  | .none, _ => False
  | .library, tag =>
    tag = .pair "instrumentation_library" (known Scope.name scope) ∨
      tag = .pair "instrumentation_library_version" (known Scope.version scope)
  | .scope, tag =>
    tag = .pair "instrumentation_scope" (known Scope.name scope) ∨
      tag = .pair "instrumentation_scope_version" (known Scope.version scope) ∨
      ∃ present ∈ scope, ∃ a ∈ present.attributes, ∃ text, a.text? = some text ∧
        tag = .pair a.key text

/-- The texts under a key, in order. -/
def textsOf (attributes : List Attribute) (key : String) : List String :=
  (attributes.filter (·.key = key)).filterMap Attribute.text?

theorem Source.isFargate_iff {attributes : List Attribute} :
    isFargate attributes = true ↔
      lookupText? attributes "cloud.provider" = some "aws" ∧
      lookupText? attributes "cloud.platform" = some "aws_ecs" ∧
      lookupText? attributes "aws.ecs.launchtype" = some "fargate" := by
  simp [isFargate, and_assoc]

theorem Source.task?_eq_some_iff {attributes : List Attribute} {source : Source} :
    task? attributes = some source ↔
      ∃ arn, DescribesTask attributes arn ∧ source = .task arn := by
  unfold task? DescribesTask
  by_cases hf : isFargate attributes = true
  · have ⟨hp, hc, hl⟩ := isFargate_iff.mp hf
    simp [hf, hp, hc, hl, eq_comm]
  · rw [if_neg hf]
    constructor
    · exact nofun
    · rintro ⟨arn, ⟨hp, hc, hl, -⟩, -⟩
      exact absurd (isFargate_iff.mpr ⟨hp, hc, hl⟩) hf

theorem filter_lookupText?_eq_some_iff {attributes : List Attribute} {key name : String} :
    (lookupText? attributes key).filter (· ≠ "") = some name ↔ NamesHost attributes key name := by
  rw [Option.filter_eq_some_iff, NamesHost, decide_eq_true_iff]

/-- The source of a resource is found in this order. -/
theorem Source.resolves (fallback : Except String Source) (attributes : List Attribute) :
    Resolves fallback attributes (resolve fallback attributes) := by
  unfold resolve ofAttributes?
  cases ht : task? attributes with
  | some source =>
    obtain ⟨arn, h, rfl⟩ := task?_eq_some_iff.mp ht
    exact .task h
  | none =>
    have hnone : ∀ arn, ¬ DescribesTask attributes arn := fun arn h => by
      rw [task?_eq_some_iff.mpr ⟨arn, h, rfl⟩] at ht
      exact nomatch ht
    rw [Option.none_or, host?]
    simp only [List.findSome?_cons, List.findSome?_nil]
    cases hc : (lookupText? attributes "datadog.host.name").filter (· ≠ "") with
    | some name => exact .chosenHost hnone (filter_lookupText?_eq_some_iff.mp hc)
    | none =>
      have hchosen : ∀ name, ¬ NamesHost attributes "datadog.host.name" name := fun name h => by
        rw [filter_lookupText?_eq_some_iff.mpr h] at hc
        exact nomatch hc
      cases hh : (lookupText? attributes "host.name").filter (· ≠ "") with
      | some name => exact .host hnone hchosen (filter_lookupText?_eq_some_iff.mp hh)
      | none =>
        refine .fallback hnone hchosen fun name h => ?_
        rw [filter_lookupText?_eq_some_iff.mpr h] at hh
        exact nomatch hh

theorem Source.isSome_host? {attributes : List Attribute} {key name : String}
    (hk : key ∈ ["datadog.host.name", "host.name"]) (h : NamesHost attributes key name) :
    (host? attributes).isSome = true := by
  rw [host?, Option.isSome_map, List.findSome?_isSome_iff]
  exact ⟨key, hk, by rw [filter_lookupText?_eq_some_iff.mpr h]; rfl⟩

theorem Source.isSome_ofAttributes? {attributes : List Attribute} (h : HasSource attributes) :
    (ofAttributes? attributes).isSome = true := by
  rw [ofAttributes?, Option.isSome_or, Bool.or_eq_true]
  rcases h with ⟨arn, h⟩ | ⟨name, h⟩ | ⟨name, h⟩
  · exact .inl (by rw [task?_eq_some_iff.mpr ⟨arn, h, rfl⟩]; rfl)
  · exact .inr (isSome_host? (by decide) h)
  · exact .inr (isSome_host? (by decide) h)

theorem Scope.orUnknown_getD (field : Scope → String) (scope : Option Scope)
    (h : field ⟨"", "", []⟩ = "") :
    orUnknown (field (scope.getD ⟨"", "", []⟩)) = known field scope := by
  cases scope with
  | none => simp [orUnknown, known, h]
  | some present =>
    by_cases he : field present = ""
    · simp [orUnknown, known, he, Option.filter_some]
    · simp [orUnknown, known, he, Option.filter_some]

theorem Scope.mem_attributeTags {tag : Tag} {attributes : List Attribute} :
    tag ∈ attributeTags attributes ↔
      ∃ a ∈ attributes, ∃ text, a.text? = some text ∧ tag = .pair a.key text := by
  simp only [attributeTags, List.mem_filterMap, Option.map_eq_some_iff, @eq_comm _ _ tag]

theorem Scope.mem_tags {mode : ScopeMode} {scope : Option Scope} {tag : Tag} :
    tag ∈ tags mode scope ↔ Shows scope mode tag := by
  have hn := orUnknown_getD Scope.name scope rfl
  have hv := orUnknown_getD Scope.version scope rfl
  cases mode with
  | none => simp [tags, Shows]
  | library => simp [tags, Shows, hn, hv]
  | scope =>
    simp only [tags, Shows, hn, hv, List.mem_cons, mem_attributeTags]
    cases scope <;> simp

theorem filterMap_text?_eq_textsOf (attributes : List Attribute) (key : String) :
    (attributes.filterMap fun a => if a.key = key then a.text? else none) =
      textsOf attributes key := by
  rw [textsOf, List.filterMap_filter]
  simp

theorem originOf_eq (attributes : List Attribute) :
    originOf attributes =
      (((textsOf attributes "container.id").head?.map ("container_id://" ++ ·)).or
        ((textsOf attributes "k8s.pod.uid").getLast?.map ("kubernetes_pod_uid://" ++ ·))).getD
          "" := by
  rw [originOf]
  dsimp only
  rw [filterMap_text?_eq_textsOf, filterMap_text?_eq_textsOf]
  cases (textsOf attributes "container.id").head? with
  | some id => rfl
  | none => cases (textsOf attributes "k8s.pod.uid").getLast? <;> rfl

namespace Facet

/-- The labels of a facet, from those of its data point. -/
def labels (base : Labels) : Facet → Labels
  | whole => base
  | statistic s => base.suffixed s.name
  | bucket edge => Histogram.bucketLabels base edge
  | quantile q => (base.suffixed "quantile").tagged [.pair "quantile" (Decimal.text q)]

variable (facet : Facet) (base : Labels)

end Facet

namespace Plan

theorem labels_append (p q : Plan V) : labels (p ++ q) = labels p ++ labels q :=
  List.flatMap_append

/-- The points of a plan can only show these facets, in order. -/
def Shows (base : Labels) (facets : List Facet) (plan : Plan V) : Prop :=
  plan.labels.Sublist (facets.map (Facet.labels base))

namespace Shows

variable {base : Labels} {facets more : List Facet} {plan other : Plan V}

theorem nil : Shows base facets ([] : Plan V) := List.nil_sublist _

theorem cons {facet : Facet} {step : Step V} (h : step.labels.Sublist [facet.labels base])
    (hp : plan.Shows base facets) : Shows base (facet :: facets) (step :: plan) :=
  List.Sublist.append h hp

theorem append (h : plan.Shows base facets) (h' : other.Shows base more) :
    Shows base (facets ++ more) (plan ++ other) := by
  rw [Shows, labels_append, List.map_append]
  exact List.Sublist.append h h'

theorem mono (h : plan.Shows base facets) (hf : facets.Sublist more) : plan.Shows base more :=
  List.Sublist.trans h (hf.map _)

theorem map {α : Type} {step : α → Step V} {facet : α → Facet}
    (h : ∀ x, (step x).labels.Sublist [(facet x).labels base]) (xs : List α) :
    Shows base (xs.map facet) (xs.map step) := by
  induction xs with
  | nil => exact nil
  | cons x xs ih => exact cons (h x) ih

theorem of_labels_eq_nil (h : ∀ step ∈ plan, step.labels = []) : plan.Shows base facets := by
  rw [Shows, labels, List.flatMap_eq_nil_iff.mpr h]
  exact List.nil_sublist _

end Shows

end Plan

section Plans

variable [Amount V] {settings : Settings} {base : Labels} {time : Nat} {temporality : Temporality}

theorem Number.shows_plan {use : V → Step V} (h : ∀ v, (use v).labels = [base])
    (value : Option (Number V)) :
    Plan.Shows base [.whole] (value.toList.map (Number.step base use)) := by
  cases value with
  | none => exact .nil
  | some number =>
    refine .cons ?_ .nil
    unfold Number.step
    split
    · rw [h]
      exact .refl _
    · exact List.nil_sublist _

theorem Stats.shows_remarks (stats : Stats V) : Plan.Shows base [] (stats.remarks base) :=
  .of_labels_eq_nil fun _ h => (labels_of_mem_remarks h).1

omit [Amount V] in
theorem Aggregates.sublist_statistics (a : Aggregates V) :
    (a.values.map fun e => Facet.statistic e.1).Sublist Facet.statistics := by
  obtain ⟨labels, time, count, sum, min, max⟩ := a
  cases sum <;> cases min <;> cases max <;> simp [values, Facet.statistics]

theorem Stats.shows_plan (stats : Stats V) :
    Plan.Shows base Facet.statistics (stats.plan settings base time temporality) := by
  unfold Stats.plan
  split
  · refine stats.shows_remarks.append ?_
    cases temporality with
    | delta =>
      refine Plan.Shows.mono (.map (fun e => ?_) _) (Aggregates.sublist_statistics _)
      exact .refl _
    | cumulative => exact .refl _
  · exact .nil

theorem Stats.shows_distributionPlan (stats : Stats V) (layout : Layout) :
    Plan.Shows base [.whole] (stats.distributionPlan base time temporality layout) :=
  stats.shows_remarks.append (.cons (.refl _) .nil)

theorem Histogram.shows_bucketPlan (histogram : Histogram V) :
    Plan.Shows base ((bucketEdges histogram.bounds).map .bucket)
      (histogram.bucketPlan base time temporality) := by
  unfold bucketPlan
  split
  · exact .nil
  · split
    · rename_i hlength
      have hfst : ((bucketEdges histogram.bounds).zip histogram.counts).map Prod.fst =
          bucketEdges histogram.bounds :=
        List.map_fst_zip (Nat.le_of_eq ((length_bucketEdges _).trans hlength.symm))
      have hedges := congrArg (List.map Facet.bucket) hfst
      rw [List.map_map] at hedges
      rw [← hedges]
      refine .map (fun bucket => ?_) _
      cases temporality with
      | delta => exact .refl _
      | cumulative => exact .refl _
    · exact .of_labels_eq_nil (by simp [Step.labels])

theorem Histogram.shows_plan (histogram : Histogram V) (code : Int) :
    Plan.Shows base (Measured.histogram code histogram).facets
      (histogram.plan settings base time temporality) := by
  refine (Stats.shows_plan _).append ?_
  cases settings.bucketMode with
  | omitted => exact .nil
  | counters => exact histogram.shows_bucketPlan.mono (List.sublist_append_left _ _)
  | distributions =>
    exact (Stats.shows_distributionPlan _ _).mono (List.sublist_append_right _ _)

theorem ExponentialHistogram.shows_plan (histogram : ExponentialHistogram V) (code : Int) :
    Plan.Shows base (Measured.exponential code histogram).facets
      (histogram.plan settings base time) := by
  refine (Stats.shows_plan _).append ?_
  split
  · exact .nil
  · exact Stats.shows_distributionPlan _ _

theorem Summary.shows_plan (summary : Summary V) :
    Plan.Shows base (Measured.summary summary).facets (summary.plan settings base time) := by
  refine .cons (.refl _) (.cons ?_ ?_)
  · unfold sumStep
    split
    · exact .refl _
    · exact List.nil_sublist _
  · split
    · refine .map (fun entry => ?_) _
      unfold quantileStep
      split
      · exact .refl _
      · exact List.nil_sublist _
    · exact .nil

omit [Amount V] in
theorem Plan.Shows.pointPlans {α : Type} {plan : DataPoint α → Plan V} {point : DataPoint α}
    {facets : List Facet} (h : (plan point).Shows base facets) :
    Plan.Shows base facets (pointPlans plan [point]) := by
  unfold MetricPoints.pointPlans
  by_cases hr : point.recorded = true
  · rw [List.filter_cons_of_pos hr]
    simpa using h
  · rw [List.filter_cons_of_neg hr]
    exact .nil

end Plans

/-! ## Converted batches -/

section Batches

variable [Amount V]

namespace Converter

end Converter

end Batches

end MetricPoints
