import MetricPoints.Proofs.Alike
import MetricPoints.Proofs.Containers
import MetricPoints.Proofs.Labelled
import MetricPoints.Proofs.Relabelled

/-
  Attributes in another order. Where the attributes of a resource have distinct keys, a key picks
  out the same attribute in any order (`filter_key_of_perm`), so that the source, the origin and the
  process are the same, and so is which container tags are taken; everything else is gathered into
  sets of tags. A batch with its attributes in another order has the same plan, up to the order
  of tags (`Batch.Permuted.plan`).

  Main statement: `Converter.attribute_order_is_irrelevant`.
-/

namespace MetricPoints

variable {V : Type}

/-- No two attributes have the same key. -/
def DistinctKeys (attributes : List Attribute) : Prop := (attributes.map Attribute.key).Nodup

/-! ## Batches with attributes in another order -/

/-- The same data point with its attributes in another order. -/
def DataPoint.Permuted {α : Type} (point other : DataPoint α) : Prop :=
  ∃ attributes, point.attributes.Perm attributes ∧ other = { point with attributes }

/-- The same scope with its attributes in another order. -/
def Scope.Permuted (scope other : Scope) : Prop :=
  ∃ attributes, scope.attributes.Perm attributes ∧ other = { scope with attributes }

/-- The same data, each data point with its attributes in another order. -/
inductive MetricData.Permuted : MetricData V → MetricData V → Prop where
  | unknown : Permuted .unknown .unknown
  | gauge {points others : List (DataPoint (Option (Number V)))}
    (h : List.Forall₂ DataPoint.Permuted points others) : Permuted (.gauge points) (.gauge others)
  | sum (temporality : Int) (monotonic : Bool)
    {points others : List (DataPoint (Option (Number V)))}
    (h : List.Forall₂ DataPoint.Permuted points others) :
    Permuted (.sum temporality monotonic points) (.sum temporality monotonic others)
  | histogram (temporality : Int) {points others : List (DataPoint (Histogram V))}
    (h : List.Forall₂ DataPoint.Permuted points others) :
    Permuted (.histogram temporality points) (.histogram temporality others)
  | exponential (temporality : Int) {points others : List (DataPoint (ExponentialHistogram V))}
    (h : List.Forall₂ DataPoint.Permuted points others) :
    Permuted (.exponential temporality points) (.exponential temporality others)
  | summary {points others : List (DataPoint (Summary V))}
    (h : List.Forall₂ DataPoint.Permuted points others) :
    Permuted (.summary points) (.summary others)

/-- The same metric, each data point with its attributes in another order. -/
structure Metric.Permuted (metric other : Metric V) : Prop where
  name : metric.name = other.name
  data : metric.data.Permuted other.data

/-- The same metrics of a scope, with the attributes in another order. -/
structure ScopeMetrics.Permuted (part other : ScopeMetrics V) : Prop where
  scope : Option.Rel Scope.Permuted part.scope other.scope
  metrics : List.Forall₂ Metric.Permuted part.metrics other.metrics

/-- The same resource, with the attributes at every place in another order. -/
structure ResourceMetrics.Permuted (resource other : ResourceMetrics V) : Prop where
  attributes : resource.attributes.Perm other.attributes
  scopes : List.Forall₂ ScopeMetrics.Permuted resource.scopes other.scopes

/-- The same batch, with the attributes at every place in another order. -/
def Batch.Permuted (batch other : Batch V) : Prop :=
  List.Forall₂ ResourceMetrics.Permuted batch other

/-! ## What attributes tell in any order -/

section Attributes

variable {attributes others : List Attribute} (hk : DistinctKeys attributes)
  (h : attributes.Perm others)

include h in
theorem Resource.mem_scalarTags_of_perm {tag : Tag} :
    tag ∈ scalarTags attributes ↔ tag ∈ scalarTags others :=
  (h.filterMap _).mem_iff

include h in
theorem Scope.mem_attributeTags_of_perm {tag : Tag} :
    tag ∈ attributeTags attributes ↔ tag ∈ attributeTags others :=
  (h.filterMap _).mem_iff

include hk in
/-- At most one attribute has a key. -/
theorem DistinctKeys.filter_key (key : String) :
    attributes.filter (·.key = key) = [] ∨ ∃ a, attributes.filter (·.key = key) = [a] := by
  cases hf : attributes.filter fun a => decide (a.key = key) with
  | nil => exact .inl rfl
  | cons a rest =>
    have hkey (b : Attribute) (hb : b ∈ a :: rest) : b.key = key := by
      rw [← hf] at hb
      exact of_decide_eq_true (List.mem_filter.mp hb).2
    have hd : ((a :: rest).map Attribute.key).Nodup := by
      rw [← hf]
      exact (List.filter_sublist.map _).nodup hk
    refine .inr ⟨a, congrArg (a :: ·) (List.eq_nil_iff_forall_not_mem.mpr fun b hb => ?_)⟩
    refine (List.nodup_cons.mp hd).1 (List.mem_map.mpr ⟨b, hb, ?_⟩)
    rw [hkey b (List.mem_cons_of_mem _ hb), hkey a List.mem_cons_self]

include hk h

/-- So there is no order among the attributes that have a key. -/
theorem filter_key_of_perm (key : String) :
    attributes.filter (·.key = key) = others.filter (·.key = key) := by
  have hp := h.filter fun a => decide (a.key = key)
  rcases hk.filter_key key with hf | ⟨a, hf⟩
  · rw [hf] at hp ⊢
    exact hp.nil_eq
  · rw [hf] at hp ⊢
    exact List.singleton_perm.mp hp

theorem lookupText?_of_perm (key : String) :
    lookupText? attributes key = lookupText? others key := by
  rw [lookupText?, lookupText?, ← List.head?_filter, ← List.head?_filter,
    filter_key_of_perm hk h]

theorem textsOf_of_perm (key : String) : textsOf attributes key = textsOf others key := by
  rw [textsOf, textsOf, filter_key_of_perm hk h]

theorem originOf_of_perm : originOf attributes = originOf others := by
  rw [originOf_eq, originOf_eq, textsOf_of_perm hk h, textsOf_of_perm hk h]

theorem Source.resolve_of_perm (fallback : Except String Source) :
    resolve fallback attributes = resolve fallback others := by
  have hl : lookupText? attributes = lookupText? others := funext (lookupText?_of_perm hk h)
  have ho : ofAttributes? attributes = ofAttributes? others := by
    rw [ofAttributes?, task?, isFargate, host?, hl]
    rfl
  rw [resolve, ho, resolve]

theorem Resource.processTag?_of_perm : processTag? attributes = processTag? others := by
  have hl : lastText? attributes = lastText? others := by
    funext key
    rw [lastText?, lastText?, filterMap_text?_eq_textsOf, filterMap_text?_eq_textsOf,
      textsOf_of_perm hk h]
  rw [processTag?, processTag?, hl]

end Attributes

namespace Container

theorem conventionalTexts_of_perm {attributes others : List Attribute}
    (h : attributes.Perm others) (name : String) :
    (conventionalTexts attributes name).Perm (conventionalTexts others name) :=
  (h.filter _).filterMap _

/-- At most one attribute gives a name itself. -/
theorem customTexts_of_perm {attributes others : List Attribute} (hk : DistinctKeys attributes)
    (h : attributes.Perm others) (name : String) :
    customTexts attributes name = customTexts others name := by
  rw [customTexts, customTexts, filledTexts, filledTexts]
  by_cases hname : name = ""
  · simp [hname]
  · simp only [hname, ne_eq, not_false_eq_true, true_and, filter_key_of_perm hk h]

theorem mem_pairs_of_perm {attributes others : List Attribute} (hk : DistinctKeys attributes)
    (h : attributes.Perm others) {e : String × String} :
    e ∈ pairs attributes ↔ e ∈ pairs others := by
  have hc := conventionalTexts_of_perm h e.1
  have hnil : conventionalTexts attributes e.1 = [] ↔ conventionalTexts others e.1 = [] :=
    ⟨fun hn => (hn ▸ hc).nil_eq.symm, fun hn => (hn ▸ hc).eq_nil⟩
  rw [mem_pairs_iff, mem_pairs_iff, hc.mem_iff, hnil, customTexts_of_perm hk h]

end Container

theorem Resource.mem_tags_of_perm {attributes others : List Attribute}
    (hk : DistinctKeys attributes) (h : attributes.Perm others) {tag : Tag} :
    tag ∈ tags attributes ↔ tag ∈ tags others := by
  simp only [mem_tags, h.mem_iff, processTag?_of_perm hk h, Container.mem_pairs_of_perm hk h]

/-! ## Contexts -/

/-- The same context, up to the order of the tags. -/
structure Context.Same (context other : Context) : Prop where
  tags : ∀ tag, tag ∈ context.tags ↔ tag ∈ other.tags
  host : context.host = other.host
  origin : context.origin = other.origin

theorem Scope.mem_tags_of_permuted {scope other : Option Scope}
    (h : Option.Rel Scope.Permuted scope other) (mode : ScopeMode) {tag : Tag} :
    tag ∈ tags mode scope ↔ tag ∈ tags mode other := by
  cases h with
  | none => rfl
  | some h =>
    obtain ⟨attributes, ha, rfl⟩ := h
    cases mode with
    | none | library => rfl
    | scope => simp only [tags, Option.getD_some, List.mem_cons, mem_attributeTags_of_perm ha]

namespace Context

theorem ofResource_same {attributes others : List Attribute} (hk : DistinctKeys attributes)
    (h : attributes.Perm others) (settings : Settings) :
    (ofResource settings attributes).Same (ofResource settings others) where
  tags tag := by
    have hs : (tag ∈ if settings.resourceTags then Resource.scalarTags attributes else []) ↔
        tag ∈ if settings.resourceTags then Resource.scalarTags others else [] := by
      split
      · exact Resource.mem_scalarTags_of_perm h
      · rfl
    simp only [ofResource, Tags.mem_addAll, Resource.mem_tags_of_perm hk h, hs,
      Source.resolve_of_perm hk h]
  host := by simp only [ofResource, Source.resolve_of_perm hk h]
  origin := by simp only [ofResource, originOf_of_perm hk h]

namespace Same

variable {context other : Context}

theorem inScope (h : context.Same other) (settings : Settings) {scope scope' : Option Scope}
    (hs : Option.Rel Scope.Permuted scope scope') :
    (context.inScope settings scope).Same (other.inScope settings scope') where
  tags tag := by
    simp only [Context.inScope, Tags.mem_addAll, h.tags, Scope.mem_tags_of_permuted hs]
  host := h.host
  origin := h.origin

theorem labels (h : context.Same other) (name : String) :
    (context.labels name).Same (other.labels name) :=
  ⟨rfl, h.host, h.origin, h.tags⟩

end Same

end Context

theorem Labels.Same.withAttributes {labels other : Labels} (h : labels.Same other)
    {attributes others : List Attribute} (ha : attributes.Perm others) :
    (labels.withAttributes attributes).Same (other.withAttributes others) where
  name := h.name
  host := h.host
  origin := h.origin
  tags tag := by
    rw [mem_tags_withAttributes, mem_tags_withAttributes, h.tags,
      Resource.mem_scalarTags_of_perm ha]

/-! ## Plans -/

section Plans

variable [Amount V] {labels other : Labels} (h : labels.Same other) (settings : Settings)
  (time : Nat) (temporality : Temporality)

include h

theorem Number.same_step {use use' : V → Step V} (hu : ∀ v, (use v).Same (use' v))
    (number : Number V) : (number.step labels use).Same (number.step other use') := by
  unfold Number.step
  split
  · exact hu _
  · rw [h.name]
    exact .note _

theorem NumberPoint.same_plan (reading : V → Reading V)
    {point point' : DataPoint (Option (Number V))} (hp : point.Permuted point') :
    Plan.Same (plan reading labels point) (plan reading other point') := by
  obtain ⟨attributes, ha, rfl⟩ := hp
  have hl := h.withAttributes ha
  refine forall₂_map (Number.same_step hl fun v => ?_) _
  exact .emit ⟨hl, rfl, rfl⟩

theorem NumberPoint.same_totalPlan {point point' : DataPoint (Option (Number V))}
    (hp : point.Permuted point') :
    Plan.Same (totalPlan labels point) (totalPlan other point') := by
  obtain ⟨attributes, ha, rfl⟩ := hp
  have hl := h.withAttributes ha
  unfold totalPlan
  rw [h.name]
  refine forall₂_map (Number.same_step hl fun v => ?_) _
  exact .track _ ⟨hl, rfl, rfl⟩

theorem Stats.same_remarks (stats : Stats V) :
    Plan.Same (stats.remarks labels) (stats.remarks other) := by
  rw [remarks, h.name]
  exact .refl _

theorem Stats.same_plan (stats : Stats V) :
    Plan.Same (stats.plan settings labels time temporality)
      (stats.plan settings other time temporality) := by
  unfold Stats.plan
  refine forall₂_ite (List.rel_append (same_remarks h stats) ?_)
  cases temporality with
  | delta => exact forall₂_map (fun e => .emit ⟨h.suffixed _, rfl, rfl⟩) _
  | cumulative => exact .cons (.aggregate h) .nil

theorem Stats.same_distributionPlan (stats : Stats V) (layout : Layout) :
    Plan.Same (stats.distributionPlan labels time temporality layout)
      (stats.distributionPlan other time temporality layout) :=
  List.rel_append (same_remarks h stats) (.cons (.emit ⟨h, rfl, rfl⟩) .nil)

theorem Histogram.same_bucketPlan (histogram : Histogram V) :
    Plan.Same (histogram.bucketPlan labels time temporality)
      (histogram.bucketPlan other time temporality) := by
  have hb (edge : String × String) : (bucketLabels labels edge).Same (bucketLabels other edge) :=
    (h.suffixed _).tagged _
  unfold bucketPlan
  split
  · exact .nil
  · split
    · refine forall₂_map (fun bucket => ?_) _
      cases temporality with
      | delta => exact .emit ⟨hb _, rfl, rfl⟩
      | cumulative => exact .track _ ⟨hb _, rfl, rfl⟩
    · rw [h.name]
      exact .refl _

theorem Histogram.same_plan (histogram : Histogram V) :
    Plan.Same (histogram.plan settings labels time temporality)
      (histogram.plan settings other time temporality) := by
  refine List.rel_append (Stats.same_plan h settings time temporality _) ?_
  cases settings.bucketMode with
  | omitted => exact .nil
  | counters => exact same_bucketPlan h time temporality histogram
  | distributions => exact Stats.same_distributionPlan h time temporality _ _

theorem ExponentialHistogram.same_plan (histogram : ExponentialHistogram V) :
    Plan.Same (histogram.plan settings labels time) (histogram.plan settings other time) := by
  refine List.rel_append (Stats.same_plan h settings time .delta _) ?_
  split
  · exact .nil
  · exact Stats.same_distributionPlan h time .delta _ _

theorem Summary.same_plan (summary : Summary V) :
    Plan.Same (summary.plan settings labels time) (summary.plan settings other time) := by
  refine .cons (.track _ ⟨h.suffixed _, rfl, rfl⟩) (.cons ?_ (forall₂_ite (forall₂_map ?_ _)))
  · unfold sumStep
    split
    · exact .track _ ⟨h.suffixed _, rfl, rfl⟩
    · rw [h.name]
      exact .note _
  · intro entry
    unfold quantileStep
    split
    · exact .emit ⟨(h.suffixed _).tagged _, rfl, rfl⟩
    · rw [h.name]
      exact .note _

theorem Aggregated.same_pointPlan {α : Type} (aggregated : α → Aggregated V)
    {point point' : DataPoint α} (hp : point.Permuted point') :
    Plan.Same (pointPlan settings labels aggregated point)
      (pointPlan settings other aggregated point') := by
  obtain ⟨attributes, ha, rfl⟩ := hp
  have hl := h.withAttributes ha
  unfold pointPlan
  cases aggregated point.value with
  | histogram temporality histogram => exact histogram.same_plan hl settings point.time temporality
  | exponential histogram => exact histogram.same_plan hl settings point.time
  | summary summary => exact summary.same_plan hl settings point.time

omit [Amount V] h in
theorem same_pointPlans {α : Type} {plan plan' : DataPoint α → Plan V}
    (hplan : ∀ {point point' : DataPoint α}, point.Permuted point' →
      Plan.Same (plan point) (plan' point'))
    {points others : List (DataPoint α)} (hp : List.Forall₂ DataPoint.Permuted points others) :
    Plan.Same (pointPlans plan points) (pointPlans plan' others) := by
  refine List.rel_flatMap (List.rel_filter ?_ hp) fun _ _ => hplan
  rintro point _ ⟨attributes, -, rfl⟩
  rfl

omit [Amount V] in
theorem same_unsupported (kind : DataKind) (code : Int) :
    Plan.Same (unsupported labels.name kind code : Plan V) (unsupported other.name kind code) := by
  rw [h.name]
  exact .refl _

/-- A metric with its attributes in another order has the same plan, up to the order of tags. -/
theorem MetricData.same_plan {data data' : MetricData V} (hd : data.Permuted data') :
    Plan.Same (data.plan settings labels) (data'.plan settings other) := by
  cases hd with
  | unknown =>
    rw [MetricData.plan, h.name]
    exact .refl _
  | gauge hp => exact same_pointPlans (NumberPoint.same_plan h _) hp
  | sum code monotonic hp =>
    unfold MetricData.plan
    dsimp only
    cases Temporality.ofCode? code with
    | none => exact same_unsupported h _ _
    | some temporality =>
      cases temporality with
      | delta => exact same_pointPlans (NumberPoint.same_plan h _) hp
      | cumulative =>
        dsimp only
        split
        · exact same_pointPlans (NumberPoint.same_totalPlan h) hp
        · exact same_pointPlans (NumberPoint.same_plan h _) hp
  | histogram code hp =>
    unfold MetricData.plan
    dsimp only
    cases Temporality.ofCode? code with
    | none => exact same_unsupported h _ _
    | some temporality => exact same_pointPlans (Aggregated.same_pointPlan h settings _) hp
  | exponential code hp =>
    unfold MetricData.plan
    dsimp only
    cases Temporality.ofCode? code with
    | none => exact same_unsupported h _ _
    | some temporality =>
      cases temporality with
      | delta => exact same_pointPlans (Aggregated.same_pointPlan h settings _) hp
      | cumulative => exact same_unsupported h _ _
  | summary hp => exact same_pointPlans (Aggregated.same_pointPlan h settings _) hp

end Plans

section Batches

variable [Amount V]

theorem ScopeMetrics.Permuted.plan {part part' : ScopeMetrics V} (h : part.Permuted part')
    (settings : Settings) {context context' : Context} (hc : context.Same context') :
    Plan.Same (part.plan settings context) (part'.plan settings context') := by
  refine List.rel_flatMap h.metrics fun metric metric' hm => ?_
  unfold Metric.plan
  rw [hm.name]
  exact MetricData.same_plan ((hc.inScope settings h.scope).labels _) settings hm.data

theorem ResourceMetrics.Permuted.plan {resource resource' : ResourceMetrics V}
    (h : resource.Permuted resource') (hk : DistinctKeys resource.attributes)
    (settings : Settings) : Plan.Same (resource.plan settings) (resource'.plan settings) := by
  unfold ResourceMetrics.plan
  rw [Source.resolve_of_perm hk h.attributes]
  refine List.rel_append (Plan.Same.refl _) (List.rel_flatMap h.scopes fun part part' hp => ?_)
  exact hp.plan settings (Context.ofResource_same hk h.attributes settings)

/-- A batch with its attributes in another order has the same plan, up to the order of tags. -/
theorem Batch.Permuted.plan {batch other : Batch V} (h : batch.Permuted other)
    (hk : ∀ resource ∈ batch, DistinctKeys resource.attributes) (settings : Settings) :
    Plan.Same (Batch.plan settings batch) (Batch.plan settings other) := by
  induction h with
  | nil => exact .nil
  | cons hr _ ih =>
    obtain ⟨hresource, hrest⟩ := List.forall_mem_cons.mp hk
    exact List.rel_append (hr.plan hresource settings) (ih hrest)

namespace Converter

/-- The order of attributes is irrelevant, at resources, scopes and data points: where the keys of
each resource are distinct, batches with their attributes in another order give the same points, in
the same order and with the same tags, and the same reports, problems and events; and they leave
the same converter, which knows the same series with the same values and times. The fallback answers
the same in both runs. -/
theorem attribute_order_is_irrelevant {batches others : List (Nat × Batch V)}
    (h : List.Forall₂ (fun timed other => timed.1 = other.1 ∧ Batch.Permuted timed.2 other.2)
      batches others)
    (hk : ∀ timed ∈ batches, ∀ resource ∈ timed.2, DistinctKeys resource.attributes)
    (converter : Converter V) :
    List.Forall₂ Converted.Same (converter.convertEach batches).1
        (converter.convertEach others).1 ∧
      (converter.convertEach batches).2 = (converter.convertEach others).2 := by
  induction h generalizing converter with
  | nil => exact ⟨.nil, rfl⟩
  | @cons timed other rest more hfirst _ ih =>
    obtain ⟨hnow, hp⟩ := hfirst
    obtain ⟨hbatch, hrest⟩ := List.forall_mem_cons.mp hk
    obtain ⟨hs, hc⟩ := converter.convert_of_same (hp.plan hbatch converter.settings) timed.1
    obtain ⟨hss, hcs⟩ := ih hrest (converter.convert timed.1 timed.2).2
    simp only [convertEach, ← hnow, ← hc]
    exact ⟨.cons hs hss, hcs⟩

/-- A running total of a host, with the attributes at every place arranged in some way. -/
def totalOf (arrange : List Attribute → List Attribute) (time : Nat) (value : Int) : Batch Rat :=
  [⟨arrange [⟨"host.name", .text "web-1"⟩, ⟨"service.name", .text "shop"⟩],
    [⟨some ⟨"meter", "1.0", arrange [⟨"team", .text "core"⟩, ⟨"beta", .text "yes"⟩]⟩,
      [⟨"requests", .sum 2 true
        [⟨time, arrange [⟨"route", .text "/"⟩, ⟨"cached", .flag true⟩], 0,
          some (.integer value)⟩]⟩]⟩]⟩]

theorem total_continues_reversed :
    let converter : Converter Rat := ⟨.default, .empty 0, .collector, false, .zero⟩
    let inOrder := converter.convertEach [(0, totalOf id 1 5), (0, totalOf id 2 8)]
    let mixed := converter.convertEach [(0, totalOf id 1 5), (0, totalOf List.reverse 2 8)]
    List.Forall₂ Converted.Same inOrder.1 mixed.1 ∧ inOrder.2 = mixed.2 ∧
      mixed.1.map (·.points.length) = [0, 1] := by
  intro converter inOrder mixed
  have hpermuted (arrange : List Attribute → List Attribute)
      (h : ∀ xs : List Attribute, xs.Perm (arrange xs)) (time : Nat) (value : Int) :
      Batch.Permuted (totalOf id time value) (totalOf arrange time value) := by
    have hpoint {α : Type} (point : DataPoint α) :
        point.Permuted { point with attributes := arrange point.attributes } :=
      ⟨_, h point.attributes, rfl⟩
    have hscope (scope : Scope) :
        scope.Permuted { scope with attributes := arrange scope.attributes } :=
      ⟨_, h scope.attributes, rfl⟩
    exact .cons ⟨h _, .cons ⟨.some (hscope _), .cons ⟨rfl, .sum 2 true (.cons (hpoint _) .nil)⟩
      .nil⟩ .nil⟩ .nil
  have hkeys : ∀ timed ∈ [(0, totalOf id 1 5), (0, totalOf id 2 8)], ∀ resource ∈ timed.2,
      DistinctKeys resource.attributes := by
    unfold DistinctKeys
    decide
  have hstreams : List.Forall₂ (fun timed other => timed.1 = other.1 ∧ timed.2.Permuted other.2)
      [(0, totalOf id 1 5), (0, totalOf id 2 8)]
      [(0, totalOf id 1 5), (0, totalOf List.reverse 2 8)] :=
    .cons ⟨rfl, hpermuted id (fun _ => .refl _) 1 5⟩
      (.cons ⟨rfl, hpermuted List.reverse (fun xs => xs.reverse_perm.symm) 2 8⟩ .nil)
  obtain ⟨hs, hc⟩ := attribute_order_is_irrelevant hstreams hkeys converter
  exact ⟨hs, hc, by decide +kernel⟩

end Converter

end Batches

end MetricPoints
