import MetricPoints.Proofs.Channels
import MetricPoints.Proofs.Permuted

/-
  Attributes whose value is the empty text. Without them a key finds the text that it found before,
  unless that was empty (`lookupText?_withoutBlanks`), if no two attributes have the same key. Tags
  and hosts go by texts that are not empty, so that they stay as they are. Origins and tasks do not:
  an empty container, an empty pod of a resource without a container and an empty task each identify
  something, and these three are all (`originOf_withoutBlanks_iff`, `task?_withoutBlanks_iff`).

  Main statement: `Converter.blanks_identify_containers_pods_and_tasks`.
-/

namespace MetricPoints

variable {V : Type}

/-- The value is the empty text. -/
def Attribute.isBlank (a : Attribute) : Bool := a.text? = some ""

/-- The attributes with another value than the empty text. -/
def withoutBlanks (attributes : List Attribute) : List Attribute :=
  attributes.filter (!·.isBlank)

/-- The resource without its attributes that have the empty text for a value. -/
def ResourceMetrics.withoutBlanks (resource : ResourceMetrics V) : ResourceMetrics V :=
  { resource with attributes := MetricPoints.withoutBlanks resource.attributes }

/-! ## What goes by texts that are not empty -/

namespace Attribute

theorem filledText?_of_isBlank {a : Attribute} (h : a.isBlank = true) : a.filledText? = none := by
  rw [filledText?, of_decide_eq_true h]
  rfl

end Attribute

/-- What gives nothing for an empty text gives the same without them. -/
theorem flatMap_withoutBlanks {α : Type} {f : Attribute → List α}
    (hf : ∀ a : Attribute, a.filledText? = none → f a = []) (attributes : List Attribute) :
    (withoutBlanks attributes).flatMap f = attributes.flatMap f := by
  induction attributes with
  | nil => rfl
  | cons a rest ih =>
    rw [withoutBlanks, List.filter_cons, List.flatMap_cons]
    cases hb : a.isBlank with
    | true => rw [hf a (Attribute.filledText?_of_isBlank hb)]; exact ih
    | false => exact congrArg (f a ++ ·) ih

theorem filterMap_withoutBlanks {α : Type} {f : Attribute → Option α}
    (hf : ∀ a : Attribute, a.filledText? = none → f a = none) (attributes : List Attribute) :
    (withoutBlanks attributes).filterMap f = attributes.filterMap f := by
  rw [List.filterMap_eq_flatMap_toList, List.filterMap_eq_flatMap_toList]
  exact flatMap_withoutBlanks (fun a ha => congrArg Option.toList (hf a ha)) attributes

theorem Container.pairs_withoutBlanks (attributes : List Attribute) :
    pairs (withoutBlanks attributes) = pairs attributes := by
  have hconventional := filterMap_withoutBlanks (f := conventional?) (fun a ha => by
    rw [conventional?, ha]; rfl) attributes
  have hcustom := filterMap_withoutBlanks (f := custom?) (fun a ha => by
    rw [custom?, ha]; rfl) attributes
  rw [pairs, hconventional, hcustom, pairs]

theorem getLast?_toList {α : Type} (o : Option α) : o.toList.getLast? = o := by
  cases o <;> rfl

section

variable {attributes : List Attribute} (hk : DistinctKeys attributes)

include hk

theorem DistinctKeys.withoutBlanks : DistinctKeys (withoutBlanks attributes) :=
  (List.filter_sublist.map _).nodup hk

/-- There is one text under a key at most, the one that is looked up. -/
theorem textsOf_eq_toList (key : String) :
    textsOf attributes key = (lookupText? attributes key).toList := by
  rw [textsOf, lookupText?, ← List.head?_filter]
  rcases hk.filter_key key with hf | ⟨a, hf⟩
  · rw [hf]
    rfl
  · rw [hf, List.filterMap_cons]
    cases ht : a.text? with
    | none => simp [ht]
    | some text => simp [ht]

theorem lookupText?_withoutBlanks (key : String) :
    lookupText? (withoutBlanks attributes) key =
      (lookupText? attributes key).filter (· ≠ "") := by
  rw [lookupText?, lookupText?, ← List.head?_filter, ← List.head?_filter, withoutBlanks,
    List.filter_comm]
  rcases hk.filter_key key with hf | ⟨a, hf⟩
  · rw [hf]
    rfl
  · rw [hf]
    cases ht : a.text? with
    | none => simp [Attribute.isBlank, ht]
    | some text => by_cases hblank : text = "" <;>
      simp [Attribute.isBlank, ht, hblank, Option.filter_some]

/-- No other text than the empty one is lost. -/
theorem lookupText?_withoutBlanks_eq_some_iff {key text : String} (h : text ≠ "") :
    lookupText? (withoutBlanks attributes) key = some text ↔
      lookupText? attributes key = some text := by
  rw [lookupText?_withoutBlanks hk, Option.filter_eq_some_iff, decide_eq_true_iff, and_iff_left h]

theorem filter_lookupText?_withoutBlanks (key : String) :
    (lookupText? (withoutBlanks attributes) key).filter (· ≠ "") =
      (lookupText? attributes key).filter (· ≠ "") := by
  rw [lookupText?_withoutBlanks hk, Option.filter_filter]
  simp

theorem Resource.processTag?_withoutBlanks :
    processTag? (withoutBlanks attributes) = processTag? attributes := by
  have hl (key : String) : (lastText? (withoutBlanks attributes) key).filter (· ≠ "") =
      (lastText? attributes key).filter (· ≠ "") := by
    rw [lastText?, lastText?, filterMap_text?_eq_textsOf, filterMap_text?_eq_textsOf,
      textsOf_eq_toList hk, textsOf_eq_toList hk.withoutBlanks, getLast?_toList,
      getLast?_toList, filter_lookupText?_withoutBlanks hk]
  rw [processTag?, processTag?]
  simp only [hl]

/-- An empty text gives no tag. -/
theorem Resource.tags_withoutBlanks : tags (withoutBlanks attributes) = tags attributes := by
  have hscalar := flatMap_withoutBlanks (f := attributeTags) (fun a ha => by
    rw [attributeTags, ha]) attributes
  rw [tags, tags, hscalar, processTag?_withoutBlanks hk, Container.pairs_withoutBlanks]

namespace Source

/-- An empty text names no host. -/
theorem host?_withoutBlanks : host? (withoutBlanks attributes) = host? attributes := by
  rw [host?, host?]
  simp only [filter_lookupText?_withoutBlanks hk]

theorem isFargate_withoutBlanks : isFargate (withoutBlanks attributes) = isFargate attributes := by
  rw [Bool.eq_iff_iff, isFargate_iff, isFargate_iff,
    lookupText?_withoutBlanks_eq_some_iff hk (by decide),
    lookupText?_withoutBlanks_eq_some_iff hk (by decide),
    lookupText?_withoutBlanks_eq_some_iff hk (by decide)]

/-- An empty text names a task. -/
theorem task?_withoutBlanks_iff :
    task? (withoutBlanks attributes) = task? attributes ↔
      (isFargate attributes = true → lookupText? attributes "aws.ecs.task.arn" ≠ some "") := by
  rw [task?, task?, isFargate_withoutBlanks hk, lookupText?_withoutBlanks hk]
  cases isFargate attributes with
  | false => simp
  | true =>
    cases lookupText? attributes "aws.ecs.task.arn" with
    | none => simp
    | some arn => by_cases hblank : arn = "" <;> simp [hblank]

end Source

theorem originOf_eq_lookupText? :
    originOf attributes =
      (((lookupText? attributes "container.id").map ("container_id://" ++ ·)).or
        ((lookupText? attributes "k8s.pod.uid").map ("kubernetes_pod_uid://" ++ ·))).getD "" := by
  rw [originOf_eq, textsOf_eq_toList hk, textsOf_eq_toList hk, Option.head?_toList,
    getLast?_toList]

omit hk in
theorem pod_ne_container (uid : String) : "kubernetes_pod_uid://" ++ uid ≠ "container_id://" := by
  intro e
  have h := congrArg (fun text => text.toList.head?) e
  simp [String.toList_append] at h

/-- An empty text is the origin of a container, or of a pod if there is no container. -/
theorem originOf_withoutBlanks_iff :
    originOf (withoutBlanks attributes) = originOf attributes ↔
      lookupText? attributes "container.id" ≠ some "" ∧
        (lookupText? attributes "container.id" = none →
          lookupText? attributes "k8s.pod.uid" ≠ some "") := by
  rw [originOf_eq_lookupText? hk, originOf_eq_lookupText? hk.withoutBlanks,
    lookupText?_withoutBlanks hk, lookupText?_withoutBlanks hk]
  cases lookupText? attributes "container.id" with
  | some id =>
    by_cases hid : id = ""
    · subst hid
      cases lookupText? attributes "k8s.pod.uid" with
      | none => simp [Option.filter_some]
      | some uid => by_cases huid : uid = "" <;>
        simp [Option.filter_some, huid, pod_ne_container uid]
    · simp [Option.filter_some, hid]
  | none =>
    cases lookupText? attributes "k8s.pod.uid" with
    | none => simp
    | some uid => by_cases huid : uid = "" <;> simp [Option.filter_some, huid]

/-- Where origin and task stay as they are, so does all that the resource contributes, unless its
attributes are shown as they are. -/
theorem Context.ofResource_withoutBlanks {settings : Settings}
    (hs : settings.resourceTags = false)
    (horigin : originOf (MetricPoints.withoutBlanks attributes) = originOf attributes)
    (htask : Source.task? (MetricPoints.withoutBlanks attributes) = Source.task? attributes) :
    ofResource settings (MetricPoints.withoutBlanks attributes) = ofResource settings attributes ∧
      Source.resolve settings.fallback (MetricPoints.withoutBlanks attributes) =
        Source.resolve settings.fallback attributes := by
  have hresolve : Source.resolve settings.fallback (MetricPoints.withoutBlanks attributes) =
      Source.resolve settings.fallback attributes := by
    rw [Source.resolve, Source.ofAttributes?, htask, Source.host?_withoutBlanks hk, Source.resolve,
      Source.ofAttributes?]
  refine ⟨?_, hresolve⟩
  rw [ofResource, ofResource, hresolve, horigin, Resource.tags_withoutBlanks hk, hs]
  rfl

end

/-! ## Conversions -/

namespace Converter

variable [Amount V]

/-- Of a resource without two attributes of one key, the attributes with the empty text for a value
give no tag and no host. They identify in three places: as a container, as a pod of a resource
without a container, and as a task. Where none of these is so, and attributes are not shown as they
are, the conversion goes as if they were not there: points, report, diagnostics and tracker. -/
theorem blanks_identify_containers_pods_and_tasks (converter : Converter V)
    (hs : converter.settings.resourceTags = false) (resource : ResourceMetrics V)
    (hk : DistinctKeys resource.attributes) :
    let attributes := resource.attributes
    let filled := resource.withoutBlanks.attributes
    Resource.tags filled = Resource.tags attributes ∧
      Source.host? filled = Source.host? attributes ∧
      (originOf filled = originOf attributes ↔
        lookupText? attributes "container.id" ≠ some "" ∧
          (lookupText? attributes "container.id" = none →
            lookupText? attributes "k8s.pod.uid" ≠ some "")) ∧
      (Source.task? filled = Source.task? attributes ↔
        (Source.isFargate attributes = true →
          lookupText? attributes "aws.ecs.task.arn" ≠ some "")) ∧
      (originOf filled = originOf attributes → Source.task? filled = Source.task? attributes →
        ∀ now, converter.convert now [resource.withoutBlanks] =
          converter.convert now [resource]) := by
  intro attributes filled
  refine ⟨Resource.tags_withoutBlanks hk, Source.host?_withoutBlanks hk,
    originOf_withoutBlanks_iff hk, Source.task?_withoutBlanks_iff hk, fun horigin htask now => ?_⟩
  obtain ⟨hcontext, hresolve⟩ := Context.ofResource_withoutBlanks hk hs horigin htask
  have hplan : Batch.plan converter.settings [resource.withoutBlanks] =
      Batch.plan converter.settings [resource] := by
    rw [Batch.plan_singleton, Batch.plan_singleton, ResourceMetrics.plan, ResourceMetrics.plan,
      ResourceMetrics.withoutBlanks, hresolve, hcontext]
  rw [convert_eq, convert_eq, hplan]

/-- A gauge of a resource with these attributes. -/
def loadOf (attributes : List Attribute) : ResourceMetrics Rat :=
  ⟨attributes, [⟨none, [⟨"load", .gauge [⟨1000000000, [], 0, some (.integer 5)⟩]⟩]⟩]⟩

theorem blanks_of_named_pod :
    let converter : Converter Rat := ⟨.default, .empty 0, .collector, false, .zero⟩
    let resource := loadOf [⟨"service.name", .text ""⟩, ⟨"host.name", .text ""⟩,
      ⟨"k8s.pod.uid", .text "p1"⟩, ⟨"aws.ecs.task.arn", .text ""⟩]
    converter.convert 0 [resource.withoutBlanks] = converter.convert 0 [resource] ∧
      (converter.convert 0 [resource]).1.points.map (·.labels.origin) =
        [some "kubernetes_pod_uid://p1"] := by
  intro converter resource
  have hk : DistinctKeys resource.attributes := by
    unfold DistinctKeys
    decide
  obtain ⟨-, -, horigin, htask, hsame⟩ :=
    blanks_identify_containers_pods_and_tasks converter rfl resource hk
  refine ⟨hsame (horigin.mpr ?_) (htask.mpr ?_) 0, by decide +kernel⟩
  · decide
  · decide

/-- An empty container hides the pod. -/
theorem blank_container_hides_pod :
    let converter : Converter Rat := ⟨.default, .empty 0, .collector, false, .zero⟩
    let resource := loadOf [⟨"container.id", .text ""⟩, ⟨"k8s.pod.uid", .text "p1"⟩]
    converter.settings.resourceTags = false ∧ DistinctKeys resource.attributes ∧
      (converter.convert 0 [resource]).1.points.map (·.labels.origin) =
        [some "container_id://"] ∧
      (converter.convert 0 [resource.withoutBlanks]).1.points.map (·.labels.origin) =
        [some "kubernetes_pod_uid://p1"] := by
  refine ⟨rfl, ?_, ?_, ?_⟩
  · unfold DistinctKeys
    decide
  · decide +kernel
  · decide +kernel

end Converter

end MetricPoints
