import MetricPoints.Resource.Container
import MetricPoints.Tags

/-
  The tags of a resource: those of its attributes one by one, then the process tag, then the
  container tags. Only texts count, and an empty text gives no tag.
-/

namespace MetricPoints.Resource

/-- The last text under `key`. -/
def lastText? (attributes : List Attribute) (key : String) : Option String :=
  (attributes.filterMap fun a => if a.key = key then a.text? else none).getLast?

/-- The tag of the process: the first process key whose last text is not empty. -/
def processTag? (attributes : List Attribute) : Option Tag :=
  Convention.process.findSome? fun key =>
    ((lastText? attributes key).filter (· ≠ "")).map (Tag.pair key)

/-- The tags that conventions give to a key with a value that is not empty. -/
def conventionTags (key value : String) : List Tag :=
  ((Convention.service.lookup key).toList ++ (Convention.kubernetesLabels.lookup key).toList
    ++ ((Text.rest? Convention.labelStart key).filter (· ≠ "")).toList
    ++ if key ∈ Convention.tagNames then [key] else []).map (Tag.pair · value)

/-- The tags of one attribute. Process attributes wait for the process tag. -/
def attributeTags (a : Attribute) : List Tag :=
  match a.filledText? with
  | none => []
  | some value =>
    if a.key ∈ Convention.process then []
    else if a.key = Convention.operatingSystem then [Tag.pair a.key value]
    else conventionTags a.key value

/-- The tags of a resource. -/
def tags (attributes : List Attribute) : Tags :=
  Tags.ofList (attributes.flatMap attributeTags ++ (processTag? attributes).toList
    ++ (Container.pairs attributes).map fun e => Tag.pair e.1 e.2)

/-- The tags that show every scalar attribute as it is. -/
def scalarTags (attributes : List Attribute) : List Tag :=
  attributes.filterMap fun a => a.scalar?.map (Tag.pair a.key)

theorem mem_tags {tag : Tag} {attributes : List Attribute} :
    tag ∈ tags attributes ↔
      (∃ a ∈ attributes, tag ∈ attributeTags a) ∨ processTag? attributes = some tag ∨
        ∃ e ∈ Container.pairs attributes, Tag.pair e.1 e.2 = tag := by
  simp [tags]

theorem mem_scalarTags {tag : Tag} {attributes : List Attribute} :
    tag ∈ scalarTags attributes ↔
      ∃ a ∈ attributes, ∃ s, a.scalar? = some s ∧ Tag.pair a.key s = tag := by
  simp [scalarTags]

end MetricPoints.Resource
