import MetricPoints.Resource.Tags
import MetricPoints.Series

/-
  Labels: what a point carries beside its value, namely a name, tags, a host and an origin. Labels
  are refined on the way from a resource to a point, and each has a series (`series_eq_iff`).
-/

namespace MetricPoints

/-- The name, tags, host and origin of a point. -/
structure Labels where
  name : String
  tags : Tags
  host : Option String
  origin : Option String
  deriving DecidableEq

namespace Labels

/-- The labels with `.suffix` after the name. -/
def suffixed (labels : Labels) (suffix : String) : Labels :=
  { labels with name := labels.name ++ "." ++ suffix }

/-- The labels with further tags after the present ones. -/
def tagged (labels : Labels) (tags : List Tag) : Labels :=
  { labels with tags := labels.tags.addAll tags }

/-- The labels with the scalar attributes of a data point as tags, before the present ones. -/
def withAttributes (labels : Labels) (attributes : List Attribute) : Labels :=
  { labels with tags := (Tags.ofList (Resource.scalarTags attributes)).merge labels.tags }

/-- The series that the labels describe. -/
def series (labels : Labels) : Series :=
  .of labels.name (labels.tags.toList.map Tag.text) labels.host labels.origin

@[simp] theorem host_suffixed (labels : Labels) (suffix : String) :
    (labels.suffixed suffix).host = labels.host := rfl

@[simp] theorem tags_suffixed (labels : Labels) (suffix : String) :
    (labels.suffixed suffix).tags = labels.tags := rfl

@[simp] theorem name_tagged (labels : Labels) (tags : List Tag) :
    (labels.tagged tags).name = labels.name := rfl

@[simp] theorem mem_tags_tagged {tag : Tag} {labels : Labels} {tags : List Tag} :
    tag ∈ (labels.tagged tags).tags ↔ tag ∈ labels.tags ∨ tag ∈ tags :=
  Tags.mem_addAll

@[simp] theorem name_withAttributes (labels : Labels) (attributes : List Attribute) :
    (labels.withAttributes attributes).name = labels.name := rfl

@[simp] theorem mem_tags_withAttributes {tag : Tag} {labels : Labels}
    {attributes : List Attribute} :
    tag ∈ (labels.withAttributes attributes).tags ↔
      tag ∈ Resource.scalarTags attributes ∨ tag ∈ labels.tags := by
  simp [withAttributes]

theorem series_eq_iff {labels other : Labels} :
    labels.series = other.series ↔ labels.name = other.name ∧ labels.host = other.host ∧
      labels.origin = other.origin ∧ ∀ tag, tag ∈ labels.tags ↔ tag ∈ other.tags := by
  have mem (l : Labels) (tag : Tag) : tag.text ∈ l.tags.toList.map Tag.text ↔ tag ∈ l.tags := by
    constructor
    · intro h
      obtain ⟨t, ht, he⟩ := List.mem_map.mp h
      exact Tag.text_injective he ▸ ht
    · exact fun h => List.mem_map_of_mem h
  rw [series, series, Series.of_eq_of_iff]
  constructor
  · rintro ⟨hn, hh, ho, ht⟩
    exact ⟨hn, hh, ho, fun tag => by rw [← mem, ← mem, ht]⟩
  · rintro ⟨hn, hh, ho, ht⟩
    refine ⟨hn, hh, ho, fun text => ?_⟩
    have := ht ⟨text⟩
    rw [← mem labels, ← mem other] at this
    exact this

end Labels

end MetricPoints
