import MetricPoints.Tag
import MetricPoints.Text.Sorted

/-
  Tag sets: tags in the order of their first insertion, none twice. Equality of sets, `Same`,
  does not look at the order. Main statements: what each operation holds afterwards
  (`mem_insert`, `mem_addAll`, `mem_merge`, `mem_ofList`), how it changes the order
  (`toList_insert`), and that `Same` is having the same tags (`same_iff`).
-/

namespace MetricPoints

/-- Tags in the order of their first insertion. -/
structure Tags where
  toList : List Tag
  nodup : toList.Nodup
  deriving DecidableEq

namespace Tags

/-- No tags. -/
def empty : Tags := ⟨[], List.nodup_nil⟩

instance : EmptyCollection Tags := ⟨empty⟩

instance : Membership Tag Tags := ⟨fun tags tag => tag ∈ tags.toList⟩

instance (tag : Tag) (tags : Tags) : Decidable (tag ∈ tags) :=
  inferInstanceAs (Decidable (tag ∈ tags.toList))

/-- The number of tags. -/
def size (tags : Tags) : Nat := tags.toList.length

/-- Adds a tag at the end, if it is not there yet. -/
def insert (tags : Tags) (tag : Tag) : Tags :=
  if h : tag ∈ tags.toList then tags
  else ⟨tags.toList ++ [tag],
    List.nodup_append.mpr ⟨tags.nodup, by simp, by
      intro a ha b hb hab
      rw [List.mem_singleton.mp hb] at hab
      exact h (hab ▸ ha)⟩⟩

/-- Adds a tag, and says whether it was missing. -/
def add (tags : Tags) (tag : Tag) : Bool × Tags :=
  if tag ∈ tags then (false, tags) else (true, tags.insert tag)

/-- Inserts tags one after the other. -/
def addAll (tags : Tags) (more : List Tag) : Tags := more.foldl insert tags

/-- The set of a list of tags. -/
def ofList (tags : List Tag) : Tags := empty.addAll tags

/-- Appends the tags of `other` that are missing. -/
def merge (tags other : Tags) : Tags :=
  ⟨tags.toList ++ other.toList.filter (· ∉ tags.toList),
    List.nodup_append.mpr ⟨tags.nodup, List.filter_sublist.nodup other.nodup, by
      intro a ha b hb hab
      have := (List.mem_filter.mp hb).2
      simp only [decide_eq_true_eq] at this
      exact this (hab ▸ ha)⟩⟩

/-- The tag with a name that was inserted first. -/
def named? (tags : Tags) (name : String) : Option Tag := tags.toList.find? (·.name = name)

/-- The texts of the tags in increasing order. -/
def sortedTexts (tags : Tags) : List String := Text.ordered (tags.toList.map Tag.text)

/-- The tags between brackets, with commas between them. -/
def text (tags : Tags) : String := "[" ++ ",".intercalate (tags.toList.map Tag.text) ++ "]"

/-- Equality of sets: as many tags, and every tag of the other one. -/
def Same (tags other : Tags) : Prop := tags.size = other.size ∧ ∀ tag ∈ other.toList, tag ∈ tags

instance (tags other : Tags) : Decidable (Same tags other) :=
  inferInstanceAs (Decidable (_ ∧ _))

theorem mem_def {tag : Tag} {tags : Tags} : tag ∈ tags ↔ tag ∈ tags.toList := Iff.rfl

@[ext] theorem ext {tags other : Tags} (h : tags.toList = other.toList) : tags = other := by
  cases tags; cases other; cases h; rfl

@[simp] theorem toList_empty : (∅ : Tags).toList = [] := rfl

@[simp] theorem not_mem_empty (tag : Tag) : tag ∉ (∅ : Tags) := List.not_mem_nil

theorem toList_insert (tags : Tags) (tag : Tag) :
    (tags.insert tag).toList = if tag ∈ tags then tags.toList else tags.toList ++ [tag] := by
  by_cases h : tag ∈ tags.toList
  · simp [insert, mem_def, h]
  · simp [insert, mem_def, h]

@[simp] theorem mem_insert {a tag : Tag} {tags : Tags} :
    a ∈ tags.insert tag ↔ a ∈ tags ∨ a = tag := by
  rw [mem_def, toList_insert]
  split
  · rename_i h
    exact ⟨Or.inl, fun | .inl h' => h' | .inr e => e ▸ h⟩
  · simp [mem_def]

theorem size_insert (tags : Tags) (tag : Tag) :
    (tags.insert tag).size = if tag ∈ tags then tags.size else tags.size + 1 := by
  unfold size
  rw [toList_insert]
  split <;> simp

theorem insert_of_mem {tags : Tags} {tag : Tag} (h : tag ∈ tags) : tags.insert tag = tags :=
  ext (by rw [toList_insert, if_pos h])

theorem fst_add_iff {tags : Tags} {tag : Tag} : (tags.add tag).1 = true ↔ tag ∉ tags := by
  unfold add
  split <;> simp [*]

@[simp] theorem snd_add (tags : Tags) (tag : Tag) : (tags.add tag).2 = tags.insert tag := by
  unfold add
  split
  · rename_i h
    exact (insert_of_mem h).symm
  · rfl

@[simp] theorem addAll_nil (tags : Tags) : tags.addAll [] = tags := rfl

@[simp] theorem addAll_cons (tags : Tags) (tag : Tag) (more : List Tag) :
    tags.addAll (tag :: more) = (tags.insert tag).addAll more := rfl

@[simp] theorem mem_addAll {a : Tag} {tags : Tags} {more : List Tag} :
    a ∈ tags.addAll more ↔ a ∈ tags ∨ a ∈ more := by
  induction more generalizing tags with
  | nil => simp
  | cons tag more ih => simp [ih, or_assoc]

@[simp] theorem mem_ofList {a : Tag} {tags : List Tag} : a ∈ ofList tags ↔ a ∈ tags := by
  rw [ofList, mem_addAll]
  exact ⟨fun | .inr h => h | .inl h => absurd h (not_mem_empty a), Or.inr⟩

@[simp] theorem mem_merge {a : Tag} {tags other : Tags} :
    a ∈ tags.merge other ↔ a ∈ tags ∨ a ∈ other := by
  simp only [mem_def, merge, List.mem_append, List.mem_filter, decide_eq_true_eq]
  by_cases h : a ∈ tags.toList <;> simp [h]

theorem mem_of_named? {tags : Tags} {name : String} {tag : Tag} (h : tags.named? name = some tag) :
    tag ∈ tags ∧ tag.name = name :=
  ⟨List.mem_of_find?_eq_some h, by simpa using List.find?_some h⟩

theorem subset_of_nodup_of_length_le {xs ys : List Tag} (hx : xs.Nodup) (h : xs ⊆ ys)
    (hl : ys.length ≤ xs.length) : ys ⊆ xs := by
  induction xs generalizing ys with
  | nil =>
    rw [List.eq_nil_of_length_eq_zero (Nat.le_zero.mp hl)]
    exact List.Subset.refl _
  | cons x xs ih =>
    have ⟨hn, ht⟩ := List.nodup_cons.mp hx
    have hxy : x ∈ ys := h List.mem_cons_self
    have hsub : xs ⊆ ys.erase x := by
      intro a ha
      have hne : a ≠ x := fun e => hn (e ▸ ha)
      exact (List.mem_erase_of_ne hne).mpr (h (List.mem_cons_of_mem _ ha))
    have hlen : (ys.erase x).length ≤ xs.length := by
      rw [List.length_erase_of_mem hxy]
      simp only [List.length_cons] at hl
      omega
    intro a ha
    by_cases e : a = x
    · exact e ▸ List.mem_cons_self
    · exact List.mem_cons_of_mem _ (ih ht hsub hlen ((List.mem_erase_of_ne e).mpr ha))

theorem same_iff {tags other : Tags} : tags.Same other ↔ ∀ tag, tag ∈ tags ↔ tag ∈ other := by
  constructor
  · rintro ⟨hs, h⟩ tag
    exact ⟨fun hm => subset_of_nodup_of_length_le other.nodup h (Nat.le_of_eq hs) hm, h tag⟩
  · intro h
    have h₁ : other.toList ⊆ tags.toList := fun a ha => (h a).mpr ha
    have h₂ : tags.toList ⊆ other.toList := fun a ha => (h a).mp ha
    exact ⟨Nat.le_antisymm (tags.nodup.length_le_of_subset h₂)
      (other.nodup.length_le_of_subset h₁), fun a ha => h₁ ha⟩

end Tags

end MetricPoints
