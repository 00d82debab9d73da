import Mathlib.Data.List.Nodup
import Mathlib.Logic.Function.Basic
import MetricPoints.Tags

/-
  Tag sets that are worked on side by side. What was given to a set, with repetitions and in order,
  is its history; the set holds the tags of its history in the order in which each was given first
  (`Tags.InOrderOf`). Every edit keeps that, also one that takes the tags of another set, whose own
  history is then given as well. Order, lookup by name and equality are read off the histories.

  A tag is one text with a name in it, so its history can be asked for a name: the tag that a name
  finds is the one that was given first (`Tags.InOrderOf.named?_eq_some_iff`).

  Main statements: `Tags.sets_keep_first_insertions`, `Tags.tags_split_and_rejoin`.
-/

namespace MetricPoints

namespace Tags

variable {tags other : Tags} {given given' : List Tag}

/-! ## Sorted texts and equality -/

/-- The sorted texts are the texts of the tags, none lost and none repeated. -/
theorem perm_sortedTexts (tags : Tags) : tags.sortedTexts.Perm (tags.toList.map Tag.text) := by
  have hsorted : tags.sortedTexts.Nodup :=
    List.Pairwise.imp String.ne_of_lt (Text.increasing_ordered _)
  have htexts : (tags.toList.map Tag.text).Nodup := tags.nodup.map Tag.text_injective
  exact (List.perm_ext_iff_of_nodup hsorted htexts).mpr fun _ => Text.mem_ordered

theorem text_mem_sortedTexts {tag : Tag} : tag.text ∈ tags.sortedTexts ↔ tag ∈ tags :=
  (perm_sortedTexts tags).mem_iff.trans (List.mem_map_of_injective Tag.text_injective)

theorem same_iff_sortedTexts_eq : tags.Same other ↔ tags.sortedTexts = other.sortedTexts := by
  rw [same_iff]
  constructor
  · intro h
    refine Text.eq_of_increasing (Text.increasing_ordered _) (Text.increasing_ordered _) ?_
    intro text
    rw [(perm_sortedTexts tags).mem_iff,
      (perm_sortedTexts other).mem_iff, List.mem_map, List.mem_map]
    exact exists_congr fun tag => and_congr_left fun _ => h tag
  · intro h tag
    rw [← text_mem_sortedTexts, h, text_mem_sortedTexts]

theorem same_equivalence : Equivalence Same where
  refl _ := same_iff.mpr fun _ => Iff.rfl
  symm h := same_iff.mpr fun tag => (same_iff.mp h tag).symm
  trans h h' := same_iff.mpr fun tag => (same_iff.mp h tag).trans (same_iff.mp h' tag)

/-! ## Merging -/

theorem toList_merge (tags other : Tags) :
    (tags.merge other).toList = tags.toList ++ other.toList.filter (· ∉ tags.toList) := rfl

theorem toList_addAll_of_nodup {more : List Tag} (h : more.Nodup) :
    (tags.addAll more).toList = tags.toList ++ more.filter (· ∉ tags.toList) := by
  induction more generalizing tags with
  | nil => simp
  | cons tag more ih =>
    have ⟨hn, hm⟩ := List.nodup_cons.mp h
    rw [addAll_cons, ih hm, toList_insert]
    split
    · rename_i hin
      rw [List.filter_cons_of_neg (by simpa using mem_def.mp hin)]
    · rename_i hout
      -- the tag just inserted does not come again, so the rest is filtered as before
      have hrest : more.filter (· ∉ tags.toList ++ [tag]) = more.filter (· ∉ tags.toList) := by
        refine List.filter_congr fun a ha => ?_
        have hne : a ≠ tag := fun e => hn (e ▸ ha)
        simp [hne]
      rw [hrest, List.filter_cons_of_pos (by simpa using mt mem_def.mpr hout), List.append_assoc,
        List.singleton_append]

/-- Merging is inserting one by one, whether the set or what is missing is looked at. -/
theorem merge_eq_addAll (tags other : Tags) : tags.merge other = tags.addAll other.toList :=
  Tags.ext (by rw [toList_merge, toList_addAll_of_nodup other.nodup])

theorem insert_eq_merge (tags : Tags) (tag : Tag) :
    tags.insert tag = tags.merge (ofList [tag]) := by
  have hone : (ofList [tag]).toList = [tag] := rfl
  rw [merge_eq_addAll, hone, addAll_cons, addAll_nil]

/-! ## Histories -/

/-- The tags are those that were given, in the order in which each of them was given first. -/
structure InOrderOf (tags : Tags) (given : List Tag) : Prop where
  mem : ∀ tag, tag ∈ tags ↔ tag ∈ given
  ordered : tags.toList.Pairwise fun a b => given.idxOf a < given.idxOf b

namespace InOrderOf

theorem empty : (∅ : Tags).InOrderOf [] where
  mem _ := iff_of_false (not_mem_empty _) List.not_mem_nil
  ordered := List.Pairwise.nil

theorem singleton (tag : Tag) : (ofList [tag]).InOrderOf [tag] where
  mem _ := mem_ofList
  ordered := List.pairwise_singleton _ tag

/-- What is merged comes after what was there, in the order of its own history. -/
theorem merge (h : tags.InOrderOf given) (h' : other.InOrderOf given') :
    (tags.merge other).InOrderOf (given ++ given') where
  mem tag := by rw [mem_merge, h.mem, h'.mem, List.mem_append]
  ordered := by
    rw [toList_merge]
    refine List.pairwise_append.mpr ⟨?_, ?_, ?_⟩
    · refine h.ordered.imp_of_mem fun {a b} ha hb hlt => ?_
      rwa [List.idxOf_append_of_mem ((h.mem a).mp ha), List.idxOf_append_of_mem ((h.mem b).mp hb)]
    · refine (h'.ordered.filter _).imp_of_mem fun {a b} ha hb hlt => ?_
      have hnew {t : Tag} (ht : t ∈ other.toList.filter (· ∉ tags.toList)) : t ∉ given :=
        fun hg => of_decide_eq_true (List.mem_filter.mp ht).2 ((h.mem t).mpr hg)
      rw [List.idxOf_append_of_notMem (hnew ha), List.idxOf_append_of_notMem (hnew hb)]
      exact Nat.add_lt_add_left hlt _
    · intro a ha b hb
      have hold : a ∈ given := (h.mem a).mp ha
      have hnew : b ∉ given :=
        fun hg => of_decide_eq_true (List.mem_filter.mp hb).2 ((h.mem b).mpr hg)
      rw [List.idxOf_append_of_mem hold, List.idxOf_append_of_notMem hnew]
      exact Nat.lt_of_lt_of_le (List.idxOf_lt_length_iff.mpr hold) (Nat.le_add_right _ _)

theorem insert (h : tags.InOrderOf given) (tag : Tag) :
    (tags.insert tag).InOrderOf (given ++ [tag]) :=
  insert_eq_merge tags tag ▸ h.merge (singleton tag)

theorem addAll (h : tags.InOrderOf given) (more : List Tag) :
    (tags.addAll more).InOrderOf (given ++ more) := by
  induction more generalizing tags given with
  | nil => rwa [addAll_nil, List.append_nil]
  | cons tag more ih =>
    rw [addAll_cons, ← List.singleton_append, ← List.append_assoc]
    exact ih (h.insert tag)

/-- The tag that a name finds is the one with this name that was given before all others. -/
theorem named?_eq_some_iff (h : tags.InOrderOf given) {name : String} {tag : Tag} :
    tags.named? name = some tag ↔
      tag.name = name ∧ tag ∈ given ∧
        ∀ t ∈ given, t.name = name → given.idxOf tag ≤ given.idxOf t := by
  have hfirst {found : Tag} (hf : tags.named? name = some found) :
      ∀ t ∈ given, t.name = name → given.idxOf found ≤ given.idxOf t := by
    intro t ht hname
    obtain ⟨-, front, back, hlist, hfront⟩ := List.find?_eq_some_iff_append.mp hf
    have hmem : t ∈ front ++ found :: back := hlist ▸ (h.mem t).mpr ht
    have hordered := h.ordered
    rw [hlist, List.pairwise_append, List.pairwise_cons] at hordered
    rcases List.mem_append.mp hmem with hin | hin
    · simpa [hname] using hfront t hin
    · rcases List.mem_cons.mp hin with rfl | hin
      · exact Nat.le_refl _
      · exact Nat.le_of_lt (hordered.2.1.1 t hin)
  constructor
  · intro hf
    have ⟨hmem, hname⟩ := mem_of_named? hf
    exact ⟨hname, (h.mem tag).mp hmem, hfirst hf⟩
  · rintro ⟨hname, hmem, hmin⟩
    cases hf : tags.named? name with
    | none =>
      have hother := List.find?_eq_none.mp hf tag ((h.mem tag).mpr hmem)
      exact absurd hname (by simpa using hother)
    | some found =>
      have ⟨hin, hn⟩ := mem_of_named? hf
      have hle := hmin found ((h.mem found).mp hin) hn
      have hge := hfirst hf tag hmem hname
      rw [(List.idxOf_inj hmem).mp (Nat.le_antisymm hle hge)]

end InOrderOf

theorem named?_eq_none_iff {name : String} :
    tags.named? name = none ↔ ∀ tag ∈ tags, tag.name ≠ name := by
  simp only [named?, List.find?_eq_none, decide_eq_true_eq]
  rfl

/-! ## Edits of several sets -/

/-- What is done to one of several sets, which `ι` tells apart. -/
inductive Edit (ι : Type) where
  | insert (tag : Tag)
  | extend (more : List Tag)
  | collect (all : List Tag)
  | merge (source : ι)

section Edits

variable {ι : Type} [DecidableEq ι]

/-- The set after an edit, beside the others. -/
def Edit.apply (sets : ι → Tags) (tags : Tags) : Edit ι → Tags
  | .insert tag => (tags.add tag).2
  | .extend more => tags.addAll more
  | .collect all => ofList all
  | .merge source => tags.merge (sets source)

/-- The history after an edit. A set that is collected anew begins a new one. -/
def Edit.record (histories : ι → List Tag) (given : List Tag) : Edit ι → List Tag
  | .insert tag => given ++ [tag]
  | .extend more => given ++ more
  | .collect all => all
  | .merge source => given ++ histories source

/-- The sets after an edit of one of them. -/
def edit (sets : ι → Tags) (e : ι × Edit ι) : ι → Tags :=
  Function.update sets e.1 (e.2.apply sets (sets e.1))

/-- The sets after edits, all empty at first. -/
def edited (edits : List (ι × Edit ι)) : ι → Tags := edits.foldl edit fun _ => ∅

/-- The histories after an edit of one of the sets. -/
def record (histories : ι → List Tag) (e : ι × Edit ι) : ι → List Tag :=
  Function.update histories e.1 (e.2.record histories (histories e.1))

/-- The histories after edits. -/
def recorded (edits : List (ι × Edit ι)) : ι → List Tag := edits.foldl record fun _ => []

variable {sets : ι → Tags} {histories : ι → List Tag}

theorem inOrderOf_edit (h : ∀ i, (sets i).InOrderOf (histories i)) (e : ι × Edit ι) (i : ι) :
    (edit sets e i).InOrderOf (record histories e i) := by
  obtain ⟨target, change⟩ := e
  by_cases hi : i = target
  · subst hi
    rw [edit, record, Function.update_self, Function.update_self]
    cases change with
    | insert tag =>
      rw [Edit.apply, snd_add]
      exact (h i).insert tag
    | extend more => exact (h i).addAll more
    | collect all => exact InOrderOf.empty.addAll all
    | merge source => exact (h i).merge (h source)
  · rw [edit, record, Function.update_of_ne hi, Function.update_of_ne hi]
    exact h i

theorem inOrderOf_foldl (h : ∀ i, (sets i).InOrderOf (histories i)) (edits : List (ι × Edit ι))
    (i : ι) : (edits.foldl edit sets i).InOrderOf (edits.foldl record histories i) := by
  induction edits generalizing sets histories with
  | nil => exact h i
  | cons e edits ih => exact ih (inOrderOf_edit h e)

theorem inOrderOf_edited (edits : List (ι × Edit ι)) (i : ι) :
    (edited edits i).InOrderOf (recorded edits i) :=
  inOrderOf_foldl (fun _ => InOrderOf.empty) edits i

/-- Sets of tags keep the order of first insertion. After any edits of sets side by side, each holds
no tag twice, and holds the tags of its history in the order in which they were given first. Adding
a tag says that it was missing exactly when it was, and makes the set larger by one exactly then.
Merging is adding the tags of the other set. Sets are the same exactly when they have the same tags,
and exactly when their texts are equal once sorted, so this is an equivalence. -/
theorem sets_keep_first_insertions (edits : List (ι × Edit ι)) :
    let sets := edited edits
    (∀ i, (sets i).toList.Nodup ∧ (sets i).InOrderOf (recorded edits i)) ∧
    (∀ i tag, (((sets i).add tag).1 = true ↔ tag ∉ sets i) ∧
      (((sets i).add tag).2.size = (sets i).size + 1 ↔ tag ∉ sets i) ∧
      (((sets i).add tag).2 = sets i ↔ tag ∈ sets i)) ∧
    (∀ i j, (sets i).merge (sets j) = (sets i).addAll (sets j).toList) ∧
    (∀ i, (sets i).sortedTexts.Perm ((sets i).toList.map Tag.text) ∧
      (sets i).sortedTexts.Pairwise (· < ·)) ∧
    (∀ i j, ((sets i).Same (sets j) ↔ ∀ tag, tag ∈ sets i ↔ tag ∈ sets j) ∧
      ((sets i).Same (sets j) ↔ (sets i).sortedTexts = (sets j).sortedTexts)) ∧
    Equivalence Tags.Same := by
  intro sets
  refine ⟨fun i => ⟨(sets i).nodup, inOrderOf_edited edits i⟩, fun i tag => ⟨fst_add_iff, ?_, ?_⟩,
    fun i j => merge_eq_addAll _ _,
    fun i => ⟨perm_sortedTexts _, Text.increasing_ordered _⟩,
    fun i j => ⟨same_iff, same_iff_sortedTexts_eq⟩, same_equivalence⟩
  · rw [snd_add, size_insert]
    split <;> simp [*]
  · rw [snd_add]
    constructor
    · intro h
      exact h ▸ mem_insert.mpr (.inr rfl)
    · exact insert_of_mem

example : (edited [(true, .extend [⟨"b:2"⟩, ⟨"a:1"⟩, ⟨"b:2"⟩]), (false, .insert ⟨"c"⟩),
    (false, .insert ⟨"a:1"⟩), (true, .merge false)] true).toList = [⟨"b:2"⟩, ⟨"a:1"⟩, ⟨"c"⟩] := by
  decide

/-- Tags divide at the first colon and rejoin. The name of a text holds no colon, and either the
text is the name, without a value, or it is the name, a colon and the value. A tag made from a key
and a value gives back the key, and the value, exactly when the key holds no colon; its name is the
key up to its first colon. In sets after any edits, a name finds the tag that was given first among
those with the name, and nothing exactly when no tag has the name. -/
theorem tags_split_and_rejoin (text key value name : String) (edits : List (ι × Edit ι)) (i : ι) :
    let tag : Tag := ⟨text⟩
    let made := Tag.pair key value
    let tags := edited edits i
    let given := recorded edits i
    (':' ∉ tag.name.toList ∧
      ((tag.value? = none ∧ ':' ∉ text.toList ∧ tag.name = text) ∨
        ∃ v, tag.value? = some v ∧ text = tag.name ++ ":" ++ v)) ∧
    (made.name = key ↔ ':' ∉ key.toList) ∧
    (made.value? = some value ↔ ':' ∉ key.toList) ∧
    (':' ∉ made.name.toList ∧ (key = made.name ∨ ∃ rest, key = made.name ++ ":" ++ rest)) ∧
    (∀ found, tags.named? name = some found ↔
      found.name = name ∧ found ∈ given ∧
        ∀ t ∈ given, t.name = name → given.idxOf found ≤ given.idxOf t) ∧
    (tags.named? name = none ↔ ∀ tag ∈ tags, tag.name ≠ name) := by
  intro tag made tags given
  refine ⟨⟨Tag.colon_not_mem_name tag, ?_⟩, ?_, ?_, ⟨Tag.colon_not_mem_name made, ?_⟩,
    fun _ => (inOrderOf_edited edits i).named?_eq_some_iff, named?_eq_none_iff⟩
  · cases h : tag.value? with
    | none =>
      have hcolon := Tag.value?_eq_none_iff.mp h
      exact .inl ⟨rfl, hcolon, Tag.name_eq_text_iff.mpr hcolon⟩
    | some v => exact .inr ⟨v, rfl, Tag.text_eq_of_value? h⟩
  · exact ⟨fun h => h ▸ Tag.colon_not_mem_name made, Tag.name_pair⟩
  · refine ⟨fun h => ?_, Tag.value?_pair⟩
    rcases Tag.parts_pair key value with ⟨hkey, -⟩ | ⟨rest, -, hvalue⟩
    · exact hkey
    · -- otherwise the value has grown by what stood in the key
      have hlength := congrArg String.length (Option.some.inj (hvalue.symm.trans h))
      simp only [String.length_append] at hlength
      have hmark : ":".length = 1 := rfl
      omega
  · rcases Tag.parts_pair key value with ⟨-, hname, -⟩ | ⟨rest, hkey, -⟩
    · exact .inl hname.symm
    · exact .inr ⟨rest, hkey⟩

end Edits

end Tags

end MetricPoints
