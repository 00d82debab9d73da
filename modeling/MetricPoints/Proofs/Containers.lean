import Mathlib.Data.List.Nodup
import MetricPoints.Resource.Tags

/-
  Container tags, derived in three ways: as a table of the attributes of a resource, among the tags
  of the resource, and as a table of a plain map. Each attribute that counts for a name does so by a
  text that is not empty (`filledTexts`). What the pairs of a resource say of a name are the texts
  under its conventional keys, or else the first text under the key that gives the name itself
  (`valuesIn_pairs`); and since no name has two conventional keys, nothing in a plain map
  overwrites anything else (`nodup_renamed`).

  Main statement: `Container.derivations_agree`.
-/

namespace MetricPoints

/-- The texts that are not empty, in order, of the attributes whose key passes a test. -/
def filledTexts (test : String → Bool) (attributes : List Attribute) : List String :=
  (attributes.filter (test ·.key)).filterMap Attribute.filledText?

theorem mem_filledTexts {test : String → Bool} {attributes : List Attribute} {value : String} :
    value ∈ filledTexts test attributes ↔
      ∃ a ∈ attributes, test a.key ∧ a.filledText? = some value := by
  simp [filledTexts, and_assoc]

theorem ne_empty_of_mem_filledTexts {test : String → Bool} {attributes : List Attribute}
    {value : String} (h : value ∈ filledTexts test attributes) : value ≠ "" := by
  obtain ⟨a, -, -, hvalue⟩ := mem_filledTexts.mp h
  exact (Attribute.filledText?_eq_some_iff.mp hvalue).2

theorem lookup_eq_some_iff_mem {entries : List (String × String)}
    (h : (entries.map Prod.fst).Nodup) {key name : String} :
    entries.lookup key = some name ↔ (key, name) ∈ entries := by
  rw [List.lookup_eq_some_iff]
  constructor
  · rintro ⟨before, after, rfl, -⟩
    exact List.mem_append_right _ List.mem_cons_self
  · intro hm
    obtain ⟨before, after, rfl⟩ := List.append_of_mem hm
    refine ⟨before, after, rfl, fun e he => bne_iff_ne.mpr fun hkey => ?_⟩
    rw [List.map_append, List.nodup_append] at h
    exact h.2.2 e.1 (List.mem_map_of_mem he) key List.mem_cons_self hkey.symm

namespace Convention

theorem lookup_container {key name : String} :
    container.lookup key = some name ↔ (key, name) ∈ container :=
  lookup_eq_some_iff_mem container_keys_nodup

/-- A container tag has one conventional key. -/
theorem container_key_eq {key other name : String} (h : (key, name) ∈ container)
    (ho : (other, name) ∈ container) : key = other :=
  congrArg Prod.fst (List.inj_on_of_nodup_map container_names_nodup h ho rfl)

end Convention

namespace Container

/-! ## The pairs of a resource -/

/-- The texts under the conventional keys for `name`, in order. -/
def conventionalTexts (attributes : List Attribute) (name : String) : List String :=
  filledTexts (fun key => (key, name) ∈ Convention.container) attributes

/-- The texts under the key that gives `name` itself, in order. No key gives the empty name. -/
def customTexts (attributes : List Attribute) (name : String) : List String :=
  filledTexts (fun key => name ≠ "" ∧ key = Convention.containerTagStart ++ name) attributes

theorem conventional?_eq_some_iff {a : Attribute} {name value : String} :
    conventional? a = some (name, value) ↔
      (a.key, name) ∈ Convention.container ∧ a.filledText? = some value := by
  simp only [conventional?, Option.bind_eq_bind, Option.bind_eq_some_iff,
    Convention.lookup_container]
  constructor
  · rintro ⟨text, ht, known, hk, he⟩
    cases he
    exact ⟨hk, ht⟩
  · rintro ⟨hk, ht⟩
    exact ⟨value, ht, name, hk, rfl⟩

theorem custom?_eq_some_iff {a : Attribute} {name value : String} :
    custom? a = some (name, value) ↔
      (name ≠ "" ∧ a.key = Convention.containerTagStart ++ name) ∧
        a.filledText? = some value := by
  simp only [custom?, Option.bind_eq_bind, Option.bind_eq_some_iff, Text.rest?_eq_some_iff]
  constructor
  · rintro ⟨text, ht, rest, hk, he⟩
    split at he
    · exact nomatch he
    · rename_i hne
      cases he
      exact ⟨⟨hne, hk⟩, ht⟩
  · rintro ⟨⟨hne, hk⟩, ht⟩
    exact ⟨value, ht, name, hk, if_neg hne⟩

/-- Pairs that are made of attributes with suitable keys say of a name what these attributes say. -/
theorem valuesIn_filterMap {f : Attribute → Option (String × String)} {name : String}
    {test : String → Bool}
    (hf : ∀ a value, f a = some (name, value) ↔ test a.key ∧ a.filledText? = some value)
    (attributes : List Attribute) :
    Table.valuesIn name (attributes.filterMap f) = filledTexts test attributes := by
  rw [Table.valuesIn, List.filter_filterMap, List.map_filterMap, filledTexts,
    List.filterMap_filter]
  refine List.filterMap_congr fun a _ => Option.ext fun value => ?_
  have hnamed : Option.map Prod.snd ((f a).filter (·.1 = name)) = some value ↔
      f a = some (name, value) := by
    simp [Option.filter_eq_some_iff]
  rw [hnamed, hf]
  simp

theorem valuesIn_conventional (attributes : List Attribute) (name : String) :
    Table.valuesIn name (attributes.filterMap conventional?) =
      conventionalTexts attributes name :=
  valuesIn_filterMap (fun a value => by
    rw [conventional?_eq_some_iff, decide_eq_true_iff]) attributes

theorem valuesIn_custom (attributes : List Attribute) (name : String) :
    Table.valuesIn name (attributes.filterMap custom?) = customTexts attributes name :=
  valuesIn_filterMap (fun a value => by
    rw [custom?_eq_some_iff, decide_eq_true_iff]) attributes

/-- A name that is not taken has its first value. -/
theorem valuesIn_untaken (taken : List String) (entries : List (String × String))
    (name : String) :
    Table.valuesIn name (untaken taken entries) =
      if name ∈ taken then [] else (Table.valuesIn name entries).head?.toList := by
  induction entries generalizing taken with
  | nil => simp [untaken, Table.valuesIn]
  | cons e rest ih =>
    obtain ⟨head, value⟩ := e
    rw [untaken, Table.valuesIn_cons]
    by_cases ht : head ∈ taken
    · rw [if_pos ht, ih]
      by_cases hn : head = name
      · rw [if_pos (hn ▸ ht), if_pos (hn ▸ ht)]
      · rw [if_neg hn]
    · rw [if_neg ht, Table.valuesIn_cons, ih]
      by_cases hn : head = name
      · subst hn
        simp [ht]
      · simp [hn, Ne.symm hn]

/-- What the pairs of a resource say of a name. -/
theorem valuesIn_pairs (attributes : List Attribute) (name : String) :
    Table.valuesIn name (pairs attributes) =
      conventionalTexts attributes name ++
        if conventionalTexts attributes name = [] then
          (customTexts attributes name).head?.toList
        else [] := by
  rw [pairs, Table.valuesIn_append, valuesIn_untaken, valuesIn_custom, ← valuesIn_conventional]
  by_cases h : Table.valuesIn name (attributes.filterMap conventional?) = []
  · rw [if_pos h, if_neg (Table.valuesIn_eq_nil_iff.mp h)]
  · rw [if_neg h, if_pos (not_not.mp (mt Table.valuesIn_eq_nil_iff.mpr h))]

theorem mem_pairs_iff {attributes : List Attribute} {name value : String} :
    (name, value) ∈ pairs attributes ↔
      value ∈ conventionalTexts attributes name ∨
        conventionalTexts attributes name = [] ∧
          (customTexts attributes name).head? = some value := by
  rw [← Table.mem_valuesIn, valuesIn_pairs, List.mem_append]
  refine or_congr_right ?_
  split <;> simp [*]

/-- The last text under the conventional keys, or else the first one under the key that gives the
name itself. -/
theorem get?_table (attributes : List Attribute) (name : String) :
    (table attributes).get? name =
      (conventionalTexts attributes name).getLast?.or (customTexts attributes name).head? := by
  rw [table, Table.get?_ofList, valuesIn_pairs, List.getLast?_append]
  split
  · rename_i h
    rw [h]
    cases (customTexts attributes name).head? <;> rfl
  · rename_i h
    rw [List.getLast?_eq_some_getLast h]
    rfl

theorem mem_pairs_of_get?_table {attributes : List Attribute} {name value : String}
    (h : (table attributes).get? name = some value) : (name, value) ∈ pairs attributes := by
  rw [table, Table.get?_ofList] at h
  exact Table.mem_valuesIn.mp (List.mem_of_getLast? h)

/-! ## Plain maps -/

theorem renamed?_eq_some_iff {e renamed : String × String} :
    renamed? e = some renamed ↔ (e.1, renamed.1) ∈ Convention.container ∧ e.2 = renamed.2 := by
  obtain ⟨name, value⟩ := renamed
  simp only [renamed?, Option.map_eq_some_iff, Convention.lookup_container, Prod.mk.injEq]
  constructor
  · rintro ⟨known, hk, rfl, hv⟩
    exact ⟨hk, hv⟩
  · rintro ⟨hk, hv⟩
    exact ⟨name, hk, rfl, hv⟩

section Maps

variable {entries : List (String × String)} (hk : (entries.map Prod.fst).Nodup)

include hk

/-- Renamed keys stay distinct. -/
theorem nodup_renamed : ((entries.filterMap renamed?).map Prod.fst).Nodup := by
  have hp : entries.Pairwise (·.1 ≠ ·.1) := List.pairwise_map.mp hk
  refine List.pairwise_map.mpr (hp.filterMap renamed? fun e other hne r hr s hs heq => hne ?_)
  have he := (renamed?_eq_some_iff.mp hr).1
  rw [heq] at he
  exact Convention.container_key_eq he (renamed?_eq_some_iff.mp hs).1

theorem toList_tableOfMap : (tableOfMap entries).toList = entries.filterMap renamed? :=
  Table.toList_ofList (nodup_renamed hk)

theorem get?_tableOfMap_eq_some_iff {name value : String} :
    (tableOfMap entries).get? name = some value ↔
      ∃ key, (key, name) ∈ Convention.container ∧ (key, value) ∈ entries := by
  rw [← Table.mem_iff_get?, toList_tableOfMap hk, List.mem_filterMap]
  constructor
  · rintro ⟨⟨key, text⟩, he, hr⟩
    obtain ⟨hkey, rfl⟩ := renamed?_eq_some_iff.mp hr
    exact ⟨key, hkey, he⟩
  · rintro ⟨key, hkey, he⟩
    exact ⟨(key, value), he, renamed?_eq_some_iff.mpr ⟨hkey, rfl⟩⟩

/-- Every conventional key of a map has an entry of its own. -/
theorem size_tableOfMap :
    (tableOfMap entries).size =
      entries.countP fun e => e.1 ∈ Convention.container.map Prod.fst := by
  rw [Table.size, toList_tableOfMap hk, List.length_filterMap_eq_countP]
  refine List.countP_congr fun e _ => ?_
  rw [decide_eq_true_iff, Option.isSome_iff_exists, List.mem_map]
  constructor
  · rintro ⟨renamed, hr⟩
    exact ⟨_, (renamed?_eq_some_iff.mp hr).1, rfl⟩
  · rintro ⟨⟨key, name⟩, hm, rfl⟩
    exact ⟨(name, e.2), renamed?_eq_some_iff.mpr ⟨hm, rfl⟩⟩

/-- The order in which a map lists its entries is irrelevant. -/
theorem get?_tableOfMap_of_perm {others : List (String × String)} (h : entries.Perm others)
    (name : String) : (tableOfMap others).get? name = (tableOfMap entries).get? name := by
  have hk' : (others.map Prod.fst).Nodup := (h.map Prod.fst).nodup_iff.mp hk
  apply Option.ext
  intro value
  rw [get?_tableOfMap_eq_some_iff hk, get?_tableOfMap_eq_some_iff hk']
  simp only [h.mem_iff]

end Maps

/-- The entries of a map as attributes, with texts for values. -/
def textAttributes (entries : List (String × String)) : List Attribute :=
  entries.map fun e => ⟨e.1, .text e.2⟩

section Texts

variable {attributes : List Attribute} {entries : List (String × String)}
  (hp : attributes.Perm (textAttributes entries)) (hfilled : ∀ e ∈ entries, e.2 ≠ "")

include hp hfilled

theorem mem_conventionalTexts_of_texts {name value : String} :
    value ∈ conventionalTexts attributes name ↔
      ∃ key, (key, name) ∈ Convention.container ∧ (key, value) ∈ entries := by
  rw [conventionalTexts, mem_filledTexts]
  simp only [decide_eq_true_iff, Attribute.filledText?_eq_some_iff, hp.mem_iff, textAttributes,
    List.mem_map]
  constructor
  · rintro ⟨a, ⟨e, he, rfl⟩, hkey, hvalue, -⟩
    exact ⟨e.1, hkey, Option.some.inj hvalue ▸ he⟩
  · rintro ⟨key, hkey, he⟩
    exact ⟨_, ⟨(key, value), he, rfl⟩, hkey, rfl, hfilled _ he⟩

/-- Where no key gives a name itself, the attributes and the map have the same table. -/
theorem get?_table_of_texts (hk : (entries.map Prod.fst).Nodup)
    (hcustom : ∀ name, customTexts attributes name = []) (name : String) :
    (tableOfMap entries).get? name = (table attributes).get? name := by
  apply Option.ext
  intro value
  rw [get?_table, hcustom, List.head?_nil, Option.or_none, get?_tableOfMap_eq_some_iff hk,
    ← mem_conventionalTexts_of_texts hp hfilled]
  refine ⟨fun hv => ?_, List.mem_of_getLast?⟩
  -- The last text is the only one, since both belong to the one entry of the name.
  have hne := List.ne_nil_of_mem hv
  have hlast := List.getLast_mem hne
  rw [mem_conventionalTexts_of_texts hp hfilled, ← get?_tableOfMap_eq_some_iff hk] at hv hlast
  rw [List.getLast?_eq_some_getLast hne, ← hlast, hv]

end Texts

theorem customTexts_eq_nil {attributes : List Attribute} {entries : List (String × String)}
    (hp : attributes.Perm (textAttributes entries))
    (h : ∀ e ∈ entries, ∀ name ≠ "", e.1 ≠ Convention.containerTagStart ++ name)
    (name : String) : customTexts attributes name = [] := by
  rw [List.eq_nil_iff_forall_not_mem]
  intro value hv
  obtain ⟨a, ha, hkey, -⟩ := mem_filledTexts.mp hv
  obtain ⟨e, he, rfl⟩ := List.mem_map.mp (hp.mem_iff.mp ha)
  obtain ⟨hne, hkey⟩ := of_decide_eq_true hkey
  exact h e he name hne hkey

/-- The three derivations of container tags agree. The table of a resource gives each name the last
text under its conventional keys, or else the first text under the key that gives the name itself,
or else nothing; and each of its entries is a tag of the resource. The table of a plain map has
exactly one entry for each conventional key of the map, in whatever order the map lists them. Where
all attributes are texts that are not empty, with distinct keys that do not give names themselves,
the two tables are the same. -/
theorem derivations_agree (attributes : List Attribute) {entries : List (String × String)}
    (hk : (entries.map Prod.fst).Nodup) :
    (∀ name, (table attributes).get? name =
      (conventionalTexts attributes name).getLast?.or (customTexts attributes name).head?) ∧
    (∀ name value, (table attributes).get? name = some value →
      Tag.pair name value ∈ Resource.tags attributes) ∧
    (∀ name value, (tableOfMap entries).get? name = some value ↔
      ∃ key, (key, name) ∈ Convention.container ∧ (key, value) ∈ entries) ∧
    ((tableOfMap entries).size =
      entries.countP fun e => e.1 ∈ Convention.container.map Prod.fst) ∧
    (∀ others, entries.Perm others → ∀ name,
      (tableOfMap others).get? name = (tableOfMap entries).get? name) ∧
    (attributes.Perm (textAttributes entries) → (∀ e ∈ entries, e.2 ≠ "") →
      (∀ e ∈ entries, ∀ name ≠ "", e.1 ≠ Convention.containerTagStart ++ name) →
      ∀ name, (tableOfMap entries).get? name = (table attributes).get? name) := by
  refine ⟨get?_table attributes, fun name value h => ?_,
    fun _ _ => get?_tableOfMap_eq_some_iff hk, size_tableOfMap hk,
    fun _ => get?_tableOfMap_of_perm hk, fun hp hfilled hown => ?_⟩
  · exact Resource.mem_tags.mpr (.inr (.inr ⟨_, mem_pairs_of_get?_table h, rfl⟩))
  · exact get?_table_of_texts hp hfilled hk (customTexts_eq_nil hp hown)

theorem derivations_of_web :
    let entries := [("container.id", "c1"), ("team", "core"), ("k8s.pod.name", "web")]
    let attributes := (textAttributes entries).reverse
    (entries.map Prod.fst).Nodup ∧ attributes.Perm (textAttributes entries) ∧
      (∀ name, (tableOfMap entries).get? name = (table attributes).get? name) ∧
      (tableOfMap entries).toList = [("container_id", "c1"), ("pod_name", "web")] ∧
      Tag.pair "pod_name" "web" ∈ Resource.tags attributes := by
  intro entries attributes
  have hk : (entries.map Prod.fst).Nodup := by decide
  have hp : attributes.Perm (textAttributes entries) := List.reverse_perm _
  have hown : ∀ e ∈ entries, Text.rest? Convention.containerTagStart e.1 = none := by decide
  obtain ⟨-, htags, -, -, -, hsame⟩ := derivations_agree attributes hk
  refine ⟨hk, hp, hsame hp (by decide) fun e he name _ hkey => ?_, by decide,
    htags "pod_name" "web" (by decide)⟩
  have hnone := hown e he
  rw [Text.rest?_eq_some_iff.mpr hkey] at hnone
  exact nomatch hnone

end Container

end MetricPoints
