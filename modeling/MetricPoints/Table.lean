/-
  Tables: entries in the order of their first arrival, at most one for each key. Main statements:
  what a key finds after `put` (`get?_put`), after `keep` (`get?_keep`) and in the table of a list
  (`get?_ofList`), and that an entry is listed exactly when its key finds it (`mem_iff_get?`).
-/

namespace MetricPoints

/-- Entries in order of arrival, one for each key. -/
structure Table (K V : Type) where
  toList : List (K × V)
  nodup : (toList.map Prod.fst).Nodup

namespace Table

variable {K V : Type} [DecidableEq K]

/-- What `key` finds in a list of entries. -/
def findIn (key : K) : List (K × V) → Option V
  | [] => none
  | (k, v) :: rest => if k = key then some v else findIn key rest

/-- Overwrites the entry of `key` where it stands, or adds one at the end. -/
def putIn (key : K) (value : V) : List (K × V) → List (K × V)
  | [] => [(key, value)]
  | (k, v) :: rest => if k = key then (key, value) :: rest else (k, v) :: putIn key value rest

theorem mem_keys_putIn {a key : K} {value : V} {entries : List (K × V)} :
    a ∈ (putIn key value entries).map Prod.fst ↔ a = key ∨ a ∈ entries.map Prod.fst := by
  induction entries with
  | nil => simp [putIn]
  | cons e rest ih =>
    obtain ⟨k, v⟩ := e
    unfold putIn
    split
    · rename_i h
      simp [h]
    · simp only [List.map_cons, List.mem_cons, ih]
      exact or_left_comm

theorem nodup_keys_putIn {key : K} {value : V} {entries : List (K × V)}
    (h : (entries.map Prod.fst).Nodup) : ((putIn key value entries).map Prod.fst).Nodup := by
  induction entries with
  | nil => simp [putIn]
  | cons e rest ih =>
    obtain ⟨k, v⟩ := e
    have ⟨hk, hr⟩ := List.nodup_cons.mp h
    unfold putIn
    split
    · rename_i he
      exact List.nodup_cons.mpr ⟨he ▸ hk, hr⟩
    · rename_i hne
      refine List.nodup_cons.mpr ⟨fun hm => ?_, ih hr⟩
      rcases mem_keys_putIn.mp hm with he | hm
      · exact hne he
      · exact hk hm

theorem findIn_putIn {a key : K} {value : V} {entries : List (K × V)} :
    findIn a (putIn key value entries) = if a = key then some value else findIn a entries := by
  induction entries with
  | nil => simp [putIn, findIn, eq_comm]
  | cons e rest ih =>
    obtain ⟨k, v⟩ := e
    by_cases hk : k = key
    · subst hk
      by_cases h : k = a
      · simp [putIn, findIn, h]
      · simp [putIn, findIn, h, Ne.symm h]
    · by_cases h : k = a
      · subst h
        simp [putIn, findIn, hk]
      · simp [putIn, findIn, hk, h, ih]

theorem length_putIn (key : K) (value : V) (entries : List (K × V)) :
    (putIn key value entries).length =
      if key ∈ entries.map Prod.fst then entries.length else entries.length + 1 := by
  induction entries with
  | nil => simp [putIn]
  | cons e rest ih =>
    obtain ⟨k, v⟩ := e
    unfold putIn
    split
    · rename_i h
      simp [h]
    · rename_i h
      have hk : ¬ key = k := fun e => h e.symm
      by_cases hm : key ∈ rest.map Prod.fst <;> simp_all

/-- No entries. -/
def empty : Table K V := ⟨[], List.nodup_nil⟩

instance : EmptyCollection (Table K V) := ⟨empty⟩

/-- What `key` finds. -/
def get? (table : Table K V) (key : K) : Option V := findIn key table.toList

/-- Says whether `key` finds anything. -/
def contains (table : Table K V) (key : K) : Bool := (table.get? key).isSome

/-- The number of entries. -/
def size (table : Table K V) : Nat := table.toList.length

/-- Gives `key` the value `value`; a key that is new comes last. -/
def put (table : Table K V) (key : K) (value : V) : Table K V :=
  ⟨putIn key value table.toList, nodup_keys_putIn table.nodup⟩

/-- The entries that pass a test. -/
def keep (test : K → V → Bool) (table : Table K V) : Table K V :=
  ⟨table.toList.filter fun e => test e.1 e.2,
    (List.filter_sublist.map Prod.fst).nodup table.nodup⟩

/-- The table of a list of entries; of two with one key the later one counts. -/
def ofList (entries : List (K × V)) : Table K V :=
  entries.foldl (fun table e => table.put e.1 e.2) empty

omit [DecidableEq K] in
@[ext] theorem ext {s t : Table K V} (h : s.toList = t.toList) : s = t := by
  cases s; cases t; cases h; rfl

omit [DecidableEq K] in
@[simp] theorem toList_empty : (empty : Table K V).toList = [] := rfl

@[simp] theorem get?_empty (key : K) : (empty : Table K V).get? key = none := rfl

omit [DecidableEq K] in
@[simp] theorem size_empty : (empty : Table K V).size = 0 := rfl

theorem findIn_isSome_iff {entries : List (K × V)} {key : K} :
    (findIn key entries).isSome ↔ key ∈ entries.map Prod.fst := by
  induction entries with
  | nil => simp [findIn]
  | cons e rest ih =>
    obtain ⟨k, v⟩ := e
    by_cases h : k = key
    · simp [findIn, h]
    · simp only [findIn, h, if_false, ih, List.map_cons, List.mem_cons, Ne.symm h, false_or]

theorem contains_iff_mem_keys {table : Table K V} {key : K} :
    table.contains key ↔ key ∈ table.toList.map Prod.fst :=
  findIn_isSome_iff

theorem get?_put (table : Table K V) (key a : K) (value : V) :
    (table.put key value).get? a = if a = key then some value else table.get? a :=
  findIn_putIn

theorem size_put (table : Table K V) (key : K) (value : V) :
    (table.put key value).size =
      if table.contains key then table.size else table.size + 1 := by
  have h := length_putIn key value table.toList
  by_cases hc : key ∈ table.toList.map Prod.fst
  · simpa [size, put, contains_iff_mem_keys.mpr hc, hc] using h
  · have hn : table.contains key = false := by
      simpa using fun hx => hc (contains_iff_mem_keys.mp hx)
    rw [hn]
    rw [if_neg hc] at h
    exact h

theorem findIn_eq_some_iff {entries : List (K × V)} (h : (entries.map Prod.fst).Nodup) {key : K}
    {value : V} : findIn key entries = some value ↔ (key, value) ∈ entries := by
  induction entries with
  | nil => simp [findIn]
  | cons e rest ih =>
    obtain ⟨k, v⟩ := e
    have ⟨hk, hr⟩ := List.nodup_cons.mp h
    by_cases he : k = key
    · subst he
      simp only [findIn, if_true, Option.some.injEq, List.mem_cons, Prod.mk.injEq, true_and]
      constructor
      · exact fun e => Or.inl e.symm
      · rintro (e | hm)
        · exact e.symm
        · exact absurd (List.mem_map_of_mem (f := Prod.fst) hm) hk
    · simp only [findIn, he, if_false, ih hr, List.mem_cons, Prod.mk.injEq, Ne.symm he, false_and,
        false_or]

theorem mem_iff_get? {table : Table K V} {key : K} {value : V} :
    (key, value) ∈ table.toList ↔ table.get? key = some value :=
  (findIn_eq_some_iff table.nodup).symm

/-- Tables in which every key finds the same hold the same entries. -/
theorem perm_of_get?_eq {s t : Table K V} (h : ∀ key, s.get? key = t.get? key) :
    s.toList.Perm t.toList := by
  have hn (table : Table K V) : table.toList.Nodup :=
    (List.pairwise_map.mp table.nodup).imp fun hne he => hne (congrArg Prod.fst he)
  rw [List.perm_ext_iff_of_nodup (hn s) (hn t)]
  rintro ⟨key, value⟩
  rw [mem_iff_get?, mem_iff_get?, h]

theorem get?_keep (test : K → V → Bool) (table : Table K V) (key : K) :
    (table.keep test).get? key = (table.get? key).filter (test key) := by
  apply Option.ext
  intro value
  rw [← mem_iff_get?, keep, List.mem_filter, mem_iff_get?, Option.filter_eq_some_iff]

omit [DecidableEq K] in
theorem size_keep_le (test : K → V → Bool) (table : Table K V) :
    (table.keep test).size ≤ table.size :=
  List.length_filter_le _ _

/-! ## Tables of lists -/

/-- The values of `key` among entries, in order. -/
def valuesIn (key : K) (entries : List (K × V)) : List V :=
  (entries.filter (·.1 = key)).map Prod.snd

theorem valuesIn_cons (key : K) (e : K × V) (entries : List (K × V)) :
    valuesIn key (e :: entries) =
      if e.1 = key then e.2 :: valuesIn key entries else valuesIn key entries := by
  by_cases h : e.1 = key <;> simp [valuesIn, h]

theorem valuesIn_append (key : K) (entries more : List (K × V)) :
    valuesIn key (entries ++ more) = valuesIn key entries ++ valuesIn key more := by
  rw [valuesIn, List.filter_append, List.map_append, valuesIn, valuesIn]

theorem mem_valuesIn {key : K} {value : V} {entries : List (K × V)} :
    value ∈ valuesIn key entries ↔ (key, value) ∈ entries := by
  simp [valuesIn]

theorem valuesIn_eq_nil_iff {key : K} {entries : List (K × V)} :
    valuesIn key entries = [] ↔ key ∉ entries.map Prod.fst := by
  rw [List.eq_nil_iff_forall_not_mem]
  simp [mem_valuesIn]

theorem get?_foldl_put (table : Table K V) (entries : List (K × V)) (key : K) :
    (entries.foldl (fun table e => table.put e.1 e.2) table).get? key =
      (valuesIn key entries).getLast?.or (table.get? key) := by
  induction entries generalizing table with
  | nil => rfl
  | cons e rest ih =>
    rw [List.foldl_cons, ih, get?_put, valuesIn_cons]
    by_cases h : e.1 = key
    · rw [if_pos h, if_pos h.symm, List.getLast?_cons]
      cases (valuesIn key rest).getLast? <;> rfl
    · rw [if_neg h, if_neg (Ne.symm h)]

/-- Of the values of a key the last one counts. -/
theorem get?_ofList (entries : List (K × V)) (key : K) :
    (ofList entries).get? key = (valuesIn key entries).getLast? := by
  rw [ofList, get?_foldl_put, get?_empty, Option.or_none]

theorem putIn_of_not_mem {key : K} {value : V} {entries : List (K × V)}
    (h : key ∉ entries.map Prod.fst) : putIn key value entries = entries ++ [(key, value)] := by
  induction entries with
  | nil => rfl
  | cons e rest ih =>
    obtain ⟨k, v⟩ := e
    obtain ⟨hk, hrest⟩ := not_or.mp (mt List.mem_cons.mpr h)
    rw [putIn, if_neg (Ne.symm hk), ih hrest, List.cons_append]

theorem toList_foldl_put (table : Table K V) (entries : List (K × V))
    (h : ((table.toList ++ entries).map Prod.fst).Nodup) :
    (entries.foldl (fun table e => table.put e.1 e.2) table).toList =
      table.toList ++ entries := by
  induction entries generalizing table with
  | nil => exact (List.append_nil _).symm
  | cons e rest ih =>
    have hnew : e.1 ∉ table.toList.map Prod.fst := by
      rw [List.map_append, List.nodup_append] at h
      exact fun hm => h.2.2 _ hm _ List.mem_cons_self rfl
    have hput : (table.put e.1 e.2).toList ++ rest = table.toList ++ e :: rest := by
      show putIn e.1 e.2 table.toList ++ rest = table.toList ++ e :: rest
      rw [putIn_of_not_mem hnew, List.append_assoc, List.singleton_append]
    rw [List.foldl_cons, ih _ (hput.symm ▸ h), hput]

/-- Entries with distinct keys do not overwrite each other. -/
theorem toList_ofList {entries : List (K × V)} (h : (entries.map Prod.fst).Nodup) :
    (ofList entries).toList = entries :=
  toList_foldl_put empty entries h

end Table

end MetricPoints
