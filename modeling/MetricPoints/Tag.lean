import MetricPoints.Text.Cut

/-
  Tags: texts such as `production` or `env:production`, where the first colon divides the name from
  the value. Main statements: a name holds no colon, name and value rejoin to the tag
  (`text_eq_of_value?`, `name_eq_text_iff`), and a tag made from a name without a colon and a value
  gives both back (`name_pair`, `value?_pair`).
-/

namespace MetricPoints

/-- A tag, by its whole text. -/
structure Tag where
  text : String
  deriving DecidableEq, Repr

namespace Tag

/-- The tag that gives `value` to `name`. -/
def pair (name value : String) : Tag := ⟨name ++ ":" ++ value⟩

/-- The part before the first colon; the whole text of a bare tag. -/
def name (tag : Tag) : String := Text.before ':' tag.text

/-- The part after the first colon; none for a bare tag. -/
def value? (tag : Tag) : Option String := Text.after? ':' tag.text

theorem colon_not_mem_name (tag : Tag) : ':' ∉ tag.name.toList :=
  Text.mark_not_mem_before ':' tag.text

theorem text_eq_of_value? {tag : Tag} {value : String} (h : tag.value? = some value) :
    tag.text = tag.name ++ ":" ++ value := by
  apply String.toList_injective
  rw [Text.before_after h]
  simp [name]

theorem value?_eq_none_iff {tag : Tag} : tag.value? = none ↔ ':' ∉ tag.text.toList :=
  Text.after?_eq_none_iff

theorem name_eq_text_iff {tag : Tag} : tag.name = tag.text ↔ ':' ∉ tag.text.toList := by
  constructor
  · intro h
    rw [← h]
    exact colon_not_mem_name tag
  · exact Text.before_eq_self

theorem text_injective : Function.Injective text :=
  fun ⟨_⟩ ⟨_⟩ h => congrArg mk h

theorem name_pair {name value : String} (h : ':' ∉ name.toList) :
    (pair name value).name = name := by
  apply String.toList_injective
  have hall : ∀ c ∈ name.toList, decide (c ≠ ':') = true := by
    intro c hc
    exact decide_eq_true fun e => h (e ▸ hc)
  rw [Tag.name, Text.toList_before, pair, String.toList_append, String.toList_append,
    List.append_assoc, List.takeWhile_append_of_pos hall]
  show name.toList ++ (':' :: value.toList).takeWhile (· ≠ ':') = name.toList
  rw [List.takeWhile_cons_of_neg (by decide), List.append_nil]

theorem pair_inj {name a b : String} (h : pair name a = pair name b) : a = b :=
  (String.append_right_inj (name ++ ":")).mp (congrArg text h)

theorem value?_pair {name value : String} (h : ':' ∉ name.toList) :
    (pair name value).value? = some value := by
  have hne : (pair name value).value? ≠ none := by
    simp [value?_eq_none_iff, pair]
  obtain ⟨found, hf⟩ := Option.ne_none_iff_exists'.mp hne
  have hpair : pair name value = pair name found :=
    text_injective ((text_eq_of_value? hf).trans (by rw [name_pair h, pair]))
  rw [hf, pair_inj hpair]

/-- A colon in the name moves what follows it into the value. -/
theorem pair_append (name rest value : String) :
    pair (name ++ ":" ++ rest) value = pair name (rest ++ ":" ++ value) := by
  simp only [pair, String.append_assoc]

/-- What a tag made from a key and a value gives back. -/
theorem parts_pair (key value : String) :
    (':' ∉ key.toList ∧ (pair key value).name = key ∧ (pair key value).value? = some value) ∨
      ∃ rest, key = (pair key value).name ++ ":" ++ rest ∧
        (pair key value).value? = some (rest ++ ":" ++ value) := by
  cases h : value? ⟨key⟩ with
  | none =>
    have hkey : ':' ∉ key.toList := value?_eq_none_iff.mp h
    exact .inl ⟨hkey, name_pair hkey, value?_pair hkey⟩
  | some rest =>
    have hkey : key = (⟨key⟩ : Tag).name ++ ":" ++ rest := text_eq_of_value? h
    have hname := colon_not_mem_name ⟨key⟩
    generalize (⟨key⟩ : Tag).name = name at hkey hname
    subst hkey
    rw [pair_append, name_pair hname, value?_pair hname]
    exact .inr ⟨rest, rfl, rfl⟩

end Tag

end MetricPoints
