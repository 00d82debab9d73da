/-
  Cutting a text: the part before a mark, the part after it, and the rest after a known start.
  Main statements: a text with the mark is its two parts around the mark (`before_after`), and the
  part before a mark never holds it (`mark_not_mem_before`).
-/

namespace MetricPoints.Text

/-- The part of `text` before the first `mark`; all of it when there is none. -/
def before (mark : Char) (text : String) : String :=
  String.ofList (text.toList.takeWhile (· ≠ mark))

/-- The part of `text` after the first `mark`, if it has one. -/
def after? (mark : Char) (text : String) : Option String :=
  match text.toList.dropWhile (· ≠ mark) with
  | [] => none
  | _ :: rest => some (String.ofList rest)

/-- What is left of `text` once it starts with `start`. -/
def rest? (start text : String) : Option String :=
  if start.toList.isPrefixOf text.toList then
    some (String.ofList (text.toList.drop start.toList.length))
  else
    none

theorem toList_before (mark : Char) (text : String) :
    (before mark text).toList = text.toList.takeWhile (· ≠ mark) := by
  simp [before]

theorem mark_not_mem_before (mark : Char) (text : String) :
    mark ∉ (before mark text).toList := by
  rw [toList_before]
  generalize text.toList = cs
  induction cs with
  | nil => simp
  | cons c cs ih =>
    by_cases h : c = mark
    · simp [h]
    · simpa [h, Ne.symm h] using ih

theorem dropWhile_head (mark : Char) (cs : List Char) :
    cs.dropWhile (· ≠ mark) = [] ∨ ∃ rest, cs.dropWhile (· ≠ mark) = mark :: rest := by
  induction cs with
  | nil => exact Or.inl rfl
  | cons c cs ih =>
    by_cases h : c = mark
    · subst h
      exact Or.inr ⟨cs, by simp⟩
    · simpa [h] using ih

theorem before_after {mark : Char} {text value : String} (h : after? mark text = some value) :
    text.toList = (before mark text).toList ++ mark :: value.toList := by
  rw [toList_before]
  unfold after? at h
  rcases dropWhile_head mark text.toList with hd | ⟨rest, hd⟩
  · rw [hd] at h
    cases h
  · rw [hd] at h
    injection h with h
    rw [← h, String.toList_ofList, ← hd, List.takeWhile_append_dropWhile]

theorem dropWhile_eq_nil_iff (mark : Char) (cs : List Char) :
    cs.dropWhile (· ≠ mark) = [] ↔ mark ∉ cs := by
  induction cs with
  | nil => simp
  | cons c cs ih =>
    by_cases h : c = mark
    · simp [h]
    · simpa [h, Ne.symm h] using ih

theorem after?_eq_none_iff {mark : Char} {text : String} :
    after? mark text = none ↔ mark ∉ text.toList := by
  rw [← dropWhile_eq_nil_iff]
  unfold after?
  split <;> simp_all

theorem before_eq_self {mark : Char} {text : String} (h : mark ∉ text.toList) :
    before mark text = text := by
  apply String.toList_injective
  rw [toList_before]
  generalize text.toList = cs at h
  induction cs with
  | nil => rfl
  | cons c cs ih =>
    have hc : c ≠ mark := fun e => h (e ▸ List.mem_cons_self)
    simpa [hc] using ih fun hm => h (List.mem_cons_of_mem _ hm)

theorem rest?_eq_some_iff {start text rest : String} :
    rest? start text = some rest ↔ text = start ++ rest := by
  unfold rest?
  constructor
  · intro h
    split at h
    · rename_i hp
      injection h with h
      obtain ⟨tail, ht⟩ := List.isPrefixOf_iff_prefix.mp hp
      apply String.toList_injective
      rw [← h, ← ht]
      simp
    · cases h
  · intro h
    subst h
    simp

end MetricPoints.Text
