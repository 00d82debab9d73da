/-
  Texts in strictly increasing order of their characters. Main statements: `ordered` holds the same
  texts as the list it is made from (`mem_ordered`), each once and in increasing order
  (`increasing_ordered`).
-/

namespace MetricPoints.Text

/-- Strictly increasing, so without repetitions. -/
def Increasing (texts : List String) : Prop := texts.Pairwise (· < ·)

/-- Puts `text` in its place among increasing texts; one that is there already is not repeated. -/
def place (text : String) : List String → List String
  | [] => [text]
  | head :: tail =>
    if text < head then text :: head :: tail
    else if text = head then head :: tail
    else head :: place text tail

/-- The texts of a list in increasing order, each once. -/
def ordered (texts : List String) : List String := texts.foldr place []

theorem lt_of_not_lt_of_ne {a b : String} (h : ¬ a < b) (hne : a ≠ b) : b < a :=
  Decidable.byContradiction fun hn => hne (String.le_antisymm hn h)

theorem mem_place {a text : String} {texts : List String} :
    a ∈ place text texts ↔ a = text ∨ a ∈ texts := by
  induction texts with
  | nil => simp [place]
  | cons head tail ih =>
    unfold place
    split
    · simp
    · split
      · rename_i h
        simp [h]
      · simp [ih, or_left_comm]

theorem increasing_place {text : String} {texts : List String} (h : Increasing texts) :
    Increasing (place text texts) := by
  induction texts with
  | nil => simp [place, Increasing]
  | cons head tail ih =>
    have ⟨hh, ht⟩ := List.pairwise_cons.mp h
    unfold place
    split
    · rename_i hlt
      refine List.pairwise_cons.mpr ⟨fun b hb => ?_, h⟩
      rcases List.mem_cons.mp hb with rfl | hb
      · exact hlt
      · exact String.lt_trans hlt (hh b hb)
    · rename_i hnot
      split
      · exact h
      · rename_i hne
        refine List.pairwise_cons.mpr ⟨fun b hb => ?_, ih ht⟩
        rcases mem_place.mp hb with rfl | hb
        · exact lt_of_not_lt_of_ne hnot hne
        · exact hh b hb

@[simp] theorem ordered_nil : ordered [] = [] := rfl

@[simp] theorem ordered_cons (text : String) (texts : List String) :
    ordered (text :: texts) = place text (ordered texts) := rfl

theorem mem_ordered {a : String} {texts : List String} : a ∈ ordered texts ↔ a ∈ texts := by
  induction texts with
  | nil => simp
  | cons text texts ih => simp [mem_place, ih]

theorem increasing_ordered (texts : List String) : Increasing (ordered texts) := by
  induction texts with
  | nil => exact List.Pairwise.nil
  | cons text texts ih => exact increasing_place ih

/-- Increasing texts are determined by which texts they hold. -/
theorem eq_of_increasing {xs ys : List String} (hx : Increasing xs) (hy : Increasing ys)
    (h : ∀ a, a ∈ xs ↔ a ∈ ys) : xs = ys := by
  induction xs generalizing ys with
  | nil =>
    cases ys with
    | nil => rfl
    | cons y ys => exact absurd ((h y).mpr List.mem_cons_self) List.not_mem_nil
  | cons x xs ih =>
    cases ys with
    | nil => exact absurd ((h x).mp List.mem_cons_self) List.not_mem_nil
    | cons y ys =>
      have ⟨hxh, hxt⟩ := List.pairwise_cons.mp hx
      have ⟨hyh, hyt⟩ := List.pairwise_cons.mp hy
      have hxy : x = y := by
        rcases List.mem_cons.mp ((h x).mp List.mem_cons_self) with e | hmem
        · exact e
        · rcases List.mem_cons.mp ((h y).mpr List.mem_cons_self) with e | hmem'
          · exact e.symm
          · exact absurd (String.lt_trans (hyh x hmem) (hxh y hmem')) (String.lt_irrefl y)
      subst hxy
      refine congrArg _ (ih hxt hyt fun a => ?_)
      constructor
      · intro ha
        rcases List.mem_cons.mp ((h a).mp (List.mem_cons_of_mem _ ha)) with rfl | ha'
        · exact absurd (hxh a ha) (String.lt_irrefl a)
        · exact ha'
      · intro ha
        rcases List.mem_cons.mp ((h a).mpr (List.mem_cons_of_mem _ ha)) with rfl | ha'
        · exact absurd (hyh a ha) (String.lt_irrefl a)
        · exact ha'

end MetricPoints.Text
