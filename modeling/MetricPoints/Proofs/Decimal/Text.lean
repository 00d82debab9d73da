import MetricPoints.Proofs.Decimal.Shortest

/-
  Texts of finite numbers tell the numbers apart (`text_injective`): without the sign a text has a
  value, the value is in the cell of the number, and no two numbers share a point of their cells.
  None of them is the text of an infinity (`text_ne_negInf`).
-/

namespace MetricPoints.Decimal

/-- Says whether a character stands in the text of a finite number without a sign. -/
def isNumeric (c : Char) : Bool := c.isDigit || c = '.'

theorem isNumeric_of_mem_positional {d : Cell.Digits} {c : Char}
    (h : c ∈ (positional d).toList) : isNumeric c = true := by
  have hdigit {c : Char} (hc : c.isDigit = true) : isNumeric c = true := by
    rw [isNumeric, hc, Bool.true_or]
  unfold positional at h
  split at h
  · exact hdigit (isDigit_of_mem_repr h)
  · simp only [String.toList_ofList] at h
    have hpadded {n : Nat} (hc : c ∈ List.replicate n '0' ++ d.digits.repr.toList) :
        isNumeric c = true := by
      rcases List.mem_append.mp hc with hc | hc
      · rw [List.eq_of_mem_replicate hc]
        decide
      · exact hdigit (isDigit_of_mem_repr hc)
    rcases List.mem_append.mp h with hc | hc
    · exact hpadded (List.mem_of_mem_take hc)
    · rcases List.mem_cons.mp hc with rfl | hc
      · decide
      · exact hpadded (List.mem_of_mem_drop hc)

section Unsigned

variable {biased fraction : Nat} (hb : biased ≠ 2047)

include hb

theorem isNumeric_of_mem_unsigned {c : Char} (h : c ∈ (unsigned biased fraction).toList) :
    isNumeric c = true := by
  unfold unsigned at h
  rw [if_neg hb] at h
  split at h
  · split at h
    · revert h
      simp only [show "0".toList = ['0'] from rfl, List.mem_singleton]
      rintro rfl
      decide
    · exact isNumeric_of_mem_positional h
  · exact isNumeric_of_mem_positional h

/-- The value of the text is in the cell of the number. -/
theorem contains_valueOf_unsigned (hf : fraction < 2 ^ 52) :
    (Cell.cellAt biased fraction).Contains (valueOf (unsigned biased fraction).toList) := by
  by_cases h : biased = 0 ∧ fraction = 0
  · obtain ⟨rfl, rfl⟩ := h
    have hdigit : ∀ c ∈ ['0'], c.isDigit = true := by simp
    have hzero : valueOf (unsigned 0 0).toList = 0 := by
      rw [show (unsigned 0 0).toList = ['0'] from rfl, valueOf_digits hdigit]
      simp [Nat.ofDigitChars]
    rw [hzero]
    exact Cell.contains_zero
  · have htext : unsigned biased fraction = positional (Cell.cellAt biased fraction).shortest := by
      unfold unsigned Cell.cellAt
      rw [if_neg hb]
      split
      · rename_i h0
        rw [if_neg fun hf => h ⟨h0, hf⟩]
      · rfl
    rw [htext, valueOf_positional]
    exact Cell.contains_shortest_cellAt hf (by omega)

end Unsigned

/-- The text of a number without the sign. -/
def body (x : Float) : String :=
  unsigned (x.toBits.toNat / 2 ^ 52 % 2048) (x.toBits.toNat % 2 ^ 52)

theorem biased_ne_of_isFinite {x : Float} (h : x.isFinite = true) :
    x.toBits.toNat / 2 ^ 52 % 2048 ≠ 2047 := by
  intro hb
  have hexponent : @Float.Model.UnpackedFloat.unpackExponent Float.Model.Format.binary64
      x.toModel.toBits.toBitVec = -1#_ := by
    apply BitVec.eq_of_toNat_eq
    unfold Float.Model.UnpackedFloat.unpackExponent
    rw [BitVec.toNat_cast, BitVec.extractLsb_toNat, Nat.shiftRight_eq_div_pow]
    exact hb
  have hx : Float.Model.UnpackedFloat.isFinite (Float.Model.UnpackedFloat.unpack
      Float.Model.Format.binary64 x.toModel.toBits.toBitVec) = true := h
  unfold Float.Model.UnpackedFloat.unpack at hx
  dsimp only at hx
  rw [if_pos hexponent] at hx
  split at hx
  · exact absurd hx Bool.false_ne_true
  · exact absurd hx Bool.false_ne_true

section Finite

variable {x : Float} (h : x.isFinite = true)

include h

theorem isNumeric_of_mem_body {c : Char} (hc : c ∈ (body x).toList) : isNumeric c = true :=
  isNumeric_of_mem_unsigned (biased_ne_of_isFinite h) hc

theorem text_eq :
    text x = if 2 ^ 63 ≤ x.toBits.toNat then "-" ++ body x else body x := by
  have hnan : body x ≠ "NaN" := by
    intro e
    have hc : 'N' ∈ (body x).toList := by
      rw [e]
      decide
    exact absurd (isNumeric_of_mem_body h hc) (by decide)
  show (if (2 ^ 63 ≤ x.toBits.toNat && body x ≠ "NaN") = true then _ else _) = _
  simp only [hnan, ne_eq, not_false_eq_true, decide_true, Bool.and_true, decide_eq_true_eq]
  rfl

/-- The text is not that of an infinity. -/
theorem text_ne_negInf : text x ≠ "-inf" := by
  intro e
  have hc : 'i' ∈ (text x).toList := by
    rw [e]
    decide
  have hbody : 'i' ∈ (body x).toList := by
    rw [text_eq h] at hc
    split at hc
    · rw [String.toList_append, List.mem_append] at hc
      exact hc.resolve_left (by decide)
    · exact hc
  exact absurd (isNumeric_of_mem_body h hbody) (by decide)

end Finite

/-- The number without its sign is in the cell of its bits. -/
theorem contains_valueOf_body {x : Float} (h : x.isFinite = true) :
    (Cell.cellOf (x.toBits.toNat % 2 ^ 63)).Contains (valueOf (body x).toList) := by
  have := contains_valueOf_unsigned (biased_ne_of_isFinite h)
    (Nat.mod_lt x.toBits.toNat (Nat.two_pow_pos 52))
  unfold Cell.cellOf
  rwa [show x.toBits.toNat % 2 ^ 63 / 2 ^ 52 = x.toBits.toNat / 2 ^ 52 % 2048 by omega,
    show x.toBits.toNat % 2 ^ 63 % 2 ^ 52 = x.toBits.toNat % 2 ^ 52 by omega]

/-- Texts tell finite numbers apart, also the two zeros. -/
theorem text_injective {x y : Float} (hx : x.isFinite = true) (hy : y.isFinite = true)
    (h : text x = text y) : x = y := by
  have hsign {z : Float} (hz : z.isFinite = true) : '-' ∉ (body z).toList :=
    fun hc => absurd (isNumeric_of_mem_body hz hc) (by decide)
  rw [text_eq hx, text_eq hy] at h
  -- a sign is told from the body it stands before
  have hne {z : Float} (hz : z.isFinite = true) (rest : String) : body z ≠ "-" ++ rest := by
    intro e
    apply hsign hz
    rw [e, String.toList_append]
    exact List.mem_append_left _ (by decide)
  have hboth : (2 ^ 63 ≤ x.toBits.toNat ↔ 2 ^ 63 ≤ y.toBits.toNat) ∧ body x = body y := by
    by_cases hxs : 2 ^ 63 ≤ x.toBits.toNat <;> by_cases hys : 2 ^ 63 ≤ y.toBits.toNat
    · rw [if_pos hxs, if_pos hys] at h
      exact ⟨iff_of_true hxs hys, (String.append_right_inj "-").mp h⟩
    · rw [if_pos hxs, if_neg hys] at h
      exact absurd h.symm (hne hy _)
    · rw [if_neg hxs, if_pos hys] at h
      exact absurd h (hne hx _)
    · rw [if_neg hxs, if_neg hys] at h
      exact ⟨iff_of_false hxs hys, h⟩
  have hmagnitude : x.toBits.toNat % 2 ^ 63 = y.toBits.toNat % 2 ^ 63 :=
    Cell.eq_of_contains (contains_valueOf_body hx) (hboth.2 ▸ contains_valueOf_body hy)
  have hbits : x.toBits.toNat = y.toBits.toNat := by
    have := x.toBits.toNat_lt
    have := y.toBits.toNat_lt
    omega
  have hmodel : x.toModel.toBits = y.toModel.toBits := UInt64.toNat_inj.mp hbits
  obtain ⟨⟨a, _⟩⟩ := x
  obtain ⟨⟨b, _⟩⟩ := y
  have hab : a = b := hmodel
  subst hab
  rfl

/-- Nothing compares as less than itself. -/
theorem compare_self_ne_lt (u : Float.Model.UnpackedFloat) : u.compare u ≠ some .lt := by
  cases u with
  | infinity sign => cases sign <;> decide
  | notANumber => decide
  | zero sign =>
    show some Ordering.eq ≠ some .lt
    decide
  | finite sign mantissa exponent pos =>
    have hsame : (compare exponent exponent).then (compare mantissa mantissa) = .eq := by simp
    cases sign with
    | positive =>
      show some ((compare exponent exponent).then (compare mantissa mantissa)) ≠ some .lt
      rw [hsame]
      decide
    | negative =>
      show some ((compare exponent exponent).then (compare mantissa mantissa)).swap ≠ some .lt
      rw [hsame]
      decide

theorem not_lt_self (x : Float) : ¬ x < x := by
  intro h
  have hlt : decide (x.toModel < x.toModel) = true := h
  have hcompare : (x.toModel.unpack.compare x.toModel.unpack == some .lt) = true :=
    of_decide_eq_true hlt
  exact compare_self_ne_lt _ (by simpa using hcompare)

end MetricPoints.Decimal
