import Mathlib.Algebra.Order.Field.Rat
import Mathlib.Data.List.TakeWhile
import Mathlib.Data.Rat.Cast.Order
import Mathlib.Tactic.FieldSimp
import MetricPoints.Decimal.Positional

/-
  Reading decimal texts. The value of a text is that of its digits over the power of ten that the
  places after the point make. A number written without an exponent has the value it was written
  from (`valueOf_positional`), so that its text gives the value away; and so does that of an integer
  (`eq_of_repr_eq`).
-/

namespace MetricPoints.Decimal

/-- The value of decimal digits with at most one point among them. -/
def valueOf (chars : List Char) : Rat :=
  (Nat.ofDigitChars 10 (chars.filter (· ≠ '.')) 0 : Rat) /
    10 ^ ((chars.dropWhile (· ≠ '.')).length - 1)

/-- The value that digits stand for. -/
def Cell.Digits.value (d : Cell.Digits) : Rat := (d.digits : Rat) * 10 ^ d.exponent

theorem ne_point_of_isDigit {c : Char} (h : c.isDigit = true) : c ≠ '.' := by
  rintro rfl
  exact absurd h (by decide)

theorem isDigit_of_mem_repr {n : Nat} {c : Char} (h : c ∈ n.repr.toList) : c.isDigit = true := by
  rw [Nat.toList_repr] at h
  exact Nat.isDigit_of_mem_toDigits (by decide) (by decide) h

/-- A natural number can be read off its digits. -/
theorem ofDigitChars_repr (n : Nat) : Nat.ofDigitChars 10 n.repr.toList 0 = n := by
  rw [Nat.toList_repr, Nat.ofDigitChars_ten_toDigits]

theorem dropWhile_eq_nil_of_digits {digits : List Char} (h : ∀ c ∈ digits, c.isDigit = true) :
    digits.dropWhile (· ≠ '.') = [] :=
  List.dropWhile_eq_nil_iff.mpr fun c hc => decide_eq_true (ne_point_of_isDigit (h c hc))

theorem filter_eq_self_of_digits {digits : List Char} (h : ∀ c ∈ digits, c.isDigit = true) :
    digits.filter (· ≠ '.') = digits :=
  List.filter_eq_self.mpr fun c hc => decide_eq_true (ne_point_of_isDigit (h c hc))

/-- Digits without a point. -/
theorem valueOf_digits {digits : List Char} (h : ∀ c ∈ digits, c.isDigit = true) :
    valueOf digits = Nat.ofDigitChars 10 digits 0 := by
  rw [valueOf, filter_eq_self_of_digits h, dropWhile_eq_nil_of_digits h]
  simp

/-- Digits with a point among them. -/
theorem valueOf_point {whole places : List Char} (hw : ∀ c ∈ whole, c.isDigit = true)
    (hp : ∀ c ∈ places, c.isDigit = true) :
    valueOf (whole ++ '.' :: places) =
      (Nat.ofDigitChars 10 (whole ++ places) 0 : Rat) / 10 ^ places.length := by
  have hfilter : (whole ++ '.' :: places).filter (· ≠ '.') = whole ++ places := by
    rw [List.filter_append, List.filter_cons_of_neg (by decide), filter_eq_self_of_digits hw,
      filter_eq_self_of_digits hp]
  have hdrop : (whole ++ '.' :: places).dropWhile (· ≠ '.') = '.' :: places := by
    rw [List.dropWhile_append_of_pos fun c hc => decide_eq_true (ne_point_of_isDigit (hw c hc))]
    exact List.dropWhile_cons_of_neg (by decide)
  rw [valueOf, hfilter, hdrop, List.length_cons, Nat.add_sub_cancel]

/-- The digits before and after the point, for as many places as are asked for. -/
theorem valueOf_places {digits : List Char} (hd : ∀ c ∈ digits, c.isDigit = true) {places : Nat}
    (hp : places ≤ digits.length) :
    valueOf (digits.take (digits.length - places) ++ '.' ::
        digits.drop (digits.length - places)) =
      (Nat.ofDigitChars 10 digits 0 : Rat) / 10 ^ places := by
  rw [valueOf_point (fun c hc => hd c (List.mem_of_mem_take hc))
    fun c hc => hd c (List.mem_of_mem_drop hc), List.take_append_drop, List.length_drop]
  rw [Nat.sub_sub_self hp]

/-- The value of the text is the value it was written from. -/
theorem valueOf_positional (d : Cell.Digits) :
    valueOf (positional d).toList = d.value := by
  unfold positional Cell.Digits.value
  by_cases h : 0 ≤ d.exponent
  · rw [if_pos h, valueOf_digits fun c => isDigit_of_mem_repr, ofDigitChars_repr, Nat.cast_mul,
      Nat.pow_eq, Nat.cast_pow]
    congr 1
    rw [← zpow_natCast, Int.toNat_of_nonneg h]
    rfl
  · rw [if_neg h]
    obtain ⟨places, he⟩ : ∃ places : Nat, d.exponent = -places :=
      ⟨(-d.exponent).toNat, by omega⟩
    have hplaces : (-d.exponent).toNat = places := by omega
    simp only [hplaces, String.toList_ofList]
    rw [valueOf_places]
    · rw [Nat.ofDigitChars_append, Nat.ofDigitChars_replicate_zero, Nat.mul_zero,
        ofDigitChars_repr, he, zpow_neg, zpow_natCast]
      rfl
    · intro c hc
      rcases List.mem_append.mp hc with hc | hc
      · rw [List.eq_of_mem_replicate hc]
        decide
      · exact isDigit_of_mem_repr hc
    · rw [List.length_append, List.length_replicate]
      omega

theorem toList_repr_negSucc (n : Nat) :
    (Int.negSucc n).repr.toList = '-' :: (n + 1).repr.toList :=
  String.toList_append

/-- Integers with one text are one: a sign is no digit, and the digits give the number away. -/
theorem eq_of_repr_eq {i j : Int} (h : i.repr = j.repr) : i = j := by
  have hdigits {m n : Nat} (h : m.repr.toList = n.repr.toList) : m = n := by
    rw [← ofDigitChars_repr m, h, ofDigitChars_repr]
  have hsign {m n : Nat} : '-' :: m.repr.toList ≠ n.repr.toList := fun h =>
    absurd (isDigit_of_mem_repr (h ▸ List.mem_cons_self)) (by decide)
  have hchars := congrArg String.toList h
  cases i with
  | ofNat m =>
    cases j with
    | ofNat n => exact congrArg Int.ofNat (hdigits hchars)
    | negSucc n => exact absurd (hchars.trans (toList_repr_negSucc n)).symm hsign
  | negSucc m =>
    rw [toList_repr_negSucc] at hchars
    cases j with
    | ofNat n => exact absurd hchars hsign
    | negSucc n =>
      rw [toList_repr_negSucc] at hchars
      exact congrArg Int.negSucc (Nat.succ.inj (hdigits (List.cons.inj hchars).2))

end MetricPoints.Decimal
