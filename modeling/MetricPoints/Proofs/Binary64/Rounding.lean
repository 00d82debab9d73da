import Mathlib.Algebra.Order.Field.Power
import Mathlib.Data.Rat.Cast.Order
import Mathlib.Tactic.FieldSimp
import Mathlib.Tactic.Linarith
import Mathlib.Tactic.Ring
import MetricPoints.Proofs.Binary64.Packing

/-
  Rounding to 64-bit binary numbers. A mantissa with two further bits stands for an exact number
  (`Stands`), also after shifts, and rounds to the nearest whole number, in a tie to the even one
  (`Rounds`). A number is rounded to an infinity from the middle between the largest finite number
  and the next power of two on (`limit`), and to a number of the format below it.

  Main statements: `unpack_roundWithAccuracy_of_le`, `exists_unpack_roundWithAccuracy`.
-/

namespace MetricPoints.Binary64

open Float.Model Float.Model.UnpackedFloat

/-- Says where a part of one lies, as an accuracy has it. -/
def Places (accuracy : Accuracy) (part : ℚ) : Prop :=
  match accuracy with
  | .exact => part = 0
  | .inexact .lt => 0 < part ∧ part < 1 / 2
  | .inexact .eq => part = 1 / 2
  | .inexact .gt => 1 / 2 < part ∧ part < 1

theorem Places.nonneg {accuracy : Accuracy} {part : ℚ} (h : Places accuracy part) : 0 ≤ part := by
  unfold Places at h
  split at h
  · exact h.ge
  · exact h.1.le
  · rw [h]
    norm_num
  · linarith [h.1]

theorem Places.lt_one {accuracy : Accuracy} {part : ℚ} (h : Places accuracy part) : part < 1 := by
  unfold Places at h
  split at h
  · rw [h]
    norm_num
  · linarith [h.2]
  · rw [h]
    norm_num
  · exact h.2

/-- An extended mantissa stands for a number: the mantissa is its whole part, and the two bits place
the rest. -/
def Stands (em : ExtendedMantissa) (y : ℚ) : Prop := Places em.accuracy (y - em.mantissa)

theorem stands_ofMantissaAndAccuracy {mantissa : ℕ} {accuracy : Accuracy} {y : ℚ}
    (h : Places accuracy (y - mantissa)) :
    Stands (.ofMantissaAndAccuracy mantissa accuracy) y := by
  cases accuracy with
  | exact => exact h
  | inexact side => cases side <;> exact h

namespace Stands

variable {em : ExtendedMantissa} {y : ℚ}

/-- Some further bit is set exactly if the number is not whole. -/
theorem bits_eq_false_iff (h : Stands em y) :
    (em.roundBit || em.stickyBit) = false ↔ y - em.mantissa = 0 := by
  obtain ⟨m, roundBit, stickyBit⟩ := em
  cases roundBit <;> cases stickyBit
  · exact ⟨fun _ => h, fun _ => rfl⟩
  · exact ⟨nofun, fun e => absurd e h.1.ne'⟩
  · refine ⟨nofun, fun e => ?_⟩
    have hhalf : y - m = 1 / 2 := h
    rw [e] at hhalf
    norm_num at hhalf
  · refine ⟨nofun, fun e => ?_⟩
    have hhalf : 1 / 2 < y - m := h.1
    rw [e] at hhalf
    norm_num at hhalf

/-- Half of a number: the last digit of the mantissa becomes the first further bit, and the second
one says whether anything is left below it. -/
theorem shiftRightOne (h : Stands em y) : Stands em.shiftRightOne (y / 2) := by
  have hlt : y - em.mantissa < 1 := h.lt_one
  have hzero := h.bits_eq_false_iff.mp
  have hpos (hbits : (em.roundBit || em.stickyBit) = true) : 0 < y - em.mantissa := by
    refine lt_of_le_of_ne h.nonneg fun e => ?_
    exact Bool.noConfusion (hbits.symm.trans (h.bits_eq_false_iff.mpr e.symm))
  obtain ⟨m, roundBit, stickyBit⟩ := em
  have hsplit : (m : ℚ) = 2 * (m / 2 : ℕ) + (m % 2 : ℕ) := by
    exact_mod_cast (Nat.div_add_mod m 2).symm
  simp only [Stands, ExtendedMantissa.shiftRightOne] at *
  generalize (roundBit || stickyBit) = rest at *
  rcases Nat.mod_two_eq_zero_or_one m with hm | hm <;> rw [hm] at hsplit ⊢ <;>
    push_cast at hsplit <;> cases rest
  · show y / 2 - (m / 2 : ℕ) = 0
    linarith [hzero rfl]
  · show 0 < y / 2 - (m / 2 : ℕ) ∧ y / 2 - (m / 2 : ℕ) < 1 / 2
    constructor <;> linarith [hpos rfl]
  · show y / 2 - (m / 2 : ℕ) = 1 / 2
    linarith [hzero rfl]
  · show 1 / 2 < y / 2 - (m / 2 : ℕ) ∧ y / 2 - (m / 2 : ℕ) < 1
    constructor <;> linarith [hpos rfl]

theorem shiftRight (h : Stands em y) (n : ℕ) : Stands (em >>> n) (y / 2 ^ n) := by
  show Stands (n.repeat ExtendedMantissa.shiftRightOne em) _
  induction n with
  | zero => rwa [pow_zero, div_one]
  | succ n ih =>
    rw [pow_succ, ← div_div]
    exact ih.shiftRightOne

end Stands

/-- A whole number that is nearest to a number, in a tie the even one. -/
structure Rounds (r : ℕ) (y : ℚ) : Prop where
  le_of_le {n : ℕ} (h : y ≤ n) : r ≤ n
  le_of_ge {n : ℕ} (h : (n : ℚ) ≤ y) : n ≤ r
  lt_iff {n : ℕ} (heven : n % 2 = 0) (hpos : 0 < n) : r < n ↔ y < n - 1 / 2

/-- What is left of a part below a half, of a half and above a half. -/
theorem Stands.roundedMantissa_eq {em : ExtendedMantissa} {y : ℚ} (h : Stands em y) :
    em.roundedMantissa =
      if y - em.mantissa < 1 / 2 then em.mantissa
      else if y - em.mantissa = 1 / 2 then em.mantissa + em.mantissa % 2
      else em.mantissa + 1 := by
  obtain ⟨m, roundBit, stickyBit⟩ := em
  cases roundBit <;> cases stickyBit
  · have hpart : y - m = 0 := h
    rw [if_pos (by rw [hpart]; norm_num)]
    rfl
  · rw [if_pos h.2]
    rfl
  · have hpart : y - m = 1 / 2 := h
    rw [if_neg hpart.not_lt, if_pos hpart]
    rfl
  · have hpart : 1 / 2 < y - m := h.1
    rw [if_neg hpart.not_gt, if_neg hpart.ne']
    rfl

theorem Stands.rounds {em : ExtendedMantissa} {y : ℚ} (h : Stands em y) :
    Rounds em.roundedMantissa y := by
  have hnonneg : 0 ≤ y - em.mantissa := h.nonneg
  have hlt : y - em.mantissa < 1 := h.lt_one
  have heq := h.roundedMantissa_eq
  have hge : em.mantissa ≤ em.roundedMantissa := by
    rw [heq]
    split_ifs <;> omega
  have hle : em.roundedMantissa ≤ em.mantissa + 1 := by
    rw [heq]
    split_ifs <;> omega
  refine ⟨fun {n} hn => ?_, fun {n} hn => ?_, fun {n} heven hpos => ?_⟩
  · rcases Nat.lt_or_ge em.mantissa n with hm | hm
    · omega
    · have hmn : (n : ℚ) ≤ em.mantissa := by exact_mod_cast hm
      have hpart : y - em.mantissa < 1 / 2 := by linarith
      have hmn' : (em.mantissa : ℚ) ≤ n := by linarith
      rw [heq, if_pos hpart]
      exact_mod_cast hmn'
  · have hm : (n : ℚ) < em.mantissa + 1 := by linarith
    have hm' : n < em.mantissa + 1 := by exact_mod_cast hm
    omega
  · -- only the odd number before an even one decides
    rcases lt_trichotomy (em.mantissa + 1) n with hm | hm | hm
    · have hm' : (em.mantissa : ℚ) + 1 + 1 ≤ n := by exact_mod_cast hm
      exact iff_of_true (by omega) (by linarith)
    · have hm' : (em.mantissa : ℚ) + 1 = n := by exact_mod_cast hm
      have hodd : em.mantissa % 2 = 1 := by omega
      rw [heq]
      split_ifs with hpart hhalf
      · exact iff_of_true (by omega) (by linarith)
      · exact iff_of_false (by omega) (by linarith)
      · exact iff_of_false (by omega) (by linarith)
    · have hm' : (n : ℚ) ≤ em.mantissa := by exact_mod_cast Nat.lt_succ_iff.mp hm
      exact iff_of_false (by omega) (by linarith)

/-! ## One rounding -/

/-- The exponent that a number with this mantissa and exponent has in the format. -/
def step (mantissa : ℕ) (exponent : ℤ) : ℤ :=
  Format.binary64.targetExponent (totalExponent mantissa exponent)

theorem step_eq (mantissa : ℕ) (exponent : ℤ) :
    step mantissa exponent = max (mantissa.log2 + 1 + exponent - 53) (-1074) := rfl

theorem shiftToTargetExponent_eq (mantissa : ℕ) (exponent : ℤ) (accuracy : Accuracy) :
    shiftToTargetExponent Format.binary64 mantissa exponent accuracy =
      (ExtendedMantissa.ofMantissaAndAccuracy mantissa accuracy >>>
          (step mantissa exponent - exponent).toNat,
        exponent + ((step mantissa exponent - exponent).toNat : ℤ)) := rfl

/-- A mantissa and an exponent approximate a number from below, as finely as the format asks. -/
structure Approximates (mantissa : ℕ) (exponent : ℤ) (accuracy : Accuracy) (x : ℚ) : Prop where
  places : Places accuracy (x / 2 ^ exponent - mantissa)
  fine : exponent ≤ step mantissa exponent
  full : mantissa = 0 → exponent ≤ -1074

namespace Approximates

variable {mantissa : ℕ} {exponent : ℤ} {accuracy : Accuracy} {x : ℚ}

/-- The number takes at most 53 digits. -/
theorem lt (h : Approximates mantissa exponent accuracy x) :
    x < 2 ^ (step mantissa exponent + 53) := by
  have hpart : x / 2 ^ exponent < mantissa + 1 := by linarith [h.places.lt_one]
  have hlog : mantissa + 1 ≤ 2 ^ (mantissa.log2 + 1) := Nat.lt_log2_self
  have hlog' : (mantissa : ℚ) + 1 ≤ 2 ^ (mantissa.log2 + 1 : ℤ) := by exact_mod_cast hlog
  have hpow : (0 : ℚ) < 2 ^ exponent := by positivity
  calc x < 2 ^ (mantissa.log2 + 1 : ℤ) * 2 ^ exponent := by
        rw [← div_lt_iff₀ hpow]
        exact lt_of_lt_of_le hpart hlog'
    _ = 2 ^ (mantissa.log2 + 1 + exponent : ℤ) := (zpow_add₀ (by norm_num) _ _).symm
    _ ≤ 2 ^ (step mantissa exponent + 53) := by
        refine zpow_le_zpow_right₀ (by norm_num) ?_
        rw [step_eq]
        omega

/-- And takes them all, unless it is as small as the format gets. -/
theorem step_eq_or_le (h : Approximates mantissa exponent accuracy x) :
    step mantissa exponent = -1074 ∨ 2 ^ (step mantissa exponent + 52) ≤ x := by
  rw [or_iff_not_imp_left]
  intro hstep
  have hfull : mantissa ≠ 0 := by
    intro hzero
    have := h.full hzero
    subst hzero
    rw [step_eq] at hstep
    simp only [Nat.log2_zero] at hstep
    omega
  have hpart : (mantissa : ℚ) ≤ x / 2 ^ exponent := by linarith [h.places.nonneg]
  have hlog : 2 ^ mantissa.log2 ≤ mantissa := Nat.log2_self_le hfull
  have hlog' : (2 : ℚ) ^ (mantissa.log2 : ℤ) ≤ mantissa := by exact_mod_cast hlog
  have hpow : (0 : ℚ) < 2 ^ exponent := by positivity
  calc (2 : ℚ) ^ (step mantissa exponent + 52) = 2 ^ (mantissa.log2 + exponent : ℤ) := by
        congr 1
        rw [step_eq] at hstep ⊢
        omega
    _ = 2 ^ (mantissa.log2 : ℤ) * 2 ^ exponent := zpow_add₀ (by norm_num) _ _
    _ ≤ x := by
        rw [← le_div_iff₀ hpow]
        exact hlog'.trans hpart

/-- The first shift brings the number to the exponent that it has in the format. -/
theorem shift (h : Approximates mantissa exponent accuracy x) :
    ∃ em, shiftToTargetExponent Format.binary64 mantissa exponent accuracy =
        (em, step mantissa exponent) ∧ Stands em (x / 2 ^ step mantissa exponent) := by
  have hexponent : exponent + (step mantissa exponent - exponent).toNat = step mantissa exponent :=
    by have := h.fine; omega
  refine ⟨_, Prod.ext rfl hexponent, ?_⟩
  have hstands := (stands_ofMantissaAndAccuracy h.places).shiftRight
    (step mantissa exponent - exponent).toNat
  rwa [div_div, ← zpow_natCast, ← zpow_add₀ (by norm_num : (2 : ℚ) ≠ 0), hexponent] at hstands

end Approximates

/-- What a rounded mantissa becomes: one that has grown to a further digit is shifted by it. -/
def carried (sign : Sign) (r : ℕ) (exponent : ℤ) : UnpackedFloat :=
  if h : r = 0 then .zero sign
  else if r < 2 ^ 53 then .finite sign r exponent (Nat.pos_of_ne_zero h)
  else .finite sign (2 ^ 52) (exponent + 1) (by decide)

theorem carried_of_lt (sign : Sign) {r : ℕ} (exponent : ℤ) (hpos : 0 < r) (h : r < 2 ^ 53) :
    carried sign r exponent = .finite sign r exponent hpos := by
  rw [carried, dif_neg hpos.ne', if_pos h]

theorem carried_of_le (sign : Sign) {r : ℕ} (exponent : ℤ) (h : 2 ^ 53 ≤ r) :
    carried sign r exponent = .finite sign (2 ^ 52) (exponent + 1) (by decide) := by
  rw [carried, dif_neg (by omega), if_neg (by omega)]

theorem shift_of_lt {r : ℕ} {exponent : ℤ} (hr : r < 2 ^ 53) (he : -1074 ≤ exponent) :
    shiftToTargetExponent Format.binary64 r exponent .exact = (⟨r, false, false⟩, exponent) := by
  have hlog : r.log2 ≤ 52 := by
    rcases Nat.eq_zero_or_pos r with rfl | hpos
    · simp
    · have := (Nat.log2_lt hpos.ne').mpr hr
      omega
  have hshift : (step r exponent - exponent).toNat = 0 := by
    rw [step_eq]
    omega
  rw [shiftToTargetExponent_eq, hshift, Nat.cast_zero, add_zero]
  rfl

theorem shift_of_eq {exponent : ℤ} (he : -1074 ≤ exponent) :
    shiftToTargetExponent Format.binary64 (2 ^ 53) exponent .exact =
      (⟨2 ^ 52, false, false⟩, exponent + 1) := by
  have hshift : (step (2 ^ 53) exponent - exponent).toNat = 1 := by
    rw [step_eq, Nat.log2_two_pow]
    omega
  rw [shiftToTargetExponent_eq, hshift]
  rfl

/-- Rounding goes to the nearest number of the format, in a tie to the even one. -/
theorem Approximates.roundWithAccuracy_eq {mantissa : ℕ} {exponent : ℤ} {accuracy : Accuracy}
    {x : ℚ} (h : Approximates mantissa exponent accuracy x) (sign : Sign) :
    ∃ r, Rounds r (x / 2 ^ step mantissa exponent) ∧ r ≤ 2 ^ 53 ∧
      (2 ^ 52 ≤ r ∨ step mantissa exponent = -1074) ∧
      roundWithAccuracy Format.binary64 sign mantissa exponent accuracy =
        carried sign r (step mantissa exponent) := by
  obtain ⟨em, hshift, hstands⟩ := h.shift
  have hrounds := hstands.rounds
  have hstep : -1074 ≤ step mantissa exponent := le_max_right _ _
  have hle : em.roundedMantissa ≤ 2 ^ 53 := by
    apply hrounds.le_of_le
    rw [div_le_iff₀ (by positivity), Nat.cast_pow, Nat.cast_ofNat, ← zpow_natCast,
      ← zpow_add₀ (by norm_num), add_comm]
    exact h.lt.le
  have hfull : 2 ^ 52 ≤ em.roundedMantissa ∨ step mantissa exponent = -1074 := by
    refine h.step_eq_or_le.symm.imp (fun hx => hrounds.le_of_ge ?_) id
    rw [le_div_iff₀ (by positivity), Nat.cast_pow, Nat.cast_ofNat, ← zpow_natCast,
      ← zpow_add₀ (by norm_num), add_comm]
    exact hx
  refine ⟨em.roundedMantissa, hrounds, hle, hfull, ?_⟩
  rw [roundWithAccuracy, hshift]
  dsimp only
  rcases Nat.lt_or_eq_of_le hle with hlt | heq
  · rw [shift_of_lt hlt hstep]
    rcases Nat.eq_zero_or_pos em.roundedMantissa with hzero | hpos
    · rw [dif_pos hzero, carried, dif_pos hzero]
    · rw [dif_neg hpos.ne', carried_of_lt sign _ hpos hlt]
  · rw [heq, shift_of_eq hstep]
    rfl

/-! ## The range of the format -/

/-- Numbers from here on are rounded to an infinity: half a step above the largest finite number. -/
def limit : ℚ := 2 ^ 1024 - 2 ^ 970

theorem limit_eq : limit = (2 ^ 53 - 1 / 2) * 2 ^ (971 : ℤ) := by
  have hdouble : (2 : ℚ) ^ 971 = 2 ^ 970 * 2 := pow_succ _ _
  have hlarge : (2 : ℚ) ^ 1024 = 2 ^ 53 * 2 ^ 971 := by rw [← pow_add]
  rw [limit, hlarge, zpow_ofNat, hdouble]
  generalize (2 : ℚ) ^ 970 = unit
  ring

/-- A rounded mantissa keeps its value in the range of the format. -/
theorem exists_unpack_pack_carried (sign : Sign) {r : ℕ} {exponent : ℤ} (hpos : 0 < r)
    (hr : r ≤ 2 ^ 53) (hlow : -1074 ≤ exponent) (hfull : 2 ^ 52 ≤ r ∨ exponent = -1074)
    (h : exponent ≤ 970 ∨ exponent = 971 ∧ r < 2 ^ 53) :
    ∃ m e hm, (Float.Model.pack (carried sign r exponent)).unpack = .finite sign m e hm ∧
      (m : ℚ) * 2 ^ e = r * 2 ^ exponent := by
  rcases Nat.lt_or_ge r (2 ^ 53) with hlt | hge
  · rw [carried_of_lt sign exponent hpos hlt]
    exact ⟨r, exponent, hpos, unpack_pack sign hpos ⟨hlt, hlow, hfull⟩ (by omega), rfl⟩
  · rw [carried_of_le sign exponent hge]
    have hcanonical : Canonical (2 ^ 52) (exponent + 1) :=
      ⟨by norm_num, by omega, .inl le_rfl⟩
    refine ⟨2 ^ 52, exponent + 1, by norm_num,
      unpack_pack sign (by norm_num) hcanonical (by omega), ?_⟩
    rw [show r = 2 ^ 53 by omega, zpow_add_one₀ (by norm_num)]
    push_cast
    ring

/-- And becomes an infinity beyond. -/
theorem unpack_pack_carried_of_lt (sign : Sign) {r : ℕ} {exponent : ℤ} (hpos : 0 < r)
    (h : 971 < exponent ∨ exponent = 971 ∧ r = 2 ^ 53) :
    (Float.Model.pack (carried sign r exponent)).unpack = .infinity sign := by
  rcases Nat.lt_or_ge r (2 ^ 53) with hlt | hge
  · rw [carried_of_lt sign exponent hpos hlt]
    exact unpack_pack_of_lt sign _ (by omega)
  · rw [carried_of_le sign exponent hge]
    exact unpack_pack_of_lt sign _ (by omega)

/-! ## The range of rounding -/

/-- Up to the last exponent but one of the format, everything is below the limit. -/
theorem lt_limit_of_le {x : ℚ} {exponent : ℤ} (h : x ≤ 2 ^ (exponent + 53))
    (he : exponent ≤ 970) : x < limit := by
  calc x ≤ 2 ^ (exponent + 53) := h
    _ ≤ 2 ^ (52 + 971 : ℤ) := zpow_le_zpow_right₀ (by norm_num) (by omega)
    _ = 2 ^ (52 : ℤ) * 2 ^ (971 : ℤ) := zpow_add₀ (by norm_num) _ _
    _ < (2 ^ 53 - 1 / 2) * 2 ^ (971 : ℤ) :=
        mul_lt_mul_of_pos_right (by norm_num) (by positivity)
    _ = limit := limit_eq.symm

/-- Above the last exponent of the format, nothing is. -/
theorem limit_le_of_lt {x : ℚ} {exponent : ℤ} (h : 2 ^ (exponent + 52) ≤ x)
    (he : 971 < exponent) : limit ≤ x := by
  calc limit = (2 ^ 53 - 1 / 2) * 2 ^ (971 : ℤ) := limit_eq
    _ ≤ 2 ^ (53 : ℤ) * 2 ^ (971 : ℤ) :=
        mul_le_mul_of_nonneg_right (by norm_num) (by positivity)
    _ = 2 ^ (53 + 971 : ℤ) := (zpow_add₀ (by norm_num) _ _).symm
    _ ≤ 2 ^ (exponent + 52) := zpow_le_zpow_right₀ (by norm_num) (by omega)
    _ ≤ x := h

/-- At the last exponent, the rounded mantissa decides. -/
theorem Rounds.lt_iff_lt_limit {r : ℕ} {x : ℚ} (h : Rounds r (x / 2 ^ (971 : ℤ))) :
    r < 2 ^ 53 ↔ x < limit := by
  rw [h.lt_iff (by norm_num) (by norm_num), div_lt_iff₀ (by positivity), limit_eq]
  norm_num

/-- Powers of two above the step are kept apart from what is rounded. -/
theorem Rounds.pow_le {r : ℕ} {x : ℚ} {t k : ℤ} (h : Rounds r (x / 2 ^ t)) (hk : t ≤ k)
    (hx : 2 ^ k ≤ x) : (2 : ℚ) ^ k ≤ r * 2 ^ t := by
  obtain ⟨n, rfl⟩ := Int.le.dest hk
  rw [zpow_add₀ (by norm_num), mul_comm, zpow_natCast] at hx ⊢
  have hr : 2 ^ n ≤ r := h.le_of_ge (by rwa [le_div_iff₀ (by positivity), Nat.cast_pow])
  exact mul_le_mul_of_nonneg_right (by exact_mod_cast hr) (by positivity)

theorem Rounds.le_pow {r : ℕ} {x : ℚ} {t k : ℤ} (h : Rounds r (x / 2 ^ t)) (hk : t ≤ k)
    (hx : x ≤ 2 ^ k) : (r : ℚ) * 2 ^ t ≤ 2 ^ k := by
  obtain ⟨n, rfl⟩ := Int.le.dest hk
  rw [zpow_add₀ (by norm_num), mul_comm (2 ^ t : ℚ), zpow_natCast] at hx ⊢
  have hr : r ≤ 2 ^ n := h.le_of_le (by rwa [div_le_iff₀ (by positivity), Nat.cast_pow])
  exact mul_le_mul_of_nonneg_right (by exact_mod_cast hr) (by positivity)

section Range

variable {mantissa : ℕ} {exponent : ℤ} {accuracy : Accuracy} {x : ℚ}
  (h : Approximates mantissa exponent accuracy x) (sign : Sign)

include h

/-- Rounding makes an infinity of a number from the limit on. -/
theorem unpack_roundWithAccuracy_of_le (hx : limit ≤ x) :
    (Float.Model.pack (roundWithAccuracy Format.binary64 sign mantissa exponent
      accuracy)).unpack = .infinity sign := by
  obtain ⟨r, hrounds, hr, -, heq⟩ := h.roundWithAccuracy_eq sign
  have hstep : ¬ step mantissa exponent ≤ 970 :=
    fun he => absurd (lt_limit_of_le h.lt.le he) hx.not_gt
  have hpos : 0 < r := by
    apply hrounds.le_of_ge
    rw [le_div_iff₀ (by positivity), Nat.cast_one, one_mul]
    have hfull := h.step_eq_or_le.resolve_left (by omega)
    exact (zpow_le_zpow_right₀ (by norm_num) (by omega)).trans hfull
  rw [heq]
  rcases lt_or_eq_of_le (show 971 ≤ step mantissa exponent by omega) with he | he
  · exact unpack_pack_carried_of_lt sign hpos (.inl he)
  · refine unpack_pack_carried_of_lt sign hpos (.inr ⟨he.symm, ?_⟩)
    rw [← he] at hrounds
    exact le_antisymm hr (not_lt.mp fun hlt => absurd (hrounds.lt_iff_lt_limit.mp hlt) hx.not_gt)

/-- A number below the limit is rounded to a number of the format. -/
theorem unpack_roundWithAccuracy_of_lt (hx : x < limit) :
    ∃ r, Rounds r (x / 2 ^ step mantissa exponent) ∧
      (r = 0 ∧ (Float.Model.pack (roundWithAccuracy Format.binary64 sign mantissa exponent
          accuracy)).unpack = .zero sign ∨
        ∃ m e hm, (Float.Model.pack (roundWithAccuracy Format.binary64 sign mantissa exponent
          accuracy)).unpack = .finite sign m e hm ∧
          (m : ℚ) * 2 ^ e = r * 2 ^ step mantissa exponent) := by
  obtain ⟨r, hrounds, hr, hfull, heq⟩ := h.roundWithAccuracy_eq sign
  have hlow : -1074 ≤ step mantissa exponent := le_max_right _ _
  refine ⟨r, hrounds, ?_⟩
  rw [heq]
  rcases Nat.eq_zero_or_pos r with rfl | hpos
  · exact .inl ⟨rfl, unpack_pack_zero sign⟩
  · refine .inr (exists_unpack_pack_carried sign hpos hr hlow hfull ?_)
    have hstep : step mantissa exponent ≤ 971 := by
      by_contra hlt
      have hlarge := h.step_eq_or_le.resolve_left (by omega)
      exact absurd (limit_le_of_lt hlarge (by omega)) hx.not_ge
    rcases lt_or_eq_of_le hstep with he | he
    · exact .inl (by omega)
    · rw [he] at hrounds
      exact .inr ⟨he, hrounds.lt_iff_lt_limit.mpr hx⟩

/-- Rounding does not cross powers of two of the format, so that what is not too small stays
finite. -/
theorem exists_unpack_roundWithAccuracy {low high : ℤ} (hlow : -1074 ≤ low) (hx : 2 ^ low ≤ x)
    (hx' : x ≤ 2 ^ high) (hhigh : high ≤ 1023) :
    ∃ m e hm, (Float.Model.pack (roundWithAccuracy Format.binary64 sign mantissa exponent
        accuracy)).unpack = .finite sign m e hm ∧
      (2 : ℚ) ^ low ≤ m * 2 ^ e ∧ (m : ℚ) * 2 ^ e ≤ 2 ^ high := by
  have hrange : low ≤ high := (zpow_le_zpow_iff_right₀ (by norm_num)).mp (hx.trans hx')
  have hlimit : x < limit :=
    lt_limit_of_le (hx'.trans (zpow_le_zpow_right₀ (by norm_num) (by omega))) le_rfl
  have hlarge (hstep : low < step mantissa exponent) : 2 ^ (step mantissa exponent + 52) ≤ x :=
    h.step_eq_or_le.resolve_left (by omega)
  obtain ⟨r, hrounds, hr⟩ := unpack_roundWithAccuracy_of_lt h sign hlimit
  have hge : (2 : ℚ) ^ low ≤ r * 2 ^ step mantissa exponent := by
    rcases le_or_gt (step mantissa exponent) low with hstep | hstep
    · exact hrounds.pow_le hstep hx
    · exact (zpow_le_zpow_right₀ (by norm_num) (by omega)).trans
        (hrounds.pow_le (by omega) (hlarge hstep))
  have hle : (r : ℚ) * 2 ^ step mantissa exponent ≤ 2 ^ high := by
    refine hrounds.le_pow (not_lt.mp fun hstep => ?_) hx'
    have hhuge := (hlarge (by omega)).trans hx'
    rw [zpow_le_zpow_iff_right₀ (by norm_num)] at hhuge
    omega
  rcases hr with ⟨rfl, -⟩ | ⟨m, e, hm, hunpack, hvalue⟩
  · rw [Nat.cast_zero, zero_mul] at hge
    exact absurd hge (not_le.mpr (by positivity))
  · exact ⟨m, e, hm, hunpack, hvalue ▸ hge, hvalue ▸ hle⟩

end Range

end MetricPoints.Binary64
