import MetricPoints.Amount
import MetricPoints.Proofs.Binary64.Arithmetic

/-
  The seconds of a time in nanoseconds, as rates have them: whole seconds, and the rest as a part of
  one. Sums, products and quotients of numbers between powers of two stay between such powers
  (`Between`), so that the seconds of any 64-bit time but zero are a finite number above zero.

  Main statement: `Amount.seconds_pos`.
-/

namespace MetricPoints

namespace Binary64

open Float.Model Float.Model.UnpackedFloat

/-- A number lies between two powers of two, and is finite and above zero with them. -/
def Between (low high : ℤ) (x : Float) : Prop :=
  ∃ m e hm, x.toModel.unpack = .finite .positive m e hm ∧
    (2 : ℚ) ^ low ≤ m * 2 ^ e ∧ (m : ℚ) * 2 ^ e ≤ 2 ^ high

variable {low high low' high' : ℤ} {x y : Float}

theorem Between.isFinite (h : Between low high x) : x.isFinite = true := by
  obtain ⟨m, e, hm, hunpack, -⟩ := h
  exact isFinite_of_unpack hunpack

theorem Between.exact_pos (h : Between low high x) : 0 < exact x := by
  obtain ⟨m, e, hm, hunpack, -⟩ := h
  rw [exact, hunpack]
  exact value_positive hm

/-- Rounding keeps a number between powers of two of the format. -/
theorem Rounded.between {q : ℚ} {result : UnpackedFloat} (h : Rounded .positive q result)
    (hx : x.toModel = Float.Model.pack result) (hlow : -1074 ≤ low) (hq : 2 ^ low ≤ q)
    (hq' : q ≤ 2 ^ high) (hhigh : high ≤ 1023) : Between low high x := by
  obtain ⟨mantissa, exponent, accuracy, happrox, rfl⟩ := h
  rw [Between, hx]
  exact exists_unpack_roundWithAccuracy happrox .positive hlow hq hq' hhigh

theorem Between.div (h : Between low high x) (h' : Between low' high' y)
    (hlow : -1074 ≤ low - high') (hhigh : high - low' ≤ 1023) :
    Between (low - high') (high - low') (x / y) := by
  obtain ⟨m, e, hm, hxu, hle, hge⟩ := h
  obtain ⟨m', e', hm', hyu, hle', hge'⟩ := h'
  have hdiv : (x / y).toModel = Float.Model.pack (roundWithAccuracy Format.binary64 .positive
      (divCore Format.binary64 m e m' e').1 (divCore Format.binary64 m e m' e').2.1
      (divCore Format.binary64 m e m' e').2.2) := by
    show Float.Model.pack (UnpackedFloat.div _ x.toModel.unpack y.toModel.unpack) = _
    rw [hxu, hyu]
    rfl
  refine (rounded_div .positive e e' hm hm').between hdiv hlow ?_ ?_ hhigh
  · rw [zpow_sub₀ (by norm_num)]
    exact div_le_div₀ (by positivity) hle (by positivity) hge'
  · rw [zpow_sub₀ (by norm_num)]
    exact div_le_div₀ (by positivity) hge (by positivity) hle'

theorem Between.mono (h : Between low high x) (hlow : low' ≤ low) (hhigh : high ≤ high') :
    Between low' high' x := by
  obtain ⟨m, e, hm, hunpack, hle, hge⟩ := h
  exact ⟨m, e, hm, hunpack, (zpow_le_zpow_right₀ (by norm_num) hlow).trans hle,
    hge.trans (zpow_le_zpow_right₀ (by norm_num) hhigh)⟩

/-- A number of the format that is packed again stays what it is. -/
theorem Between.of_toModel (h : Between low high x)
    (hy : y.toModel = Float.Model.pack x.toModel.unpack) : Between low high y := by
  obtain ⟨m, e, hm, hunpack, hle, hge⟩ := h
  obtain ⟨hcanonical, he⟩ := canonical_of_unpack hunpack
  refine ⟨m, e, hm, ?_, hle, hge⟩
  rw [hy, hunpack]
  exact unpack_pack .positive hm hcanonical he

theorem Between.add_zero {sign : Sign} (h : Between low high x)
    (hy : y.toModel.unpack = .zero sign) : Between low high (x + y) := by
  refine h.of_toModel ?_
  show Float.Model.pack (UnpackedFloat.add _ x.toModel.unpack y.toModel.unpack) = _
  obtain ⟨m, e, hm, hunpack, -⟩ := h
  rw [hunpack, hy]
  rfl

theorem Between.zero_add {sign : Sign} (h : Between low high y)
    (hx : x.toModel.unpack = .zero sign) : Between low high (x + y) := by
  refine h.of_toModel ?_
  show Float.Model.pack (UnpackedFloat.add _ x.toModel.unpack y.toModel.unpack) = _
  obtain ⟨m, e, hm, hunpack, -⟩ := h
  rw [hunpack, hx]
  rfl

theorem Between.add (h : Between low high x) (h' : Between low high y) (hlow : -1074 ≤ low)
    (hhigh : high + 1 ≤ 1023) : Between low (high + 1) (x + y) := by
  obtain ⟨m, e, hm, hxu, hle, hge⟩ := h
  obtain ⟨m', e', hm', hyu, hle', hge'⟩ := h'
  obtain ⟨n, hn⟩ : ∃ n, Sign.positive.apply (decreaseExponent m e (min e e')).1 +
      Sign.positive.apply (decreaseExponent m' e' (min e e')).1 = n := ⟨_, rfl⟩
  have hadd : (x + y).toModel =
      Float.Model.pack (UnpackedFloat.normalize Format.binary64 n (min e e') .positive) := by
    show Float.Model.pack (UnpackedFloat.add _ x.toModel.unpack y.toModel.unpack) = _
    rw [hxu, hyu, ← hn]
    rfl
  have hvalue : (n : ℚ) * 2 ^ min e e' = m * 2 ^ e + m' * 2 ^ e' := by
    rw [← hn, Int.cast_add, add_mul, value_decreaseExponent .positive hm (min_le_left e e'),
      value_decreaseExponent .positive hm' (min_le_right e e')]
    rfl
  have hpos : 0 < n := by
    have hsum : (0 : ℚ) < n * 2 ^ min e e' := by
      rw [hvalue]
      positivity
    exact_mod_cast pos_of_mul_pos_left hsum (by positivity)
  have hrounded := normalize_of_pos hpos (min e e') .positive
  rw [hvalue] at hrounded
  refine hrounded.between hadd hlow ?_ ?_ hhigh
  · exact hle.trans (le_add_of_nonneg_right (by positivity))
  · rw [zpow_add_one₀ (by norm_num), mul_two]
    exact add_le_add hge hge'

theorem Between.zero_div {sign : Sign} (h : Between low high y)
    (hx : x.toModel.unpack = .zero sign) : (x / y).toModel.unpack = .zero (sign / .positive) := by
  obtain ⟨m, e, hm, hunpack, -⟩ := h
  show (Float.Model.pack (UnpackedFloat.div _ x.toModel.unpack y.toModel.unpack)).unpack = _
  rw [hunpack, hx]
  exact unpack_pack_zero _

/-! ## Counts -/

theorem unpack_ofNat_zero : (Float.ofNat 0).toModel.unpack = .zero .positive := rfl

theorem rounded_mul (sign : Sign) (m m' : ℕ) (e e' : ℤ) (hfull : 2 ^ 52 ≤ m * m') :
    Rounded sign ((m * m' : ℕ) * 2 ^ (e + e'))
      (roundWithAccuracy Format.binary64 sign (m * m') (e + e') .exact) := by
  have hlog : 52 ≤ (m * m').log2 := (Nat.le_log2 (by omega)).mpr hfull
  refine ⟨_, _, _, approximates_exact (by omega) ?_, rfl⟩
  rw [step_eq]
  exact le_max_of_le_left (by omega)

/-- The number one, which powers of ten start from. -/
theorem unpack_one : (Float.exactlyRepresentablePowersOfTen[0]).toModel.unpack =
    .finite .positive (2 ^ 52) (-52) (by decide) := rfl

theorem Between.mul_one (h : Between low high x) (hlow : -1074 ≤ low) (hhigh : high ≤ 1023) :
    Between low high (x * Float.exactlyRepresentablePowersOfTen[0]) := by
  obtain ⟨m, e, hm, hxu, hle, hge⟩ := h
  have hmul : (x * Float.exactlyRepresentablePowersOfTen[0]).toModel =
      Float.Model.pack
        (roundWithAccuracy Format.binary64 .positive (m * 2 ^ 52) (e + -52) .exact) := by
    show Float.Model.pack (UnpackedFloat.mul _ x.toModel.unpack
      (Float.exactlyRepresentablePowersOfTen[0]).toModel.unpack) = _
    rw [hxu, unpack_one]
    rfl
  have hvalue : ((m * 2 ^ 52 : ℕ) : ℚ) * 2 ^ (e + -52) = m * 2 ^ e := by
    rw [zpow_add₀ (by norm_num)]
    push_cast
    field_simp
    norm_num
  have hrounded := rounded_mul .positive m (2 ^ 52) e (-52) (by omega)
  rw [hvalue] at hrounded
  exact hrounded.between hmul hlow hle hge hhigh

/-- Counts up to 64 bits are between one and a power of two. -/
theorem between_ofNat {n : ℕ} (hpos : 0 < n) (hn : n < UInt64.size) :
    Between 0 64 (Float.ofNat n) := by
  replace hn : n < 2 ^ 64 := hn
  have hlow : (2 : ℚ) ^ (0 : ℤ) ≤ n := by exact_mod_cast hpos
  have hhigh : (n : ℚ) ≤ 2 ^ (64 : ℤ) := by exact_mod_cast hn.le
  show Between 0 64 (Float.ofScientific n false 0)
  unfold Float.ofScientific
  split
  · have hword : n.toUInt64.toNat = n := Nat.mod_eq_of_lt hn
    have hrounded := normalize_of_pos (Int.natCast_pos.mpr hpos) 0 .positive
    rw [zpow_zero, mul_one, Int.cast_natCast] at hrounded
    have hfloat : n.toUInt64.toFloat.toModel =
        Float.Model.pack (UnpackedFloat.normalize Format.binary64 n 0 .positive) := by
      show Float.Model.pack (UnpackedFloat.normalize _ (n.toUInt64.toNat : ℤ) 0 .positive) = _
      rw [hword]
    exact (hrounded.between hfloat (by norm_num) hlow hhigh (by norm_num)).mul_one (by norm_num)
      (by norm_num)
  · have hscientific : UnpackedFloat.ofScientific Format.binary64 n 0 =
        roundWithAccuracy Format.binary64 .positive (n <<< 53 * 1) (-53 + 0) .exact := by
      unfold UnpackedFloat.ofScientific
      rw [dif_neg hpos.ne', if_neg (by decide), if_neg (by simp), if_pos (by decide)]
      rfl
    have hvalue : ((n <<< 53 * 1 : ℕ) : ℚ) * 2 ^ (-53 + 0 : ℤ) = n := by
      rw [Nat.mul_one, cast_shiftLeft, mul_assoc, ← zpow_natCast, ← zpow_add₀ (by norm_num)]
      norm_num
    have hrounded := rounded_mul .positive (n <<< 53) 1 (-53) 0 (by rw [Nat.shiftLeft_eq]; omega)
    rw [hvalue] at hrounded
    exact hrounded.between (congrArg Float.Model.pack hscientific) (by norm_num) hlow hhigh
      (by norm_num)

end Binary64

/-! ## Seconds -/

namespace Amount

open Binary64

/-- The seconds of a time in nanoseconds. -/
def seconds (elapsed : ℕ) : Float :=
  Float.ofNat (elapsed / second) + Float.ofNat (elapsed % second) / Float.ofNat second

/-- The seconds of a 64-bit time that is not zero. -/
theorem between_seconds {elapsed : ℕ} (hpos : 0 < elapsed) (h : elapsed < UInt64.size) :
    Between (-64) 65 (seconds elapsed) := by
  have hsecond : Between 0 64 (Float.ofNat second) := between_ofNat (by decide) (by decide)
  have hwhole (hq : 0 < elapsed / second) : Between (-64) 64 (Float.ofNat (elapsed / second)) :=
    (between_ofNat hq ((Nat.div_le_self _ _).trans_lt h)).mono (by norm_num) le_rfl
  have hpart (hr : 0 < elapsed % second) :
      Between (-64) 64 (Float.ofNat (elapsed % second) / Float.ofNat second) :=
    (between_ofNat hr ((Nat.mod_le _ _).trans_lt h)).div hsecond (by norm_num) (by norm_num)
  rw [seconds]
  rcases Nat.eq_zero_or_pos (elapsed % second) with hr | hr
  · have hq : 0 < elapsed / second := by
      have := Nat.div_add_mod elapsed second
      unfold second at *
      omega
    rw [hr]
    exact ((hwhole hq).add_zero (hsecond.zero_div unpack_ofNat_zero)).mono le_rfl (by norm_num)
  · rcases Nat.eq_zero_or_pos (elapsed / second) with hq | hq
    · rw [hq]
      exact ((hpart hr).zero_add unpack_ofNat_zero).mono le_rfl (by norm_num)
    · exact (hwhole hq).add (hpart hr) (by norm_num) (by norm_num)

theorem seconds_pos {elapsed : ℕ} (hpos : 0 < elapsed) (h : elapsed < UInt64.size) :
    0 < seconds elapsed := by
  have hbetween := between_seconds hpos h
  exact lt_of_exact_lt (x := 0) rfl hbetween.isFinite hbetween.exact_pos

end Amount

end MetricPoints
