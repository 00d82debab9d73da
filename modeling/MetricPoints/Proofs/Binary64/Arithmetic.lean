import MetricPoints.Proofs.Binary64.Rounding

/-
  Differences and quotients of 64-bit binary numbers. Every finite number has an exact value
  (`exact`). What an operation gives is its exact result rounded (`Rounded`), so that it is finite
  while the exact result stays below the limit of the format, and an infinity from there on
  (`Gives`). Finite numbers are ordered and equal as their exact values are (`lt_of_exact_lt`,
  `beq_iff_exact_eq`).

  Main statements: `sub_gives`, `div_gives`.
-/

namespace MetricPoints.Binary64

open Float.Model Float.Model.UnpackedFloat

/-- A result is an exact number that is not negative, rounded and given a sign. -/
def Rounded (sign : Sign) (x : ℚ) (result : UnpackedFloat) : Prop :=
  ∃ mantissa exponent accuracy, Approximates mantissa exponent accuracy x ∧
    result = roundWithAccuracy Format.binary64 sign mantissa exponent accuracy

/-- What an operation gives for an exact result of this size: a finite number below the limit, an
infinity from there on. -/
structure Gives (size : ℚ) (result : UnpackedFloat) : Prop where
  finite (h : size < limit) : (Float.Model.pack result).isFinite = true
  infinite (h : limit ≤ size) : (Float.Model.pack result).isInf = true

theorem isFinite_of_unpack {x : Float.Model} {u : UnpackedFloat} (h : x.unpack = u) :
    x.isFinite = u.isFinite :=
  congrArg UnpackedFloat.isFinite h

theorem isInf_of_unpack {x : Float.Model} {u : UnpackedFloat} (h : x.unpack = u) :
    x.isInf = u.isInf :=
  congrArg UnpackedFloat.isInf h

theorem isInf_pack_infinity (sign : Sign) : (Float.Model.pack (.infinity sign)).isInf = true := by
  cases sign <;> rfl

theorem Rounded.gives {sign : Sign} {x : ℚ} {result : UnpackedFloat} (h : Rounded sign x result) :
    Gives x result := by
  obtain ⟨mantissa, exponent, accuracy, happrox, rfl⟩ := h
  refine ⟨fun hx => ?_, fun hx => isInf_of_unpack (unpack_roundWithAccuracy_of_le happrox sign hx)⟩
  obtain ⟨r, -, ⟨-, hzero⟩ | ⟨m, e, hm, hunpack, -⟩⟩ :=
    unpack_roundWithAccuracy_of_lt happrox sign hx
  · exact isFinite_of_unpack hzero
  · exact isFinite_of_unpack hunpack

theorem limit_pos : 0 < limit := by
  rw [limit_eq]
  exact mul_pos (by norm_num) (by positivity)

theorem gives_zero (sign : Sign) : Gives 0 (.zero sign) where
  finite _ := isFinite_of_unpack (unpack_pack_zero sign)
  infinite h := absurd h limit_pos.not_ge

/-- The numbers of the format are below the limit. -/
theorem Canonical.lt_limit {mantissa : ℕ} {exponent : ℤ} (h : Canonical mantissa exponent)
    (he : exponent ≤ 971) : (mantissa : ℚ) * 2 ^ exponent < limit := by
  have hm : (mantissa : ℚ) ≤ 2 ^ 53 - 1 := by
    have := h.lt
    rw [le_sub_iff_add_le]
    exact_mod_cast this
  calc (mantissa : ℚ) * 2 ^ exponent ≤ (2 ^ 53 - 1) * 2 ^ (971 : ℤ) :=
        mul_le_mul hm (zpow_le_zpow_right₀ (by norm_num) he) (by positivity) (by norm_num)
    _ < (2 ^ 53 - 1 / 2) * 2 ^ (971 : ℤ) := mul_lt_mul_of_pos_right (by norm_num) (by positivity)
    _ = limit := limit_eq.symm

theorem Canonical.gives {mantissa : ℕ} {exponent : ℤ} (h : Canonical mantissa exponent)
    (he : exponent ≤ 971) (sign : Sign) (hpos : 0 < mantissa) :
    Gives (mantissa * 2 ^ exponent) (.finite sign mantissa exponent hpos) where
  finite _ := isFinite_of_unpack (unpack_pack sign hpos h he)
  infinite hx := absurd (h.lt_limit he) hx.not_gt

/-! ## Rounding what is exact -/

theorem cast_shiftLeft (mantissa k : ℕ) : ((mantissa <<< k : ℕ) : ℚ) = mantissa * 2 ^ k := by
  rw [Nat.shiftLeft_eq]
  push_cast
  rfl

theorem log2_shiftLeft {mantissa : ℕ} (hpos : 0 < mantissa) (k : ℕ) :
    (mantissa <<< k).log2 = mantissa.log2 + k := by
  induction k with
  | zero => rfl
  | succ k ih =>
    rw [Nat.shiftLeft_succ, Nat.log2_two_mul (Nat.shiftLeft_pos_iff.mpr hpos).ne', ih]
    rfl

/-- A mantissa with as many digits as the format asks for loses nothing. -/
theorem approximates_exact {mantissa : ℕ} {exponent : ℤ} (hpos : 0 < mantissa)
    (hfine : exponent ≤ step mantissa exponent) :
    Approximates mantissa exponent .exact (mantissa * 2 ^ exponent) where
  places := by
    show _ - _ = (0 : ℚ)
    rw [mul_div_assoc, div_self (by positivity), mul_one, sub_self]
  fine := hfine
  full h := absurd h hpos.ne'

/-- Other numbers get more digits first. -/
theorem rounded_round (sign : Sign) {mantissa : ℕ} (exponent : ℤ) (hpos : 0 < mantissa) :
    Rounded sign (mantissa * 2 ^ exponent)
      (UnpackedFloat.round Format.binary64 sign mantissa exponent) := by
  obtain ⟨k, hk⟩ : ∃ k, (exponent - step mantissa exponent).toNat = k := ⟨_, rfl⟩
  have hvalue : (mantissa : ℚ) * 2 ^ exponent = (mantissa <<< k : ℕ) * 2 ^ (exponent - k) := by
    rw [cast_shiftLeft, mul_assoc, ← zpow_natCast, ← zpow_add₀ (by norm_num), add_sub_cancel]
  have hfine : exponent - k ≤ step (mantissa <<< k) (exponent - k) := by
    rw [step_eq] at hk ⊢
    rw [log2_shiftLeft hpos]
    push_cast
    omega
  refine ⟨mantissa <<< k, exponent - k, .exact, ?_, ?_⟩
  · rw [hvalue]
    exact approximates_exact (Nat.shiftLeft_pos_iff.mpr hpos) hfine
  · rw [← hk]
    rfl

theorem normalize_of_pos {n : ℤ} (hn : 0 < n) (exponent : ℤ) (zeroSign : Sign) :
    Rounded .positive (n * 2 ^ exponent)
      (UnpackedFloat.normalize Format.binary64 n exponent zeroSign) := by
  obtain ⟨m, rfl⟩ := Int.eq_ofNat_of_zero_le hn.le
  have hm : 0 < m := by omega
  rw [UnpackedFloat.normalize, Int.compare_eq_gt.mpr hn]
  exact rounded_round .positive exponent hm

theorem normalize_of_neg {n : ℤ} (hn : n < 0) (exponent : ℤ) (zeroSign : Sign) :
    Rounded .negative (-n * 2 ^ exponent)
      (UnpackedFloat.normalize Format.binary64 n exponent zeroSign) := by
  obtain ⟨m, hm⟩ := Int.eq_ofNat_of_zero_le (neg_nonneg.mpr hn.le)
  have hpos : 0 < m := by omega
  rw [UnpackedFloat.normalize, Int.compare_eq_lt.mpr hn, hm, ← Int.cast_neg, hm]
  exact rounded_round .negative exponent hpos

theorem normalize_gives (n : ℤ) (exponent : ℤ) (zeroSign : Sign) :
    Gives |(n : ℚ) * 2 ^ exponent|
      (UnpackedFloat.normalize Format.binary64 n exponent zeroSign) := by
  rw [abs_mul, abs_of_pos (show (0 : ℚ) < 2 ^ exponent by positivity)]
  rcases lt_trichotomy n 0 with hn | rfl | hn
  · rw [abs_of_neg (by exact_mod_cast hn)]
    exact (normalize_of_neg hn exponent zeroSign).gives
  · rw [Int.cast_zero, abs_zero, zero_mul]
    exact gives_zero zeroSign
  · rw [abs_of_pos (by exact_mod_cast hn)]
    exact (normalize_of_pos hn exponent zeroSign).gives

/-! ## Exact values -/

/-- The exact value of a finite number that is unpacked. -/
def value : UnpackedFloat → ℚ
  | .finite sign mantissa exponent _ => sign.apply mantissa * 2 ^ exponent
  | _ => 0

/-- The exact value of a finite number. -/
def exact (x : Float) : ℚ := value x.toModel.unpack

theorem abs_value_finite (sign : Sign) {mantissa : ℕ} {exponent : ℤ} (hpos : 0 < mantissa) :
    |value (.finite sign mantissa exponent hpos)| = mantissa * 2 ^ exponent := by
  have hnonneg : (0 : ℚ) ≤ mantissa * 2 ^ exponent := by positivity
  cases sign with
  | positive => exact abs_of_nonneg hnonneg
  | negative =>
    show |((-(mantissa : ℤ) : ℤ) : ℚ) * 2 ^ exponent| = _
    rw [Int.cast_neg, neg_mul, abs_neg]
    exact abs_of_nonneg hnonneg

/-- Bringing a mantissa to a lower exponent keeps its value. -/
theorem value_decreaseExponent (sign : Sign) {mantissa : ℕ} {exponent lower : ℤ}
    (hpos : 0 < mantissa) (h : lower ≤ exponent) :
    (sign.apply (decreaseExponent mantissa exponent lower).1 : ℚ) * 2 ^ lower =
      value (.finite sign mantissa exponent hpos) := by
  have hshift : ((mantissa <<< (exponent - lower).toNat : ℕ) : ℚ) * 2 ^ lower =
      mantissa * 2 ^ exponent := by
    rw [cast_shiftLeft, mul_assoc, ← zpow_natCast, ← zpow_add₀ (by norm_num)]
    congr 2
    omega
  cases sign with
  | positive => exact hshift
  | negative =>
    show ((-((mantissa <<< _ : ℕ) : ℤ) : ℤ) : ℚ) * _ = ((-(mantissa : ℤ) : ℤ) : ℚ) * _
    simp only [Int.cast_neg, Int.cast_natCast, neg_mul, hshift]

/-- A finite number is a zero or a number of the format. -/
theorem zero_or_finite {x : Float} (hx : x.isFinite = true) :
    (∃ sign, x.toModel.unpack = .zero sign) ∨
      ∃ sign m e hm, x.toModel.unpack = .finite sign m e hm ∧ Canonical m e ∧ e ≤ 971 := by
  replace hx : x.toModel.unpack.isFinite = true := hx
  cases hu : x.toModel.unpack with
  | infinity sign => exact nomatch (hu ▸ hx)
  | notANumber => exact nomatch (hu ▸ hx)
  | zero sign => exact .inl ⟨sign, rfl⟩
  | finite sign m e hm => exact .inr ⟨sign, m, e, hm, rfl, canonical_of_unpack hu⟩

@[simp] theorem value_zero (sign : Sign) : value (.zero sign) = 0 := rfl

/-- A difference of finite numbers is the exact difference, rounded. -/
theorem sub_gives {x y : Float} (hx : x.isFinite = true) (hy : y.isFinite = true) :
    Gives |exact x - exact y|
      (UnpackedFloat.sub Format.binary64 x.toModel.unpack y.toModel.unpack) := by
  unfold exact
  obtain ⟨sign, hxu⟩ | ⟨sign, m, e, hm, hxu, hcanonical, he⟩ := zero_or_finite hx <;>
    obtain ⟨sign', hyu⟩ | ⟨sign', m', e', hm', hyu, hcanonical', he'⟩ := zero_or_finite hy <;>
    rw [hxu, hyu]
  · rw [value_zero, value_zero, sub_self, abs_zero]
    cases sign <;> cases sign' <;> exact gives_zero _
  · rw [value_zero, zero_sub, abs_neg, abs_value_finite]
    exact hcanonical'.gives he' (-sign') hm'
  · rw [value_zero, sub_zero, abs_value_finite]
    exact hcanonical.gives he sign hm
  · rw [← value_decreaseExponent sign hm (min_le_left e e'),
      ← value_decreaseExponent sign' hm' (min_le_right e e'), ← sub_mul, ← Int.cast_sub]
    exact normalize_gives _ _ _

/-! ## Quotients -/

theorem places_accuracyOfFraction {num den : ℕ} (h : num < den) :
    Places (accuracyOfFraction num den) (num / den) := by
  have hden : (0 : ℚ) < den := by exact_mod_cast (Nat.zero_le num).trans_lt h
  unfold accuracyOfFraction
  split
  · rename_i hzero
    show (num : ℚ) / den = 0
    rw [hzero, Nat.cast_zero, zero_div]
  · rename_i hzero
    have hpos : (0 : ℚ) < num := by exact_mod_cast Nat.pos_of_ne_zero hzero
    rcases lt_trichotomy (2 * num) den with hlt | heq | hgt
    · rw [Nat.compare_eq_lt.mpr hlt]
      have hlt' : 2 * (num : ℚ) < den := by exact_mod_cast hlt
      refine ⟨div_pos hpos hden, ?_⟩
      rw [div_lt_div_iff₀ hden (by norm_num)]
      linarith
    · rw [Nat.compare_eq_eq.mpr heq]
      show (num : ℚ) / den = 1 / 2
      have heq' : 2 * (num : ℚ) = den := by exact_mod_cast heq
      rw [div_eq_div_iff hden.ne' (by norm_num)]
      linarith
    · rw [Nat.compare_eq_gt.mpr hgt]
      have hgt' : (den : ℚ) < 2 * num := by exact_mod_cast hgt
      refine ⟨?_, (div_lt_one₀ hden).mpr (by exact_mod_cast h)⟩
      rw [div_lt_div_iff₀ (by norm_num) hden]
      linarith

/-- A quotient is computed to as many digits as the format asks for. -/
theorem approximates_quotient {m m' k : ℕ} {t : ℤ} (hm' : 0 < m')
    (hfull : t ≤ -1074 ∨ 2 ^ 52 * m' ≤ m <<< k) :
    Approximates (m <<< k / m') t (accuracyOfFraction (m <<< k % m') m')
      ((m <<< k : ℕ) / m' * 2 ^ t) := by
  have hden : (0 : ℚ) < m' := by exact_mod_cast hm'
  have hlarge : t ≤ -1074 ∨ 2 ^ 52 ≤ m <<< k / m' :=
    hfull.imp_right (Nat.le_div_iff_mul_le hm').mpr
  refine ⟨?_, ?_, fun hzero => hlarge.resolve_right (by omega)⟩
  · have hsplit : ((m <<< k : ℕ) : ℚ) = m' * (m <<< k / m' : ℕ) + (m <<< k % m' : ℕ) := by
      exact_mod_cast (Nat.div_add_mod (m <<< k) m').symm
    have hpart : ((m <<< k : ℕ) : ℚ) / m' * 2 ^ t / 2 ^ t - (m <<< k / m' : ℕ) =
        (m <<< k % m' : ℕ) / m' := by
      rw [mul_div_assoc, div_self (by positivity), mul_one, hsplit]
      field_simp
      ring
    rw [hpart]
    exact places_accuracyOfFraction (Nat.mod_lt _ hm')
  · rw [step_eq]
    rcases hlarge with ht | hq
    · exact le_max_of_le_right ht
    · have hlog : 52 ≤ (m <<< k / m').log2 := (Nat.le_log2 (by omega)).mpr hq
      exact le_max_of_le_left (by omega)

theorem rounded_div (sign : Sign) {m m' : ℕ} (e e' : ℤ) (hm : 0 < m) (hm' : 0 < m') :
    Rounded sign (m * 2 ^ e / (m' * 2 ^ e'))
      (roundWithAccuracy Format.binary64 sign (divCore Format.binary64 m e m' e').1
        (divCore Format.binary64 m e m' e').2.1 (divCore Format.binary64 m e m' e').2.2) := by
  obtain ⟨t, ht⟩ : ∃ t, min (e - e')
      (max (m.log2 + 1 + e - (m'.log2 + 1 + e') - 53) (-1074)) = t := ⟨_, rfl⟩
  obtain ⟨k, hk⟩ : ∃ k, (e - e' - t).toNat = k := ⟨_, rfl⟩
  have hcore : divCore Format.binary64 m e m' e' =
      (m <<< k / m', t, accuracyOfFraction (m <<< k % m') m') := by
    rw [← hk, ← ht]
    rfl
  have hvalue : (m : ℚ) * 2 ^ e / (m' * 2 ^ e') = (m <<< k : ℕ) / m' * 2 ^ t := by
    have hexponent : e = e' + k + t := by omega
    rw [hexponent, cast_shiftLeft, zpow_add₀ (by norm_num), zpow_add₀ (by norm_num), zpow_natCast]
    field_simp
  have hfull : t ≤ -1074 ∨ 2 ^ 52 * m' ≤ m <<< k := by
    rw [or_iff_not_imp_left]
    intro hlow
    calc 2 ^ 52 * m' ≤ 2 ^ 52 * 2 ^ (m'.log2 + 1) :=
          Nat.mul_le_mul_left _ Nat.lt_log2_self.le
      _ = 2 ^ (52 + (m'.log2 + 1)) := (Nat.pow_add _ _ _).symm
      _ ≤ 2 ^ (m.log2 + k) := Nat.pow_le_pow_right (by norm_num) (by omega)
      _ = 2 ^ m.log2 * 2 ^ k := Nat.pow_add _ _ _
      _ ≤ m <<< k := by
        rw [Nat.shiftLeft_eq]
        exact Nat.mul_le_mul_right _ (Nat.log2_self_le hm.ne')
  rw [hcore, hvalue]
  exact ⟨_, _, _, approximates_quotient hm' hfull, rfl⟩

theorem value_negative {m : ℕ} {e : ℤ} (hm : 0 < m) :
    value (.finite .negative m e hm) < 0 := by
  show ((-(m : ℤ) : ℤ) : ℚ) * 2 ^ e < 0
  rw [Int.cast_neg, neg_mul, neg_neg_iff_pos]
  show (0 : ℚ) < m * 2 ^ e
  positivity

theorem value_positive {m : ℕ} {e : ℤ} (hm : 0 < m) : 0 < value (.finite .positive m e hm) := by
  show (0 : ℚ) < m * 2 ^ e
  positivity

/-- A number above zero has no sign. -/
theorem unpack_of_pos {x : Float} (hx : x.isFinite = true) (hpos : 0 < exact x) :
    ∃ m e hm, x.toModel.unpack = .finite .positive m e hm ∧ exact x = m * 2 ^ e := by
  unfold exact at hpos ⊢
  obtain ⟨sign, hxu⟩ | ⟨sign, m, e, hm, hxu, -⟩ := zero_or_finite hx
  · rw [hxu, value_zero] at hpos
    exact absurd hpos (lt_irrefl 0)
  · cases sign with
    | positive => exact ⟨m, e, hm, hxu, by rw [hxu]; rfl⟩
    | negative =>
      rw [hxu] at hpos
      exact absurd hpos (value_negative hm).not_gt

/-- A quotient of a finite number by a positive one is the exact quotient, rounded. -/
theorem div_gives {x y : Float} (hx : x.isFinite = true) (hy : y.isFinite = true)
    (hpos : 0 < exact y) :
    Gives (|exact x| / exact y)
      (UnpackedFloat.div Format.binary64 x.toModel.unpack y.toModel.unpack) := by
  obtain ⟨m', e', hm', hyu, hvalue⟩ := unpack_of_pos hy hpos
  rw [hvalue, hyu]
  unfold exact
  obtain ⟨sign, hxu⟩ | ⟨sign, m, e, hm, hxu, -⟩ := zero_or_finite hx <;> rw [hxu]
  · rw [value_zero, abs_zero, zero_div]
    exact gives_zero _
  · rw [abs_value_finite]
    exact (rounded_div (sign / .positive) e e' hm hm').gives

/-- An infinity divided by a positive number is one again. -/
theorem isInf_div {x y : Float} (hx : x.isInf = true) (hy : y.isFinite = true)
    (hpos : 0 < exact y) : (x / y).isInf = true := by
  obtain ⟨m', e', hm', hyu, -⟩ := unpack_of_pos hy hpos
  replace hx : x.toModel.unpack.isInf = true := hx
  cases hxu : x.toModel.unpack with
  | infinity sign =>
    have hdiv : UnpackedFloat.div Format.binary64 x.toModel.unpack y.toModel.unpack =
        .infinity (sign / .positive) := by rw [hxu, hyu]; rfl
    show (Float.Model.pack (UnpackedFloat.div _ _ _)).isInf = true
    rw [hdiv]
    exact isInf_pack_infinity _
  | notANumber | zero | finite => exact nomatch (hxu ▸ hx)

/-! ## Order -/

/-- In the form of the format, a greater exponent makes a greater number. -/
theorem Canonical.exponent_le {m m' : ℕ} {e e' : ℤ} (h : Canonical m e) (h' : Canonical m' e')
    (hle : (m : ℚ) * 2 ^ e ≤ m' * 2 ^ e') : e ≤ e' := by
  by_contra hlt
  have he : e' < e := not_le.mp hlt
  have hfull : 2 ^ 52 ≤ m := h.full.resolve_right (by have := h'.low; omega)
  have hm : (2 : ℚ) ^ 52 ≤ m := by exact_mod_cast hfull
  have hm' : (m' : ℚ) < 2 ^ 53 := by exact_mod_cast h'.lt
  refine absurd hle (not_le.mpr ?_)
  calc (m' : ℚ) * 2 ^ e' < 2 ^ 53 * 2 ^ e' := mul_lt_mul_of_pos_right hm' (by positivity)
    _ = 2 ^ 52 * 2 ^ (e' + 1) := by rw [zpow_add_one₀ (by norm_num)]; ring
    _ ≤ m * 2 ^ e :=
        mul_le_mul hm (zpow_le_zpow_right₀ (by norm_num) (by omega)) (by positivity)
          (by positivity)

/-- The exponents decide first. -/
theorem Canonical.lt_of_lt {m m' : ℕ} {e e' : ℤ} (h : Canonical m e) (h' : Canonical m' e')
    (hlt : (m : ℚ) * 2 ^ e < m' * 2 ^ e') : e < e' ∨ e = e' ∧ m < m' := by
  rcases (h.exponent_le h' hlt.le).lt_or_eq with he | rfl
  · exact .inl he
  · rw [mul_lt_mul_iff_left₀ (by positivity)] at hlt
    exact .inr ⟨rfl, by exact_mod_cast hlt⟩

/-- A number has one form. -/
theorem Canonical.eq_of_eq {m m' : ℕ} {e e' : ℤ} (h : Canonical m e) (h' : Canonical m' e')
    (heq : (m : ℚ) * 2 ^ e = m' * 2 ^ e') : m = m' ∧ e = e' := by
  have he : e = e' := le_antisymm (h.exponent_le h' heq.le) (h'.exponent_le h heq.ge)
  subst he
  rw [mul_left_inj' (by positivity)] at heq
  exact ⟨by exact_mod_cast heq, rfl⟩

theorem compare_then_eq_lt {m m' : ℕ} {e e' : ℤ} (h : e < e' ∨ e = e' ∧ m < m') :
    (compare e e').then (compare m m') = .lt := by
  rcases h with he | ⟨rfl, hm⟩
  · rw [Int.compare_eq_lt.mpr he]
    rfl
  · rw [Int.compare_eq_eq.mpr rfl, Nat.compare_eq_lt.mpr hm]
    rfl

/-- Finite numbers compare as their exact values do. -/
theorem lt_of_exact_lt {x y : Float} (hx : x.isFinite = true) (hy : y.isFinite = true)
    (h : exact x < exact y) : x < y := by
  have hcompare : x.toModel.unpack.compare y.toModel.unpack = some .lt := by
    unfold exact at h
    obtain ⟨sign, hxu⟩ | ⟨sign, m, e, hm, hxu, hcanonical, -⟩ := zero_or_finite hx <;>
      obtain ⟨sign', hyu⟩ | ⟨sign', m', e', hm', hyu, hcanonical', -⟩ := zero_or_finite hy <;>
      rw [hxu, hyu] at h ⊢
    · exact absurd h (lt_irrefl 0)
    · cases sign' with
      | positive => rfl
      | negative => exact absurd h (value_negative hm').not_gt
    · cases sign with
      | positive => exact absurd h (value_positive hm).not_gt
      | negative => rfl
    · cases sign with
      | positive =>
        cases sign' with
        | positive => exact congrArg some (compare_then_eq_lt (hcanonical.lt_of_lt hcanonical' h))
        | negative => exact absurd h ((value_negative hm').trans (value_positive hm)).not_gt
      | negative =>
        cases sign' with
        | positive => rfl
        | negative =>
          have hlt : (m' : ℚ) * 2 ^ e' < m * 2 ^ e := by
            change ((-(m : ℤ) : ℤ) : ℚ) * 2 ^ e < ((-(m' : ℤ) : ℤ) : ℚ) * 2 ^ e' at h
            rw [Int.cast_neg, Int.cast_neg, neg_mul, neg_mul, neg_lt_neg_iff] at h
            exact h
          have hneg := compare_then_eq_lt (hcanonical'.lt_of_lt hcanonical hlt)
          show some ((compare e e').then (compare m m')).swap = some .lt
          rw [Ordering.swap_then, Int.compare_swap, Nat.compare_swap, hneg]
  show decide (UnpackedFloat.lt x.toModel.unpack y.toModel.unpack = true) = true
  rw [UnpackedFloat.lt, hcompare]
  rfl

theorem value_finite_ne_zero (sign : Sign) {m : ℕ} (e : ℤ) (hm : 0 < m) :
    value (.finite sign m e hm) ≠ 0 := by
  cases sign with
  | positive => exact (value_positive hm).ne'
  | negative => exact (value_negative hm).ne

/-- Numbers of the format are equal if their forms are. -/
theorem Canonical.compare_eq_iff {m m' : ℕ} {e e' : ℤ} (h : Canonical m e) (h' : Canonical m' e') :
    (compare e e').then (compare m m') = .eq ↔ (m : ℚ) * 2 ^ e = m' * 2 ^ e' := by
  rw [Ordering.then_eq_eq, Int.compare_eq_eq, Nat.compare_eq_eq]
  refine ⟨?_, fun heq => (h.eq_of_eq h' heq).symm⟩
  rintro ⟨rfl, rfl⟩
  rfl

/-- Finite numbers are equal as numbers where their exact values are: zero has two signs. -/
theorem beq_iff_exact_eq {x y : Float} (hx : x.isFinite = true) (hy : y.isFinite = true) :
    (x == y) = true ↔ exact x = exact y := by
  have hcompare : x.toModel.unpack.compare y.toModel.unpack = some .eq ↔ exact x = exact y := by
    unfold exact
    obtain ⟨sign, hxu⟩ | ⟨sign, m, e, hm, hxu, hcanonical, -⟩ := zero_or_finite hx <;>
      obtain ⟨sign', hyu⟩ | ⟨sign', m', e', hm', hyu, hcanonical', -⟩ := zero_or_finite hy <;>
      rw [hxu, hyu]
    · exact iff_of_true rfl rfl
    · exact iff_of_false (by cases sign' <;> nofun) (value_finite_ne_zero sign' e' hm').symm
    · exact iff_of_false (by cases sign <;> nofun) (value_finite_ne_zero sign e hm)
    · have hsame := hcanonical.compare_eq_iff hcanonical'
      cases sign with
      | positive =>
        cases sign' with
        | positive => exact Option.some_inj.trans hsame
        | negative =>
          exact iff_of_false nofun ((value_negative hm').trans (value_positive hm)).ne'
      | negative =>
        cases sign' with
        | positive => exact iff_of_false nofun ((value_negative hm).trans (value_positive hm')).ne
        | negative =>
          show some ((compare e e').then (compare m m')).swap = some .eq ↔
            ((-(m : ℤ) : ℤ) : ℚ) * 2 ^ e = ((-(m' : ℤ) : ℤ) : ℚ) * 2 ^ e'
          rw [Option.some_inj, Ordering.swap_eq_eq, hsame, Int.cast_neg, Int.cast_neg, neg_mul,
            neg_mul, neg_inj]
          rfl
  show (x.toModel.unpack.compare y.toModel.unpack == some .eq) = true ↔ _
  exact beq_iff_eq.trans hcompare

theorem bne_iff_exact_ne {x y : Float} (hx : x.isFinite = true) (hy : y.isFinite = true) :
    (x != y) = true ↔ exact x ≠ exact y := by
  rw [bne, Bool.not_eq_true', ← Bool.not_eq_true, beq_iff_exact_eq hx hy]

end MetricPoints.Binary64
