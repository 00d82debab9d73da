import Mathlib.Tactic.NormNum

/-
  Packing numbers into 64 bits. A mantissa and an exponent that the format holds (`Canonical`)
  survive packing as they are, and nothing else is ever unpacked; a number with a larger exponent
  becomes an infinity.

  Main statements: `unpack_pack`, `canonical_of_unpack`.
-/

namespace MetricPoints.Binary64

open Float.Model Float.Model.UnpackedFloat

/-- A mantissa and an exponent in the form of the format: at most 53 digits, and all of them unless
the exponent is the least one. -/
structure Canonical (mantissa : ℕ) (exponent : ℤ) : Prop where
  lt : mantissa < 2 ^ 53
  low : -1074 ≤ exponent
  full : 2 ^ 52 ≤ mantissa ∨ exponent = -1074

theorem unpackSign_packComponents (sign : Sign) (exponent : BitVec 11) (mantissa : BitVec 52) :
    unpackSign (packComponents Format.binary64 sign exponent mantissa) = sign.toBitVec := by
  ext i hi
  have hzero : i = 0 := by omega
  subst hzero
  have hbit : (unpackSign (packComponents Format.binary64 sign exponent mantissa))[0] =
      (sign.toBitVec ++ exponent ++ mantissa).getLsbD 63 := by
    unfold unpackSign packComponents
    rw [BitVec.getElem_cast, ← BitVec.getLsbD_eq_getElem, BitVec.getLsbD_extractLsb]
    rfl
  rw [hbit, BitVec.getLsbD_append, BitVec.getLsbD_append]
  simp

theorem ofBitVec_toBitVec (sign : Sign) : Sign.ofBitVec sign.toBitVec = sign := by
  cases sign <;> rfl

/-- The first digit of a normal number is not stored. -/
theorem toNat_one_append (mantissa : BitVec 52) :
    (1#1 ++ mantissa).toNat = 2 ^ 52 + mantissa.toNat := by
  rw [BitVec.toNat_append, ← Nat.shiftLeft_add_eq_or_of_lt mantissa.isLt]
  rfl

theorem unpack_packedInfinity (sign : Sign) :
    UnpackedFloat.unpack Format.binary64 (packedInfinity Format.binary64 sign) =
      .infinity sign := by
  cases sign <;> rfl

theorem unpack_pack_zero (sign : Sign) : (Float.Model.pack (.zero sign)).unpack = .zero sign := by
  cases sign <;> rfl

theorem finite_congr {sign sign' : Sign} {m m' : ℕ} {e e' : ℤ} {hm : 0 < m} {hm' : 0 < m'}
    (hs : sign = sign') (h : m = m') (he : e = e') :
    UnpackedFloat.finite sign m e hm = .finite sign' m' e' hm' := by
  subst hs h he
  rfl

section Unpacking

variable {bits : BitVec Format.binary64.numBits} {sign : Sign} {mantissa : BitVec 52}
  (hsign : unpackSign bits = sign.toBitVec) (hmantissa : unpackMantissa bits = mantissa)

include hsign hmantissa

/-- Components with an exponent that is not set apart make a normal number. -/
theorem unpack_normal {exponent : BitVec 11} (hexponent : unpackExponent bits = exponent)
    (hzero : exponent ≠ 0#11) (hlast : exponent ≠ -1#11) (hpos : 0 < 2 ^ 52 + mantissa.toNat) :
    UnpackedFloat.unpack Format.binary64 bits =
      .finite sign (2 ^ 52 + mantissa.toNat) (exponent.toNat - 1075) hpos := by
  subst hmantissa hexponent
  unfold UnpackedFloat.unpack
  dsimp only
  rw [if_neg hlast, if_neg hzero]
  exact finite_congr (by rw [hsign, ofBitVec_toBitVec]) (toNat_one_append _) rfl

/-- Components with the least exponent make a number with fewer digits. -/
theorem unpack_subnormal (hexponent : unpackExponent bits = 0#11) (hpos : 0 < mantissa.toNat) :
    UnpackedFloat.unpack Format.binary64 bits = .finite sign mantissa.toNat (-1074) hpos := by
  have hne : mantissa ≠ 0#52 := by
    rintro rfl
    exact absurd hpos (by decide)
  subst hmantissa
  unfold UnpackedFloat.unpack
  dsimp only
  rw [if_neg (by rw [hexponent]; decide), if_pos hexponent, dif_neg hne]
  exact finite_congr (by rw [hsign, ofBitVec_toBitVec]) rfl (by rw [hexponent]; rfl)

end Unpacking

theorem pack_finite (sign : Sign) {mantissa : ℕ} (exponent : ℤ) (hpos : 0 < mantissa) :
    UnpackedFloat.pack Format.binary64 (.finite sign mantissa exponent hpos) =
      if 2048 ≤ (exponent + 1075).toNat + 1 then packedInfinity Format.binary64 sign
      else if mantissa.log2 + 1 = 53 then
        packComponents Format.binary64 sign (BitVec.ofNat 11 (exponent + 1075).toNat)
          (BitVec.ofNat 52 mantissa)
      else packComponents Format.binary64 sign 0#11 (BitVec.ofNat 52 mantissa) := by
  rw [← show exponent + 1023 + 52 = exponent + 1075 by omega]
  rfl

/-- A number that is too large for the exponents of the format becomes an infinity. -/
theorem unpack_pack_of_lt (sign : Sign) {mantissa : ℕ} {exponent : ℤ} (hpos : 0 < mantissa)
    (h : 971 < exponent) :
    (Float.Model.pack (.finite sign mantissa exponent hpos)).unpack = .infinity sign := by
  show UnpackedFloat.unpack _ (UnpackedFloat.pack _ _) = _
  rw [pack_finite, if_pos (by omega), unpack_packedInfinity]

/-- A number of the format survives packing. -/
theorem unpack_pack (sign : Sign) {mantissa : ℕ} {exponent : ℤ} (hpos : 0 < mantissa)
    (h : Canonical mantissa exponent) (hhigh : exponent ≤ 971) :
    (Float.Model.pack (.finite sign mantissa exponent hpos)).unpack =
      .finite sign mantissa exponent hpos := by
  have hlt := h.lt
  have hlow := h.low
  have hbits : mantissa.log2 < 53 := (Nat.log2_lt hpos.ne').mpr h.lt
  show UnpackedFloat.unpack _ (UnpackedFloat.pack _ _) = _
  rw [pack_finite, if_neg (by omega)]
  by_cases hlog : mantissa.log2 + 1 = 53
  · rw [if_pos hlog]
    have hfull : 2 ^ 52 ≤ mantissa := (Nat.le_log2 hpos.ne').mp (by omega)
    have hexponent : (BitVec.ofNat 11 (exponent + 1075).toNat).toNat = (exponent + 1075).toNat := by
      rw [BitVec.toNat_ofNat, Nat.mod_eq_of_lt (by omega)]
    have hmantissa : 2 ^ 52 + (BitVec.ofNat 52 mantissa).toNat = mantissa := by
      rw [BitVec.toNat_ofNat]
      omega
    have hne {bits : BitVec 11} (hb : bits.toNat ≠ (exponent + 1075).toNat) :
        BitVec.ofNat 11 (exponent + 1075).toNat ≠ bits := by
      rintro rfl
      exact hb hexponent
    rw [unpack_normal (unpackSign_packComponents sign _ _) unpackMantissa_packComponents
      unpackExponent_packComponents (hne (by simp; omega)) (hne (by simp; omega)) (by omega)]
    exact finite_congr rfl hmantissa (by rw [hexponent]; omega)
  · rw [if_neg hlog]
    have hsmall : mantissa < 2 ^ 52 := (Nat.log2_lt hpos.ne').mp (by omega)
    have hleast : exponent = -1074 := h.full.resolve_left (by omega)
    have hmantissa : (BitVec.ofNat 52 mantissa).toNat = mantissa := by
      rw [BitVec.toNat_ofNat, Nat.mod_eq_of_lt hsmall]
    rw [unpack_subnormal (unpackSign_packComponents sign _ _) unpackMantissa_packComponents
      unpackExponent_packComponents (by omega)]
    exact finite_congr rfl hmantissa hleast.symm

/-- Whatever is unpacked is in the form of the format. -/
theorem canonical_of_unpack {x : Float.Model} {sign : Sign} {mantissa : ℕ} {exponent : ℤ}
    {hpos : 0 < mantissa} (h : x.unpack = .finite sign mantissa exponent hpos) :
    Canonical mantissa exponent ∧ exponent ≤ 971 := by
  unfold Float.Model.unpack UnpackedFloat.unpack at h
  dsimp only at h
  obtain ⟨bits, hbits⟩ : ∃ bits, bits = x.toBits.toBitVec := ⟨_, rfl⟩
  rw [← hbits] at h
  by_cases hlast : @unpackExponent Format.binary64 bits = -1#11
  · rw [if_pos hlast] at h
    by_cases hzero : @unpackMantissa Format.binary64 bits = 0#52
    · rw [if_pos hzero] at h
      cases h
    · rw [if_neg hzero] at h
      cases h
  rw [if_neg hlast] at h
  by_cases hleast : @unpackExponent Format.binary64 bits = 0#11
  · rw [if_pos hleast] at h
    by_cases hzero : @unpackMantissa Format.binary64 bits = 0#52
    · rw [dif_pos hzero] at h
      cases h
    · rw [dif_neg hzero] at h
      injection h with _ hmantissa hexponent
      have hbound : mantissa < 2 ^ 52 := by
        rw [← hmantissa]
        exact BitVec.isLt _
      have hlow : exponent = -1074 := by
        rw [← hexponent, hleast]
        rfl
      exact ⟨⟨by omega, by omega, .inr hlow⟩, by omega⟩
  · rw [if_neg hleast] at h
    injection h with _ hmantissa hexponent
    rw [toNat_one_append] at hmantissa
    have hbound : (@unpackMantissa Format.binary64 bits).toNat < 2 ^ 52 := BitVec.isLt _
    have hrange : (@unpackExponent Format.binary64 bits).toNat < 2048 := BitVec.isLt _
    have hbiased : ((@unpackExponent Format.binary64 bits).toNat : ℤ) - 1075 = exponent :=
      hexponent
    have hfirst : (@unpackExponent Format.binary64 bits).toNat ≠ 0 :=
      fun e => hleast (BitVec.eq_of_toNat_eq e)
    have hlargest : (@unpackExponent Format.binary64 bits).toNat ≠ 2047 :=
      fun e => hlast (BitVec.eq_of_toNat_eq e)
    exact ⟨⟨by omega, by omega, .inl (by omega)⟩, by omega⟩

end MetricPoints.Binary64
