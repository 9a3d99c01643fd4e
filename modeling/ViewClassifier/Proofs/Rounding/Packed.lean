import ViewClassifier.Proofs.Rounding.Unpacked

/-!
# Words of a format

A word has a sign, an exponent and a mantissa. Unpacking a word and packing it again gives it back,
and so does packing a finite number in canonical form and unpacking it again.
-/

set_option autoImplicit false

namespace ViewClassifier.Rounding

open Float.Model (Format UnpackedFloat)
open Float.Model.UnpackedFloat

variable {format : Format}

theorem minExponent_eq (format : Format) :
    format.minExponent = 1 - (format.exponentBias + format.mantissaBitsWithoutImplicit : ℤ) := by
  have power : 1 ≤ 2 ^ (format.exponentBits - 1) := Nat.one_le_two_pow
  unfold Format.minExponent Format.exponentBias Format.mantissaBits
  rw [Nat.cast_sub power]
  push_cast
  ring

section Fields

variable {width : ℕ} {b : BitVec width}

theorem toNat_pos_iff : 0 < b.toNat ↔ b ≠ 0#_ := by
  rw [Nat.pos_iff_ne_zero, ne_eq, ne_eq, ← BitVec.toNat_inj, BitVec.toNat_zero]

theorem ne_ones_iff : b ≠ -1#_ ↔ b.toNat ≠ 2 ^ width - 1 := by
  rw [ne_eq, ne_eq, ← BitVec.toNat_inj, BitVec.neg_one_eq_allOnes, BitVec.toNat_allOnes]

end Fields

section Components

variable (sign : Sign) (exponent : BitVec format.exponentBits)
  (mantissa : BitVec format.mantissaBitsWithoutImplicit)

theorem ofBitVec_toBitVec : Sign.ofBitVec sign.toBitVec = sign := by
  cases sign <;> rfl

theorem toBitVec_ofBitVec (b : BitVec 1) : (Sign.ofBitVec b).toBitVec = b := by
  rcases BitVec.eq_zero_or_eq_one b with rfl | rfl <;> rfl

theorem unpackSign_components :
    unpackSign (packComponents format sign exponent mantissa) = sign.toBitVec := by
  ext i first
  obtain rfl : i = 0 := by omega
  unfold unpackSign packComponents
  simp [BitVec.getLsbD_append, BitVec.getElem_append]

theorem exists_components (b : BitVec format.numBits) :
    ∃ sign exponent mantissa, b = packComponents format sign exponent mantissa := by
  refine ⟨.ofBitVec (unpackSign b), unpackExponent b, unpackMantissa b, ?_⟩
  apply BitVec.eq_of_getLsbD_eq
  intro i inside
  change i < 1 + format.exponentBits + format.mantissaBitsWithoutImplicit at inside
  rw [packComponents, toBitVec_ofBitVec, BitVec.getLsbD_append, BitVec.getLsbD_append]
  by_cases low : i < format.mantissaBitsWithoutImplicit
  · simp [unpackMantissa, low]
  · by_cases middle : i - format.mantissaBitsWithoutImplicit < format.exponentBits
    · have place : format.mantissaBitsWithoutImplicit +
          (i - format.mantissaBitsWithoutImplicit) = i := by omega
      simp [unpackExponent, low, middle, place]
    · have last : i - format.mantissaBitsWithoutImplicit - format.exponentBits = 0 := by omega
      have place : format.mantissaBitsWithoutImplicit + format.exponentBits = i := by omega
      unfold unpackSign
      simp [low, middle, last, place]

theorem toNat_implicit : (1#1 ++ mantissa).toNat = stride format + mantissa.toNat := by
  rw [BitVec.toNat_append, ← Nat.shiftLeft_add_eq_or_of_lt mantissa.isLt, Nat.shiftLeft_eq]
  simp [stride]

theorem implicit_pos : 0 < (1#1 ++ mantissa).toNat := by
  have := stride_pos format
  rw [toNat_implicit]
  omega

theorem unpack_components :
    UnpackedFloat.unpack format (packComponents format sign exponent mantissa) =
      if exponent = -1#_ then
        if mantissa = 0#_ then .infinity sign else .notANumber
      else if exponent = 0#_ then
        if h : mantissa = 0#_ then .zero sign
        else .finite sign mantissa.toNat format.minExponent (toNat_pos_iff.mpr h)
      else
        .finite sign (1#1 ++ mantissa).toNat (format.minExponent + exponent.toNat - 1)
          (implicit_pos mantissa) := by
  have signs : Sign.ofBitVec (unpackSign (packComponents format sign exponent mantissa)) = sign := by
    rw [unpackSign_components, ofBitVec_toBitVec]
  have exponents := @unpackExponent_packComponents format sign exponent mantissa
  have mantissas := @unpackMantissa_packComponents format sign exponent mantissa
  generalize packComponents format sign exponent mantissa = b at signs exponents mantissas ⊢
  subst signs exponents mantissas
  unfold UnpackedFloat.unpack
  dsimp only
  by_cases full : unpackExponent b = -1#_
  · rw [if_pos full, if_pos full]
  rw [if_neg full, if_neg full]
  by_cases subnormal : unpackExponent b = 0#_
  · rw [if_pos subnormal, if_pos subnormal]
    by_cases none : unpackMantissa b = 0#_
    · rw [dif_pos none, dif_pos none]
    · rw [dif_neg none, dif_neg none, UnpackedFloat.finite.injEq, subnormal, BitVec.toNat_zero,
        minExponent_eq]
      exact ⟨rfl, rfl, by ring⟩
  · rw [if_neg subnormal, if_neg subnormal, UnpackedFloat.finite.injEq, minExponent_eq]
    exact ⟨rfl, rfl, by ring⟩

end Components

section Finite

variable {sign : Sign} {mantissa octave : ℕ} {positive : 0 < mantissa}

theorem log2_eq_iff (positive : 0 < mantissa) (bounded : mantissa < 2 * stride format) :
    mantissa.log2 + 1 = format.mantissaBits ↔ stride format ≤ mantissa := by
  have least := Nat.le_log2 (k := format.mantissaBitsWithoutImplicit) positive.ne'
  have greatest := Nat.log2_lt (k := format.mantissaBitsWithoutImplicit + 1) positive.ne'
  rw [two_mul_stride] at bounded
  rw [mantissaBits_eq, stride]
  omega

theorem pack_finite (inside : octave + 2 < 2 ^ format.exponentBits)
    (bounded : mantissa < 2 * stride format) :
    UnpackedFloat.pack format (.finite sign mantissa (format.minExponent + octave) positive) =
      packComponents format sign
        (if stride format ≤ mantissa then BitVec.ofNat _ (octave + 1) else 0#_)
        (BitVec.ofNat _ mantissa) := by
  have biased : (format.minExponent + octave + format.exponentBias +
      format.mantissaBitsWithoutImplicit).toNat = octave + 1 := by
    rw [minExponent_eq]
    omega
  unfold UnpackedFloat.pack
  dsimp only
  rw [biased, if_neg (by omega)]
  simp only [log2_eq_iff positive bounded]
  split <;> rfl

/-- A finite number in canonical form below infinity is not changed by packing. -/
theorem unpack_pack (inside : octave + 2 < 2 ^ format.exponentBits)
    (bounded : mantissa < 2 * stride format) (canonical : octave = 0 ∨ stride format ≤ mantissa) :
    UnpackedFloat.unpack format
        (UnpackedFloat.pack format (.finite sign mantissa (format.minExponent + octave) positive)) =
      .finite sign mantissa (format.minExponent + octave) positive := by
  have positiveStride := stride_pos format
  have kept : (BitVec.ofNat format.mantissaBitsWithoutImplicit mantissa).toNat =
      mantissa % stride format := BitVec.toNat_ofNat _ _
  have biased : (BitVec.ofNat format.exponentBits (octave + 1)).toNat = octave + 1 := by
    rw [BitVec.toNat_ofNat, Nat.mod_eq_of_lt (by omega)]
  have one : 2 ≤ 2 ^ format.exponentBits := Nat.le_self_pow (Nat.ne_of_gt format.he) 2
  rw [pack_finite inside bounded, unpack_components]
  by_cases filled : stride format ≤ mantissa
  · rw [if_pos filled, if_neg (ne_ones_iff.mpr (by omega)), if_neg (toNat_pos_iff.mp (by omega)),
      UnpackedFloat.finite.injEq]
    refine ⟨rfl, ?_, ?_⟩
    · rw [toNat_implicit, kept, Nat.mod_eq_sub_mod filled, Nat.mod_eq_of_lt (by omega)]
      omega
    · rw [biased]
      push_cast
      ring
  · obtain rfl := canonical.resolve_right filled
    rw [Nat.mod_eq_of_lt (Nat.not_le.mp filled)] at kept
    have zero : (0#(format.exponentBits)).toNat = 0 := BitVec.toNat_zero
    rw [if_neg filled, if_neg (ne_ones_iff.mpr (by omega)), if_pos rfl,
      dif_neg (toNat_pos_iff.mp (by omega)), UnpackedFloat.finite.injEq]
    exact ⟨rfl, kept, by rw [Nat.cast_zero, add_zero]⟩

end Finite

/-- A word without a NaN of its own is not changed by unpacking. An exponent of one bit would have no
room for finite numbers. -/
theorem pack_unpack (wide : 1 < format.exponentBits) {b : BitVec format.numBits}
    (valid : format.Valid b) : UnpackedFloat.pack format (UnpackedFloat.unpack format b) = b := by
  obtain ⟨sign, exponent, mantissa, rfl⟩ := exists_components b
  have room : 2 ^ 2 ≤ 2 ^ format.exponentBits := Nat.pow_le_pow_right Nat.two_pos wide
  have exponentBound := exponent.isLt
  have mantissaBound : mantissa.toNat < stride format := mantissa.isLt
  rw [unpack_components]
  by_cases full : exponent = -1#_
  · rw [if_pos full]
    by_cases none : mantissa = 0#_
    · rw [if_pos none, full, none]
      rfl
    · rw [if_neg none]
      refine (valid.eq_packedNaN ?_ ?_).symm
      · rw [unpackExponent_packComponents, full]
      · rwa [unpackMantissa_packComponents]
  rw [if_neg full]
  by_cases subnormal : exponent = 0#_
  · rw [if_pos subnormal]
    by_cases none : mantissa = 0#_
    · rw [dif_pos none, subnormal, none]
      rfl
    · rw [dif_neg none]
      have packed := @pack_finite format sign mantissa.toNat 0 (toNat_pos_iff.mpr none) (by omega) (by omega)
      rw [Nat.cast_zero, add_zero, if_neg (Nat.not_le.mpr mantissaBound), BitVec.ofNat_toNat,
        BitVec.setWidth_eq] at packed
      rw [packed, subnormal]
  · rw [if_neg subnormal]
    have some : exponent.toNat ≠ 0 := (toNat_pos_iff.mpr subnormal).ne'
    have below := ne_ones_iff.mp full
    obtain ⟨octave, biased⟩ := Nat.exists_eq_succ_of_ne_zero some
    have implicit := toNat_implicit mantissa
    have packed := @pack_finite format sign (1#1 ++ mantissa).toNat octave (by omega) (by omega)
      (by omega)
    have exponents : format.minExponent + (exponent.toNat : ℤ) - 1 = format.minExponent + octave := by
      omega
    rw [exponents]
    have kept : BitVec.ofNat format.mantissaBitsWithoutImplicit (1#1 ++ mantissa).toNat =
        mantissa := by
      apply BitVec.eq_of_toNat_eq
      rw [BitVec.toNat_ofNat, implicit]
      exact (Nat.add_mod_left _ _).trans (Nat.mod_eq_of_lt mantissaBound)
    rw [packed, if_pos (by omega), ← Nat.succ_eq_add_one, ← biased, BitVec.ofNat_toNat,
      BitVec.setWidth_eq, kept]

section Special

theorem unpack_pack_nan :
    UnpackedFloat.unpack format (UnpackedFloat.pack format .notANumber) = .notANumber := by
  have quiet : 1#(format.mantissaBitsWithoutImplicit) <<<
      (format.mantissaBitsWithoutImplicit - 1) ≠ 0#_ := by
    intro zero
    have some := format.hm
    have bit := congrArg (·.getLsbD (format.mantissaBitsWithoutImplicit - 1)) zero
    simp at bit
    omega
  change UnpackedFloat.unpack format (packComponents format .positive (-1#_) _) = _
  rw [unpack_components, if_pos rfl, if_neg quiet]

theorem unpack_pack_infinity (sign : Sign) :
    UnpackedFloat.unpack format (UnpackedFloat.pack format (.infinity sign)) = .infinity sign := by
  change UnpackedFloat.unpack format (packComponents format sign (-1#_) 0#_) = _
  rw [unpack_components, if_pos rfl, if_pos rfl]

theorem unpack_pack_zero (sign : Sign) :
    UnpackedFloat.unpack format (UnpackedFloat.pack format (.zero sign)) = .zero sign := by
  have notOnes : 0#(format.exponentBits) ≠ -1#(format.exponentBits) := by
    have one : 2 ≤ 2 ^ format.exponentBits := Nat.le_self_pow (Nat.ne_of_gt format.he) 2
    rw [ne_ones_iff, BitVec.toNat_zero]
    omega
  change UnpackedFloat.unpack format (packComponents format sign 0#_ 0#_) = _
  rw [unpack_components, if_neg notOnes, if_pos rfl, dif_pos rfl]

end Special

/-- Only the words of NaN change when they are unpacked and packed, and they stay words of NaN. -/
theorem unpack_pack_unpack (wide : 1 < format.exponentBits) (b : BitVec format.numBits) :
    UnpackedFloat.unpack format (UnpackedFloat.pack format (UnpackedFloat.unpack format b)) =
      UnpackedFloat.unpack format b := by
  obtain ⟨sign, exponent, mantissa, rfl⟩ := exists_components b
  by_cases nan : exponent = -1#_ ∧ mantissa ≠ 0#_
  · have unpacked : UnpackedFloat.unpack format (packComponents format sign exponent mantissa) =
        .notANumber := by
      rw [unpack_components, if_pos nan.1, if_neg nan.2]
    rw [unpacked, unpack_pack_nan]
  · have valid : format.Valid (packComponents format sign exponent mantissa) := by
      refine ⟨fun full some => absurd ⟨?_, ?_⟩ nan⟩
      · rwa [unpackExponent_packComponents] at full
      · rwa [unpackMantissa_packComponents] at some
    rw [pack_unpack wide valid]

end ViewClassifier.Rounding
