import ViewClassifier.Proofs.Binary32.Order
import ViewClassifier.Proofs.Rounding.Operations

/-!
# Packed results

An unpacked result that stands at a place of the 32-bit format is packed into the number at this
level. From the place of infinity on all places become infinity. Packing makes NaN only of NaN.
-/

set_option autoImplicit false

namespace ViewClassifier.Binary32

open Float.Model (UnpackedFloat Format)
open Float.Model.UnpackedFloat
open Rounding (Stands stride)

theorem isNaN_unpack (b : BitVec 32) :
    (UnpackedFloat.unpack .binary32 b).isNaN =
      decide (@unpackExponent .binary32 b = -1#8 ∧ @unpackMantissa .binary32 b ≠ 0#23) := by
  unfold UnpackedFloat.unpack
  dsimp only
  by_cases full : @unpackExponent .binary32 b = -1#8
  · rw [if_pos full]
    by_cases none : @unpackMantissa .binary32 b = 0#23
    · rw [if_pos none, decide_eq_false (fun nan => nan.2 none)]
      rfl
    · rw [if_neg none, decide_eq_true ⟨full, none⟩]
      rfl
  · rw [if_neg full, decide_eq_false (fun nan => full nan.1)]
    by_cases subnormal : @unpackExponent .binary32 b = 0#8
    · rw [if_pos subnormal]
      by_cases none : @unpackMantissa .binary32 b = 0#23
      · rw [dif_pos none]
        rfl
      · rw [dif_neg none]
        rfl
    · rw [if_neg subnormal]
      rfl

section Components

variable (sign : Sign) (exponent : BitVec 8) (mantissa : BitVec 23)

theorem toNat_packComponents :
    (packComponents .binary32 sign exponent mantissa).toNat =
      sign.toBitVec.toNat * 0x80000000 + (exponent.toNat * 0x800000 + mantissa.toNat) := by
  have exponentBound := exponent.isLt
  have mantissaBound := mantissa.isLt
  unfold packComponents
  rw [BitVec.toNat_append, BitVec.toNat_append, ← Nat.shiftLeft_add_eq_or_of_lt mantissaBound,
    ← Nat.shiftLeft_add_eq_or_of_lt exponentBound, Nat.shiftLeft_eq, Nat.shiftLeft_eq]
  omega

theorem unpackSign_packComponents :
    unpackSign (packComponents .binary32 sign exponent mantissa) = sign.toBitVec := by
  have exponentBound := exponent.isLt
  have mantissaBound := mantissa.isLt
  have small := (packComponents .binary32 sign exponent mantissa).isLt
  apply BitVec.eq_of_toNat_eq
  change ((packComponents .binary32 sign exponent mantissa).toNat >>> 31) % 2 = _
  rw [Nat.shiftRight_eq_div_pow, toNat_packComponents]
  cases sign <;> simp only [Sign.toBitVec, BitVec.toNat_ofNat] <;> omega

/-- The bits below the sign are the level. -/
theorem level_of_pack_eq {u : UnpackedFloat}
    (packed : UnpackedFloat.pack .binary32 u = packComponents .binary32 sign exponent mantissa) :
    level (pack u) = sign.apply (exponent.toNat * 0x800000 + mantissa.toNat : ℕ) := by
  have exponentBound := exponent.isLt
  have mantissaBound := mantissa.isLt
  have magnitude : (pack u).toBits.toNat % 0x80000000 =
      exponent.toNat * 0x800000 + mantissa.toNat := by
    change (UnpackedFloat.pack .binary32 u).toNat % 0x80000000 = _
    rw [packed, toNat_packComponents]
    omega
  rw [level_eq, magnitude]
  change (Sign.ofBitVec (unpackSign (UnpackedFloat.pack .binary32 u))).apply _ = _
  rw [packed, unpackSign_packComponents]
  cases sign <;> rfl

theorem isNaN_of_pack_eq {u : UnpackedFloat}
    (packed : UnpackedFloat.pack .binary32 u = packComponents .binary32 sign exponent mantissa) :
    (pack u).isNaN = decide (exponent = -1#8 ∧ mantissa ≠ 0#23) := by
  change (UnpackedFloat.unpack .binary32 (UnpackedFloat.pack .binary32 u)).isNaN = _
  rw [packed, isNaN_unpack, unpackExponent_packComponents, unpackMantissa_packComponents]

end Components

section Finite

variable {sign : Sign} {mantissa : ℕ} {exponent : ℤ} {positive : 0 < mantissa}

theorem pack_of_overflow (overflow : 254 ≤ (exponent + 149).toNat) :
    UnpackedFloat.pack .binary32 (.finite sign mantissa exponent positive) =
      packComponents .binary32 sign (-1#8) 0#23 :=
  if_pos (show 256 ≤ (exponent + 127 + 23).toNat + 1 by omega)

theorem pack_of_normal (inside : (exponent + 149).toNat < 254) (normal : mantissa.log2 + 1 = 24) :
    UnpackedFloat.pack .binary32 (.finite sign mantissa exponent positive) =
      packComponents .binary32 sign (BitVec.ofNat 8 (exponent + 127 + 23).toNat)
        (BitVec.ofNat 23 mantissa) :=
  (if_neg (show ¬ 256 ≤ (exponent + 127 + 23).toNat + 1 by omega)).trans (if_pos normal)

theorem pack_of_subnormal (inside : (exponent + 149).toNat < 254)
    (subnormal : ¬ mantissa.log2 + 1 = 24) :
    UnpackedFloat.pack .binary32 (.finite sign mantissa exponent positive) =
      packComponents .binary32 sign 0#8 (BitVec.ofNat 23 mantissa) :=
  (if_neg (show ¬ 256 ≤ (exponent + 127 + 23).toNat + 1 by omega)).trans (if_neg subnormal)

end Finite

theorem isNaN_pack (u : UnpackedFloat) : (pack u).isNaN = u.isNaN := by
  cases u with
  | notANumber => rfl
  | infinity sign => cases sign <;> rfl
  | zero sign => cases sign <;> rfl
  | finite sign mantissa exponent positive =>
      unfold UnpackedFloat.isNaN
      by_cases inside : (exponent + 149).toNat < 254
      · by_cases normal : mantissa.log2 + 1 = 24
        · rw [isNaN_of_pack_eq _ _ _ (pack_of_normal inside normal)]
          refine decide_eq_false fun nan => ?_
          have same := congrArg BitVec.toNat nan.1
          rw [BitVec.toNat_ofNat] at same
          change (exponent + 127 + 23).toNat % 256 = 255 at same
          omega
        · rw [isNaN_of_pack_eq _ _ _ (pack_of_subnormal inside normal)]
          exact decide_eq_false fun nan => absurd nan.1 (by decide)
      · rw [isNaN_of_pack_eq _ _ _ (pack_of_overflow (Nat.not_lt.mp inside))]
        rfl

theorem level_pack {sign : Sign} {u : UnpackedFloat} {place : ℕ}
    (stands : Stands .binary32 sign u place) :
    level (pack u) = sign.apply (Min.min place 0x7f800000 : ℕ) := by
  cases stands with
  | @zero any => cases any <;> cases sign <;> rfl
  | @finite octave mantissa positive bounded canonical =>
      change mantissa < 0x1000000 at bounded
      change octave = 0 ∨ 0x800000 ≤ mantissa at canonical
      change level (pack (.finite sign mantissa (-149 + octave) positive)) =
        sign.apply (Min.min (octave * 0x800000 + mantissa) 0x7f800000 : ℕ)
      by_cases inside : octave < 254
      · have room : (-149 + octave + 149 : ℤ).toNat < 254 := by omega
        have least : octave * 0x800000 + mantissa ≤ 0x7f800000 := by omega
        rw [Nat.min_eq_left least]
        by_cases normal : mantissa.log2 + 1 = 24
        · have filled : 0x800000 ≤ mantissa :=
            (Nat.le_log2 (Nat.ne_of_gt positive)).mp (show 23 ≤ mantissa.log2 by omega)
          rw [level_of_pack_eq _ _ _ (pack_of_normal room normal), BitVec.toNat_ofNat,
            BitVec.toNat_ofNat]
          refine congrArg (fun count : ℕ => sign.apply count) ?_
          omega
        · have unfilled : mantissa < 0x800000 := by
            by_contra filled
            have atLeast := (Nat.le_log2 (Nat.ne_of_gt positive)).mpr
              (show 2 ^ 23 ≤ mantissa from Nat.not_lt.mp filled)
            have below := (Nat.log2_lt (Nat.ne_of_gt positive)).mpr
              (show mantissa < 2 ^ 24 from bounded)
            omega
          obtain rfl := canonical.resolve_right (Nat.not_le.mpr unfilled)
          rw [level_of_pack_eq _ _ _ (pack_of_subnormal room normal), BitVec.toNat_ofNat,
            BitVec.toNat_ofNat]
          refine congrArg (fun count : ℕ => sign.apply count) ?_
          omega
      · have beyond : 0x7f800000 ≤ octave * 0x800000 + mantissa := by omega
        rw [level_of_pack_eq _ _ _ (pack_of_overflow (by omega)), Nat.min_eq_right beyond]
        rfl

theorem Reads.exists_stands {u : UnpackedFloat} {i : ℤ} (reads : Reads u i)
    (finite : i.natAbs < 0x7f800000) :
    ∃ (sign : Sign) (place : ℕ), Stands .binary32 sign u place ∧ i = sign.apply place := by
  cases reads with
  | @infinity sign => cases sign <;> exact absurd finite (by decide)
  | zero => exact ⟨.positive, 0, .zero, rfl⟩
  | @finite sign mantissa exponent positive least bounded canonical inRange =>
      obtain ⟨octave, rfl⟩ : ∃ octave : ℕ, exponent = -149 + octave :=
        ⟨(exponent + 149).toNat, by omega⟩
      refine ⟨sign, _, .finite bounded (canonical.symm.imp (fun first => by omega) id), ?_⟩
      congr 1
      change _ = ((octave * 0x800000 + mantissa : ℕ) : ℤ)
      omega

theorem Reads.stands {u : UnpackedFloat} {i : ℤ} (reads : Reads u i) (nonneg : 0 ≤ i)
    (finite : i < 0x7f800000) : Stands .binary32 .positive u i.toNat := by
  obtain ⟨sign, place, stands, rfl⟩ := reads.exists_stands (by omega)
  cases sign with
  | positive => exact stands
  | negative =>
      obtain rfl : place = 0 := by
        simp only [Sign.apply] at nonneg
        omega
      generalize none : 0 = place at stands
      cases stands with
      | zero => exact .zero
      | finite => omega

end ViewClassifier.Binary32
