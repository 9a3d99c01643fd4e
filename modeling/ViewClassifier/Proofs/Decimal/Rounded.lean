import ViewClassifier.Decimal.Literal
import ViewClassifier.Proofs.Binary32.Signed
import ViewClassifier.Proofs.Decimal.Neighbourhoods

/-!
# Rounded decimals

Digits with an exponent are read as the binary32 number that is nearest to them. Very large and very
small decimals are not computed, and are infinite or zero all the same. A decimal between the
midpoints around a number is read as this number.
-/

set_option autoImplicit false

namespace ViewClassifier.Decimal

open Float.Model (UnpackedFloat Format)
open Float.Model.UnpackedFloat
open Rounding Binary32

section Unpacked

variable {format : Format} {digits : ℕ} {exponent : ℤ}

theorem roundsTo_ofScientific (positive : 0 < digits)
    (least : -((2 ^ format.exponentBits : ℤ) + digits.log2) ≤ exponent)
    (greatest : exponent ≤ 2 ^ format.exponentBits) :
    RoundsTo format .positive (digits * 10 ^ exponent)
      (UnpackedFloat.ofScientific format digits exponent) := by
  unfold UnpackedFloat.ofScientific
  rw [dif_neg (Nat.ne_of_gt positive), if_neg (not_lt.mpr greatest), if_neg (not_lt.mpr least)]
  rcases le_or_gt 0 exponent with nonneg | negative
  · rw [if_pos nonneg]
    obtain ⟨power, rfl⟩ := Int.eq_ofNat_of_zero_le nonneg
    have filled : stride format ≤ (digits <<< format.mantissaBits) * 10 ^ power := by
      rw [Nat.shiftLeft_eq, mantissaBits_eq, ← two_mul_stride]
      calc stride format ≤ 1 * (2 * stride format) * 1 := by omega
        _ ≤ digits * (2 * stride format) * 10 ^ power :=
            Nat.mul_le_mul (Nat.mul_le_mul_right _ positive) (Nat.one_le_pow _ _ (by decide))
    have ready : Ready format (digits <<< format.mantissaBits * 10 ^ power)
        (-format.mantissaBits + 0) := .inr filled
    obtain ⟨place, stands, nearest⟩ := exists_nearest_roundWithAccuracy .positive ready
      (show Tells .exact 0 from rfl)
    refine ⟨place, stands, ?_⟩
    have value : (((digits <<< format.mantissaBits) * 10 ^ power : ℕ) + 0 : ℚ) *
        2 ^ (-(format.mantissaBits : ℤ) + 0) = digits * 10 ^ (power : ℤ) := by
      rw [Nat.shiftLeft_eq, add_zero, add_zero, zpow_neg, zpow_natCast, zpow_natCast]
      push_cast
      field_simp
    rwa [value] at nearest
  · rw [if_neg (not_le.mpr negative)]
    have root : 0 < 10 ^ (-exponent).toNat := Nat.pow_pos (by decide)
    have power : (10 : ℚ) ^ exponent = ((10 ^ (-exponent).toNat : ℕ) : ℚ)⁻¹ := by
      rw [Nat.cast_pow, Nat.cast_ofNat, ← zpow_natCast, Int.toNat_of_nonneg (by omega), ← zpow_neg,
        neg_neg]
    obtain ⟨rest, tells, value⟩ := value_divCore format digits root 0 0
    obtain ⟨place, stands, nearest⟩ := exists_nearest_roundWithAccuracy .positive
      (ready_divCore format positive root 0 0) tells
    refine ⟨place, stands, ?_⟩
    rw [value] at nearest
    simpa [power, div_eq_mul_inv] using nearest

end Unpacked

def signOf (negative : Bool) : Sign :=
  if negative then .negative else .positive

section Cutoffs

variable {digits : ℕ} {exponent : ℤ}

/-- No digits make up for an exponent that is so large. -/
theorem infinite_of_large (positive : 0 < digits) (large : 256 < exponent) :
    ∃ place, Nearest .binary32 (digits * 10 ^ exponent) place ∧ 0x7f800000 ≤ place := by
  obtain ⟨power, rfl⟩ := Int.eq_ofNat_of_zero_le (show 0 ≤ exponent by omega)
  have root : 0 < digits * 10 ^ power := Nat.mul_pos positive (Nat.pow_pos (by decide))
  obtain ⟨place, _, nearest⟩ := @roundsTo_round .binary32 _ .positive root 0
  have value : ((digits * 10 ^ power : ℕ) : ℚ) * 2 ^ (0 : ℤ) = digits * 10 ^ (power : ℤ) := by
    rw [zpow_zero, mul_one, zpow_natCast]
    push_cast
    rfl
  rw [value] at nearest
  refine ⟨place, nearest, (Nearest.of_magnitude 0x7f800000).le_of_le nearest ?_⟩
  have infinite : magnitude .binary32 (254 * stride .binary32 + stride .binary32) =
      stride .binary32 * 2 ^ (-149 + (254 : ℕ) : ℤ) := magnitude_eq (by omega) (.inr le_rfl)
  change magnitude .binary32 0x7f800000 = (0x800000 : ℕ) * 2 ^ (-149 + (254 : ℕ) : ℤ) at infinite
  have one : (1 : ℚ) ≤ digits := by exact_mod_cast positive
  have grows : (10 : ℚ) ^ (256 : ℤ) ≤ 10 ^ (power : ℤ) :=
    zpow_le_zpow_right₀ (by norm_num) (by omega)
  calc magnitude .binary32 0x7f800000 ≤ 1 * 10 ^ (256 : ℤ) := by rw [infinite]; norm_num
    _ ≤ digits * 10 ^ (power : ℤ) := mul_le_mul one grows (by positivity) (by positivity)

/-- No digits make up for an exponent that is so small. -/
theorem zero_of_small (small : exponent < -(256 + digits.log2 : ℤ)) :
    Nearest .binary32 (digits * 10 ^ exponent) 0 := by
  have least : magnitude .binary32 1 = 2 ^ (-149 : ℤ) := by
    have one := @magnitude_eq .binary32 0 1 (by decide) (.inl rfl)
    change magnitude .binary32 (0 * _ + 1) = ((1 : ℕ) : ℚ) * 2 ^ (-149 + ((0 : ℕ) : ℤ)) at one
    simpa using one
  have count : (digits : ℚ) ≤ 2 ^ (digits.log2 + 1 : ℤ) := by
    exact_mod_cast (@Nat.lt_log2_self digits).le
  have power : (10 : ℚ) ^ exponent ≤ 2 ^ exponent := by
    obtain ⟨places, rfl⟩ : ∃ places : ℕ, exponent = -places := ⟨(-exponent).toNat, by omega⟩
    rw [zpow_neg, zpow_neg, zpow_natCast, zpow_natCast]
    exact inv_anti₀ (by positivity) (pow_le_pow_left₀ (by norm_num) (by norm_num) _)
  have bounded : (digits : ℚ) * 10 ^ exponent ≤ 2 ^ (-151 : ℤ) :=
    calc (digits : ℚ) * 10 ^ exponent ≤ 2 ^ (digits.log2 + 1 : ℤ) * 2 ^ exponent :=
          mul_le_mul count power (by positivity) (by positivity)
      _ = 2 ^ (digits.log2 + 1 + exponent : ℤ) := (zpow_add₀ two_ne_zero _ _).symm
      _ ≤ 2 ^ (-151 : ℤ) := zpow_le_zpow_right₀ one_le_two (by omega)
  have less : 2 * (digits * 10 ^ exponent : ℚ) < magnitude .binary32 0 + magnitude .binary32 1 := by
    rw [magnitude_zero, least]
    calc 2 * (digits * 10 ^ exponent : ℚ) ≤ 2 * 2 ^ (-151 : ℤ) := by linarith
      _ < 0 + 2 ^ (-149 : ℤ) := by norm_num
  refine nearest_of_adjacent (fun before follows => ?_) ⟨less.le, fun tie => ?_⟩
  · omega
  · exact absurd tie less.ne

/-- Below the exponents that are infinite at once every decimal is rounded. -/
theorem roundsTo_of_le (digits : ℕ) (le : exponent ≤ 256) :
    RoundsTo .binary32 .positive (digits * 10 ^ exponent)
      (UnpackedFloat.ofScientific .binary32 digits exponent) := by
  rcases Nat.eq_zero_or_pos digits with rfl | positive
  · rw [Nat.cast_zero, zero_mul]
    exact roundsTo_zero
  by_cases small : exponent < -(256 + digits.log2 : ℤ)
  · have none : UnpackedFloat.ofScientific .binary32 digits exponent = .zero .positive := by
      unfold UnpackedFloat.ofScientific
      rw [dif_neg (Nat.ne_of_gt positive)]
      exact (if_neg (not_lt.mpr le)).trans (if_pos small)
    rw [none]
    exact ⟨0, .zero, zero_of_small small⟩
  · exact roundsTo_ofScientific positive (not_lt.mp small) le

end Cutoffs

theorem settles_signed {amount : ℚ} {u : UnpackedFloat} (nonneg : 0 ≤ amount)
    (rounded : RoundsTo .binary32 .positive amount u) (negative : Bool) :
    Settles (directed (signOf negative) amount) (pack (if negative then u.neg else u)) := by
  obtain ⟨place, stands, nearest⟩ := rounded
  refine settles_pack ⟨signOf negative, amount, nonneg, rfl, place, ?_, nearest⟩
  cases negative with
  | false => exact stands
  | true => exact stands.neg

/-- A decimal is read as the number nearest to it, infinity standing for all numbers beyond the
range. -/
theorem settles_nearestDecimal (negative : Bool) (digits : ℕ) (exponent : ℤ) :
    Settles (directed (signOf negative) (digits * 10 ^ exponent))
      (nearestDecimal negative digits exponent) := by
  by_cases large : digits ≠ 0 ∧ 256 < exponent
  · obtain ⟨place, nearest, infinite⟩ := infinite_of_large (Nat.pos_of_ne_zero large.1) large.2
    have unpacked : UnpackedFloat.ofScientific .binary32 digits exponent = .infinity .positive := by
      unfold UnpackedFloat.ofScientific
      rw [dif_neg large.1]
      exact if_pos large.2
    unfold nearestDecimal
    rw [unpacked]
    refine ⟨?_, signOf negative, _, place, by positivity, rfl, nearest, ?_⟩
    · cases negative <;> decide
    · rw [Nat.min_eq_right infinite]
      cases negative <;> decide
  · refine settles_signed (by positivity) ?_ negative
    by_cases none : digits = 0
    · subst none
      rw [Nat.cast_zero, zero_mul]
      exact roundsTo_zero
    · exact roundsTo_of_le digits (by omega)

end ViewClassifier.Decimal
