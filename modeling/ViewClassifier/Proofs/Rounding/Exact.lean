import Mathlib.Data.Rat.Floor
import Mathlib.Algebra.Order.Floor.Semifield
import ViewClassifier.Proofs.Rounding.Operations

/-!
# Exact results

A count that has room in the mantissa stands at a place at every exponent of the format, so that
rounding does not change it. The whole part of a number is found by shifting its mantissa. Numbers of
different signs are subtracted before they are rounded.
-/

set_option autoImplicit false

namespace ViewClassifier.Rounding

open Float.Model (Format totalExponent UnpackedFloat)
open Float.Model.UnpackedFloat

variable {format : Format} {sign other : Sign} {u v : UnpackedFloat} {a b : ℕ}

/-- By induction on the exponent: a mantissa that is not full takes one bit more. -/
theorem exists_magnitude_eq_scaled {count : ℕ} (small : count < 2 * stride format) (octave : ℕ) :
    ∃ place, magnitude format place = count * 2 ^ (format.minExponent + octave) := by
  induction octave generalizing count with
  | zero => exact ⟨_, magnitude_eq small.le (.inl rfl)⟩
  | succ octave ih =>
      rcases Nat.lt_or_ge count (stride format) with short | filled
      · have twice : 2 * count < 2 * stride format := by omega
        obtain ⟨place, value⟩ := ih twice
        refine ⟨place, value.trans ?_⟩
        rw [Nat.cast_add_one, ← add_assoc, scale_succ]
        push_cast
        ring
      · exact ⟨_, magnitude_eq small.le (.inr filled)⟩

theorem zero_shiftRight (count : ℕ) :
    ExtendedMantissa.ofMantissaAndAccuracy 0 .exact >>> count =
      ExtendedMantissa.ofMantissaAndAccuracy 0 .exact := by
  change count.repeat ExtendedMantissa.shiftRightOne _ = _
  induction count with
  | zero => rfl
  | succ count ih =>
      rw [Nat.repeat, ih]
      rfl

theorem roundWithAccuracy_zero (sign : Sign) (exponent : ℤ) :
    roundWithAccuracy format sign 0 exponent .exact = .zero sign := by
  have rounded : (ExtendedMantissa.ofMantissaAndAccuracy 0 .exact).roundedMantissa = 0 := rfl
  unfold roundWithAccuracy
  refine dif_pos ?_
  rw [zero_shiftRight, rounded, zero_shiftRight]
  rfl

theorem round_zero (sign : Sign) (exponent : ℤ) :
    UnpackedFloat.round format sign 0 exponent = .zero sign := by
  have moved : ∀ target : ℤ, (decreaseExponent 0 exponent target).1 = 0 :=
    fun target => Nat.zero_shiftLeft _
  unfold UnpackedFloat.round
  dsimp only
  rw [moved]
  exact roundWithAccuracy_zero sign _

theorem roundsTo_round_count (sign : Sign) (mantissa : ℕ) (exponent : ℤ) :
    RoundsTo format sign (mantissa * 2 ^ exponent)
      (UnpackedFloat.round format sign mantissa exponent) := by
  rcases Nat.eq_zero_or_pos mantissa with rfl | positive
  · rw [round_zero, Nat.cast_zero, zero_mul]
    exact roundsTo_zero
  · exact roundsTo_round sign positive exponent

/-- A count that the mantissa has room for is not changed. -/
theorem stands_round {count : ℕ} (sign : Sign) (small : count < 2 * stride format) (octave : ℕ) :
    ∃ place, Stands format sign
        (UnpackedFloat.round format sign count (format.minExponent + octave)) place ∧
      magnitude format place = count * 2 ^ (format.minExponent + octave) := by
  have rounded : RoundsTo format sign _ _ :=
    roundsTo_round_count sign count (format.minExponent + octave)
  obtain ⟨place, stands, nearest⟩ := rounded
  obtain ⟨exactly, value⟩ := exists_magnitude_eq_scaled small octave
  rw [← value] at nearest ⊢
  obtain rfl := nearest.unique (.of_magnitude exactly)
  exact ⟨place, stands, rfl⟩

section WholeParts

theorem floor_scaled (mantissa : ℕ) (exponent : ℤ) :
    ⌊(mantissa : ℚ) * 2 ^ exponent⌋₊ =
      mantissa <<< exponent.toNat / 2 ^ (-exponent).toNat := by
  rw [← Nat.floor_div_eq_div (K := ℚ), Nat.shiftLeft_eq]
  congr 1
  rcases le_total 0 exponent with up | down
  · obtain ⟨shift, rfl⟩ := Int.eq_ofNat_of_zero_le up
    simp
  · obtain ⟨shift, named⟩ := Int.eq_ofNat_of_zero_le (Int.neg_nonneg.mpr down)
    obtain rfl : exponent = -shift := by omega
    simp [div_eq_mul_inv]

theorem roundToInt_eq (sign : Sign) (mantissa : ℕ) (exponent : ℤ) :
    roundToInt sign mantissa exponent = sign.apply ⌊(mantissa : ℚ) * 2 ^ exponent⌋₊ := by
  have shift : (0 - (exponent - (exponent.toNat : ℤ))).toNat = (-exponent).toNat := by omega
  unfold roundToInt
  simp only [decreaseExponent, shiftToExponent, mantissa_shiftRight,
    mantissa_ofMantissaAndAccuracy, floor_scaled, sub_zero, shift]

theorem Stands.toInt_eq (stands : Stands format sign u a) (least greatest : ℤ) :
    UnpackedFloat.toInt least greatest u = sign.apply ⌊magnitude format a⌋₊ := by
  cases stands with
  | zero =>
      rw [magnitude_zero, Nat.floor_zero]
      cases sign <;> rfl
  | finite bounded canonical =>
      rw [magnitude_eq bounded.le canonical]
      exact roundToInt_eq _ _ _

end WholeParts

/-- A number is taken away from one that is not less. Both mantissas are moved to the lesser exponent
first. -/
theorem Stands.add_opposite (left : Stands format other u a) (right : Stands format sign v b)
    (opposite : other ≠ sign) (le : a ≤ b) :
    RoundsTo format sign (magnitude format b - magnitude format a)
      (UnpackedFloat.add format u v) := by
  cases left with
  | @zero s =>
      rw [magnitude_zero, sub_zero]
      cases right with
      | @zero t =>
          rw [magnitude_zero]
          cases s <;> cases t <;> exact roundsTo_zero
      | finite bounded canonical => exact (Stands.finite bounded canonical).roundsTo
  | @finite i m mPositive mBounded mCanonical =>
      have ordered := (magnitude_strictMono format).monotone le
      have mValue := magnitude_eq mBounded.le mCanonical
      cases right with
      | zero =>
          have none : m = 0 := by omega
          exact absurd none (Nat.ne_of_gt mPositive)
      | @finite j n nPositive nBounded nCanonical =>
          have nValue := magnitude_eq nBounded.le nCanonical
          obtain ⟨p, q, least, pPositive, pValue, qValue, added⟩ :=
            exists_add_finite mPositive nPositive (format.minExponent + i) (format.minExponent + j)
          rw [mValue, ← pValue, nValue, ← qValue] at ordered ⊢
          have counts : p ≤ q := by
            exact_mod_cast le_of_mul_le_mul_right ordered (scale_pos least)
          obtain ⟨difference, rfl⟩ := Nat.exists_eq_add_of_le counts
          have signed : other.apply (p : ℤ) + sign.apply ((p + difference : ℕ) : ℤ) =
              sign.apply difference := by
            cases other <;> cases sign <;> simp only [Sign.apply] <;>
              first | omega | exact absurd rfl opposite
          rw [added, signed, ← sub_mul, Nat.cast_add, add_sub_cancel_left]
          rcases Nat.eq_zero_or_pos difference with rfl | positive
          · have none : UnpackedFloat.normalize format (sign.apply ((0 : ℕ) : ℤ)) least .positive =
                .zero .positive := by
              cases sign <;> rfl
            rw [none, Nat.cast_zero, zero_mul]
            exact roundsTo_zero
          · exact roundsTo_normalize positive least

end ViewClassifier.Rounding
