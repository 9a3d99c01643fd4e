import ViewClassifier.Proofs.Binary32.Arithmetic
import ViewClassifier.Proofs.Rounding.Exact
import ViewClassifier.Proofs.Rounding.Spacing

/-!
# Whole numbers

Counts that fit the mantissa are exact. All other results are off by half of the spacing at any bound
that they keep.
-/

set_option autoImplicit false

namespace ViewClassifier.Binary32

open Rounding

/-- A count that the mantissa has room for stands at a place below infinity at every exponent. -/
theorem exists_magnitude_scaled {count octave : ℕ} (small : count < 2 * stride .binary32)
    (inside : octave < 254) :
    ∃ place, magnitude .binary32 place = count * 2 ^ (-149 + octave : ℤ) ∧ place < 0x7f800000 := by
  obtain ⟨place, scaled⟩ := exists_magnitude_eq_scaled small octave
  have value : magnitude .binary32 place = count * 2 ^ (-149 + octave : ℤ) := scaled
  have infinite : magnitude .binary32 (254 * stride .binary32 + stride .binary32) =
      stride .binary32 * 2 ^ (-149 + (254 : ℕ) : ℤ) :=
    magnitude_eq (by omega) (.inr le_rfl)
  change magnitude .binary32 0x7f800000 = (0x800000 : ℕ) * 2 ^ (-149 + (254 : ℕ) : ℤ) at infinite
  have below : (count : ℚ) < 2 ^ 24 := by exact_mod_cast small
  have exponents : (2 : ℚ) ^ (-149 + octave : ℤ) ≤ 2 ^ (104 : ℤ) :=
    zpow_le_zpow_right₀ one_le_two (by omega)
  refine ⟨place, value, ?_⟩
  rw [← (magnitude_strictMono .binary32).lt_iff_lt, value, infinite]
  calc (count : ℚ) * 2 ^ (-149 + octave : ℤ) < 2 ^ 24 * 2 ^ (-149 + octave : ℤ) :=
        mul_lt_mul_of_pos_right below (scale_pos _)
    _ ≤ 2 ^ 24 * 2 ^ (104 : ℤ) := mul_le_mul_of_nonneg_left exponents (by norm_num)
    _ ≤ (0x800000 : ℕ) * 2 ^ (-149 + (254 : ℕ) : ℤ) := by norm_num

theorem exists_magnitude_eq {count : ℕ} (small : count < 2 * stride .binary32) :
    ∃ place, magnitude .binary32 place = count ∧ place < 0x7f800000 := by
  obtain ⟨place, value, finite⟩ := exists_magnitude_scaled small (show 149 < 254 by decide)
  have unit : (2 : ℚ) ^ (-149 + (149 : ℕ) : ℤ) = 1 := by norm_num
  rw [unit, mul_one] at value
  exact ⟨place, value, finite⟩

theorem Rounds.exact_of_place {place : ℕ} {x : Float32}
    (rounds : Rounds (magnitude .binary32 place) x) (finite : place < 0x7f800000) :
    Amount x ∧ exact x = magnitude .binary32 place := by
  obtain ⟨number, other, nearest, level⟩ := rounds
  obtain rfl := nearest.unique (.of_magnitude place)
  rw [Nat.min_eq_left finite.le] at level
  refine ⟨⟨number, by omega, by omega⟩, ?_⟩
  rw [exact, level, Int.toNat_natCast]

theorem Rounds.exact_of_count {count : ℕ} {x : Float32} (rounds : Rounds count x)
    (small : count < 2 * stride .binary32) : Amount x ∧ exact x = count := by
  obtain ⟨place, exactly, finite⟩ := exists_magnitude_eq small
  rw [← exactly] at rounds ⊢
  exact rounds.exact_of_place finite

theorem exact_ofNat {count : ℕ} (small : count < 2 * stride .binary32) :
    exact (ofNat count) = count :=
  ((rounds_ofNat count).exact_of_count small).2

section Error

variable {value : ℚ} {x bound : Float32}

theorem Rounds.error (rounds : Rounds value x) (nonneg : 0 ≤ value) (limit : Amount bound)
    (le : value ≤ exact bound) :
    2 * |exact x - value| ≤ spacing .binary32 (level bound).toNat := by
  obtain ⟨_, place, nearest, atPlace⟩ := rounds
  have inside := nearest.le_limit le
  have finite := limit.finite
  have same : (level x).toNat = place := by omega
  rw [exact, same]
  exact nearest.error nonneg le

theorem spacing_of_octave {octave : ℕ} (counted : (level x).toNat / 0x800000 - 1 = octave) :
    spacing .binary32 (level x).toNat = 2 ^ (-149 + octave : ℤ) := by
  subst octave
  rfl

end Error

end ViewClassifier.Binary32
