import Mathlib.Algebra.Order.Group.Abs
import ViewClassifier.Proofs.Rounding.Grid

/-!
# The spacing of a format

The distance from one magnitude to the next does not fall from place to place. A number that is
rounded moves by half of this distance at most, taken at any place that is not below the number.
-/

set_option autoImplicit false

namespace ViewClassifier.Rounding

open Float.Model (Format)

/-- The distance from the magnitude at a place to the next one. -/
def spacing (format : Format) (place : ℕ) : ℚ :=
  2 ^ (format.minExponent + (place / stride format - 1 : ℕ))

section Spacing

variable (format : Format)

theorem spacing_mono : Monotone (spacing format) := by
  intro place other le
  have octaves : place / stride format ≤ other / stride format := Nat.div_le_div_right le
  refine zpow_le_zpow_right₀ one_le_two ?_
  omega

theorem magnitude_succ (place : ℕ) :
    magnitude format (place + 1) = magnitude format place + spacing format place := by
  have positive := stride_pos format
  obtain ⟨octave, mantissa, rfl, bounded, canonical⟩ := exists_octave format place
  have next : octave = 0 ∨ stride format ≤ mantissa + 1 := canonical.imp id Nat.le_succ_of_le
  have quotient : (octave * stride format + mantissa) / stride format - 1 = octave := by
    rw [Nat.mul_comm, Nat.mul_add_div positive]
    rcases canonical with rfl | filled
    · have atMost : mantissa / stride format < 2 := Nat.div_lt_of_lt_mul (by omega)
      omega
    · have once : mantissa / stride format = 1 := Nat.div_eq_of_lt_le (by omega) (by omega)
      omega
  rw [spacing, quotient, Nat.add_assoc, magnitude_eq bounded next,
    magnitude_eq bounded.le canonical]
  push_cast
  ring

/-- The mantissas of a place beyond the first stride are full. -/
theorem stride_mul_spacing_le {place : ℕ} (normal : stride format ≤ place) :
    stride format * spacing format place ≤ magnitude format place := by
  have positive := stride_pos format
  obtain ⟨octave, mantissa, rfl, bounded, canonical⟩ := exists_octave format place
  have filled : stride format ≤ mantissa := by
    rcases canonical with rfl | filled
    · omega
    · exact filled
  have quotient : (octave * stride format + mantissa) / stride format - 1 = octave := by
    have once : mantissa / stride format = 1 := Nat.div_eq_of_lt_le (by omega) (by omega)
    rw [Nat.mul_comm, Nat.mul_add_div positive]
    omega
  rw [spacing, quotient, magnitude_eq bounded.le canonical]
  exact mul_le_mul_of_nonneg_right (by exact_mod_cast filled) (scale_pos _).le

end Spacing

variable {format : Format} {value : ℚ} {place limit : ℕ}

theorem Nearest.le_limit (nearest : Nearest format value place)
    (le : value ≤ magnitude format limit) : place ≤ limit :=
  nearest.le_of_le (.of_magnitude limit) le

theorem Nearest.error (nearest : Nearest format value place) (nonneg : 0 ≤ value)
    (le : value ≤ magnitude format limit) :
    2 * |magnitude format place - value| ≤ spacing format limit := by
  have inside := nearest.le_limit le
  rcases le_total (magnitude format place) value with down | up
  · have above := (nearest.above (place + 1) (Nat.lt_succ_self place)).1
    have widest := spacing_mono format inside
    rw [magnitude_succ] at above
    rw [abs_of_nonpos (by linarith)]
    linarith
  · rw [abs_of_nonneg (by linarith)]
    cases place with
    | zero =>
        have positive : 0 < spacing format limit := scale_pos _
        rw [magnitude_zero] at up ⊢
        linarith
    | succ before =>
        have below := (nearest.below before (Nat.lt_succ_self before)).1
        have widest := spacing_mono format (Nat.le_of_succ_le inside)
        rw [magnitude_succ] at below ⊢
        linarith

/-- An even place is reached from the midpoint below it on, because a tie goes to it. -/
theorem Nearest.succ_le_iff (nearest : Nearest format value place) {before : ℕ}
    (even : Even (before + 1)) :
    before + 1 ≤ place ↔ magnitude format before + magnitude format (before + 1) ≤ 2 * value := by
  have monotone := (magnitude_strictMono format).monotone
  constructor
  · intro reached
    have above := (nearest.below before reached).1
    have grows := monotone reached
    linarith
  · intro midpoint
    by_contra less
    have behind : place ≤ before := by omega
    obtain ⟨below, tie⟩ := nearest.above (before + 1) (by omega)
    have grows := monotone behind
    have same : place = before :=
      (magnitude_strictMono format).injective (le_antisymm grows (by linarith))
    have evenPlace := tie (by linarith)
    rw [same] at evenPlace
    exact Nat.even_add_one.mp even evenPlace

/-- A number that fills the mantissa moves by half a unit of its last bit at most. -/
theorem Nearest.relative_error (nearest : Nearest format value place)
    (normal : magnitude format (stride format) ≤ value) :
    2 * stride format * |magnitude format place - value| ≤ value := by
  have above := (nearest.above (place + 1) (Nat.lt_succ_self place)).1
  rw [magnitude_succ] at above
  have least := magnitude_nonneg format (stride format)
  have steps : ∀ {before : ℕ}, stride format ≤ before → magnitude format before ≤ value →
      2 * |magnitude format place - value| ≤ spacing format before →
      2 * stride format * |magnitude format place - value| ≤ value := by
    intro before full below half
    have scaled := mul_le_mul_of_nonneg_left half (Nat.cast_nonneg (α := ℚ) (stride format))
    linarith [stride_mul_spacing_le format full]
  rcases le_total (magnitude format place) value with down | up
  · have full : stride format ≤ place := by
      by_contra less
      have next := (magnitude_strictMono format).monotone
        (show place + 1 ≤ stride format by omega)
      have grows := magnitude_strictMono format (Nat.lt_succ_self place)
      rw [magnitude_succ] at next
      rw [Nat.succ_eq_add_one, magnitude_succ] at grows
      linarith
    exact steps full down (by rw [abs_of_nonpos (by linarith)]; linarith)
  · rcases eq_or_lt_of_le up with same | up
    · rw [← same, sub_self, abs_zero, mul_zero]
      exact least.trans normal
    · obtain ⟨before, rfl⟩ : ∃ before, place = before + 1 := by
        refine Nat.exists_eq_succ_of_ne_zero ?_
        rintro rfl
        rw [magnitude_zero] at up
        linarith
      have below := (nearest.below before (Nat.lt_succ_self before)).1
      have grows := magnitude_strictMono format (Nat.lt_succ_self before)
      have full : stride format < before + 1 :=
        (magnitude_strictMono format).lt_iff_lt.mp (normal.trans_lt up)
      have half : 2 * |magnitude format (before + 1) - value| ≤ spacing format before := by
        rw [abs_of_pos (by linarith)]
        rw [magnitude_succ] at below ⊢
        linarith
      exact steps (Nat.le_of_lt_succ full) (by linarith) half

end ViewClassifier.Rounding
