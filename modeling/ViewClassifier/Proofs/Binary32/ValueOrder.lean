import ViewClassifier.Proofs.Binary32.Forms
import ViewClassifier.Proofs.Binary32.NotANumber
import ViewClassifier.Proofs.Binary32.Value

/-!
# The order of values

Numbers are compared as the values that they stand for. Only the two zeros stand for one value.
-/

set_option autoImplicit false

namespace ViewClassifier.Binary32

open Float.Model (UnpackedFloat)
open Float.Model.UnpackedFloat (Sign)
open Rounding

/-- The value at a level, with the infinities beyond the finite numbers. -/
def valueAt (i : ℤ) : Extended :=
  if i = 0x7f800000 then ⊤ else if i = -0x7f800000 then ⊥ else (reading i : Extended)

theorem valueAt_reading {i : ℤ} (finite : i.natAbs < 0x7f800000) :
    valueAt i = (reading i : Extended) := by
  rw [valueAt, if_neg (by omega), if_neg (by omega)]

theorem valueAt_strictMonoOn : StrictMonoOn valueAt (Set.Icc (-0x7f800000) 0x7f800000) := by
  intro i least j greatest less
  obtain ⟨least, -⟩ := least
  obtain ⟨-, greatest⟩ := greatest
  unfold valueAt
  split
  · omega
  · split
    · split
      · exact bot_lt_top
      · rw [if_neg (by omega)]
        exact bot_lt_iff_ne_bot.mpr (WithBotTop.coe_ne_bot _)
    · split
      · exact lt_top_iff_ne_top.mpr (WithBotTop.coe_ne_top _)
      · rw [if_neg (by omega)]
        exact WithBotTop.coe_lt_coe.mpr (reading_strictMono less)

variable {x y : Float32}

theorem value_of_finite (finite : x.isFinite = true) : value x = (signed x : Extended) := by
  obtain ⟨sign, place, stands, exact⟩ := exists_stands finite
  rw [← exact]
  obtain ⟨u, unpacked⟩ : ∃ u, unpack x = u := ⟨_, rfl⟩
  unfold value
  rw [unpacked] at stands ⊢
  cases stands with
  | zero => rw [magnitude_zero, directed_zero]
  | finite bounded canonical =>
      rw [magnitude_eq bounded.le canonical]
      cases sign with
      | positive => rfl
      | negative =>
          simp only [Sign.apply, directed]
          push_cast
          rw [neg_mul]

theorem level_of_infinite {sign : Sign} (infinite : unpack x = .infinity sign) :
    level x = sign.apply (0x7f800000 : ℕ) := by
  rw [← pack_of_unpack_eq infinite]
  cases sign <;> decide

/-- A number is finite, or its level is one of the two ends. -/
theorem finite_or_infinite (number : x.isNaN = false) :
    x.isFinite = true ∨ ∃ sign, unpack x = .infinity sign := by
  by_cases finite : x.isFinite = true
  · exact .inl finite
  · right
    cases form : unpack x with
    | infinity sign => exact ⟨sign, rfl⟩
    | notANumber =>
        change (unpack x).isNaN = false at number
        rw [form] at number
        cases number
    | zero =>
        change ¬ (unpack x).isFinite = true at finite
        rw [form] at finite
        exact absurd rfl finite
    | finite =>
        change ¬ (unpack x).isFinite = true at finite
        rw [form] at finite
        exact absurd rfl finite

theorem level_mem (number : x.isNaN = false) :
    level x ∈ Set.Icc (-0x7f800000) 0x7f800000 := by
  rcases finite_or_infinite number with finite | ⟨sign, infinite⟩
  · have inRange := (isFinite_iff.mp finite).2
    constructor <;> omega
  · rw [level_of_infinite infinite]
    cases sign <;> decide

theorem value_eq_valueAt (number : x.isNaN = false) : value x = valueAt (level x) := by
  rcases finite_or_infinite number with finite | ⟨sign, infinite⟩
  · rw [value_of_finite finite, valueAt_reading (isFinite_iff.mp finite).2]
    rfl
  · rw [level_of_infinite infinite]
    unfold value
    rw [infinite]
    cases sign <;> rfl

theorem value_le_iff (xNumber : x.isNaN = false) (yNumber : y.isNaN = false) :
    value x ≤ value y ↔ level x ≤ level y := by
  rw [value_eq_valueAt xNumber, value_eq_valueAt yNumber]
  exact valueAt_strictMonoOn.le_iff_le (level_mem xNumber) (level_mem yNumber)

theorem le_iff_value_le (xNumber : x.isNaN = false) (yNumber : y.isNaN = false) :
    x ≤ y ↔ value x ≤ value y :=
  (le_iff_level_le xNumber yNumber).trans (value_le_iff xNumber yNumber).symm

theorem value_eq_iff (xNumber : x.isNaN = false) (yNumber : y.isNaN = false) :
    value x = value y ↔ level x = level y := by
  rw [value_eq_valueAt xNumber, value_eq_valueAt yNumber]
  exact valueAt_strictMonoOn.injOn.eq_iff (level_mem xNumber) (level_mem yNumber)

end ViewClassifier.Binary32
