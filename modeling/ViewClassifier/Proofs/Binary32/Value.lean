import Mathlib.Order.WithBotTop
import ViewClassifier.Proofs.Binary32.WholePart

/-!
# Values

A number stands for a rational number or for one of two infinities. An amount stands for its exact
value, and all other numbers for nothing above zero or for infinity.
-/

set_option autoImplicit false

namespace ViewClassifier.Binary32

open Float.Model (UnpackedFloat)
open Float.Model.UnpackedFloat (Sign)
open Rounding

/-- The rational numbers with both infinities. -/
abbrev Extended := WithBotTop ℚ

/-- What a number stands for. NaN is no number and is given zero. -/
def value (x : Float32) : Extended :=
  match unpack x with
  | .infinity .positive => ⊤
  | .infinity .negative => ⊥
  | .finite sign mantissa exponent _ => ((sign.apply mantissa * 2 ^ exponent : ℚ) : Extended)
  | .zero _ | .notANumber => ((0 : ℚ) : Extended)

variable {x : Float32}

theorem value_of_amount (amount : Amount x) : value x = (exact x : Extended) := by
  obtain ⟨place, atPlace⟩ : ∃ place, (level x).toNat = place := ⟨_, rfl⟩
  obtain ⟨u, unpacked⟩ : ∃ u, unpack x = u := ⟨_, rfl⟩
  have stands := amount.stands
  rw [atPlace, unpacked] at stands
  unfold value exact
  rw [atPlace, unpacked]
  cases stands with
  | zero => rw [magnitude_zero]
  | finite bounded canonical =>
      rw [magnitude_eq bounded.le canonical]
      rfl

theorem value_of_infinite (infinite : unpack x = .infinity .positive) : value x = ⊤ := by
  unfold value
  rw [infinite]

theorem value_nonpos (number : x.isNaN = false) (nonpos : level x ≤ 0) :
    value x ≤ ((0 : ℚ) : Extended) := by
  obtain ⟨i, atLevel⟩ : ∃ i, level x = i := ⟨_, rfl⟩
  obtain ⟨u, unpacked⟩ : ∃ u, unpack x = u := ⟨_, rfl⟩
  have reads := reads_unpack number
  rw [atLevel, unpacked] at reads
  rw [atLevel] at nonpos
  unfold value
  rw [unpacked]
  cases reads with
  | @infinity sign =>
      cases sign with
      | negative => exact bot_le
      | positive =>
          simp only [Sign.apply] at nonpos
          omega
  | zero => exact le_rfl
  | @finite sign mantissa exponent positive least bounded canonical inRange =>
      cases sign with
      | negative =>
          have below : ((-(mantissa : ℤ) : ℤ) : ℚ) * 2 ^ exponent ≤ 0 := by
            have scale := scale_pos exponent
            push_cast
            nlinarith
          exact WithBotTop.coe_le_coe.mpr below
      | positive =>
          simp only [Sign.apply] at nonpos
          omega

end ViewClassifier.Binary32
