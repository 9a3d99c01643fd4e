import ViewClassifier.Proofs.Binary32.Signed
import ViewClassifier.Proofs.Rounding.Packed

/-!
# Unpacked forms

A number is what its unpacked form is packed into. A level other than zero stands for one number only,
so that a number with a finite form is known from the exact value that it settles on.
-/

set_option autoImplicit false

namespace ViewClassifier.Binary32

open Float.Model (UnpackedFloat)
open Float.Model.UnpackedFloat (Sign)
open Rounding

variable {x y : Float32}

theorem pack_unpack (x : Float32) : pack (unpack x) = x :=
  toBits_injective (UInt32.toBitVec_inj.mp (Rounding.pack_unpack (by decide) x.toModel.valid))

theorem pack_of_unpack_eq {u : UnpackedFloat} (unpacked : unpack x = u) : pack u = x :=
  unpacked ▸ pack_unpack x

theorem eq_of_level_eq_of_ne_zero (same : level x = level y) (some : level y ≠ 0) : x = y := by
  apply rank_injective
  unfold level at same some
  omega

theorem NearestLevel.unique {value : ℚ} {i j : ℤ} (left : NearestLevel value i)
    (right : NearestLevel value j) : i = j :=
  le_antisymm (left.le_of_le right le_rfl) (right.le_of_le left le_rfl)

section Finite

variable {sign : Sign} {mantissa : ℕ} {exponent : ℤ} {positive : 0 < mantissa}

theorem number_of_unpack (unpacked : unpack x = .finite sign mantissa exponent positive) :
    x.isNaN = false := by
  change (unpack x).isNaN = false
  rw [unpacked]
  rfl

/-- The finite form of a number is canonical, and stands for a number below infinity. -/
theorem exists_octave_of_unpack
    (unpacked : unpack x = .finite sign mantissa exponent positive) :
    ∃ octave : ℕ, exponent = -149 + octave ∧ mantissa < 2 * stride .binary32 ∧
      (octave = 0 ∨ stride .binary32 ≤ mantissa) ∧ octave < 254 ∧
      level x = sign.apply (octave * stride .binary32 + mantissa : ℕ) := by
  have reads := reads_unpack (number_of_unpack unpacked)
  obtain ⟨i, atLevel⟩ : ∃ i, level x = i := ⟨_, rfl⟩
  rw [unpacked, atLevel] at reads
  rw [atLevel]
  cases reads with
  | finite least bounded canonical inRange =>
      refine ⟨(exponent + 149).toNat, by omega, bounded, ?_, by omega, ?_⟩
      · exact canonical.symm.imp (fun lowest => by omega) id
      · congr 1
        change _ = (((exponent + 149).toNat * 0x800000 + mantissa : ℕ) : ℤ)
        push_cast
        omega

/-- A number settles every amount that the place of its finite form is nearest to. -/
theorem settles_of_finite {octave : ℕ} {amount : ℚ}
    (unpacked : unpack x = .finite sign mantissa (-149 + octave) positive) (nonneg : 0 ≤ amount)
    (nearest : Nearest .binary32 amount (octave * stride .binary32 + mantissa)) :
    Settles (directed sign amount) x := by
  obtain ⟨other, exponents, bounded, canonical, -⟩ := exists_octave_of_unpack unpacked
  obtain rfl : octave = other := by omega
  rw [← pack_of_unpack_eq unpacked]
  exact settles_pack ⟨sign, amount, nonneg, rfl, _, .finite bounded canonical, nearest⟩

/-- What settles where the finite form of a number stands is the number. -/
theorem Settles.eq_of_finite {octave : ℕ} {amount : ℚ}
    (unpacked : unpack x = .finite sign mantissa (-149 + octave) positive) (nonneg : 0 ≤ amount)
    (nearest : Nearest .binary32 amount (octave * stride .binary32 + mantissa))
    (settles : Settles (directed sign amount) y) : y = x := by
  have here := settles_of_finite unpacked nonneg nearest
  refine eq_of_level_eq_of_ne_zero (settles.nearest.unique here.nearest) ?_
  obtain ⟨other, -, -, -, -, atLevel⟩ := exists_octave_of_unpack unpacked
  rw [atLevel]
  cases sign <;> simp only [Sign.apply] <;> omega

theorem magnitude_of_unpack (unpacked : unpack x = .finite sign mantissa exponent positive) :
    ∃ octave : ℕ, exponent = -149 + octave ∧
      magnitude .binary32 (octave * stride .binary32 + mantissa) = mantissa * 2 ^ exponent := by
  obtain ⟨octave, rfl, bounded, canonical, -⟩ := exists_octave_of_unpack unpacked
  exact ⟨octave, rfl, magnitude_eq bounded.le canonical⟩

theorem settles_of_unpack (unpacked : unpack x = .finite sign mantissa exponent positive) :
    Settles (directed sign (mantissa * 2 ^ exponent)) x := by
  obtain ⟨octave, rfl, value⟩ := magnitude_of_unpack unpacked
  exact settles_of_finite unpacked (by positivity) (value ▸ .of_magnitude _)

/-- A number with a finite form is known from the value of the form. -/
theorem Settles.eq_of_unpack (unpacked : unpack x = .finite sign mantissa exponent positive)
    (settles : Settles (directed sign (mantissa * 2 ^ exponent)) y) : y = x := by
  obtain ⟨octave, rfl, value⟩ := magnitude_of_unpack unpacked
  exact settles.eq_of_finite unpacked (by positivity) (value ▸ .of_magnitude _)

end Finite

end ViewClassifier.Binary32
