import ViewClassifier.Binary64
import ViewClassifier.Proofs.Binary32.Arithmetic
import ViewClassifier.Proofs.Rounding.Packed
import ViewClassifier.Proofs.Rounding.Signed

/-!
# Places of 64-bit numbers

A finite 64-bit number stands at a place of the magnitudes of its format, under a sign. An operation on
such numbers gives the number at the place that is nearest to the exact result, if this is not far
beyond all counts of 64 bits.
-/

set_option autoImplicit false

namespace ViewClassifier.Binary64

open Binary32 (Amount Direction widen)
open Float.Model (Format UnpackedFloat)
open Float.Model.UnpackedFloat
open Rounding

/-- The first place that is not finite. -/
def infinitePlace : ℕ :=
  2047 * stride .binary64

/-- A bound of exact results that leaves room below infinity. -/
def limit : ℚ :=
  2 ^ 64

/-- A finite number under a sign, at a place of the magnitudes. -/
structure StandsAt (sign : Sign) (place : ℕ) (x : Float) : Prop where
  stands : Stands .binary64 sign x.toModel.unpack place
  finite : place < infinitePlace

/-- The place of a power of two. -/
theorem magnitude_two_pow {shift : ℕ} :
    magnitude .binary64 ((1022 + shift) * stride .binary64 + stride .binary64) = 2 ^ shift := by
  have positive := stride_pos .binary64
  rw [magnitude_eq (by omega) (.inr le_rfl)]
  have exponents : (Format.minExponent .binary64 + (1022 + shift : ℕ) : ℤ) = -52 + shift := by
    change (-1074 + (1022 + shift : ℕ) : ℤ) = -52 + shift
    push_cast
    ring
  have full : ((stride .binary64 : ℕ) : ℚ) = 2 ^ (52 : ℤ) := by
    change ((2 ^ 52 : ℕ) : ℚ) = 2 ^ (52 : ℤ)
    norm_num
  rw [exponents, full, ← zpow_add₀ two_ne_zero, ← zpow_natCast]
  congr 1
  ring

section Results

variable {sign other : Sign} {a b place : ℕ} {x y : Float} {u : UnpackedFloat} {value : ℚ}

theorem finite_of_nearest (nearest : Nearest .binary64 value place) (small : value ≤ limit) :
    place < infinitePlace := by
  have bound := nearest.le_of_le (.of_magnitude _) (small.trans_eq magnitude_two_pow.symm)
  have positive := stride_pos .binary64
  unfold infinitePlace
  omega

/-- Packing keeps what stands at a finite place. -/
theorem standsAt_pack (stands : Stands .binary64 sign u place) (finite : place < infinitePlace) :
    StandsAt sign place (.ofModel (.pack u)) := by
  refine ⟨?_, finite⟩
  change Stands .binary64 sign (UnpackedFloat.unpack .binary64 (UnpackedFloat.pack .binary64 u)) place
  cases stands with
  | zero =>
      rw [unpack_pack_zero]
      exact .zero
  | @finite octave mantissa positive bounded canonical =>
      have inside : octave + 2 < 2 ^ Format.exponentBits .binary64 := by
        change octave * 0x10000000000000 + mantissa < 2047 * 0x10000000000000 at finite
        change octave = 0 ∨ 0x10000000000000 ≤ mantissa at canonical
        change octave + 2 < 2048
        omega
      rw [unpack_pack inside bounded canonical]
      exact .finite bounded canonical

/-- An exact result that is rounded to the format. -/
theorem standsAt_of_roundsTo (rounded : RoundsTo .binary64 sign value u) (small : value ≤ limit) :
    ∃ place, Nearest .binary64 value place ∧ StandsAt sign place (.ofModel (.pack u)) := by
  obtain ⟨place, stands, nearest⟩ := rounded
  exact ⟨place, nearest, standsAt_pack stands (finite_of_nearest nearest small)⟩

theorem standsAt_ofNat {count : ℕ} (small : count < UInt64.size) :
    ∃ place, Nearest .binary64 count place ∧ StandsAt .positive place count.toUInt64.toFloat := by
  have same : count.toUInt64.toFloat = .ofModel (.pack (UnpackedFloat.ofNat .binary64 count)) := by
    simp only [UInt64.toFloat, Float.Model.ofUInt64, UnpackedFloat.ofUInt64]
    rw [Nat.toUInt64_eq, UInt64.toNat_ofNat_of_lt' small]
  rw [same]
  refine standsAt_of_roundsTo (roundsTo_ofNat count) ?_
  have bound : count ≤ 2 ^ 64 := Nat.le_of_lt small
  unfold limit
  exact_mod_cast bound

theorem StandsAt.neg (left : StandsAt sign a x) : StandsAt (-sign) a (-x) :=
  standsAt_pack left.stands.neg left.finite

theorem StandsAt.mul (left : StandsAt sign a x) (right : StandsAt other b y)
    (small : magnitude .binary64 a * magnitude .binary64 b ≤ limit) :
    ∃ place, Nearest .binary64 (magnitude .binary64 a * magnitude .binary64 b) place ∧
      StandsAt (sign * other) place (x * y) :=
  standsAt_of_roundsTo (left.stands.mul right.stands) small

theorem StandsAt.div (left : StandsAt sign a x) (right : StandsAt other b y) (some : b ≠ 0)
    (small : magnitude .binary64 a / magnitude .binary64 b ≤ limit) :
    ∃ place, Nearest .binary64 (magnitude .binary64 a / magnitude .binary64 b) place ∧
      StandsAt (sign / other) place (x / y) :=
  standsAt_of_roundsTo (left.stands.div right.stands some) small

theorem StandsAt.add (left : StandsAt sign a x) (right : StandsAt sign b y)
    (small : magnitude .binary64 a + magnitude .binary64 b ≤ limit) :
    ∃ place, Nearest .binary64 (magnitude .binary64 a + magnitude .binary64 b) place ∧
      StandsAt sign place (x + y) :=
  standsAt_of_roundsTo (left.stands.add right.stands) small

/-- Taking away a number of the other sign leads farther from zero. -/
theorem StandsAt.sub (left : StandsAt sign a x) (right : StandsAt (-sign) b y)
    (small : magnitude .binary64 a + magnitude .binary64 b ≤ limit) :
    ∃ place, Nearest .binary64 (magnitude .binary64 a + magnitude .binary64 b) place ∧
      StandsAt sign place (x - y) := by
  have opposite : Stands .binary64 sign y.toModel.unpack.neg b := by
    have turned := right.stands.neg
    cases sign <;> exact turned
  have rounded := left.stands.add opposite
  rw [← sub_eq_add_unpacked] at rounded
  exact standsAt_of_roundsTo rounded small

end Results

section WholeParts

variable {place : ℕ} {x : Float}

theorem StandsAt.isInf {sign : Sign} (stands : StandsAt sign place x) : x.isInf = false := by
  change x.toModel.unpack.isInf = false
  obtain ⟨stands, -⟩ := stands
  generalize x.toModel.unpack = u at stands
  cases stands <;> rfl

/-- Away from the sign, no number is farther from zero than its whole part. -/
theorem toWhole_of_standsAt {sign : Sign} {direction : Direction}
    (kept : ∀ fraction scale, direction.grows sign fraction scale = false)
    (stands : StandsAt sign place x) :
    toWhole direction x = sign.apply ⌊magnitude .binary64 place⌋₊ := by
  obtain ⟨stands, -⟩ := stands
  unfold toWhole
  generalize x.toModel.unpack = u at stands
  cases stands with
  | zero =>
      rw [magnitude_zero, Nat.floor_zero]
      cases sign <;> rfl
  | finite bounded canonical =>
      rw [magnitude_eq bounded.le canonical, floor_scaled, ← Nat.one_shiftLeft]
      simp only [kept]
      cases sign <;> simp [Sign.apply]

theorem floor_of_standsAt (stands : StandsAt .positive place x) :
    floor x = ⌊magnitude .binary64 place⌋₊ :=
  toWhole_of_standsAt (fun _ _ => rfl) stands

theorem ceil_of_standsAt (stands : StandsAt .negative place x) :
    ceil x = -⌊magnitude .binary64 place⌋₊ :=
  toWhole_of_standsAt (fun _ _ => rfl) stands

end WholeParts

/-- A 32-bit amount that is not beyond the bound has its exact value in the wide format as well. -/
theorem standsAt_widen {x : Float32} (amount : Amount x) (small : Binary32.exact x ≤ limit) :
    ∃ place, magnitude .binary64 place = Binary32.exact x ∧ StandsAt .positive place (widen x) := by
  have stands := amount.stands
  unfold Binary32.exact at small ⊢
  generalize (Binary32.level x).toNat = level at stands small ⊢
  unfold widen
  generalize Binary32.unpack x = u at stands ⊢
  cases stands with
  | zero =>
      refine ⟨0, ?_, standsAt_pack .zero (by decide)⟩
      rw [magnitude_zero, magnitude_zero]
  | @finite octave mantissa positive bounded canonical =>
      rw [magnitude_eq bounded.le canonical] at small ⊢
      have exponents : (Format.minExponent .binary32 + octave : ℤ) =
          Format.minExponent .binary64 + (octave + 925 : ℕ) := by
        change (-149 + octave : ℤ) = -1074 + (octave + 925 : ℕ)
        push_cast
        ring
      have room : mantissa < 2 * stride .binary64 := bounded.trans (by decide)
      rw [exponents] at small ⊢
      obtain ⟨place, stands, value⟩ := stands_round .positive room (octave + 925)
      refine ⟨place, value, standsAt_pack stands ?_⟩
      exact finite_of_nearest (.of_magnitude place) (value.trans_le small)

end ViewClassifier.Binary64
