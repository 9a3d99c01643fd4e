import ViewClassifier.Proofs.Binary32.Packing

/-!
# NaN

NaN in a sum makes NaN of it. It is less than nothing and nothing is less than it, so that a test
for a large difference does not find it.
-/

set_option autoImplicit false

namespace ViewClassifier.Binary32

open Float.Model (UnpackedFloat Format)
open Float.Model.UnpackedFloat (Sign roundWithAccuracy)

variable {x y : Float32}

theorem unpack_of_isNaN (nan : x.isNaN = true) : unpack x = .notANumber := by
  change (unpack x).isNaN = true at nan
  cases form : unpack x with
  | notANumber => rfl
  | infinity => cases form ▸ nan
  | zero => cases form ▸ nan
  | finite => cases form ▸ nan

theorem isNaN_add_left (nan : x.isNaN = true) (y : Float32) : (x + y).isNaN = true := by
  change (pack (.add .binary32 (unpack x) (unpack y))).isNaN = true
  rw [isNaN_pack, unpack_of_isNaN nan]
  rfl

theorem isNaN_add_right (x : Float32) (nan : y.isNaN = true) : (x + y).isNaN = true := by
  change (pack (.add .binary32 (unpack x) (unpack y))).isNaN = true
  rw [isNaN_pack, unpack_of_isNaN nan]
  cases unpack x <;> rfl

theorem isNaN_div_left (nan : x.isNaN = true) (y : Float32) : (x / y).isNaN = true := by
  change (pack (.div .binary32 (unpack x) (unpack y))).isNaN = true
  rw [isNaN_pack, unpack_of_isNaN nan]
  rfl

theorem isNaN_roundWithAccuracy (format : Format) (sign : Sign) (mantissa : ℕ) (exponent : ℤ)
    (accuracy : UnpackedFloat.Accuracy) :
    (roundWithAccuracy format sign mantissa exponent accuracy).isNaN = false := by
  unfold roundWithAccuracy
  rw [apply_dite UnpackedFloat.isNaN]
  exact ite_self false

theorem isNaN_normalize (format : Format) (mantissa exponent : ℤ) (sign : Sign) :
    (UnpackedFloat.normalize format mantissa exponent sign).isNaN = false := by
  unfold UnpackedFloat.normalize
  split
  · exact isNaN_roundWithAccuracy _ _ _ _ _
  · rfl
  · exact isNaN_roundWithAccuracy _ _ _ _ _

/-- Only an infinite subtrahend makes NaN of a number. -/
theorem isNaN_sub (x : Float32) (number : y.isNaN = false) (finite : y.isInf = false) :
    (x - y).isNaN = x.isNaN := by
  change (unpack y).isNaN = false at number
  change (unpack y).isInf = false at finite
  change (pack (.sub .binary32 (unpack x) (unpack y))).isNaN = (unpack x).isNaN
  rw [isNaN_pack]
  cases formY : unpack y with
  | notANumber => cases formY ▸ number
  | infinity => cases formY ▸ finite
  | zero t =>
      cases unpack x with
      | zero s => cases s <;> cases t <;> rfl
      | _ => rfl
  | finite t n f _ =>
      cases unpack x with
      | finite s m e _ => exact isNaN_normalize _ _ _ _
      | _ => rfl

theorem isNaN_abs (x : Float32) : x.abs.isNaN = x.isNaN := by
  change (pack (unpack x).abs).isNaN = (unpack x).isNaN
  rw [isNaN_pack]
  cases unpack x <;> rfl

/-- What is not at most a number is greater than it or NaN. -/
theorem lt_iff_not_le (number : x.isNaN = false) (y : Float32) :
    x < y ↔ y.isNaN = false ∧ ¬ y ≤ x := by
  cases nan : y.isNaN with
  | true =>
      have incomparable : (unpack x).compare .notANumber = none := by
        cases unpack x <;> rfl
      rw [lt_iff_compare, unpack_of_isNaN nan, incomparable]
      exact iff_of_false (fun less => by cases less) (fun greater => by cases greater.1)
  | false =>
      rw [lt_iff_level_lt number nan, le_iff_level_le nan number, Int.not_le]
      exact (and_iff_right rfl).symm

theorem not_lt_iff (xNumber : x.isNaN = false) (yNumber : y.isNaN = false) : ¬ x < y ↔ y ≤ x := by
  rw [lt_iff_level_lt xNumber yNumber, le_iff_level_le yNumber xNumber, Int.not_lt]

theorem numbers_of_compare (comparable : (unpack x).compare (unpack y) ≠ none) :
    x.isNaN = false ∧ y.isNaN = false := by
  constructor
  · refine Bool.eq_false_iff.mpr fun nan => comparable ?_
    rw [unpack_of_isNaN nan]
    rfl
  · refine Bool.eq_false_iff.mpr fun nan => comparable ?_
    rw [unpack_of_isNaN nan]
    cases unpack x <;> rfl

theorem numbers_of_lt (less : x < y) : x.isNaN = false ∧ y.isNaN = false := by
  refine numbers_of_compare fun incomparable => ?_
  rw [lt_iff_compare, incomparable] at less
  cases less

theorem numbers_of_le (le : x ≤ y) : x.isNaN = false ∧ y.isNaN = false := by
  refine numbers_of_compare fun incomparable => ?_
  have compared : ((unpack x).compare (unpack y)).any (·.isLE) = true := of_decide_eq_true le
  rw [incomparable] at compared
  cases compared

end ViewClassifier.Binary32
