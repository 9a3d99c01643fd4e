import ViewClassifier.Proofs.Image.UnitSamples

/-!
# Resampling an image to its own size

The window of a sample over a source of the same length has the weight one at that sample and zero
beside it. No step is rounded, so that a pass gives back the numbers it was given. This is why an
image that has a size already can be returned as it is.
-/

set_option autoImplicit false

namespace ViewClassifier

open Binary32

namespace Window

variable {length place : ℕ}

theorem ratio_self (some : 0 < length) (small : length ≤ 2 ^ 23) : ratio length length = 1 :=
  (amount_ofNat (show length < 2 ^ 64 by omega)).div_eq_one (level_ofNat_pos some)

theorem reach_one : reach 1 = 1 :=
  if_neg (show ¬ (1 : Float32) < 1 by decide)

theorem fits_difference {i j : ℕ} (left : i < 2 ^ 23) (right : j < 2 ^ 23) : Fits (i - j) := by
  have double : 2 * (i - j : ℚ) = (2 * i - 2 * j : ℤ) := by push_cast; ring
  exact fits_of_double double (by omega)

section Weights

variable (inside : place < length) (small : length ≤ 2 ^ 23)

include inside small

theorem centre_self :
    Between (place + 1 / 2) (place + 1 / 2) (centre length length place) := by
  have middle := between_middle (show place < 2 ^ 23 by omega)
  have fits := fits_signed middle.finite
  rw [middle.signed_eq] at fits
  have product := middle.mul_exact between_one (by rwa [mul_one])
  rw [mul_one] at product
  rwa [centre, ratio_self (by omega) small]

theorem between_offset {i : ℕ} (on : i < length) :
    Between (i - place) (i - place)
      ((ofNat i - (centre length length place - 0.5)) / reach (ratio length length)) := by
  have fits := fits_natCast (show place < 2 ^ 24 by omega)
  have middle : Between place place (centre length length place - 0.5) :=
    (centre_self inside small).sub between_half fits fits (by linarith) (by linarith)
  have room : Fits (i - place : ℚ) := fits_difference (by omega) (by omega)
  rw [ratio_self (by omega) small, reach_one]
  exact ((between_ofNat (by omega)).sub middle room room le_rfl le_rfl).over_one

theorem rawWeight_self : Between 1 1 (rawWeight length length place place) := by
  have offset := between_offset inside small inside
  rw [sub_self] at offset
  have near := triangle_of_near (offset.mono neg_zero.le le_rfl) zero_lt_one
    ((sub_zero (1 : ℚ)).symm ▸ fits_one)
  rwa [sub_zero] at near

theorem rawWeight_beside {i : ℕ} (on : i < length) (beside : i ≠ place) :
    rawWeight length length place i = 0 := by
  have offset := between_offset inside small on
  have apart : (1 : ℤ) ≤ |(i : ℤ) - place| := Int.one_le_abs (by omega)
  refine triangle_of_far offset.finite ?_
  rw [offset.signed_eq]
  exact_mod_cast apart

/-- The window covers the sample itself. -/
theorem range_self : (range length length place).1 ≤ place ∧ place < (range length length place).2 := by
  have held := (centre_self inside small).mono (show (place : ℚ) ≤ place + 1 / 2 by linarith)
    (show (place + 1 / 2 : ℚ) ≤ place + 1 by linarith)
  exact bounds_cover inside small held (between_reach ⟨by omega, small, inside, small⟩)

theorem sum_self : sum length length place = 1 := by
  obtain ⟨first, last⟩ := range_self inside small
  obtain ⟨_, within⟩ := range_inside (show 0 < length by omega) length place
  have counted := length_rawWeights length length place
  have there : place - (range length length place).1 < (rawWeights length length place).length := by
    omega
  refine Between.eq_of_pos (foldl_of_single there ?_ fun i h other => ?_) between_one zero_lt_one
  · rw [getElem_rawWeights, Nat.add_sub_cancel' first]
    exact rawWeight_self inside small
  · rw [getElem_rawWeights, rawWeight_beside inside small (by omega) (by omega)]
    exact between_zero

/-- A blend over the window is the sample itself. A zero may lose its sign. -/
theorem blend_self {samples : ℕ → Float32} (finite : ∀ i, (samples i).isFinite = true) :
    Between (signed (samples place)) (signed (samples place))
      ((Window.of length length place).blend samples) := by
  obtain ⟨first, last⟩ := range_self inside small
  obtain ⟨_, within⟩ := range_inside (show 0 < length by omega) length place
  have counted := length_rawWeights length length place
  have there : place - (range length length place).1 <
      ((Window.of length length place).products samples).length := by
    rw [length_products, of_eq, List.length_map]
    omega
  rw [blend_eq]
  refine foldl_of_single there ?_ fun i h other => ?_
  · have sample := between_signed (finite place)
    have fits := fits_signed (finite place)
    rw [getElem_products, Nat.add_sub_cancel' first, sum_self inside small]
    have product := sample.mul_exact (rawWeight_self inside small).over_one (by rwa [mul_one])
    rwa [mul_one] at product
  · rw [length_products, of_eq, List.length_map] at h
    rw [getElem_products, rawWeight_beside inside small (by omega) (by omega),
      sum_self inside small]
    have product := (between_signed (finite ((range length length place).1 + i))).mul_exact
      between_zero.over_one (by rw [mul_zero]; exact fits_zero)
    rwa [mul_zero] at product

end Weights

end Window

namespace Image

variable {image other : Image}

/-- Images of one shape whose samples are equal as numbers. A zero may have another sign. -/
structure EqualNumbers (image other : Image) : Prop where
  dims : image.dims = other.dims
  channels : image.channels = other.channels
  samples : ∀ y x c, y < other.height → x < other.width → c < other.channels →
    (image.get y x c == other.get y x c) = true

section Passes

variable (finite : ∀ y x c, (image.get y x c).isFinite = true) {y x c : ℕ}
  (hy : y < image.height) (hx : x < image.width) (hc : c < image.channels)

include finite hy hx hc

theorem resampleRows_own (small : image.height ≤ 2 ^ 23) :
    Between (signed (image.get y x c)) (signed (image.get y x c))
      ((image.resampleRows image.height).get y x c) := by
  have blended := @Window.blend_self _ _ hy small (fun i => image.get i x c)
    fun i => finite i x c
  rw [resampleRows, Volume.get_ofFn _ hy hx hc, windowAt_windows hy]
  exact blended

theorem resampleColumns_own (small : image.width ≤ 2 ^ 23) :
    ((image.resampleColumns image.width).get y x c).isNaN = false ∧
      signed ((image.resampleColumns image.width).get y x c) =
        Max.max 0 (Min.min 1 (signed (image.get y x c))) := by
  have blended := @Window.blend_self _ _ hx small (fun i => image.get y i c)
    fun i => finite y i c
  have clamped := clampUnit_spec blended.number
  rw [blended.signed_eq] at clamped
  rw [resampleColumns, Volume.get_ofFn _ hy hx hc, windowAt_windows hx]
  exact clamped

end Passes

section Images

variable (finite : ∀ y x c, (image.get y x c).isFinite = true)

include finite

theorem isFinite_resampleRows (small : image.height ≤ 2 ^ 23) (y x c : ℕ) :
    ((image.resampleRows image.height).get y x c).isFinite = true := by
  refine @Volume.forall_get _ (fun v => v.isFinite = true) between_zero.finite ?_ y x c
  intro y x c (hy : y < image.height) (hx : x < image.width) (hc : c < image.channels)
  exact (resampleRows_own finite hy hx hc small).finite

theorem equalNumbers_resampleRows (small : image.height ≤ 2 ^ 23) :
    EqualNumbers (image.resampleRows image.height) image := by
  refine ⟨rfl, rfl, fun y x c hy hx hc => ?_⟩
  have same := resampleRows_own finite hy hx hc small
  exact (beq_iff_signed_eq same.number (isNaN_of_isFinite (finite y x c))).mpr same.signed_eq

theorem equalNumbers_resampleColumns (small : image.width ≤ 2 ^ 23) :
    EqualNumbers (image.resampleColumns image.width) (image.map clampUnit) := by
  refine ⟨rfl, rfl, ?_⟩
  intro y x c (hy : y < image.height) (hx : x < image.width) (hc : c < image.channels)
  obtain ⟨number, same⟩ := resampleColumns_own finite hy hx hc small
  obtain ⟨clampedNumber, clamped⟩ := clampUnit_spec (isNaN_of_isFinite (finite y x c))
  rw [Volume.get_map clampUnit hy hx hc]
  exact (beq_iff_signed_eq number clampedNumber).mpr (same.trans clamped.symm)

end Images

theorem equalNumbers_resample (unit : SamplesBetween 0 1 image) (sides : ShortSides image.dims) :
    EqualNumbers (image.resample image.dims) image := by
  have finite : ∀ y x c, (image.get y x c).isFinite = true := fun y x c => (unit y x c).finite
  have rows := isFinite_resampleRows finite sides.height
  refine ⟨image.dims_resample _, image.channels_resample _, fun y x c hy hx hc => ?_⟩
  have row := resampleRows_own finite hy hx hc sides.height
  obtain ⟨number, same⟩ := resampleColumns_own rows hy hx hc sides.width
  have between := unit y x c
  rw [row.signed_eq, min_eq_right between.greatest, max_eq_right between.least] at same
  have filled : ¬ (image.height = 0 ∨ image.width = 0) := by omega
  rw [resample, if_neg filled]
  exact (beq_iff_signed_eq number between.number).mpr same

/-- A pass to the length that an image has gives back its finite samples, moved into the unit interval
by the pass over rows of pixels. An image with samples of the interval is resized to its own size
without resampling, and resampling it would give back its numbers. -/
theorem resample_own_size (finite : ∀ v ∈ image.data, v.isFinite = true) :
    (image.height ≤ 2 ^ 23 → EqualNumbers (image.resampleRows image.height) image) ∧
    (image.width ≤ 2 ^ 23 →
      EqualNumbers (image.resampleColumns image.width) (image.map clampUnit)) ∧
    ((∀ v ∈ image.data, 0 ≤ v ∧ v ≤ 1) → ShortSides image.dims →
      image.resize image.dims = .ok image ∧
        EqualNumbers (image.resample image.dims) image) := by
  have each := Volume.forall_get_of_data between_zero.finite finite
  refine ⟨equalNumbers_resampleRows each, equalNumbers_resampleColumns each, ?_⟩
  intro unit sides
  exact ⟨if_pos rfl, equalNumbers_resample (samplesBetween_unit_iff.mpr unit) sides⟩

/-- Three pixels, the last of which is a zero with a sign. -/
def signedZero : Image :=
  ⟨1, 3, 1, #[0.25, 1, -0], rfl⟩

theorem resample_own_size_signedZero :
    (∀ v ∈ signedZero.data, v.isFinite = true) ∧ (∀ v ∈ signedZero.data, 0 ≤ v ∧ v ≤ 1) ∧
      ShortSides signedZero.dims ∧ EqualNumbers (signedZero.resampleRows 1) signedZero ∧
      EqualNumbers (signedZero.resampleColumns 3) (signedZero.map clampUnit) ∧
      signedZero.resize ⟨1, 3⟩ = .ok signedZero ∧
      EqualNumbers (signedZero.resample ⟨1, 3⟩) signedZero := by
  have three : ∀ v ∈ signedZero.data, v = 0.25 ∨ v = 1 ∨ v = -0 := by
    intro v member
    simpa [signedZero] using member
  have finite : ∀ v ∈ signedZero.data, v.isFinite = true := by
    intro v member
    rcases three v member with rfl | rfl | rfl <;> decide
  have unit : ∀ v ∈ signedZero.data, 0 ≤ v ∧ v ≤ 1 := by
    intro v member
    rcases three v member with rfl | rfl | rfl <;> decide
  have sides : ShortSides signedZero.dims := ⟨by decide, by decide⟩
  obtain ⟨rows, columns, both⟩ := resample_own_size finite
  obtain ⟨kept, same⟩ := both unit sides
  exact ⟨finite, unit, sides, rows sides.height, columns sides.width, kept, same⟩

end Image

end ViewClassifier
