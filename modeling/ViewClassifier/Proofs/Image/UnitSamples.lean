import ViewClassifier.Proofs.Image.Resizing
import ViewClassifier.Proofs.Image.Windows
import ViewClassifier.Proofs.Places

/-!
# Samples in the unit interval

Resizing keeps the samples of an image in the unit interval and makes no NaN. The pass over columns of
pixels leaves the interval by rounding alone and stays finite, so that the pass over rows has numbers
to move back into it.
-/

set_option autoImplicit false

namespace ViewClassifier

open Binary32

namespace Image

variable {image : Image} {dims : Dims} {unit high : ℚ}

/-- All samples of an image keep two bounds, also the zeros that are read beside it. -/
def SamplesBetween (low high : ℚ) (image : Image) : Prop :=
  ∀ y x c, Between low high (image.get y x c)

theorem samplesBetween_ofFn {height width channels : ℕ} {f : ℕ → ℕ → ℕ → Float32}
    (nonneg : 0 ≤ high)
    (each : ∀ y x c, y < height → x < width → c < channels → Between 0 high (f y x c)) :
    SamplesBetween 0 high (Volume.ofFn height width channels f) := by
  refine Volume.forall_get (between_zero.mono le_rfl nonneg) fun y x c hy hx hc => ?_
  exact (Volume.get_ofFn f hy hx hc).symm ▸ each y x c hy hx hc

theorem samplesBetween_unit_iff :
    SamplesBetween 0 1 image ↔ ∀ v ∈ image.data, 0 ≤ v ∧ v ≤ 1 := by
  constructor
  · intro between v member
    obtain ⟨y, x, c, _, _, _, rfl⟩ := Volume.mem_data_iff.mp member
    exact between_unit_iff.mp (between y x c)
  · intro unit
    exact Volume.forall_get_of_data (between_zero.mono le_rfl zero_le_one)
      fun v member => between_unit_iff.mpr (unit v member)

/-- A blend is as many times greater than its samples as its source is long, or less. -/
theorem between_window {source length place : ℕ} (axis : Window.Axis source length place)
    {samples : ℕ → Float32} (multiples : FitsMultiples unit) (nonneg : 0 ≤ unit)
    (each : ∀ i, Between 0 unit (samples i)) :
    Between 0 (2 ^ 23 * unit) ((windowAt (windows source length) place).blend samples) := by
  have covers := (Window.shares_of axis).inside
  have many : (Window.of source length place).weights.length ≤ 2 ^ 23 := by
    have small := axis.small
    omega
  have count : ((Window.of source length place).weights.length : ℚ) ≤ 2 ^ 23 := by
    exact_mod_cast many
  have blended := Window.between_blend multiples each
    (fun _ => Window.between_of_mem_weights axis) (by omega)
  rw [windowAt_windows axis.inside]
  exact blended.mono le_rfl (mul_le_mul_of_nonneg_right count nonneg)

theorem resampleRows_between {height : ℕ} (some : 0 < image.height) (small : image.height ≤ 2 ^ 23)
    (few : height ≤ 2 ^ 23) (between : SamplesBetween 0 1 image) :
    SamplesBetween 0 (2 ^ 23) (image.resampleRows height) := by
  refine samplesBetween_ofFn (by norm_num) fun y x c inside _ _ => ?_
  have blended := between_window ⟨some, small, inside, few⟩ fitsMultiples_one zero_le_one
    fun i => between i x c
  rwa [mul_one] at blended

theorem resampleColumns_between {width : ℕ} (some : 0 < image.width) (small : image.width ≤ 2 ^ 23)
    (few : width ≤ 2 ^ 23) (between : SamplesBetween 0 (2 ^ 23) image) :
    SamplesBetween 0 1 (image.resampleColumns width) := by
  refine samplesBetween_ofFn zero_le_one fun y x c _ inside _ => ?_
  have blended := between_window ⟨some, small, inside, few⟩
    (fitsMultiples_two_pow (show 23 < 105 by decide)) (by norm_num) fun i => between y i c
  exact between_clampUnit blended.number

/-- Sides whose halves the mantissa can count. -/
structure ShortSides (dims : Dims) : Prop where
  height : dims.height ≤ 2 ^ 23
  width : dims.width ≤ 2 ^ 23

theorem resample_between (sides : ShortSides image.dims) (target : ShortSides dims)
    (between : SamplesBetween 0 1 image) : SamplesBetween 0 1 (image.resample dims) := by
  unfold resample
  by_cases empty : image.height = 0 ∨ image.width = 0
  · rw [if_pos empty]
    exact samplesBetween_ofFn zero_le_one fun _ _ _ _ _ _ => between_zero.mono le_rfl zero_le_one
  · rw [if_neg empty]
    obtain ⟨rows, columns⟩ := not_or.mp empty
    exact resampleColumns_between (Nat.pos_of_ne_zero columns) sides.width target.width
      (resampleRows_between (Nat.pos_of_ne_zero rows) sides.height target.height between)

theorem ShortSides.inWords (sides : ShortSides dims) : dims.InWords :=
  ⟨sides.height.trans_lt (by decide), sides.width.trans_lt (by decide)⟩

theorem atSize_between (sides : ShortSides image.dims) (target : ShortSides dims)
    (between : SamplesBetween 0 1 image) : SamplesBetween 0 1 (image.atSize dims) := by
  unfold atSize
  by_cases same : image.dims = dims
  · rw [if_pos same]
    exact between
  · rw [if_neg same, buffered_of_inWords sides.inWords]
    exact resample_between sides target between

/-- An image with samples of the unit interval can be given every size with pixels, and its samples
stay in the interval. All windows that are used lie on the image and have weights with a positive
sum. An image without pixels has no windows. -/
theorem resize_unit (channels : 0 < image.channels) (unit : ∀ v ∈ image.data, 0 ≤ v ∧ v ≤ 1)
    (sides : ShortSides image.dims) (pixels : 0 < dims.height ∧ 0 < dims.width)
    (target : ShortSides dims) :
    (∃ result, image.resize dims = .ok result ∧ result.dims = dims ∧
      result.channels = image.channels ∧
      ∀ v ∈ result.data, v.isNaN = false ∧ 0 ≤ v ∧ v ≤ 1) ∧
    (0 < image.height → ∀ y < dims.height,
      Window.Shares image.height (Window.rawWeights image.height dims.height y)
        (Window.of image.height dims.height y)) ∧
    (0 < image.width → ∀ x < dims.width,
      Window.Shares image.width (Window.rawWeights image.width dims.width x)
        (Window.of image.width dims.width x)) := by
  refine ⟨⟨image.atSize dims, ?_, dims_atSize image dims, channels_atSize image dims, ?_⟩, ?_, ?_⟩
  · exact resize_eq_ok_iff.mpr ⟨.inr ⟨pixels.1, pixels.2, channels, target.inWords⟩, rfl⟩
  · have between := atSize_between sides target (samplesBetween_unit_iff.mpr unit)
    intro v member
    have inside := samplesBetween_unit_iff.mp between v member
    exact ⟨(numbers_of_le inside.2).1, inside⟩
  · intro some y inside
    exact Window.shares_of ⟨some, sides.height, inside, target.height⟩
  · intro some x inside
    exact Window.shares_of ⟨some, sides.width, inside, target.width⟩

/-- Two pixels, at both ends of the unit interval. -/
def blackAndWhite : Image :=
  ⟨1, 2, 1, #[0, 1], rfl⟩

theorem resize_unit_blackAndWhite :
    0 < blackAndWhite.channels ∧ (∀ v ∈ blackAndWhite.data, 0 ≤ v ∧ v ≤ 1) ∧
      ShortSides blackAndWhite.dims ∧ ShortSides ⟨3, 1⟩ ∧
      (∃ result, blackAndWhite.resize ⟨3, 1⟩ = .ok result ∧ result.dims = ⟨3, 1⟩ ∧
        ∀ v ∈ result.data, v.isNaN = false ∧ 0 ≤ v ∧ v ≤ 1) ∧
      Window.Shares 1 (Window.rawWeights 1 3 2) (Window.of 1 3 2) ∧
      Window.Shares 2 (Window.rawWeights 2 1 0) (Window.of 2 1 0) := by
  have unit : ∀ v ∈ blackAndWhite.data, 0 ≤ v ∧ v ≤ 1 := by
    intro v member
    have two : v = 0 ∨ v = 1 := by simpa [blackAndWhite] using member
    rcases two with rfl | rfl
    · decide
    · decide
  have sides : ShortSides blackAndWhite.dims := ⟨by decide, by decide⟩
  have target : ShortSides ⟨3, 1⟩ := ⟨by decide, by decide⟩
  obtain ⟨⟨result, resized, dims, _, numbers⟩, rows, columns⟩ :=
    resize_unit (show 0 < blackAndWhite.channels by decide) unit sides (by decide) target
  exact ⟨by decide, unit, sides, target, ⟨result, resized, dims, numbers⟩,
    rows (by decide) 2 (by decide), columns (by decide) 0 (by decide)⟩

end Image

end ViewClassifier
