import Mathlib.Data.List.Sort
import ViewClassifier.Proofs.Binary32.Extremes
import ViewClassifier.Proofs.Binary32.Value
import ViewClassifier.Proofs.Image.Cropping
import ViewClassifier.Proofs.Places

/-!
# Regions of an image

A pixel takes the room from its coordinate to the next one. The crop of a region is made of the rows
and the columns that have room in common with it, and there is none if the region misses all rows or
all columns.
-/

set_option autoImplicit false

namespace ViewClassifier

open Binary32 (Extended level exact Extent)

/-- A region without NaN. -/
structure Region.HasNumbers (region : Region) : Prop where
  minX : region.minX.isNaN = false
  minY : region.minY.isNaN = false
  maxX : region.maxX.isNaN = false
  maxY : region.maxY.isNaN = false

namespace Image

/-- The pixels along one axis that lie between two coordinates, at least with a part of them. -/
def touched (low high : Float32) (length : ℕ) : List ℕ :=
  (List.range length).filter fun j =>
    decide ((j : ℚ) < Binary32.value high ∧ Binary32.value low < (j + 1 : ℚ))

/-- The pixels in some rows and some columns. -/
def restrict (image : Image) (rows columns : List ℕ) : Image :=
  Volume.ofFn rows.length columns.length image.channels fun i j c =>
    image.get (rows.getD i 0) (columns.getD j 0) c

section Axis

variable {low high : Float32} {length j : ℕ}

theorem regionStart_le_iff (number : low.isNaN = false) (sized : length < UInt64.size)
    (inside : j < length) :
    regionStart low length ≤ j ↔ Binary32.value low < ((j + 1 : ℚ) : Extended) := by
  have next : (0 : ℚ) < j + 1 := by positivity
  unfold regionStart
  rcases Int.lt_or_le 0 (level low) with positive | nonpos
  · have extent : Extent low := ⟨number, positive.le⟩
    rw [Binary32.max_zero_of_pos number positive, extent.toCount_eq]
    rcases extent.amount_or_infinite with amount | ⟨infinite, atLevel⟩
    · have whole : ⌊exact low⌋₊ < j + 1 ↔ exact low < j + 1 := by
        rw [Nat.floor_lt (Binary32.exact_nonneg low)]
        norm_cast
      rw [Binary32.value_of_amount amount, WithBotTop.coe_lt_coe, ← whole]
      omega
    · rw [Binary32.value_of_infinite infinite, Binary32.exact_of_infinite atLevel,
        Nat.floor_natCast]
      refine iff_of_false ?_ (not_lt.mpr le_top)
      have large : UInt64.size ≤ 2 ^ 128 := by decide
      omega
  · obtain ⟨extent, none⟩ := Binary32.max_zero_of_nonpos number nonpos
    rw [extent.toCount_eq, none, Nat.floor_zero]
    refine iff_of_true (by omega) ((Binary32.value_nonpos number nonpos).trans_lt ?_)
    exact WithBotTop.coe_lt_coe.mpr next

theorem lt_regionEnd_iff (number : high.isNaN = false) (sized : length < UInt64.size)
    (inside : j < length) :
    j < regionEnd high length ↔ ((j : ℚ) : Extended) < Binary32.value high := by
  unfold regionEnd
  rcases Int.lt_or_le 0 (level high) with positive | nonpos
  · have extent : Extent high := ⟨number, positive.le⟩
    rw [Binary32.max_zero_of_pos number positive, extent.toCount_ceil]
    rcases extent.amount_or_infinite with amount | ⟨infinite, atLevel⟩
    · have whole : j < ⌈exact high⌉₊ ↔ (j : ℚ) < exact high := Nat.lt_ceil
      rw [Binary32.value_of_amount amount, WithBotTop.coe_lt_coe, ← whole]
      omega
    · rw [Binary32.value_of_infinite infinite, Binary32.exact_of_infinite atLevel,
        Nat.ceil_natCast]
      refine iff_of_true ?_ (lt_top_iff_ne_top.mpr (WithBotTop.coe_ne_top _))
      have large : UInt64.size ≤ 2 ^ 128 := by decide
      omega
  · obtain ⟨extent, none⟩ := Binary32.max_zero_of_nonpos number nonpos
    rw [extent.toCount_ceil, none, Nat.ceil_zero]
    refine iff_of_false (by omega) (not_lt.mpr ((Binary32.value_nonpos number nonpos).trans ?_))
    exact WithBotTop.coe_le_coe.mpr (Nat.cast_nonneg j)

/-- The touched pixels follow one another from the start of the region to its end. -/
theorem touched_eq (lowNumber : low.isNaN = false) (highNumber : high.isNaN = false)
    (sized : length < UInt64.size) :
    touched low high length =
      List.range' (regionStart low length) (regionEnd high length - regionStart low length) := by
  have atMost : regionEnd high length ≤ length := Nat.min_le_right _ _
  refine List.Pairwise.eq_of_mem_iff (List.pairwise_lt_range.filter _) List.pairwise_lt_range' ?_
  intro j
  rw [touched, List.mem_filter, List.mem_range, decide_eq_true_iff, List.mem_range'_1]
  constructor
  · intro member
    obtain ⟨inside, above, below⟩ := member
    have start := (regionStart_le_iff lowNumber sized inside).mpr below
    have finish := (lt_regionEnd_iff highNumber sized inside).mpr above
    omega
  · intro member
    have inside : j < length := by omega
    refine ⟨inside, (lt_regionEnd_iff highNumber sized inside).mp (by omega), ?_⟩
    exact (regionStart_le_iff lowNumber sized inside).mp member.1

theorem touched_eq_nil_iff (lowNumber : low.isNaN = false) (highNumber : high.isNaN = false)
    (sized : length < UInt64.size) :
    touched low high length = [] ↔ regionEnd high length ≤ regionStart low length := by
  rw [touched_eq lowNumber highNumber sized, List.range'_eq_nil_iff, Nat.sub_eq_zero_iff_le]

end Axis

theorem cut_eq_restrict (image : Image) (y x : ℕ) (crop : Dims) :
    image.cut y x crop =
      image.restrict (List.range' y crop.height) (List.range' x crop.width) := by
  refine Volume.ofFn_eq ⟨List.length_range', List.length_range', rfl⟩ ?_
  intro i j c hi hj hc
  have rowPlace : (List.range' y crop.height).getD i 0 = y + i := by
    rw [List.getD_eq_getElem?_getD, List.getElem?_range' hi, Nat.one_mul, Option.getD_some]
  have columnPlace : (List.range' x crop.width).getD j 0 = x + j := by
    rw [List.getD_eq_getElem?_getD, List.getElem?_range' hj, Nat.one_mul, Option.getD_some]
  rw [restrict, Volume.get_ofFn _ (by rwa [List.length_range']) (by rwa [List.length_range']) hc,
    rowPlace, columnPlace]

section Crop

variable {image : Image} {region : Region}

/-- A region keeps the pixels that it touches, and fails when there are none. All of the rows and
columns that are read are inside the image. -/
theorem cropRegion_eq (numbers : region.HasNumbers) (height : image.height < UInt64.size)
    (width : image.width < UInt64.size) :
    let rows := touched region.minY region.maxY image.height
    let columns := touched region.minX region.maxX image.width
    image.cropRegion region =
        (if rows = [] ∨ columns = [] then
          .error (.invalidConfig (.regionOutside region image.dims))
        else .ok (image.restrict rows columns)) ∧
      rows = List.range' (regionStart region.minY image.height)
        (regionEnd region.maxY image.height - regionStart region.minY image.height) ∧
      columns = List.range' (regionStart region.minX image.width)
        (regionEnd region.maxX image.width - regionStart region.minX image.width) ∧
      (∀ i ∈ rows, i < image.height) ∧ ∀ j ∈ columns, j < image.width := by
  intro rows columns
  have rowPlaces : rows = _ := touched_eq numbers.minY numbers.maxY height
  have columnPlaces : columns = _ := touched_eq numbers.minX numbers.maxX width
  have noRows : rows = [] ↔ _ := touched_eq_nil_iff numbers.minY numbers.maxY height
  have noColumns : columns = [] ↔ _ := touched_eq_nil_iff numbers.minX numbers.maxX width
  refine ⟨?_, rowPlaces, columnPlaces, ?_, ?_⟩
  · have cropped := image.cut_eq_restrict (regionStart region.minY image.height)
      (regionStart region.minX image.width)
      ⟨regionEnd region.maxY image.height - regionStart region.minY image.height,
        regionEnd region.maxX image.width - regionStart region.minX image.width⟩
    rw [← rowPlaces, ← columnPlaces] at cropped
    have outside : (rows = [] ∨ columns = []) ↔ _ := or_comm.trans (or_congr noColumns noRows)
    unfold cropRegion
    simp only [cropped, outside]
  · exact fun i member => List.mem_range.mp (List.mem_of_mem_filter member)
  · exact fun j member => List.mem_range.mp (List.mem_of_mem_filter member)

/-- Three rows of four grey pixels. -/
def ramp : Image :=
  Volume.ofFn 3 4 1 fun i j _ => Binary32.ofNat (4 * i + j)

/-- A region that begins left of the image, has no right end and ends inside the second row. -/
def band : Region :=
  ⟨-0.5, 1, Binary32.infinity, 1.25⟩

theorem cropRegion_band : band.HasNumbers ∧ ramp.height < UInt64.size ∧ ramp.width < UInt64.size ∧
    ramp.cropRegion band = .ok (ramp.restrict [1] [0, 1, 2, 3]) := by
  have numbers : band.HasNumbers := ⟨by decide, by decide, by decide, by decide⟩
  have height : ramp.height < UInt64.size := by decide
  have width : ramp.width < UInt64.size := by decide
  obtain ⟨cropped, rows, columns, _⟩ := cropRegion_eq numbers height width
  have rows : touched band.minY band.maxY ramp.height = [1] := rows.trans (by decide)
  have columns : touched band.minX band.maxX ramp.width = [0, 1, 2, 3] :=
    columns.trans (by decide)
  rw [rows, columns] at cropped
  exact ⟨numbers, height, width, cropped⟩

end Crop

end Image

end ViewClassifier
