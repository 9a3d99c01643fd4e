import ViewClassifier.Proofs.Image.Regions
import ViewClassifier.Proofs.Region.Reading

/-!
# Corners in any order

The two corners of a region may come in either order. As long as no coordinate is NaN, the region has
the same ends on both axes, and every image the same crop. The order of two zeros with different signs
shows only in the words of a refusal.
-/

set_option autoImplicit false

namespace ViewClassifier

open Binary32 (value exact Extent)

namespace Region

/-- The last two pieces of a text before its first two. -/
def exchanged (text : String) : String :=
  let pieces := text.toList.splitOn ','
  String.ofList ([','].intercalate (pieces.drop 2 ++ pieces.take 2))

/-- The ends of an axis in order, and the same for two regions. -/
structure SameEnds (low high low' high' : Float32) : Prop where
  inOrder : low ≤ high
  inOrder' : low' ≤ high'
  least : value low = value low'
  greatest : value high = value high'

/-- One image is cut out for two regions, or both lie outside of the image. A refusal names the region
that it is about. -/
inductive SameCrop (image : Image) (r r' : Region) : Prop where
  | pixels {crop : Image} (first : image.cropRegion r = .ok crop)
      (second : image.cropRegion r' = .ok crop) : SameCrop image r r'
  | outside (first : image.cropRegion r = .error (.invalidConfig (.regionOutside r image.dims)))
      (second : image.cropRegion r' = .error (.invalidConfig (.regionOutside r' image.dims))) :
      SameCrop image r r'

section Ends

variable {a b x y : Float32}

theorem ordered_cases (a b : Float32) : ordered a b = (a, b) ∨ ordered a b = (b, a) := by
  unfold ordered
  split
  · exact .inl rfl
  · exact .inr rfl

theorem numbers_of_ordered (first : (ordered a b).1.isNaN = false)
    (second : (ordered a b).2.isNaN = false) : a.isNaN = false ∧ b.isNaN = false := by
  rcases ordered_cases a b with same | same
  · rw [same] at first second
    exact ⟨first, second⟩
  · rw [same] at first second
    exact ⟨second, first⟩

theorem Ends.numbers {low high : Float32} (ends : Ends low high a b) (aNumber : a.isNaN = false)
    (bNumber : b.isNaN = false) : low.isNaN = false ∧ high.isNaN = false := by
  rcases ends.held with ⟨rfl, rfl⟩ | ⟨rfl, rfl⟩
  · exact ⟨aNumber, bNumber⟩
  · exact ⟨bNumber, aNumber⟩

theorem Ends.inOrder {low high : Float32} (ends : Ends low high a b) (aNumber : a.isNaN = false)
    (bNumber : b.isNaN = false) : low ≤ high := by
  obtain ⟨lowNumber, highNumber⟩ := ends.numbers aNumber bNumber
  rw [Binary32.le_iff_value_le lowNumber highNumber, ends.least, ends.greatest]
  exact min_le_max

/-- Ends without NaN do not depend on the order in which they are given. -/
theorem sameEnds_ordered (first : (ordered a b).1.isNaN = false)
    (second : (ordered a b).2.isNaN = false) :
    SameEnds (ordered a b).1 (ordered a b).2 (ordered b a).1 (ordered b a).2 := by
  obtain ⟨aNumber, bNumber⟩ := numbers_of_ordered first second
  have ends := ends_ordered aNumber bNumber
  have swapped := ends_ordered bNumber aNumber
  refine ⟨ends.inOrder aNumber bNumber, swapped.inOrder bNumber aNumber, ?_, ?_⟩
  · rw [ends.least, swapped.least, min_comm]
  · rw [ends.greatest, swapped.greatest, max_comm]

/-- The number above zero that a coordinate stands for does not depend on the sign of a zero. -/
theorem exact_above_zero (xNumber : x.isNaN = false) (yNumber : y.isNaN = false)
    (same : value x = value y) :
    Extent (Binary32.max x 0) ∧ Extent (Binary32.max y 0) ∧
      exact (Binary32.max x 0) = exact (Binary32.max y 0) := by
  obtain ⟨xExtent, xLevel⟩ := Binary32.max_zero_spec xNumber
  obtain ⟨yExtent, yLevel⟩ := Binary32.max_zero_spec yNumber
  have levels := (Binary32.value_eq_iff xNumber yNumber).mp same
  refine ⟨xExtent, yExtent, ?_⟩
  unfold exact
  rw [xLevel, yLevel, levels]

theorem regionStart_congr (xNumber : x.isNaN = false) (yNumber : y.isNaN = false)
    (same : value x = value y) (length : ℕ) :
    Image.regionStart x length = Image.regionStart y length := by
  obtain ⟨xExtent, yExtent, amounts⟩ := exact_above_zero xNumber yNumber same
  unfold Image.regionStart
  rw [xExtent.toCount_eq, yExtent.toCount_eq, amounts]

theorem regionEnd_congr (xNumber : x.isNaN = false) (yNumber : y.isNaN = false)
    (same : value x = value y) (length : ℕ) :
    Image.regionEnd x length = Image.regionEnd y length := by
  obtain ⟨xExtent, yExtent, amounts⟩ := exact_above_zero xNumber yNumber same
  unfold Image.regionEnd
  rw [xExtent.toCount_ceil, yExtent.toCount_ceil, amounts]

end Ends

section Crops

variable {r r' : Region}

theorem SameEnds.regionStart_eq {low high low' high' : Float32}
    (ends : SameEnds low high low' high') (length : ℕ) :
    Image.regionStart low length = Image.regionStart low' length :=
  regionStart_congr (Binary32.numbers_of_le ends.inOrder).1 (Binary32.numbers_of_le ends.inOrder').1
    ends.least length

theorem SameEnds.regionEnd_eq {low high low' high' : Float32}
    (ends : SameEnds low high low' high') (length : ℕ) :
    Image.regionEnd high length = Image.regionEnd high' length :=
  regionEnd_congr (Binary32.numbers_of_le ends.inOrder).2 (Binary32.numbers_of_le ends.inOrder').2
    ends.greatest length

theorem sameCrop_of_sameEnds (xEnds : SameEnds r.minX r.maxX r'.minX r'.maxX)
    (yEnds : SameEnds r.minY r.maxY r'.minY r'.maxY) (image : Image) : SameCrop image r r' := by
  by_cases outside : Image.regionEnd r'.maxX image.width ≤ Image.regionStart r'.minX image.width ∨
      Image.regionEnd r'.maxY image.height ≤ Image.regionStart r'.minY image.height
  · refine .outside ?_ (if_pos outside)
    rw [← xEnds.regionStart_eq, ← xEnds.regionEnd_eq, ← yEnds.regionStart_eq,
      ← yEnds.regionEnd_eq] at outside
    exact if_pos outside
  · refine .pixels ?_ (if_neg outside)
    unfold Image.cropRegion
    dsimp only
    rw [xEnds.regionStart_eq, xEnds.regionEnd_eq, yEnds.regionStart_eq, yEnds.regionEnd_eq]
    exact if_neg outside

end Crops

/-- A text with its corners exchanged is read as well. Where no coordinate is NaN the ends of both
regions are in order and the same, and so are their crops. -/
theorem ofText_exchanged {text : String} {r : Region} (read : ofText text = .ok r) :
    ∃ r', ofText (exchanged text) = .ok r' ∧
      (r.minX.isNaN = false → r.maxX.isNaN = false →
        SameEnds r.minX r.maxX r'.minX r'.maxX) ∧
      (r.minY.isNaN = false → r.maxY.isNaN = false →
        SameEnds r.minY r.maxY r'.minY r'.maxY) ∧
      (r.HasNumbers → ∀ image : Image, SameCrop image r r') := by
  obtain ⟨x₁, y₁, x₂, y₂, values, rfl⟩ := ofText_eq_ok_iff.mp read
  have xEnds : (ordered x₁ x₂).1.isNaN = false → (ordered x₁ x₂).2.isNaN = false → _ :=
    sameEnds_ordered
  have yEnds : (ordered y₁ y₂).1.isNaN = false → (ordered y₁ y₂).2.isNaN = false → _ :=
    sameEnds_ordered
  refine ⟨ofCorners x₂ y₂ x₁ y₁, ofText_eq_ok_iff.mpr ⟨x₂, y₂, x₁, y₁, ?_, rfl⟩, xEnds, yEnds, ?_⟩
  · obtain ⟨p₁, _, parts, first, values⟩ := List.map_eq_cons_iff.mp values
    obtain ⟨q₁, _, rfl, second, values⟩ := List.map_eq_cons_iff.mp values
    obtain ⟨p₂, _, rfl, third, values⟩ := List.map_eq_cons_iff.mp values
    obtain ⟨q₂, _, rfl, fourth, values⟩ := List.map_eq_cons_iff.mp values
    obtain rfl := List.map_eq_nil_iff.mp values
    have parted : ∀ piece ∈ [p₂, q₂, p₁, q₁], ',' ∉ piece := by
      intro piece member
      refine @Text.not_mem_of_mem_splitOn ',' text.toList piece ?_
      rw [parts]
      exact (@List.perm_append_comm _ [p₂, q₂] [p₁, q₁]).mem_iff.mp member
    unfold exchanged
    rw [parts, String.toList_ofList]
    change List.map readNumber (List.splitOn ',' ([','].intercalate [p₂, q₂, p₁, q₁])) = _
    rw [List.splitOn_intercalate ',' parted (List.cons_ne_nil _ _), List.map_cons, third,
      List.map_cons, fourth, List.map_cons, first, List.map_cons, second, List.map_nil]
  · intro numbers image
    exact sameCrop_of_sameEnds (xEnds numbers.minX numbers.maxX) (yEnds numbers.minY numbers.maxY)
      image

/-- Three rows of four pixels with the corners of a region from the bottom right to the top left. -/
theorem ofText_exchanged_ramp :
    ∃ r', ofText "0.5,1,3,2" = .ok r' ∧ SameEnds 0.5 3 r'.minX r'.maxX ∧
      SameEnds 1 2 r'.minY r'.maxY ∧ SameCrop Image.ramp ⟨0.5, 1, 3, 2⟩ r' := by
  have read : ofText "3,2,0.5,1" = .ok ⟨0.5, 1, 3, 2⟩ := by decide
  have text : exchanged "3,2,0.5,1" = "0.5,1,3,2" := by decide
  obtain ⟨r', again, xEnds, yEnds, crops⟩ := ofText_exchanged read
  rw [text] at again
  exact ⟨r', again, xEnds (by decide) (by decide), yEnds (by decide) (by decide),
    crops ⟨by decide, by decide, by decide, by decide⟩ Image.ramp⟩

/-- NaN stays at the end that the order of the corners gives it, so that only one of the two regions has
a crop. Two zeros change their places as well, and the words of a refusal show their signs. -/
theorem ofText_exchanged_outOfOrder :
    (∃ r r' crop, ofText "nan,0,1,1" = .ok r ∧ ofText (exchanged "nan,0,1,1") = .ok r' ∧
      ¬ r.minX ≤ r.maxX ∧ r.minX = 1 ∧ r'.minX.isNaN = true ∧
      Image.ramp.cropRegion r = .error (.invalidConfig (.regionOutside r Image.ramp.dims)) ∧
      Image.ramp.cropRegion r' = .ok crop) ∧
    ∃ r r' fault fault', ofText "0,0,-0,1" = .ok r ∧ ofText (exchanged "0,0,-0,1") = .ok r' ∧
      Image.ramp.cropRegion r = .error (.invalidConfig fault) ∧
      Image.ramp.cropRegion r' = .error (.invalidConfig fault') ∧ fault.message ≠ fault'.message := by
  constructor
  · exact ⟨⟨1, 0, Binary32.nan, 1⟩, ⟨Binary32.nan, 0, 1, 1⟩, _, by decide, by decide, by decide, rfl,
      by decide, rfl, rfl⟩
  · exact ⟨⟨-0, 0, 0, 1⟩, ⟨0, 0, -0, 1⟩, _, _, by decide, by decide, rfl, rfl, by decide⟩

end Region

end ViewClassifier
