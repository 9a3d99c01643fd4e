import Mathlib.Algebra.Group.Nat.Even
import ViewClassifier.Proofs.Image.Cropping
import ViewClassifier.Proofs.Places

/-!
# Ten crops

Each image of a list becomes ten windows: those at its corners, the centred one, and these five
reversed left to right. Windows and mirror images are described by their samples here. The ten windows
of a reversed image are those of the image in another order, provided that the image has a centre.
-/

set_option autoImplicit false

namespace ViewClassifier

namespace Image

/-- The part of an image that begins at a row and a column and lies inside the image. -/
structure IsWindow (image : Image) (crop : Dims) (y x : Nat) (window : Image) : Prop where
  rows_le : y + crop.height ≤ image.height
  columns_le : x + crop.width ≤ image.width
  dims_eq : window.dims = crop
  channels_eq : window.channels = image.channels
  get_eq : ∀ i j c, i < crop.height → j < crop.width → c < image.channels →
    window.get i j c = image.get (y + i) (x + j) c

/-- The image with the columns from right to left. -/
structure IsMirror (image mirrored : Image) : Prop where
  dims_eq : mirrored.dims = image.dims
  channels_eq : mirrored.channels = image.channels
  get_eq : ∀ i j c, i < image.height → j < image.width → c < image.channels →
    mirrored.get i j c = image.get i (image.width - 1 - j) c

/-- The ten windows of an image stand in a list from a place on. -/
structure StandAt (image : Image) (crop : Dims) (crops : List Image) (start : Nat) : Prop where
  topLeft : ∃ window, crops[start]? = some window ∧ image.IsWindow crop 0 0 window
  topRight : ∃ window, crops[start + 1]? = some window ∧
    image.IsWindow crop 0 (image.width - crop.width) window
  bottomLeft : ∃ window, crops[start + 2]? = some window ∧
    image.IsWindow crop (image.height - crop.height) 0 window
  bottomRight : ∃ window, crops[start + 3]? = some window ∧
    image.IsWindow crop (image.height - crop.height) (image.width - crop.width) window
  centred : ∃ window, crops[start + 4]? = some window ∧ image.centerCrop crop = .ok window
  mirrored : ∀ j < 5, ∃ window mirror, crops[start + j]? = some window ∧
    crops[start + 5 + j]? = some mirror ∧ window.IsMirror mirror
  shape : ∀ j < 10, ∃ window, crops[start + j]? = some window ∧ window.dims = crop ∧
    window.channels = image.channels

section Windows

variable {image mirrored : Image} {crop : Dims} {y x : Nat}

theorem isWindow_cut (rows : y + crop.height ≤ image.height) (columns : x + crop.width ≤ image.width) :
    image.IsWindow crop y x (image.cut y x crop) where
  rows_le := rows
  columns_le := columns
  dims_eq := rfl
  channels_eq := rfl
  get_eq := fun _ _ _ hi hj hc => Volume.get_ofFn _ hi hj hc

theorem isMirror_flip (image : Image) : image.IsMirror image.flip where
  dims_eq := rfl
  channels_eq := rfl
  get_eq := fun _ _ _ hi hj hc => Volume.get_ofFn _ hi hj hc

theorem IsMirror.eq_flip (mirror : image.IsMirror mirrored) : mirrored = image.flip := by
  have heights : mirrored.height = image.height := congrArg Dims.height mirror.dims_eq
  have widths : mirrored.width = image.width := congrArg Dims.width mirror.dims_eq
  refine Volume.ext_get heights widths mirror.channels_eq fun i j c hi hj hc => ?_
  have inRows : i < image.height := heights ▸ hi
  have inColumns : j < image.width := widths ▸ hj
  have inChannels : c < image.channels := mirror.channels_eq ▸ hc
  rw [mirror.get_eq i j c inRows inColumns inChannels]
  exact (image.isMirror_flip.get_eq i j c inRows inColumns inChannels).symm

theorem flip_flip (image : Image) : image.flip.flip = image := by
  refine Volume.ofFn_eq ⟨rfl, rfl, rfl⟩ fun i j c hi hj hc => ?_
  change image.flip.get i (image.width - 1 - j) c = image.get i j c
  have inColumns : j < image.width := hj
  have opposite : image.width - 1 - j < image.width := by omega
  have back : image.width - 1 - (image.width - 1 - j) = j := by omega
  rw [image.isMirror_flip.get_eq i _ c hi opposite hc, back]

/-- A window of the reversed image is a reversed window, as far from the other side. -/
theorem cut_flip (rows : y + crop.height ≤ image.height)
    (columns : x + crop.width ≤ image.width) :
    image.flip.cut y x crop = (image.cut y (image.width - crop.width - x) crop).flip := by
  refine Volume.ext_get rfl rfl rfl fun i j c hi hj hc => ?_
  have inRows : i < crop.height := hi
  have inColumns : j < crop.width := hj
  have opposite : image.width - crop.width - x + crop.width ≤ image.width := by omega
  have column : crop.width - 1 - j < crop.width := by omega
  have place : image.width - crop.width - x + (crop.width - 1 - j) =
      image.width - 1 - (x + j) := by omega
  have window : image.flip.IsWindow crop y x (image.flip.cut y x crop) := isWindow_cut rows columns
  have source := window.get_eq i j c inRows inColumns hc
  have reversed := (image.cut y (image.width - crop.width - x) crop).isMirror_flip.get_eq i j c
    inRows inColumns hc
  have target := (isWindow_cut rows opposite).get_eq i (crop.width - 1 - j) c inRows column hc
  rw [source, image.isMirror_flip.get_eq _ _ c (by omega) (by omega) hc, reversed]
  change _ = (image.cut y (image.width - crop.width - x) crop).get i (crop.width - 1 - j) c
  rw [target, place]

end Windows

section Lists

variable {images : List Image} {image : Image} {crop : Dims} {crops : List Image} {start : Nat}

theorem standAt_of_tenCrops (fits : crop.FitsIn image.dims)
    (stored : ∀ j < 10, crops[start + j]? = (image.tenCrops crop)[j]?) :
    image.StandAt crop crops start := by
  have heightLe : crop.height ≤ image.height := fits.height_le
  have widthLe : crop.width ≤ image.width := fits.width_le
  have centred := centerCrop_eq_ok_iff.mpr ⟨fits, rfl⟩
  exact {
    topLeft := ⟨_, stored 0 (by omega), isWindow_cut (by omega) (by omega)⟩
    topRight := ⟨_, stored 1 (by omega), isWindow_cut (by omega) (by omega)⟩
    bottomLeft := ⟨_, stored 2 (by omega), isWindow_cut (by omega) (by omega)⟩
    bottomRight := ⟨_, stored 3 (by omega), isWindow_cut (by omega) (by omega)⟩
    centred := ⟨_, stored 4 (by omega), centred⟩
    mirrored := by
      intro j small
      have five : j < (image.fiveCrops crop).length := small
      have first : (image.tenCrops crop)[j]? = some (image.fiveCrops crop)[j] := by
        rw [tenCrops, List.getElem?_append_left five, List.getElem?_eq_getElem five]
      have second : (image.tenCrops crop)[5 + j]? = some (image.fiveCrops crop)[j].flip := by
        have later : 5 + j = (image.fiveCrops crop).length + j := rfl
        rw [tenCrops, later, List.getElem?_append_right (Nat.le_add_right _ _),
          Nat.add_sub_cancel_left, List.getElem?_map, List.getElem?_eq_getElem five]
        rfl
      refine ⟨_, _, (stored j (by omega)).trans first, ?_, isMirror_flip _⟩
      rw [Nat.add_assoc]
      exact (stored (5 + j) (by omega)).trans second
    shape := by
      intro j small
      have inside : j < (image.tenCrops crop).length := small
      have member := List.getElem_mem inside
      refine ⟨_, (stored j small).trans (List.getElem?_eq_getElem inside), ?_⟩
      exact mem_tenCrops member }

theorem length_of_oversample (accepted : oversample images crop = .ok crops) :
    crops.length = 10 * images.length := by
  obtain ⟨_, rfl⟩ := oversample_eq_ok_iff.mp accepted
  rw [Nat.mul_comm]
  exact length_flatMap_groups fun image _ => length_tenCrops image crop

theorem standAt_of_oversample (accepted : oversample images crop = .ok crops) {i : Nat}
    (inside : i < images.length) : images[i].StandAt crop crops (10 * i) := by
  obtain ⟨fits, rfl⟩ := oversample_eq_ok_iff.mp accepted
  refine standAt_of_tenCrops (fits _ (List.getElem_mem inside)) fun j small => ?_
  rw [Nat.mul_comm]
  exact getElem?_flatMap_groups (fun image _ => length_tenCrops image crop) inside small

theorem oversample_eq_error_iff {error : Error} :
    oversample images crop = .error error ↔
      ∃ front image rest, images = front ++ image :: rest ∧
        (∀ earlier ∈ front, crop.FitsIn earlier.dims) ∧ image.checkCrop crop = .error error := by
  have accepts : ∀ image : Image,
      (∃ windows, (do image.checkCrop crop; return image.tenCrops crop : Result (List Image)) =
        .ok windows) ↔ crop.FitsIn image.dims := by
    intro image
    rw [← checkCrop_eq_ok_iff]
    constructor
    · intro passed
      obtain ⟨_, passed⟩ := passed
      obtain ⟨_, checked, _⟩ := Result.bind_pure_eq_ok_iff.mp passed
      exact checked
    · intro checked
      exact ⟨_, Result.bind_pure_eq_ok_iff.mpr ⟨(), checked, rfl⟩⟩
  unfold oversample
  rw [Result.bind_pure_eq_error_iff, Result.mapM_eq_error_iff, Result.FirstError.iff_split]
  simp only [accepts, Result.bind_pure_eq_error_iff]

theorem oversample_append (images others : List Image) (crop : Dims) :
    oversample (images ++ others) crop = do
      let front ← oversample images crop
      let rest ← oversample others crop
      return front ++ rest := by
  unfold oversample
  rw [List.mapM_append]
  simp [List.flatten_append]

/-- A list of images is cut into ten windows each, unless one of them has no room for the crop. The
first such image decides the error. -/
theorem oversample_spec (images : List Image) (crop : Dims) :
    ((∃ crops, oversample images crop = .ok crops) ↔
        ∀ image ∈ images, 1 ≤ crop.height ∧ crop.height ≤ image.height ∧
          1 ≤ crop.width ∧ crop.width ≤ image.width) ∧
      (∀ error, oversample images crop = .error error ↔
        ∃ front image rest, images = front ++ image :: rest ∧
          (∀ earlier ∈ front, crop.FitsIn earlier.dims) ∧ image.checkCrop crop = .error error ∧
          error = .shapeMismatch (.crop image.dims crop)) ∧
      (∀ crops, oversample images crop = .ok crops →
        crops.length = 10 * images.length ∧
          ∀ i (inside : i < images.length), images[i].StandAt crop crops (10 * i)) ∧
      ∀ others, oversample (images ++ others) crop = do
        let front ← oversample images crop
        let rest ← oversample others crop
        return front ++ rest := by
  refine ⟨?_, ?_, ?_, fun others => oversample_append images others crop⟩
  · constructor
    · intro accepted image member
      obtain ⟨crops, accepted⟩ := accepted
      obtain ⟨heightPos, widthPos, heightLe, widthLe⟩ :=
        (oversample_eq_ok_iff.mp accepted).1 image member
      exact ⟨heightPos, heightLe, widthPos, widthLe⟩
    · intro fits
      refine ⟨_, oversample_eq_ok_iff.mpr ⟨fun image member => ?_, rfl⟩⟩
      obtain ⟨heightPos, heightLe, widthPos, widthLe⟩ := fits image member
      exact ⟨heightPos, widthPos, heightLe, widthLe⟩
  · intro error
    rw [oversample_eq_error_iff]
    constructor
    · intro refused
      obtain ⟨front, image, rest, split, before, refused⟩ := refused
      exact ⟨front, image, rest, split, before, refused, (checkCrop_eq_error_iff.mp refused).2⟩
    · intro refused
      obtain ⟨front, image, rest, split, before, refused, _⟩ := refused
      exact ⟨front, image, rest, split, before, refused⟩
  · intro crops accepted
    exact ⟨length_of_oversample accepted, fun i inside => standAt_of_oversample accepted inside⟩

end Lists

section Mirrored

variable {image mirrored : Image} {crop : Dims}

/-- The five windows of the reversed image. The left ones change places with the right ones, and
the centred one stays where the columns beside it have the same number on either side. -/
theorem fiveCrops_flip (fits : crop.FitsIn image.dims) (even : Even (image.width - crop.width)) :
    image.flip.fiveCrops crop =
      [(image.cut 0 (image.width - crop.width) crop).flip, (image.cut 0 0 crop).flip,
        (image.cut (image.height - crop.height) (image.width - crop.width) crop).flip,
        (image.cut (image.height - crop.height) 0 crop).flip, (image.centre crop).flip] := by
  have heightLe : crop.height ≤ image.height := fits.height_le
  have widthLe : crop.width ≤ image.width := fits.width_le
  have height : image.flip.height = image.height := rfl
  have width : image.flip.width = image.width := rfl
  obtain ⟨half, twice⟩ := even
  have middle : image.width - crop.width - (image.width - crop.width) / 2 =
      (image.width - crop.width) / 2 := by omega
  unfold fiveCrops centre
  rw [height, width]
  simp only [List.cons.injEq, and_true]
  refine ⟨?_, ?_, ?_, ?_, ?_⟩
  · rw [cut_flip (by omega) (by omega), Nat.sub_zero]
  · rw [cut_flip (by omega) (by omega), Nat.sub_self]
  · rw [cut_flip (by omega) (by omega), Nat.sub_zero]
  · rw [cut_flip (by omega) (by omega), Nat.sub_self]
  · rw [cut_flip (by omega) (by omega), middle]

/-- The ten windows of the reversed image are those of the image, in this order. -/
theorem oversample_mirrored (mirror : image.IsMirror mirrored) (fits : crop.FitsIn image.dims)
    (even : Even (image.width - crop.width)) :
    ∃ crops reordered, oversample [image] crop = .ok crops ∧
      oversample [mirrored] crop = .ok reordered ∧ crops.length = 10 ∧
      reordered.map some = [6, 5, 8, 7, 9, 1, 0, 3, 2, 4].map fun place : Nat => crops[place]? := by
  obtain rfl := mirror.eq_flip
  have single : ∀ source : Image, crop.FitsIn source.dims →
      oversample [source] crop = .ok (source.tenCrops crop) := by
    intro source inside
    refine oversample_eq_ok_iff.mpr ⟨fun image member => ?_, (List.flatMap_singleton _ _).symm⟩
    obtain rfl := List.mem_singleton.mp member
    exact inside
  refine ⟨_, _, single image fits, single image.flip fits, rfl, ?_⟩
  unfold tenCrops
  rw [fiveCrops_flip fits even]
  simp only [fiveCrops, List.map_cons, List.map_nil, flip_flip, List.cons_append, List.nil_append]
  rfl

/-- Two rows of four grey pixels. -/
def fourColumns : Image :=
  Volume.ofFn 2 4 1 fun i j _ => Binary32.ofNat (4 * i + j)

theorem oversample_mirrored_fourColumns :
    fourColumns.IsMirror fourColumns.flip ∧ Dims.FitsIn ⟨1, 2⟩ fourColumns.dims ∧
      Even (fourColumns.width - 2) ∧
      ∃ crops reordered, oversample [fourColumns] ⟨1, 2⟩ = .ok crops ∧
        oversample [fourColumns.flip] ⟨1, 2⟩ = .ok reordered ∧ crops.length = 10 ∧
        reordered.map some =
          [6, 5, 8, 7, 9, 1, 0, 3, 2, 4].map fun place : Nat => crops[place]? := by
  have mirror := fourColumns.isMirror_flip
  have fits : Dims.FitsIn ⟨1, 2⟩ fourColumns.dims :=
    ⟨by decide, by decide, by decide, by decide⟩
  have even : Even (fourColumns.width - 2) := ⟨1, rfl⟩
  exact ⟨mirror, fits, even, oversample_mirrored mirror fits even⟩

end Mirrored

end Image

end ViewClassifier
