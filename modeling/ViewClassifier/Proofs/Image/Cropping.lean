import ViewClassifier.Image.Cropping
import ViewClassifier.Proofs.Result

/-!
# Cropping

When windows can be cut out of images, and the windows that result. A crop is checked against every
image, and the windows of a list of images are those of its members one after another.
-/

set_option autoImplicit false

namespace ViewClassifier

/-- A window that has pixels and is no larger than a grid. -/
structure Dims.FitsIn (window grid : Dims) : Prop where
  height_pos : 0 < window.height
  width_pos : 0 < window.width
  height_le : window.height ≤ grid.height
  width_le : window.width ≤ grid.width

theorem Dims.fitsIn_iff {window grid : Dims} :
    window.FitsIn grid ↔
      ¬ (window.height = 0 ∨ window.width = 0 ∨ grid.height = 0 ∨ grid.width = 0) ∧
        ¬ (grid.height < window.height ∨ grid.width < window.width) := by
  constructor
  · intro fits
    obtain ⟨heightPos, widthPos, heightLe, widthLe⟩ := fits
    omega
  · intro checks
    obtain ⟨pixels, inside⟩ := checks
    constructor <;> omega

namespace Image

@[simp] theorem dims_cut (image : Image) (y x : Nat) (crop : Dims) :
    (image.cut y x crop).dims = crop := rfl

@[simp] theorem channels_cut (image : Image) (y x : Nat) (crop : Dims) :
    (image.cut y x crop).channels = image.channels := rfl

@[simp] theorem dims_flip (image : Image) : image.flip.dims = image.dims := rfl

@[simp] theorem channels_flip (image : Image) : image.flip.channels = image.channels := rfl

theorem checkCrop_eq_ok_iff {image : Image} {crop : Dims} :
    image.checkCrop crop = .ok () ↔ crop.FitsIn image.dims := by
  unfold checkCrop
  split
  · next refused =>
      constructor
      · intro accepted
        cases accepted
      · intro fits
        obtain ⟨heightPos, widthPos, heightLe, widthLe⟩ := fits
        simp only [dims] at heightLe widthLe
        omega
  · next accepted =>
      refine ⟨fun _ => ⟨by omega, by omega, ?_, ?_⟩, fun _ => rfl⟩
      · exact Nat.le_of_not_lt fun larger => accepted (.inl larger)
      · exact Nat.le_of_not_lt fun larger => accepted (.inr (.inl larger))

theorem checkCrop_eq_error_iff {image : Image} {crop : Dims} {error : Error} :
    image.checkCrop crop = .error error ↔
      ¬ crop.FitsIn image.dims ∧ error = .shapeMismatch (.crop image.dims crop) := by
  rw [← checkCrop_eq_ok_iff]
  unfold checkCrop
  split
  · simp [eq_comm]
  · simp

theorem centerCrop_eq_ok_iff {image : Image} {crop : Dims} {result : Image} :
    image.centerCrop crop = .ok result ↔
      crop.FitsIn image.dims ∧ result = image.centre crop := by
  unfold centerCrop
  rw [Result.bind_pure_eq_ok_iff]
  constructor
  · intro passed
    obtain ⟨_, checked, shape⟩ := passed
    exact ⟨checkCrop_eq_ok_iff.mp checked, shape⟩
  · intro fitting
    obtain ⟨fits, shape⟩ := fitting
    exact ⟨(), checkCrop_eq_ok_iff.mpr fits, shape⟩

/-- Every one of the ten windows has the size of the crop and the channels of the image. -/
theorem mem_tenCrops {image window : Image} {crop : Dims} (member : window ∈ image.tenCrops crop) :
    window.dims = crop ∧ window.channels = image.channels := by
  have five : ∀ window ∈ image.fiveCrops crop,
      window.dims = crop ∧ window.channels = image.channels := by
    simp [fiveCrops, centre]
  rcases List.mem_append.mp member with corner | mirrored
  · exact five window corner
  · obtain ⟨source, sourceMember, rfl⟩ := List.mem_map.mp mirrored
    exact five source sourceMember

theorem oversample_eq_ok_iff {images : List Image} {crop : Dims} {result : List Image} :
    oversample images crop = .ok result ↔
      (∀ image ∈ images, crop.FitsIn image.dims) ∧
        result = images.flatMap fun image => image.tenCrops crop := by
  have spec : ∀ (image : Image) (windows : List Image),
      (do image.checkCrop crop; return image.tenCrops crop : Result (List Image)) = .ok windows ↔
        crop.FitsIn image.dims ∧ windows = image.tenCrops crop := by
    intro image windows
    rw [Result.bind_pure_eq_ok_iff]
    constructor
    · intro passed
      obtain ⟨_, checked, shape⟩ := passed
      exact ⟨checkCrop_eq_ok_iff.mp checked, shape⟩
    · intro fitting
      obtain ⟨fits, shape⟩ := fitting
      exact ⟨(), checkCrop_eq_ok_iff.mpr fits, shape⟩
  unfold oversample
  rw [Result.bind_pure_eq_ok_iff]
  constructor
  · intro passed
    obtain ⟨windows, accepted, shape⟩ := passed
    obtain ⟨fits, rfl⟩ := (Result.mapM_eq_ok_iff spec).mp accepted
    exact ⟨fits, shape⟩
  · intro fitting
    obtain ⟨fits, shape⟩ := fitting
    exact ⟨_, (Result.mapM_eq_ok_iff spec).mpr ⟨fits, rfl⟩, shape⟩

end Image

end ViewClassifier
