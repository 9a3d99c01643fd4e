import ViewClassifier.Classifier
import ViewClassifier.Proofs.Image.Cropping
import ViewClassifier.Proofs.Image.Resizing

/-!
# Preprocessing

What the steps from an image to its network inputs accept, and what they make of it. The checks of
the configuration that concern sizes are those that cutting the windows makes as well.
-/

set_option autoImplicit false

namespace ViewClassifier

namespace Preprocessing

theorem validate_eq_ok_iff {config : Preprocessing} {channels : Nat} :
    config.validate channels = .ok () ↔
      (∀ order, config.channelSwap = some order → isPermutation order channels = true) ∧
        (∀ mean, config.mean = some mean → mean.length = channels) ∧
        config.cropDims.FitsIn config.imageDims := by
  unfold validate
  cases config.channelSwap <;> cases config.mean <;> simp [Dims.fitsIn_iff]

theorem validate_of_unordered {config : Preprocessing} {channels : Nat} {order : List Nat}
    (swap : config.channelSwap = some order) (unordered : isPermutation order channels = false) :
    config.validate channels = .error (.invalidConfig (.channelSwap order channels)) := by
  unfold validate
  simp [swap, unordered]

/-- The windows that stand for an image: all ten of them, or only the centred one. -/
def windows (config : Preprocessing) (image : Image) : List Image :=
  if config.oversample then image.tenCrops config.cropDims else [image.centre config.cropDims]

theorem length_windows (config : Preprocessing) (image : Image) :
    (config.windows image).length = config.cropsPerImage := by
  unfold windows cropsPerImage
  split <;> rfl

theorem cropsPerImage_pos (config : Preprocessing) : 0 < config.cropsPerImage := by
  unfold cropsPerImage
  split <;> decide

theorem exists_mem_windows (config : Preprocessing) (image : Image) :
    ∃ window, window ∈ config.windows image := by
  unfold windows
  split
  · exact ⟨_, List.mem_append_left _ (.head _)⟩
  · exact ⟨_, .head _⟩

theorem mem_windows {config : Preprocessing} {image window : Image}
    (member : window ∈ config.windows image) :
    window.dims = config.cropDims ∧ window.channels = image.channels := by
  unfold windows at member
  split at member
  · exact Image.mem_tenCrops member
  · obtain rfl := List.mem_singleton.mp member
    exact ⟨rfl, rfl⟩

theorem crops_eq_ok_iff {config : Preprocessing} {images crops : List Image} :
    config.crops images = .ok crops ↔
      (∀ image ∈ images, config.cropDims.FitsIn image.dims) ∧
        crops = images.flatMap config.windows := by
  unfold Preprocessing.crops windows
  split
  · exact Image.oversample_eq_ok_iff
  · rw [Result.mapM_eq_ok_iff fun _ _ => Image.centerCrop_eq_ok_iff, List.map_eq_flatMap]

theorem preprocess_eq_ok_iff {config : Preprocessing} {image : Image} {input : NetworkInput} :
    config.preprocess image = .ok input ↔
      (config.validate image.channels = .ok () ∧ image.Resizable config.cropDims) ∧
        input = config.arrange (image.atSize config.cropDims) := by
  unfold preprocess
  rw [Result.bind_eq_ok_iff]
  constructor
  · intro passed
    obtain ⟨_, valid, continuation⟩ := passed
    obtain ⟨resized, accepted, shape⟩ := Result.bind_pure_eq_ok_iff.mp continuation
    obtain ⟨resizable, rfl⟩ := Image.resize_eq_ok_iff.mp accepted
    exact ⟨⟨valid, resizable⟩, shape⟩
  · intro given
    obtain ⟨⟨valid, resizable⟩, shape⟩ := given
    have accepted := Image.resize_eq_ok_iff.mpr ⟨resizable, rfl⟩
    exact ⟨(), valid, Result.bind_pure_eq_ok_iff.mpr ⟨_, accepted, shape⟩⟩

theorem mapM_preprocess_eq_ok_iff {config : Preprocessing} {images : List Image}
    {inputs : List NetworkInput} :
    images.mapM config.preprocess = .ok inputs ↔
      (∀ image ∈ images, config.validate image.channels = .ok () ∧
        image.Resizable config.cropDims) ∧
        inputs = images.map fun image => config.arrange (image.atSize config.cropDims) :=
  Result.mapM_eq_ok_iff fun _ _ => preprocess_eq_ok_iff

end Preprocessing

end ViewClassifier
