import ViewClassifier.Image.Resampling
import ViewClassifier.Proofs.Places
import ViewClassifier.Proofs.Result

/-!
# Resizing

Which images can be given a size, and the image that results. Only an image that does not have the
size yet needs channels, and only then does the size need to have pixels and sides of 32 bits.
-/

set_option autoImplicit false

namespace ViewClassifier

namespace Image

/-- The image at a size: as it is where it has the size, and resampled where it does not. -/
def atSize (image : Image) (dims : Dims) : Image :=
  if image.dims = dims then image else image.buffered.resample dims

/-- An image that has a size already, or that has channels and a target with pixels. -/
def Resizable (image : Image) (dims : Dims) : Prop :=
  image.dims = dims ∨
    (0 < dims.height ∧ 0 < dims.width ∧ 0 < image.channels ∧ dims.InWords)

/-- The resampler gets an image with sides of 32 bits as it is. -/
theorem buffered_of_inWords {image : Image} (short : image.dims.InWords) :
    image.buffered = image := by
  have height : image.height % UInt32.size = image.height := Nat.mod_eq_of_lt short.1
  have width : image.width % UInt32.size = image.width := Nat.mod_eq_of_lt short.2
  unfold buffered
  rw [height, width]
  refine Volume.ofFn_eq ⟨rfl, rfl, rfl⟩ fun y x c _ hx _ => ?_
  dsimp only
  rw [Volume.row_of_place hx, Volume.column_of_place hx]

theorem dims_resample (image : Image) (dims : Dims) : (image.resample dims).dims = dims := by
  unfold resample
  split <;> rfl

theorem channels_resample (image : Image) (dims : Dims) :
    (image.resample dims).channels = image.channels := by
  unfold resample
  split <;> rfl

@[simp] theorem dims_atSize (image : Image) (dims : Dims) : (image.atSize dims).dims = dims := by
  unfold atSize
  split
  · assumption
  · exact image.buffered.dims_resample dims

@[simp] theorem channels_atSize (image : Image) (dims : Dims) :
    (image.atSize dims).channels = image.channels := by
  unfold atSize
  split
  · rfl
  · exact image.buffered.channels_resample dims

theorem atSize_of_dims {image : Image} {dims : Dims} (same : image.dims = dims) :
    image.atSize dims = image :=
  if_pos same

theorem resize_eq_ok_iff {image : Image} {dims : Dims} {result : Image} :
    image.resize dims = .ok result ↔ image.Resizable dims ∧ result = image.atSize dims := by
  unfold resize atSize Resizable
  by_cases same : image.dims = dims
  · simp [same, eq_comm]
  · by_cases empty : dims.height = 0 ∨ dims.width = 0
    · have positive : ¬ (0 < dims.height ∧ 0 < dims.width ∧ 0 < image.channels ∧
          dims.InWords) := by omega
      simp [same, empty, positive]
    · by_cases channelless : image.channels = 0
      · simp [same, empty, channelless]
      · have positive : 0 < dims.height ∧ 0 < dims.width ∧ 0 < image.channels := by omega
        by_cases short : dims.InWords
        · simp [same, empty, channelless, positive, short, eq_comm]
        · simp only [same, empty, channelless, short, if_false, false_or, and_false, false_and]
          split <;> simp

/-- Only a target without pixels is a fault of the configuration. -/
theorem fault_of_resize {image : Image} {dims : Dims} {fault : ConfigFault}
    (refused : image.resize dims = .error (.invalidConfig fault)) :
    fault = .resizeToNothing dims := by
  unfold resize at refused
  split at refused
  · cases refused
  split at refused
  · exact (Error.invalidConfig.inj (Except.error.inj refused)).symm
  split at refused
  · cases refused
  split at refused
  · cases refused
  · split at refused <;> cases refused

theorem resizable_iff {image : Image} {dims : Dims} :
    image.Resizable dims ↔ ∃ resized, image.resize dims = .ok resized := by
  constructor
  · intro resizable
    exact ⟨_, resize_eq_ok_iff.mpr ⟨resizable, rfl⟩⟩
  · intro accepted
    obtain ⟨_, accepted⟩ := accepted
    exact (resize_eq_ok_iff.mp accepted).1

theorem mapM_resize_eq_ok_iff {images : List Image} {dims : Dims} {results : List Image} :
    images.mapM (fun image => image.resize dims) = .ok results ↔
      (∀ image ∈ images, image.Resizable dims) ∧
        results = images.map fun image => image.atSize dims :=
  Result.mapM_eq_ok_iff fun _ _ => resize_eq_ok_iff

end Image

end ViewClassifier
