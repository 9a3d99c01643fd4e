import ViewClassifier.Proofs.Image.Channels
import ViewClassifier.Proofs.Restoring

/-!
# Samples of a network input

An image becomes a network input exactly when the checks accept its channels and it can be resized.
Every sample of the input is a sample of the resized image after the steps of its channel. An order of
channels does the same as an image that has its channels in this order beforehand.
-/

set_option autoImplicit false

namespace ViewClassifier

theorem Image.hasLengths_of_dims {image : Image} {dims : Dims} {channels : Nat}
    (sized : image.dims = dims) (count : image.channels = channels) :
    image.HasLengths dims.height dims.width channels :=
  ⟨congrArg Dims.height sized, congrArg Dims.width sized, count⟩

namespace Preprocessing

variable {config : Preprocessing} {image : Image} {order : List Nat} {channels : Nat}

theorem channels_eq_zero_of_resize {error : Error} (valid : config.validate channels = .ok ())
    (refused : image.resize config.cropDims = .error error) :
    image.channels = 0 ∨ ¬ config.cropDims.InWords := by
  obtain ⟨_, _, heightPos, widthPos, _, _⟩ := validate_eq_ok_iff.mp valid
  rw [or_iff_not_imp_right, not_not]
  refine fun short => Nat.eq_zero_of_not_pos fun positive => ?_
  have resizable : image.Resizable config.cropDims :=
    .inr ⟨heightPos, widthPos, positive, short⟩
  obtain ⟨resized, accepted⟩ := Image.resizable_iff.mp resizable
  cases refused.symm.trans accepted

/-- The lists of a configuration have an entry for each channel, and an order names no other ones. -/
structure InRange (config : Preprocessing) (channels : Nat) : Prop where
  order : ∀ order, config.channelSwap = some order →
    order.length = channels ∧ ∀ c ∈ order, c < channels
  mean : ∀ mean, config.mean = some mean → mean.length = channels

theorem inRange_of_validate (valid : config.validate channels = .ok ()) :
    config.InRange channels := by
  obtain ⟨ordered, lengths, _⟩ := validate_eq_ok_iff.mp valid
  exact ⟨fun order swap => bounds_of_isPermutation (ordered order swap), lengths⟩

/-- There is a network input exactly when the checks accept the channels and the image can be resized.
After the checks, only an image without channels cannot be resized, unless a side of the input needs
more than 32 bits. Each sample of the input is `((v * r) - m) * i`, without the steps that are not set,
where `v` is the sample of the resized image at the same pixel and in the channel that stands in its
place. -/
theorem preprocess_samples (config : Preprocessing) (image : Image) :
    ((∃ input, config.preprocess image = .ok input) ↔
      config.validate image.channels = .ok () ∧
        ∃ resized, image.resize config.cropDims = .ok resized) ∧
      (config.validate image.channels = .ok () →
        ∀ error, image.resize config.cropDims = .error error →
          image.channels = 0 ∨ ¬ config.cropDims.InWords) ∧
      ∀ input, config.preprocess image = .ok input →
        config.InRange image.channels ∧
          ∃ resized, image.resize config.cropDims = .ok resized ∧
            resized.HasLengths config.cropDims.height config.cropDims.width image.channels ∧
            input.HasLengths image.channels config.cropDims.height config.cropDims.width ∧
            ∀ channel y x, channel < image.channels → y < config.cropDims.height →
              x < config.cropDims.width →
                ∃ source < image.channels, config.Places source channel ∧
                  input.get channel y x =
                    config.scaling.encode channel (resized.get y x source) := by
  refine ⟨?_, fun valid error => channels_eq_zero_of_resize valid, fun input preprocessed => ?_⟩
  · simp only [preprocess_eq_ok_iff, exists_and_left, exists_eq, and_true, Image.resizable_iff]
  · obtain ⟨⟨valid, resizable⟩, rfl⟩ := preprocess_eq_ok_iff.mp preprocessed
    have lengths := Image.hasLengths_of_dims (image.dims_atSize config.cropDims)
      (image.channels_atSize config.cropDims)
    refine ⟨inRange_of_validate valid, _, Image.resize_eq_ok_iff.mpr ⟨resizable, rfl⟩, lengths,
      ⟨lengths.2.2, lengths.1, lengths.2.1⟩, fun channel y x hc hy hx => ?_⟩
    refine ⟨config.sourceChannel channel, sourceChannel_lt valid hc,
      places_sourceChannel valid hc, ?_⟩
    exact get_arrange valid lengths.2.2 hc (hy.trans_eq lengths.1.symm)
      (hx.trans_eq lengths.2.1.symm)

/-- Channels in the opposite order, each sample `((v * 255) - m) * 0.5`. -/
def opposite : Preprocessing where
  mean := some [104, 117, 123]
  channelSwap := some [2, 1, 0]
  rawScale := some 255
  inputScale := some 0.5
  imageDims := ⟨2, 2⟩
  cropDims := ⟨1, 2⟩

theorem validate_opposite : opposite.validate 3 = .ok () := by
  refine validate_eq_ok_iff.mpr ⟨?_, ?_, ⟨by decide, by decide, by decide, by decide⟩⟩
  · rintro order ⟨rfl⟩
    exact isPermutation_iff.mpr (by decide)
  · rintro mean ⟨rfl⟩
    rfl

theorem preprocess_samples_opposite :
    let image : Image := .ofFn 1 2 3 fun _ x c => Binary32.ofNat (x + c) / 4
    ∃ input, opposite.preprocess image = .ok input ∧
      input.get 0 0 1 = (image.get 0 1 2 * 255 - 104) * 0.5 := by
  intro image
  obtain ⟨accepted, _, samples⟩ := preprocess_samples opposite image
  have sized : image.resize opposite.cropDims = .ok image := if_pos rfl
  obtain ⟨input, preprocessed⟩ := accepted.mpr ⟨validate_opposite, image, sized⟩
  obtain ⟨_, resized, again, _, _, each⟩ := samples input preprocessed
  obtain rfl : image = resized := Except.ok.inj (sized.symm.trans again)
  obtain ⟨source, _, placed, sample⟩ := each 0 0 1 (by decide) (by decide) (by decide)
  obtain rfl : 2 = source := Option.some.inj placed
  exact ⟨input, preprocessed, sample⟩

/-- The configuration with all channels in the order of the image. -/
def unswapped (config : Preprocessing) : Preprocessing :=
  { config with channelSwap := none }

@[simp] theorem cropDims_unswapped (config : Preprocessing) :
    config.unswapped.cropDims = config.cropDims := rfl

section Swapped

variable (swap : config.channelSwap = some order)

include swap

theorem validate_unswapped (ordered : isPermutation order channels = true) :
    config.unswapped.validate channels = config.validate channels := by
  unfold validate unswapped
  simp [swap, ordered]

theorem arrange_select (count : order.length = image.channels) :
    config.unswapped.arrange (image.select order) = config.arrange image := by
  refine Volume.ofFn_eq ⟨count.symm, rfl, rfl⟩ ?_
  intro channel y x (hc : channel < order.length) (hy : y < image.height) (hx : x < image.width)
  rw [arrange, Volume.get_ofFn _ (count ▸ hc) hy hx, sourceChannel_eq_getElem swap hc]
  exact congrArg (config.encodeSample channel) (Image.get_select hc y x)

theorem preprocess_select (ordered : isPermutation order image.channels = true) :
    config.unswapped.preprocess (image.select order) = config.preprocess image := by
  obtain ⟨count, within⟩ := bounds_of_isPermutation ordered
  have some : order = [] → image.channels = 0 := by
    rintro rfl
    exact count.symm
  unfold preprocess
  rw [Image.channels_select, count, validate_unswapped swap ordered, cropDims_unswapped,
    Image.resize_select within some]
  cases config.validate image.channels with
  | error error => rfl
  | ok _ =>
      cases sized : image.resize config.cropDims with
      | error error => rfl
      | ok resized =>
          obtain ⟨_, rfl⟩ := Image.resize_eq_ok_iff.mp sized
          have same : order.length = (image.atSize config.cropDims).channels := by
            rw [count, Image.channels_atSize]
          exact congrArg Except.ok (arrange_select swap same)

end Swapped

/-- Resizing does to chosen channels what it does to the image, and an order of channels that the
checks accept can be taken from the configuration to the image. -/
theorem channels_independent (image : Image) :
    (∀ (chosen : List Nat) (dims : Dims), chosen ≠ [] → (∀ c ∈ chosen, c < image.channels) →
      (image.select chosen).resize dims =
        (image.resize dims).map fun resized => resized.select chosen) ∧
      ∀ (config : Preprocessing) (order : List Nat), config.channelSwap = some order →
        config.validate image.channels ≠
          .error (.invalidConfig (.channelSwap order image.channels)) →
        config.preprocess image = config.unswapped.preprocess (image.select order) := by
  refine ⟨fun chosen dims nonempty within => ?_, fun config order swap accepted => ?_⟩
  · exact Image.resize_select within fun empty => absurd empty nonempty
  · have ordered : isPermutation order image.channels = true := by
      refine Bool.of_not_eq_false fun unordered => ?_
      exact accepted (validate_of_unordered swap unordered)
    exact (preprocess_select swap ordered).symm

theorem channels_independent_repeated :
    let image : Image := .ofFn 2 1 3 fun y _ c => Binary32.ofNat (y + c) / 4
    [2, 0, 2] ≠ [] ∧ (∀ c ∈ [2, 0, 2], c < image.channels) ∧
      (image.select [2, 0, 2]).resize ⟨1, 4⟩ =
        (image.resize ⟨1, 4⟩).map (fun resized => resized.select [2, 0, 2]) ∧
      opposite.validate image.channels = .ok () ∧
      opposite.preprocess image = opposite.unswapped.preprocess (image.select [2, 1, 0]) := by
  intro image
  obtain ⟨resized, preprocessed⟩ := channels_independent image
  have inside : ∀ c ∈ [2, 0, 2], c < image.channels := by decide
  have accepted : opposite.validate image.channels = .ok () := validate_opposite
  refine ⟨by decide, inside, resized _ _ (by decide) inside, accepted, ?_⟩
  refine preprocessed opposite _ rfl fun refused => ?_
  cases accepted.symm.trans refused

end Preprocessing

end ViewClassifier
