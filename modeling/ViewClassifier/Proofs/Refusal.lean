import ViewClassifier.Proofs.Batch
import ViewClassifier.Proofs.Outcome

/-!
# Refused images

Which error a list of images has that does not become a batch. The first stage that refuses any of
the images decides, and where it refuses several of them, the first of these. Images that went
through the earlier stages all have the size that the configuration gives them, so that its own
checks of sizes never refuse anything.
-/

set_option autoImplicit false

namespace ViewClassifier

open Result (FirstError)

namespace Preprocessing

variable {config : Preprocessing} {images : List Image} {error : Error}

theorem crops_eq_error_iff {dims : Dims} (nonempty : images ≠ [])
    (sized : ∀ image ∈ images, image.dims = dims) :
    config.crops images = .error error ↔
      ¬ config.cropDims.FitsIn dims ∧ error = .shapeMismatch (.crop dims config.cropDims) := by
  let refusal (error : Error) : Prop :=
    ¬ config.cropDims.FitsIn dims ∧ error = .shapeMismatch (.crop dims config.cropDims)
  have checked : ∀ image ∈ images, ∀ error,
      image.checkCrop config.cropDims = .error error ↔ refusal error := by
    intro image member error
    rw [Image.checkCrop_eq_error_iff, sized image member]
  unfold Preprocessing.crops
  split
  · unfold Image.oversample
    rw [Result.bind_pure_eq_error_iff, Result.mapM_eq_error_iff]
    refine FirstError.uniform_iff refusal nonempty fun image member error => ?_
    exact Result.bind_pure_eq_error_iff.trans (checked image member error)
  · rw [Result.mapM_eq_error_iff]
    refine FirstError.uniform_iff refusal nonempty fun image member error => ?_
    exact Result.bind_pure_eq_error_iff.trans (checked image member error)

/-- An image that has the size already is refused by the checks alone. -/
theorem preprocess_eq_error_iff {image : Image} (sized : image.dims = config.cropDims) :
    config.preprocess image = .error error ↔ config.validate image.channels = .error error := by
  have resized : image.resize config.cropDims = .ok image :=
    Image.resize_eq_ok_iff.mpr ⟨.inl sized, (Image.atSize_of_dims sized).symm⟩
  unfold preprocess
  rw [Result.bind_eq_error_iff, resized]
  constructor
  · intro refused
    rcases refused with refused | ⟨_, _, impossible⟩
    · exact refused
    · cases impossible
  · exact .inl

theorem mapM_preprocess_eq_error_iff :
    ((images.map fun image => image.atSize config.imageDims).flatMap config.windows).mapM
        config.preprocess = .error error ↔
      FirstError (fun image => config.validate image.channels) images error := by
  rw [Result.mapM_eq_error_iff, List.flatMap_map]
  refine FirstError.flatMap_iff (fun image _ empty => ?_) fun image _ window inside error => ?_
  · obtain ⟨window, inside⟩ := config.exists_mem_windows (image.atSize config.imageDims)
    rw [empty] at inside
    cases inside
  · obtain ⟨dims, channels⟩ := mem_windows inside
    rw [preprocess_eq_error_iff dims, channels, Image.channels_atSize]

/-- The checks of sizes pass where a crop fits, which leaves those of the channels. -/
theorem validate_eq_error_of_fits {channels : Nat}
    (fits : config.cropDims.FitsIn config.imageDims)
    (refused : config.validate channels = .error error) :
    (∃ order, config.channelSwap = some order ∧
        error = .invalidConfig (.channelSwap order channels)) ∨
      ∃ mean, config.mean = some mean ∧
        error = .invalidConfig (.meanLength mean.length channels) := by
  by_cases permuted : ∀ order, config.channelSwap = some order → isPermutation order channels = true
  · by_cases lengths : ∀ mean, config.mean = some mean → mean.length = channels
    · rw [validate_eq_ok_iff.mpr ⟨permuted, lengths, fits⟩] at refused
      cases refused
    · obtain ⟨mean, given, different⟩ :
          ∃ mean, config.mean = some mean ∧ mean.length ≠ channels := by
        simpa using lengths
      unfold validate at refused
      cases swap : config.channelSwap with
      | none =>
          simp [swap, given, different] at refused
          exact .inr ⟨mean, given, refused.symm⟩
      | some order =>
          simp [swap, permuted order swap, given, different] at refused
          exact .inr ⟨mean, given, refused.symm⟩
  · obtain ⟨order, swap, unordered⟩ :
        ∃ order, config.channelSwap = some order ∧ isPermutation order channels = false := by
      simpa using permuted
    rw [validate_of_unordered swap unordered] at refused
    exact .inl ⟨order, swap, (Except.error.inj refused).symm⟩

section Stages

theorem batch_of_size
    (first : FirstError (fun image => image.resize config.imageDims) images error) :
    config.batch images = .error error := by
  have some : images ≠ [] := by
    rintro rfl
    cases first
  rw [Preprocessing.batch, if_neg some, Result.mapM_eq_error_iff.mpr first]
  rfl

variable (some : images ≠ []) (sized : ∀ image ∈ images, image.Resizable config.imageDims)

include some sized

theorem batch_of_outside (outside : ¬ config.cropDims.FitsIn config.imageDims) :
    config.batch images = .error (.shapeMismatch (.crop config.imageDims config.cropDims)) := by
  have nonempty : images.map (fun image => image.atSize config.imageDims) ≠ [] := by
    simpa using some
  have dims : ∀ image ∈ images.map (fun image => image.atSize config.imageDims),
      image.dims = config.imageDims := by
    intro image member
    obtain ⟨source, _, rfl⟩ := List.mem_map.mp member
    exact source.dims_atSize _
  rw [batch_of_sized some sized, (crops_eq_error_iff nonempty dims).mpr ⟨outside, rfl⟩]
  rfl

end Stages

/-- Why a list of images does not become a batch. -/
inductive Refuses (config : Preprocessing) (images : List Image) : Error → Prop where
  | empty (none : images = []) : Refuses config images .emptyBatch
  | size {error : Error}
      (first : FirstError (fun image => image.resize config.imageDims) images error) :
      Refuses config images error
  | crop (some : images ≠ [])
      (sized : ∀ image ∈ images, ∃ resized, image.resize config.imageDims = .ok resized)
      (outside : ¬ config.cropDims.FitsIn config.imageDims) :
      Refuses config images (.shapeMismatch (.crop config.imageDims config.cropDims))
  | channels {error : Error}
      (sized : ∀ image ∈ images, ∃ resized, image.resize config.imageDims = .ok resized)
      (inside : config.cropDims.FitsIn config.imageDims)
      (first : FirstError (fun image => config.validate image.channels) images error) :
      Refuses config images error
  | different (sized : ∀ image ∈ images, ∃ resized, image.resize config.imageDims = .ok resized)
      (valid : ∀ image ∈ images, config.validate image.channels = .ok ())
      (differ : ∃ left ∈ images, ∃ right ∈ images, left.channels ≠ right.channels) :
      Refuses config images (.join .different)
  | large {channels : Nat} (some : images ≠ [])
      (sized : ∀ image ∈ images, ∃ resized, image.resize config.imageDims = .ok resized)
      (valid : ∀ image ∈ images, config.validate image.channels = .ok ())
      (same : ∀ image ∈ images, image.channels = channels)
      (large : ¬ Addressable (config.batchShape images.length channels)) :
      Refuses config images (.join .tooLarge)

/-- The last stage refuses images with different numbers of channels before it looks at the size of
what they become. -/
theorem refuses_of_stack (some : images ≠ [])
    (sized : ∀ image ∈ images, ∃ resized, image.resize config.imageDims = .ok resized)
    (valid : ∀ image ∈ images, config.validate image.channels = .ok ())
    (refused : stack (images.flatMap config.inputs) = .error error) :
    config.Refuses images error := by
  obtain ⟨first, firstMember⟩ := List.exists_mem_of_ne_nil images some
  by_cases same : ∀ image ∈ images, image.channels = first.channels
  · obtain ⟨fitting, oversized⟩ := stack_inputs some same
    by_cases addressable : Addressable (config.batchShape images.length first.channels)
    · obtain ⟨batch, stacked⟩ := fitting addressable
      cases stacked.symm.trans refused
    · obtain rfl := Except.error.inj ((oversized addressable).symm.trans refused)
      exact .large some sized valid same addressable
  · obtain ⟨image, member, different⟩ : ∃ image ∈ images, image.channels ≠ first.channels := by
      simpa using same
    obtain rfl := Except.error.inj
      ((stack_inputs_of_ne_channels member firstMember different).symm.trans refused)
    exact .different sized valid ⟨image, member, first, firstMember, different⟩

theorem refuses_of_batch (refused : config.batch images = .error error) :
    config.Refuses images error := by
  by_cases none : images = []
  · subst none
    obtain rfl : Error.emptyBatch = error := Except.error.inj refused
    exact .empty rfl
  by_cases sized : ∀ image ∈ images, image.Resizable config.imageDims
  · have resized := fun image member => Image.resizable_iff.mp (sized image member)
    by_cases inside : config.cropDims.FitsIn config.imageDims
    · rw [batch_of_inside none sized inside] at refused
      rcases Result.bind_eq_error_iff.mp refused with first | ⟨inputs, preprocessed, refused⟩
      · exact .channels resized inside (mapM_preprocess_eq_error_iff.mp first)
      · obtain ⟨accepted, rfl⟩ := mapM_preprocess_eq_ok_iff.mp preprocessed
        rw [map_preprocess_windows] at refused
        exact refuses_of_stack none resized (accepts_windows_iff.mp accepted) refused
    · rw [batch_of_outside none sized inside] at refused
      obtain rfl := Except.error.inj refused
      exact .crop none resized inside
  · cases sizing : images.mapM fun image => image.resize config.imageDims with
    | ok _ => exact absurd (Image.mapM_resize_eq_ok_iff.mp sizing).1 sized
    | error first =>
        have firstError := Result.mapM_eq_error_iff.mp sizing
        rw [batch_of_size firstError] at refused
        obtain rfl := Except.error.inj refused
        exact .size firstError

theorem batch_of_refuses (refuses : config.Refuses images error) :
    config.batch images = .error error := by
  cases refuses with
  | empty none =>
      subst none
      rfl
  | size first => exact batch_of_size first
  | crop some resized outside =>
      have sized := fun image member => Image.resizable_iff.mpr (resized image member)
      exact batch_of_outside some sized outside
  | channels resized inside first =>
      have sized := fun image member => Image.resizable_iff.mpr (resized image member)
      have some : images ≠ [] := by
        rintro rfl
        cases first
      rw [batch_of_inside some sized inside]
      exact Result.bind_eq_error_iff.mpr (.inl (mapM_preprocess_eq_error_iff.mpr first))
  | different resized valid differ =>
      have sized := fun image member => Image.resizable_iff.mpr (resized image member)
      obtain ⟨left, leftMember, right, rightMember, different⟩ := differ
      rw [batch_of_valid (List.ne_nil_of_mem leftMember) sized valid]
      exact stack_inputs_of_ne_channels leftMember rightMember different
  | large some resized valid same large =>
      have sized := fun image member => Image.resizable_iff.mpr (resized image member)
      rw [batch_of_valid some sized valid]
      exact (stack_inputs some same).2 large

theorem batch_eq_error_iff : config.batch images = .error error ↔ config.Refuses images error :=
  ⟨refuses_of_batch, batch_of_refuses⟩

/-- What can be wrong with a configuration that a list of images is refused for. -/
theorem Refuses.fault_cases {fault : ConfigFault}
    (refuses : config.Refuses images (.invalidConfig fault)) :
    (∃ dims, fault = .resizeToNothing dims) ∨
      (∃ order channels, fault = .channelSwap order channels) ∨
        ∃ values channels, fault = .meanLength values channels := by
  cases refuses with
  | size first =>
      obtain ⟨image, _, refused⟩ := first.exists_mem
      exact .inl ⟨config.imageDims, Image.fault_of_resize refused⟩
  | channels _ inside first =>
      obtain ⟨image, _, refused⟩ := first.exists_mem
      rcases validate_eq_error_of_fits inside refused with ⟨order, _, fault⟩ | ⟨mean, _, fault⟩
      · exact .inr (.inl ⟨order, _, Error.invalidConfig.inj fault⟩)
      · exact .inr (.inr ⟨mean.length, _, Error.invalidConfig.inj fault⟩)

end Preprocessing

/-- Which error is reported is settled stage by stage. The checks of sizes that the configuration
makes itself are behind others that refuse the same sizes, and never come out. -/
theorem Classifier.predict_refuses (c : Classifier) (images : List Image) :
    (∀ error, c.config.batch images = .error error ↔ c.config.Refuses images error) ∧
      (∀ error, c.config.Refuses images error →
        ∀ network, c.predict network images = .error error) ∧
      (∀ channels error, c.config.cropDims.FitsIn c.config.imageDims →
        c.config.validate channels = .error error →
          (∃ order, c.config.channelSwap = some order ∧
            error = .invalidConfig (.channelSwap order channels)) ∨
          ∃ mean, c.config.mean = some mean ∧
            error = .invalidConfig (.meanLength mean.length channels)) ∧
      ∀ network, c.predict network images ≠ .error (.invalidConfig .zeroDims) ∧
        ∀ crop image,
          c.predict network images ≠ .error (.invalidConfig (.cropTooLarge crop image)) := by
  have early : ∀ network fault, c.predict network images = .error (.invalidConfig fault) →
      c.config.Refuses images (.invalidConfig fault) := by
    intro network fault refused
    rcases Result.bind_eq_error_iff.mp refused with refused | ⟨batch, _, refused⟩
    · exact Preprocessing.batch_eq_error_iff.mp refused
    · exact absurd refused postprocess_ne_invalidConfig
  refine ⟨fun _ => Preprocessing.batch_eq_error_iff, ?_,
    fun _ _ => Preprocessing.validate_eq_error_of_fits, fun network => ⟨?_, ?_⟩⟩
  · intro error refuses network
    rw [Classifier.predict, Preprocessing.batch_eq_error_iff.mpr refuses, Result.error_bind]
  · intro refused
    rcases (early network _ refused).fault_cases with ⟨_, fault⟩ | ⟨_, _, fault⟩ | ⟨_, _, fault⟩
    · cases fault
    · cases fault
    · cases fault
  · intro crop image refused
    rcases (early network _ refused).fault_cases with ⟨_, fault⟩ | ⟨_, _, fault⟩ | ⟨_, _, fault⟩
    · cases fault
    · cases fault
    · cases fault

/-- No stage before the last one refuses two images without channels, and both have as many channels. -/
theorem Classifier.predict_refuses_withoutChannels :
    let c : Classifier := ⟨"data", none, 3,
      { imageDims := withoutChannels.dims, cropDims := withoutChannels.dims, oversample := false }⟩
    let images := [withoutChannels, withoutChannels]
    (∀ image ∈ images, image.resize c.config.imageDims = .ok image ∧
        c.config.validate image.channels = .ok ()) ∧
      c.config.cropDims.FitsIn c.config.imageDims ∧
      ∀ network, c.predict network images = .error (.join .tooLarge) := by
  intro c images
  have alike : ∀ image ∈ images, image = withoutChannels := by
    intro image member
    simpa [images] using member
  have accepted : ∀ image ∈ images, image.resize c.config.imageDims = .ok image ∧
      c.config.validate image.channels = .ok () := by
    intro image member
    obtain rfl := alike image member
    exact ⟨rfl, rfl⟩
  have inside : c.config.cropDims.FitsIn c.config.imageDims :=
    ⟨by decide, by decide, by decide, by decide⟩
  have refuses : c.config.Refuses images (.join .tooLarge) :=
    .large (List.cons_ne_nil _ _) (fun image member => ⟨image, (accepted image member).1⟩)
      (fun image member => (accepted image member).2)
      (fun image member => congrArg Image.channels (alike image member)) (by decide)
  refine ⟨accepted, inside, fun network => ?_⟩
  rw [Classifier.predict, Preprocessing.batch_eq_error_iff.mpr refuses, Result.error_bind]

end ViewClassifier
