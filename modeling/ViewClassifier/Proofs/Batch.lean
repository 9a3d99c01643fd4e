import ViewClassifier.Proofs.Places
import ViewClassifier.Proofs.Preprocessing

/-!
# Batches

Which images become a batch, and where the windows of an image stand in it.
-/

set_option autoImplicit false

namespace ViewClassifier

/-- The volumes along the slowest axis of a tensor with four axes. -/
def Tensor.items (t : Tensor) : List Volume :=
  match t.shape with
  | [count, outer, middle, inner] =>
      (List.range count).map fun i =>
        Volume.ofFn outer middle inner fun x y z =>
          t.data.getD (i * (outer * middle * inner) + Volume.offset middle inner x y z) 0
  | _ => []

section Stacking

variable {volumes : List Volume} {a b c : Nat}

theorem all_lengths_iff {first : Volume} :
    (volumes.all fun v =>
      v.outer == first.outer && v.middle == first.middle && v.inner == first.inner) = true ↔
      ∀ v ∈ volumes, v.HasLengths first.outer first.middle first.inner := by
  simp [List.all_eq_true, Volume.HasLengths, and_assoc]

/-- Volumes of the same lengths are stacked unless the result is too large. -/
theorem stack_of_same (nonempty : volumes ≠ []) (same : ∀ v ∈ volumes, v.HasLengths a b c) :
    (Addressable [volumes.length, a, b, c] → ∃ t, stack volumes = .ok t) ∧
      (¬ Addressable [volumes.length, a, b, c] → stack volumes = .error (.join .tooLarge)) := by
  cases volumes with
  | nil => exact absurd rfl nonempty
  | cons first rest =>
      obtain ⟨rfl, rfl, rfl⟩ := same first (.head _)
      have all := all_lengths_iff.mpr same
      constructor
      · intro addressable
        exact ⟨_, (if_pos all).trans (if_pos addressable)⟩
      · intro large
        exact (if_pos all).trans (if_neg large)

theorem stack_of_different {left right : Volume} (leftMember : left ∈ volumes)
    (rightMember : right ∈ volumes)
    (different : ¬ left.HasLengths right.outer right.middle right.inner) :
    stack volumes = .error (.join .different) := by
  cases volumes with
  | nil => cases leftMember
  | cons first rest =>
      refine if_neg fun all => ?_
      have same := all_lengths_iff.mp all
      obtain ⟨outer, middle, inner⟩ := same right rightMember
      rw [outer, middle, inner] at different
      exact different (same left leftMember)

/-- A batch holds the volumes it was made of, in their order. -/
theorem items_of_stack {t : Tensor} (stacked : stack volumes = .ok t) :
    t.items = volumes ∧ Addressable t.shape ∧
      ∀ v ∈ volumes, t.shape = [volumes.length, v.outer, v.middle, v.inner] := by
  cases volumes with
  | nil => simp [stack] at stacked
  | cons first rest =>
      simp only [stack, Result.else_error_eq_ok_iff, Except.ok.injEq] at stacked
      obtain ⟨all, addressable, rfl⟩ := stacked
      have same := all_lengths_iff.mp all
      refine ⟨?_, addressable, ?_⟩
      · apply List.ext_getElem
        · simp [Tensor.items]
        · intro i place inside
          have lengths := same _ (List.getElem_mem inside)
          simp only [Tensor.items, List.getElem_map, List.getElem_range]
          refine Volume.ofFn_eq lengths fun x y z hx hy hz => ?_
          have entry := Volume.offset_lt hx hy hz
          refine (Table.get_eq_getD (t := Table.ofFn _ _ _) inside entry).symm.trans ?_
          refine (Table.get_ofFn _ inside entry).trans ?_
          rw [List.getElem?_eq_getElem inside]
          exact Volume.getD_data lengths hx hy hz
      · intro v member
        obtain ⟨outer, middle, inner⟩ := same v member
        simp [outer, middle, inner]

end Stacking

namespace Preprocessing

/-- The network inputs that stand for an image, one for each of its windows. -/
def inputs (config : Preprocessing) (image : Image) : List NetworkInput :=
  (config.windows (image.atSize config.imageDims)).map config.arrange

/-- The shape of a batch for so many images. -/
def batchShape (config : Preprocessing) (count channels : Nat) : List Nat :=
  [count * config.cropsPerImage, channels, config.cropDims.height, config.cropDims.width]

/-- Images that can become one batch. Channels, and sides of 32 bits, are needed only where an image is
resampled. -/
structure Admits (config : Preprocessing) (images : List Image) (channels : Nat) : Prop where
  nonempty : images ≠ []
  channels_eq : ∀ image ∈ images, image.channels = channels
  valid : config.validate channels = .ok ()
  sized : (1 ≤ channels ∧ config.imageDims.InWords) ∨
    ∀ image ∈ images, image.dims = config.imageDims
  addressable : Addressable (config.batchShape images.length channels)

theorem length_inputs (config : Preprocessing) (image : Image) :
    (config.inputs image).length = config.cropsPerImage := by
  rw [inputs, List.length_map, length_windows]

theorem exists_mem_inputs (config : Preprocessing) (image : Image) :
    ∃ input, input ∈ config.inputs image := by
  obtain ⟨window, member⟩ := config.exists_mem_windows (image.atSize config.imageDims)
  exact ⟨_, List.mem_map_of_mem member⟩

theorem hasLengths_of_mem_inputs {config : Preprocessing} {image : Image} {input : NetworkInput}
    (member : input ∈ config.inputs image) :
    input.HasLengths image.channels config.cropDims.height config.cropDims.width := by
  obtain ⟨window, windowMember, rfl⟩ := List.mem_map.mp member
  obtain ⟨dims, channels⟩ := mem_windows windowMember
  refine ⟨channels.trans (image.channels_atSize _), ?_, ?_⟩
  · exact congrArg Dims.height dims
  · exact congrArg Dims.width dims

theorem Admits.fits {config : Preprocessing} {images : List Image} {channels : Nat}
    (admits : config.Admits images channels) : config.cropDims.FitsIn config.imageDims :=
  (validate_eq_ok_iff.mp admits.valid).2.2

theorem Admits.resizable {config : Preprocessing} {images : List Image} {channels : Nat}
    (admits : config.Admits images channels) :
    ∀ image ∈ images, image.Resizable config.imageDims := by
  obtain ⟨heightPos, widthPos, heightLe, widthLe⟩ := admits.fits
  intro image member
  rcases admits.sized with ⟨positive, short⟩ | sized
  · exact .inr ⟨by omega, by omega, admits.channels_eq image member ▸ positive, short⟩
  · exact .inl (sized image member)

theorem map_preprocess_windows (config : Preprocessing) (images : List Image) :
    (((images.map fun image => image.atSize config.imageDims).flatMap config.windows).map
      fun window => config.arrange (window.atSize config.cropDims)) =
        images.flatMap config.inputs := by
  rw [List.map_flatMap, List.flatMap_map]
  congr 1
  funext image
  apply List.map_congr_left
  intro window member
  rw [Image.atSize_of_dims (mem_windows member).1]

/-- A window has as many channels as its image and the size of the network input, so that preprocessing
does not resample it. -/
theorem accepts_windows_iff {config : Preprocessing} {images : List Image} :
    (∀ window ∈ (images.map fun image => image.atSize config.imageDims).flatMap config.windows,
      config.validate window.channels = .ok () ∧ window.Resizable config.cropDims) ↔
      ∀ image ∈ images, config.validate image.channels = .ok () := by
  constructor
  · intro accepted image member
    obtain ⟨window, windowMember⟩ := config.exists_mem_windows (image.atSize config.imageDims)
    have checked := (accepted window
      (List.mem_flatMap.mpr ⟨_, List.mem_map_of_mem member, windowMember⟩)).1
    rwa [(mem_windows windowMember).2, image.channels_atSize] at checked
  · intro valid window member
    obtain ⟨resized, resizedMember, windowMember⟩ := List.mem_flatMap.mp member
    obtain ⟨image, imageMember, rfl⟩ := List.mem_map.mp resizedMember
    obtain ⟨dims, channels⟩ := mem_windows windowMember
    rw [channels, image.channels_atSize]
    exact ⟨valid image imageMember, .inl dims⟩

section Stages

variable {config : Preprocessing} {images : List Image} (some : images ≠ [])
  (sized : ∀ image ∈ images, image.Resizable config.imageDims)

include some sized

theorem batch_of_sized : config.batch images =
    (do
      let crops ← config.crops (images.map fun image => image.atSize config.imageDims)
      let inputs ← crops.mapM config.preprocess
      stack inputs) := by
  rw [Preprocessing.batch, if_neg some, Image.mapM_resize_eq_ok_iff.mpr ⟨sized, rfl⟩]
  rfl

theorem batch_of_inside (inside : config.cropDims.FitsIn config.imageDims) :
    config.batch images =
      (do
        let inputs ← ((images.map fun image => image.atSize config.imageDims).flatMap
          config.windows).mapM config.preprocess
        stack inputs) := by
  have fits : ∀ image ∈ images.map (fun image => image.atSize config.imageDims),
      config.cropDims.FitsIn image.dims := by
    intro image member
    obtain ⟨source, _, rfl⟩ := List.mem_map.mp member
    rwa [source.dims_atSize]
  rw [batch_of_sized some sized, crops_eq_ok_iff.mpr ⟨fits, rfl⟩]
  rfl

theorem batch_of_valid (valid : ∀ image ∈ images, config.validate image.channels = .ok ()) :
    config.batch images = stack (images.flatMap config.inputs) := by
  obtain ⟨first, firstMember⟩ := List.exists_mem_of_ne_nil images some
  have inside := (validate_eq_ok_iff.mp (valid first firstMember)).2.2
  have preprocessing := mapM_preprocess_eq_ok_iff.mpr ⟨accepts_windows_iff.mpr valid, rfl⟩
  rw [batch_of_inside some sized inside, preprocessing, Result.ok_bind, map_preprocess_windows]

end Stages

section Inputs

variable {config : Preprocessing} {images : List Image} {channels : Nat}

theorem flatMap_inputs_ne_nil (some : images ≠ []) : images.flatMap config.inputs ≠ [] := by
  intro empty
  obtain ⟨image, member⟩ := List.exists_mem_of_ne_nil images some
  obtain ⟨input, inside⟩ := config.exists_mem_inputs image
  rw [List.flatMap_eq_nil_iff.mp empty image member] at inside
  cases inside

theorem hasLengths_of_mem_flatMap (same : ∀ image ∈ images, image.channels = channels) :
    ∀ input ∈ images.flatMap config.inputs,
      input.HasLengths channels config.cropDims.height config.cropDims.width := by
  intro input member
  obtain ⟨image, imageMember, member⟩ := List.mem_flatMap.mp member
  exact same image imageMember ▸ hasLengths_of_mem_inputs member

theorem length_flatMap_inputs (config : Preprocessing) (images : List Image) :
    (images.flatMap config.inputs).length = images.length * config.cropsPerImage :=
  length_flatMap_groups fun image _ => config.length_inputs image

/-- Images with as many channels each become one tensor unless it is too large. -/
theorem stack_inputs (some : images ≠ []) (same : ∀ image ∈ images, image.channels = channels) :
    (Addressable (config.batchShape images.length channels) →
      ∃ batch, stack (images.flatMap config.inputs) = .ok batch) ∧
      (¬ Addressable (config.batchShape images.length channels) →
        stack (images.flatMap config.inputs) = .error (.join .tooLarge)) := by
  rw [batchShape, ← length_flatMap_inputs]
  exact stack_of_same (flatMap_inputs_ne_nil some) (hasLengths_of_mem_flatMap same)

theorem stack_inputs_of_ne_channels {left right : Image} (leftMember : left ∈ images)
    (rightMember : right ∈ images) (different : left.channels ≠ right.channels) :
    stack (images.flatMap config.inputs) = .error (.join .different) := by
  obtain ⟨leftInput, leftInside⟩ := config.exists_mem_inputs left
  obtain ⟨rightInput, rightInside⟩ := config.exists_mem_inputs right
  refine stack_of_different (List.mem_flatMap.mpr ⟨left, leftMember, leftInside⟩)
    (List.mem_flatMap.mpr ⟨right, rightMember, rightInside⟩) fun same => different ?_
  rw [← (hasLengths_of_mem_inputs leftInside).1, same.1, (hasLengths_of_mem_inputs rightInside).1]

theorem channels_eq_of_stack {batch : Tensor}
    (stacked : stack (images.flatMap config.inputs) = .ok batch) :
    ∀ left ∈ images, ∀ right ∈ images, left.channels = right.channels := by
  intro left leftMember right rightMember
  refine Decidable.byContradiction fun different => ?_
  cases stacked.symm.trans (stack_inputs_of_ne_channels leftMember rightMember different)

theorem shape_of_stack {batch : Tensor} (some : images ≠ [])
    (same : ∀ image ∈ images, image.channels = channels)
    (stacked : stack (images.flatMap config.inputs) = .ok batch) :
    batch.shape = config.batchShape images.length channels := by
  obtain ⟨input, member⟩ := List.exists_mem_of_ne_nil _ (flatMap_inputs_ne_nil some)
  obtain ⟨outer, middle, inner⟩ := hasLengths_of_mem_flatMap same input member
  rw [(items_of_stack stacked).2.2 input member, length_flatMap_inputs, outer, middle, inner,
    batchShape]

end Inputs

/-- Where every image can be resized, either none of them is resampled or all of them could be. -/
theorem sized_of_resizable {config : Preprocessing} {images : List Image} {channels : Nat}
    (same : ∀ image ∈ images, image.channels = channels)
    (resizable : ∀ image ∈ images, image.Resizable config.imageDims) :
    (1 ≤ channels ∧ config.imageDims.InWords) ∨
      ∀ image ∈ images, image.dims = config.imageDims := by
  by_cases fit : 1 ≤ channels ∧ config.imageDims.InWords
  · exact .inl fit
  · refine .inr fun image member => (resizable image member).resolve_right fun resampled => fit ?_
    obtain ⟨_, _, positive, short⟩ := resampled
    exact ⟨same image member ▸ positive, short⟩

/-- The five stages for a whole list come down to one condition on the list and one way to go from an
image to its network inputs. -/
theorem batch_eq_ok_iff {config : Preprocessing} {images : List Image} {batch : Tensor} :
    config.batch images = .ok batch ↔
      (∃ channels, config.Admits images channels) ∧
        stack (images.flatMap config.inputs) = .ok batch := by
  constructor
  · intro accepted
    simp only [Preprocessing.batch, Result.throw_eq, Result.error_bind,
      Result.then_error_eq_ok_iff] at accepted
    obtain ⟨nonempty, accepted⟩ := accepted
    obtain ⟨resized, resizing, accepted⟩ := Result.bind_eq_ok_iff.mp accepted
    obtain ⟨crops, cropping, accepted⟩ := Result.bind_eq_ok_iff.mp accepted
    obtain ⟨inputs, preprocessing, stacked⟩ := Result.bind_eq_ok_iff.mp accepted
    obtain ⟨resizable, rfl⟩ := Image.mapM_resize_eq_ok_iff.mp resizing
    obtain ⟨fits, rfl⟩ := crops_eq_ok_iff.mp cropping
    obtain ⟨accepted, rfl⟩ := mapM_preprocess_eq_ok_iff.mp preprocessing
    rw [map_preprocess_windows] at stacked
    obtain ⟨first, firstMember⟩ := List.exists_mem_of_ne_nil images nonempty
    have channels := channels_eq_of_stack stacked
    have same : ∀ image ∈ images, image.channels = first.channels :=
      fun image member => channels image member _ firstMember
    have valid := accepts_windows_iff.mp accepted first firstMember
    refine ⟨⟨first.channels, nonempty, same, valid, sized_of_resizable same resizable, ?_⟩, stacked⟩
    rw [← shape_of_stack nonempty same stacked]
    exact (items_of_stack stacked).2.1
  · intro given
    obtain ⟨⟨channels, admits⟩, stacked⟩ := given
    have valid : ∀ image ∈ images, config.validate image.channels = .ok () :=
      fun image member => (admits.channels_eq image member).symm ▸ admits.valid
    rw [batch_of_valid admits.nonempty admits.resizable valid, stacked]

theorem Admits.exists_batch {config : Preprocessing} {images : List Image} {channels : Nat}
    (admits : config.Admits images channels) : ∃ batch, config.batch images = .ok batch := by
  obtain ⟨batch, stacked⟩ :=
    (stack_inputs admits.nonempty admits.channels_eq).1 admits.addressable
  exact ⟨batch, batch_eq_ok_iff.mpr ⟨⟨channels, admits⟩, stacked⟩⟩

theorem shape_of_batch {config : Preprocessing} {images : List Image} {batch : Tensor}
    {channels : Nat} (admits : config.Admits images channels)
    (accepted : config.batch images = .ok batch) :
    batch.shape = config.batchShape images.length channels :=
  shape_of_stack admits.nonempty admits.channels_eq (batch_eq_ok_iff.mp accepted).2

theorem items_of_batch {config : Preprocessing} {images : List Image} {batch : Tensor}
    (accepted : config.batch images = .ok batch) : batch.items = images.flatMap config.inputs :=
  (items_of_stack (batch_eq_ok_iff.mp accepted).2).1

/-- The place of a window in the batch is counted image by image. -/
theorem item_of_batch {config : Preprocessing} {images : List Image} {batch : Tensor}
    {channels : Nat} (admits : config.Admits images channels)
    (accepted : config.batch images = .ok batch) {i j : Nat} (hi : i < images.length)
    (hj : j < config.cropsPerImage) :
    ∃ resized windows window input,
      images[i].resize config.imageDims = .ok resized ∧
        config.crops [resized] = .ok windows ∧ windows[j]? = some window ∧
        config.preprocess window = .ok input ∧
        batch.items[i * config.cropsPerImage + j]? = some input := by
  have member : images[i] ∈ images := List.getElem_mem hi
  have inside : j < (config.windows (images[i].atSize config.imageDims)).length := by
    rwa [length_windows]
  obtain ⟨window, found⟩ : ∃ window,
      (config.windows (images[i].atSize config.imageDims))[j]? = some window :=
    ⟨_, List.getElem?_eq_getElem inside⟩
  obtain ⟨dims, channels⟩ := mem_windows (List.mem_of_getElem? found)
  refine ⟨_, _, window, config.arrange window,
    Image.resize_eq_ok_iff.mpr ⟨admits.resizable _ member, rfl⟩,
    crops_eq_ok_iff.mpr ⟨?_, rfl⟩, ?_, ?_, ?_⟩
  · intro resized resizedMember
    obtain rfl := List.mem_singleton.mp resizedMember
    rw [Image.dims_atSize]
    exact admits.fits
  · simpa using found
  · rw [preprocess_eq_ok_iff, channels, Image.channels_atSize, admits.channels_eq _ member,
      Image.atSize_of_dims dims]
    exact ⟨⟨admits.valid, .inl dims⟩, rfl⟩
  · rw [items_of_batch accepted,
      getElem?_flatMap_groups (fun image _ => config.length_inputs image) hi hj, inputs,
      List.getElem?_map, found]
    rfl

end Preprocessing

/-- The network is asked exactly about the lists of images that are admitted. It gets one tensor for
each window of each image, and a list that is not admitted has the same error for every network. -/
theorem Classifier.hands_over_batch_iff (c : Classifier) (images : List Image) :
    ((∃ batch, c.config.batch images = .ok batch) ↔
      ∃ channels, c.config.Admits images channels) ∧
      (∀ error, c.config.batch images = .error error →
        ∀ network, c.predict network images = .error error) ∧
      ∀ batch, c.config.batch images = .ok batch →
        (∀ network, c.predict network images =
          postprocess (network batch) images.length c.config.cropsPerImage c.classCount) ∧
          ∃ channels, c.config.Admits images channels ∧
            batch.shape = [images.length * c.config.cropsPerImage, channels,
              c.config.cropDims.height, c.config.cropDims.width] ∧
            ∀ (i j : Nat) (hi : i < images.length), j < c.config.cropsPerImage →
              ∃ resized windows window input,
                images[i].resize c.config.imageDims = .ok resized ∧
                  c.config.crops [resized] = .ok windows ∧ windows[j]? = some window ∧
                  c.config.preprocess window = .ok input ∧
                  batch.items[i * c.config.cropsPerImage + j]? = some input := by
  refine ⟨⟨?_, ?_⟩, ?_, ?_⟩
  · intro handed
    obtain ⟨batch, accepted⟩ := handed
    exact (Preprocessing.batch_eq_ok_iff.mp accepted).1
  · intro admitted
    obtain ⟨channels, admits⟩ := admitted
    exact admits.exists_batch
  · intro error refused network
    rw [Classifier.predict, refused, Result.error_bind]
  · intro batch accepted
    obtain ⟨⟨channels, admits⟩, _⟩ := Preprocessing.batch_eq_ok_iff.mp accepted
    refine ⟨fun network => ?_, channels, admits, Preprocessing.shape_of_batch admits accepted, ?_⟩
    · rw [Classifier.predict, accepted, Result.ok_bind]
    · intro i j hi hj
      exact Preprocessing.item_of_batch admits accepted hi hj

/-- An image that takes no memory, since it has no channels. Ten crops of its size have more pixels
than can be addressed. -/
def withoutChannels : Image :=
  ⟨2147483648, 2147483648, 0, #[], rfl⟩

theorem Classifier.hands_over_no_batch_withoutChannels :
    let c : Classifier := ⟨"data", none, 3,
      { imageDims := withoutChannels.dims, cropDims := withoutChannels.dims, oversample := true }⟩
    (∀ image ∈ [withoutChannels], image.channels = 0 ∧ image.dims = c.config.imageDims) ∧
      c.config.validate 0 = .ok () ∧
      c.config.batch [withoutChannels] = .error (.join .tooLarge) ∧
      ∀ network, c.predict network [withoutChannels] = .error (.join .tooLarge) := by
  intro c
  have alike : ∀ image ∈ [withoutChannels],
      image.channels = 0 ∧ image.dims = c.config.imageDims := by
    intro image member
    obtain rfl := List.mem_singleton.mp member
    exact ⟨rfl, rfl⟩
  have valid : c.config.validate 0 = .ok () := rfl
  have large : ¬ Addressable (c.config.batchShape [withoutChannels].length 0) := by decide
  have refused : c.config.batch [withoutChannels] = .error (.join .tooLarge) := by
    rw [Preprocessing.batch_of_valid (List.cons_ne_nil _ _)
      (fun image member => .inl (alike image member).2)
      (fun image member => (alike image member).1.symm ▸ valid)]
    exact (Preprocessing.stack_inputs (List.cons_ne_nil _ _)
      fun image member => (alike image member).1).2 large
  refine ⟨alike, valid, refused, fun network => ?_⟩
  rw [Classifier.predict, refused, Result.error_bind]

end ViewClassifier
