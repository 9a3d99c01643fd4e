import Mathlib.Algebra.Field.Rat
import ViewClassifier.Proofs.ChannelOrder
import ViewClassifier.Proofs.Places

/-!
# Restoring an image from its network input

Each sample goes through the steps of the preprocessing alone, and the way back takes them in
opposite order. Over exact numbers every step is undone. Over 32-bit numbers this holds where there
are no steps, and otherwise the formula for one sample says what is left of it.
-/

set_option autoImplicit false

namespace ViewClassifier

/-- The steps that change a sample, over any kind of numbers. -/
structure Scaling (α : Type) where
  rawScale : Option α := none
  mean : Option (List α) := none
  inputScale : Option α := none

namespace Scaling

section Steps

variable {α : Type} [Add α] [Sub α] [Mul α] [Div α]

def step (operation : α → α → α) (operand : Option α) (x : α) : α :=
  operand.elim x (operation x)

def meanAt (s : Scaling α) (channel : Nat) : Option α :=
  s.mean.bind (·[channel]?)

/-- `((x * r) - m) * i`, where a step without its operand is left out. -/
def encode (s : Scaling α) (channel : Nat) (x : α) : α :=
  step (· * ·) s.inputScale (step (· - ·) (s.meanAt channel) (step (· * ·) s.rawScale x))

def decode (s : Scaling α) (channel : Nat) (x : α) : α :=
  step (· / ·) s.rawScale (step (· + ·) (s.meanAt channel) (step (· / ·) s.inputScale x))

/-- `(((((x * r) - m) * i) / i) + m) / r`, where a step without its operand is left out. -/
def restored (s : Scaling α) (channel : Nat) (x : α) : α :=
  step (· / ·) s.rawScale
    (step (· + ·) (s.meanAt channel)
      (step (· / ·) s.inputScale
        (step (· * ·) s.inputScale
          (step (· - ·) (s.meanAt channel) (step (· * ·) s.rawScale x)))))

theorem decode_encode (s : Scaling α) (channel : Nat) (x : α) :
    s.decode channel (s.encode channel x) = s.restored channel x := rfl

/-- No scale and no mean is set. -/
structure Absent (s : Scaling α) : Prop where
  rawScale : s.rawScale = none
  mean : s.mean = none
  inputScale : s.inputScale = none

end Steps

theorem Absent.encode {s : Scaling Float32} (absent : s.Absent) (channel : Nat) (x : Float32) :
    s.encode channel x = x := by
  simp [Scaling.encode, step, meanAt, absent.rawScale, absent.mean, absent.inputScale]

theorem Absent.decode {s : Scaling Float32} (absent : s.Absent) (channel : Nat) (x : Float32) :
    s.decode channel x = x := by
  simp [Scaling.decode, step, meanAt, absent.rawScale, absent.mean, absent.inputScale]

theorem step_div_mul {scale : Option ℚ} (nonzero : scale ≠ some 0) (x : ℚ) :
    step (· / ·) scale (step (· * ·) scale x) = x := by
  cases scale with
  | none => rfl
  | some scale => exact mul_div_cancel_right₀ x fun zero => nonzero (congrArg some zero)

theorem step_add_sub (mean : Option ℚ) (x : ℚ) :
    step (· + ·) mean (step (· - ·) mean x) = x := by
  cases mean with
  | none => rfl
  | some mean => exact sub_add_cancel x mean

theorem restored_rat {s : Scaling ℚ} (raw : s.rawScale ≠ some 0) (input : s.inputScale ≠ some 0)
    (channel : Nat) (x : ℚ) : s.restored channel x = x := by
  rw [restored, step_div_mul input, step_add_sub, step_div_mul raw]

end Scaling

namespace Preprocessing

section Grids

variable {α : Type} [Add α] [Sub α] [Mul α] [Div α]

/-- The samples of the network input of an image. -/
def forward (config : Preprocessing) (s : Scaling α) (image : Nat → Nat → Nat → α) :
    Nat → Nat → Nat → α :=
  fun channel y x => s.encode channel (image y x (config.sourceChannel channel))

/-- The samples of the image of a network input. -/
def backward (config : Preprocessing) (s : Scaling α) (input : Nat → Nat → Nat → α) :
    Nat → Nat → Nat → α :=
  fun y x source =>
    s.decode (config.targetChannel source) (input (config.targetChannel source) y x)

theorem backward_forward {config : Preprocessing} {channels source : Nat}
    (valid : config.validate channels = .ok ()) (inside : source < channels) (s : Scaling α)
    (image : Nat → Nat → Nat → α) (y x : Nat) :
    config.backward s (config.forward s image) y x source =
      s.restored (config.targetChannel source) (image y x source) := by
  unfold backward forward
  rw [sourceChannel_targetChannel valid inside, Scaling.decode_encode]

end Grids

def scaling (config : Preprocessing) : Scaling Float32 where
  rawScale := config.rawScale
  mean := config.mean
  inputScale := config.inputScale

/-- The image that a network input came from, as far as it can be known. -/
def restore (config : Preprocessing) (input : NetworkInput) : Image :=
  Volume.ofFn input.middle input.inner input.outer fun y x source =>
    config.decodeSample (config.targetChannel source) (input.get (config.targetChannel source) y x)

theorem deprocess_eq_ok_iff {config : Preprocessing} {input : NetworkInput} {image : Image} :
    config.deprocess input = .ok image ↔
      config.validate input.outer = .ok () ∧ image = config.restore input := by
  unfold deprocess
  rw [Result.bind_pure_eq_ok_iff]
  constructor
  · intro passed
    obtain ⟨_, valid, shape⟩ := passed
    exact ⟨valid, shape⟩
  · intro given
    obtain ⟨valid, shape⟩ := given
    exact ⟨(), valid, shape⟩

theorem applied_eq_step (operation : Float32 → Float32 → Float32) (operand : Option Float32)
    (x : Float32) : applied operation operand x = Scaling.step operation operand x := by
  cases operand <;> rfl

section Valid

variable {config : Preprocessing} {channels : Nat}
variable (valid : config.validate channels = .ok ())

include valid

theorem meanAt_scaling {channel : Nat} (inside : channel < channels) :
    config.scaling.meanAt channel = config.meanAt channel := by
  obtain ⟨_, lengths, _⟩ := validate_eq_ok_iff.mp valid
  unfold Scaling.meanAt meanAt scaling
  cases given : config.mean with
  | none => rfl
  | some mean =>
      have bound : channel < mean.length := by rwa [lengths mean given]
      change mean[channel]? = some (mean.getD channel 0)
      rw [List.getD_eq_getElem?_getD, List.getElem?_eq_getElem bound]
      rfl

theorem get_arrange {image : Image} (count : image.channels = channels) {channel y x : Nat}
    (hc : channel < channels) (hy : y < image.height) (hx : x < image.width) :
    (config.arrange image).get channel y x =
      config.forward config.scaling image.get channel y x := by
  unfold arrange
  rw [Volume.get_ofFn _ (count ▸ hc) hy hx]
  unfold encodeSample forward Scaling.encode
  rw [meanAt_scaling valid hc, applied_eq_step, applied_eq_step, applied_eq_step]
  rfl

theorem get_restore {input : NetworkInput} (count : input.outer = channels) {y x source : Nat}
    (hy : y < input.middle) (hx : x < input.inner) (hc : source < channels) :
    (config.restore input).get y x source =
      config.backward config.scaling input.get y x source := by
  unfold restore
  rw [Volume.get_ofFn _ hy hx (count ▸ hc)]
  unfold decodeSample backward Scaling.decode
  rw [meanAt_scaling valid (targetChannel_lt valid hc), applied_eq_step, applied_eq_step,
    applied_eq_step]
  rfl

theorem get_restore_arrange {image : Image} (count : image.channels = channels) {y x source : Nat}
    (hy : y < image.height) (hx : x < image.width) (hc : source < channels) :
    (config.restore (config.arrange image)).get y x source =
      config.backward config.scaling (config.forward config.scaling image.get) y x source := by
  rw [get_restore valid count hy hx hc]
  exact congrArg (config.scaling.decode _)
    (get_arrange valid count (targetChannel_lt valid hc) hy hx)

theorem restore_arrange (absent : config.scaling.Absent) {image : Image}
    (count : image.channels = channels) : config.restore (config.arrange image) = image := by
  refine Volume.ext_get rfl rfl rfl fun y x source hy hx hc => ?_
  have inside : source < channels := count ▸ hc
  rw [get_restore_arrange valid count hy hx inside, backward_forward valid inside,
    ← Scaling.decode_encode, absent.encode, absent.decode]

theorem arrange_restore (absent : config.scaling.Absent) {input : NetworkInput}
    (count : input.outer = channels) : config.arrange (config.restore input) = input := by
  refine Volume.ext_get rfl rfl rfl fun channel y x hc hy hx => ?_
  have inside : channel < channels := count ▸ hc
  rw [get_arrange valid count inside hy hx, forward, absent.encode,
    get_restore valid count hy hx (sourceChannel_lt valid inside), backward, absent.decode,
    targetChannel_sourceChannel valid inside]

end Valid

/-- An image of the size of the network input comes back with every sample restored on its own. It
comes back bit for bit if there is neither a scale nor a mean, and so does a network input. The same
formulas over rational numbers restore every sample. -/
theorem deprocess_preprocess {config : Preprocessing} {channels : Nat}
    (valid : config.validate channels = .ok ()) :
    (∀ image : Image, image.dims = config.cropDims → image.channels = channels →
      ∃ input back, config.preprocess image = .ok input ∧ config.deprocess input = .ok back ∧
        back.dims = image.dims ∧ back.channels = image.channels ∧
        (∀ y x source, y < image.height → x < image.width → source < channels →
          back.get y x source =
              config.backward config.scaling (config.forward config.scaling image.get) y x source ∧
            ∃ channel < channels, (∀ place, config.Places source place ↔ place = channel) ∧
              back.get y x source = config.scaling.restored channel (image.get y x source)) ∧
        (config.scaling.Absent → back = image)) ∧
      (config.scaling.Absent → ∀ input : NetworkInput,
        input.HasLengths channels config.cropDims.height config.cropDims.width →
          ∃ image, config.deprocess input = .ok image ∧ config.preprocess image = .ok input) ∧
      ∀ s : Scaling ℚ, s.rawScale ≠ some 0 → s.inputScale ≠ some 0 →
        ∀ (image : Nat → Nat → Nat → ℚ) (y x source : Nat), source < channels →
          config.backward s (config.forward s image) y x source = image y x source := by
  refine ⟨fun image dims count => ?_, fun absent input lengths => ?_, ?_⟩
  · have accepted : config.validate image.channels = .ok () := count ▸ valid
    refine ⟨config.arrange image, config.restore (config.arrange image), ?_, ?_, rfl, rfl, ?_, ?_⟩
    · rw [preprocess_eq_ok_iff, Image.atSize_of_dims dims]
      exact ⟨⟨accepted, .inl dims⟩, rfl⟩
    · exact deprocess_eq_ok_iff.mpr ⟨accepted, rfl⟩
    · intro y x source hy hx hc
      have sample := get_restore_arrange valid count hy hx hc
      refine ⟨sample, config.targetChannel source, targetChannel_lt valid hc,
        fun place => places_iff valid hc, ?_⟩
      rw [sample, backward_forward valid hc]
    · exact fun absent => restore_arrange valid absent count
  · obtain ⟨count, height, width⟩ := lengths
    have accepted : config.validate input.outer = .ok () := count ▸ valid
    have dims : (config.restore input).dims = config.cropDims := by
      change (⟨input.middle, input.inner⟩ : Dims) = config.cropDims
      rw [height, width]
    refine ⟨config.restore input, deprocess_eq_ok_iff.mpr ⟨accepted, rfl⟩, ?_⟩
    rw [preprocess_eq_ok_iff, Image.atSize_of_dims dims]
    exact ⟨⟨accepted, .inl dims⟩, (arrange_restore valid absent count).symm⟩
  · intro s raw input image y x source inside
    rw [backward_forward valid inside, Scaling.restored_rat raw input]

def threeCycle : Preprocessing where
  mean := some [104, 117, 123]
  channelSwap := some [2, 0, 1]
  rawScale := some 255
  inputScale := some 0.017
  imageDims := ⟨1, 2⟩
  cropDims := ⟨1, 2⟩

theorem deprocess_preprocess_threeCycle :
    let image : Image := .ofFn 1 2 3 fun _ x source => Binary32.ofNat (x + source) / 4
    threeCycle.validate 3 = .ok () ∧
      ∃ input back, threeCycle.preprocess image = .ok input ∧
        threeCycle.deprocess input = .ok back ∧
        back.get 0 1 2 = threeCycle.scaling.restored 0 (image.get 0 1 2) := by
  intro image
  have valid : threeCycle.validate 3 = .ok () := by
    refine validate_eq_ok_iff.mpr ⟨?_, ?_, ⟨by decide, by decide, by decide, by decide⟩⟩
    · rintro order ⟨rfl⟩
      exact isPermutation_iff.mpr (by decide)
    · rintro mean ⟨rfl⟩
      rfl
  obtain ⟨input, back, preprocessed, deprocessed, _, _, samples, _⟩ :=
    (deprocess_preprocess valid).1 image rfl rfl
  obtain ⟨_, channel, _, unique, sample⟩ := samples 0 1 2 (by decide) (by decide) (by decide)
  obtain rfl : 0 = channel := (unique 0).mp rfl
  exact ⟨valid, input, back, preprocessed, deprocessed, sample⟩

end Preprocessing

end ViewClassifier
