import ViewClassifier.Proofs.Image.Resizing
import ViewClassifier.Proofs.Places

/-!
# Channels of an image

An image can be put together anew from chosen channels of another one, in any order and as often as
wanted. A pass that makes every channel of its result from the same channel of the source does the same
to each channel that is chosen, and resizing consists of such passes.
-/

set_option autoImplicit false

namespace ViewClassifier

namespace Image

variable {image : Image} {chosen : List Nat} {height width : Nat} {dims : Dims}

/-- The chosen channels of an image, in the order of the choice. -/
def select (image : Image) (chosen : List Nat) : Image :=
  Volume.ofFn image.height image.width chosen.length fun y x place =>
    image.get y x (chosen.getD place 0)

@[simp] theorem dims_select (image : Image) (chosen : List Nat) :
    (image.select chosen).dims = image.dims := rfl

@[simp] theorem channels_select (image : Image) (chosen : List Nat) :
    (image.select chosen).channels = chosen.length := rfl

/-- Also beside the image there is nothing else than in the chosen channel. -/
theorem get_select {place : Nat} (inside : place < chosen.length) (y x : Nat) :
    (image.select chosen).get y x place = image.get y x chosen[place] := by
  have value : chosen.getD place 0 = chosen[place] := by
    rw [List.getD_eq_getElem?_getD, List.getElem?_eq_getElem inside, Option.getD_some]
  by_cases pixel : y < image.height ∧ x < image.width
  · rw [select, Volume.get_ofFn _ pixel.1 pixel.2 inside, value]
  · have beside : image.get y x chosen[place] = 0 :=
      Volume.get_of_outside fun within => pixel ⟨within.1, within.2.1⟩
    rw [beside]
    exact Volume.get_of_outside fun within => pixel ⟨within.1, within.2.1⟩

/-- The image whose channels are made one by one from the channels of another one. -/
def planewise (image : Image) (height width : Nat)
    (pass : (Nat → Nat → Float32) → Nat → Nat → Float32) : Image :=
  Volume.ofFn height width image.channels fun y x c => pass (fun i j => image.get i j c) y x

theorem select_planewise (within : ∀ c ∈ chosen, c < image.channels)
    (pass : (Nat → Nat → Float32) → Nat → Nat → Float32) :
    (image.select chosen).planewise height width pass =
      (image.planewise height width pass).select chosen := by
  refine Volume.ofFn_eq ⟨rfl, rfl, rfl⟩ fun y x place hy hx inside => ?_
  have channel : chosen[place] < image.channels := within _ (List.getElem_mem inside)
  rw [get_select inside, planewise, Volume.get_ofFn _ hy hx channel]
  simp only [get_select inside]

section Resampling

variable (within : ∀ c ∈ chosen, c < image.channels)

include within

theorem resampleRows_select :
    (image.select chosen).resampleRows height = (image.resampleRows height).select chosen :=
  select_planewise within fun plane y x =>
    (windowAt (windows image.height height) y).blend fun i => plane i x

theorem resampleColumns_select :
    (image.select chosen).resampleColumns width = (image.resampleColumns width).select chosen :=
  select_planewise within fun plane y x =>
    Binary32.clampUnit ((windowAt (windows image.width width) x).blend fun i => plane y i)

theorem resample_select :
    (image.select chosen).resample dims = (image.resample dims).select chosen := by
  unfold resample
  by_cases empty : image.height = 0 ∨ image.width = 0
  · have emptyToo : (image.select chosen).height = 0 ∨ (image.select chosen).width = 0 := empty
    rw [if_pos empty, if_pos emptyToo]
    exact select_planewise within fun _ _ _ => 0
  · have filled : ¬ ((image.select chosen).height = 0 ∨ (image.select chosen).width = 0) := empty
    rw [if_neg empty, if_neg filled, resampleRows_select within]
    exact resampleColumns_select within

theorem buffered_select : (image.select chosen).buffered = image.buffered.select chosen :=
  select_planewise within fun plane y x =>
    let place := y * (image.width % UInt32.size) + x
    plane (place / image.width) (place % image.width)

/-- An image of chosen channels is resized as the image is, and refused where it is. -/
theorem resize_select (some : chosen = [] → image.channels = 0) :
    (image.select chosen).resize dims =
      (image.resize dims).map fun resized => resized.select chosen := by
  have channelless : chosen.length = 0 ↔ image.channels = 0 := by
    rw [List.length_eq_zero_iff]
    refine ⟨some, fun none => List.eq_nil_iff_forall_not_mem.mpr fun c member => ?_⟩
    have := within c member
    omega
  have withinBuffer : ∀ c ∈ chosen, c < image.buffered.channels := within
  unfold resize
  rw [dims_select, channels_select, buffered_select within, resample_select withinBuffer]
  by_cases same : image.dims = dims
  · rw [if_pos same, if_pos same]
    rfl
  · rw [if_neg same, if_neg same]
    by_cases empty : dims.height = 0 ∨ dims.width = 0
    · rw [if_pos empty, if_pos empty]
      rfl
    · rw [if_neg empty, if_neg empty]
      by_cases none : image.channels = 0
      · rw [if_pos none, if_pos (channelless.mpr none)]
        rfl
      · rw [if_neg none, if_neg (mt channelless.mp none)]
        by_cases short : dims.InWords
        · rw [if_pos short, if_pos short]
          rfl
        · rw [if_neg short, if_neg short]
          split <;> rfl

end Resampling

end Image

end ViewClassifier
