import ViewClassifier.Image.Resampling

/-!
# Preprocessing

How an image becomes a network input: it is resized, its channels are put into another order, and its
numbers are scaled and moved by a mean. `preprocess` and `deprocess` take the same steps in opposite
directions.
-/

set_option autoImplicit false

namespace ViewClassifier

structure Preprocessing where
  mean : Option (List Float32) := none
  channelSwap : Option (List Nat) := none
  rawScale : Option Float32 := none
  inputScale : Option Float32 := none
  imageDims : Dims := ⟨256, 256⟩
  cropDims : Dims := ⟨227, 227⟩
  oversample : Bool := true

namespace Preprocessing

def isPermutation (order : List Nat) (channels : Nat) : Bool :=
  order.length == channels && order.mergeSort (· ≤ ·) == List.range order.length

def validate (config : Preprocessing) (channels : Nat) : Result Unit := do
  if let some order := config.channelSwap then
    if !isPermutation order channels then
      throw (.invalidConfig (.channelSwap order channels))
  if let some mean := config.mean then
    if mean.length ≠ channels then
      throw (.invalidConfig (.meanLength mean.length channels))
  let image := config.imageDims
  let crop := config.cropDims
  if crop.height = 0 ∨ crop.width = 0 ∨ image.height = 0 ∨ image.width = 0 then
    throw (.invalidConfig .zeroDims)
  if image.height < crop.height ∨ image.width < crop.width then
    throw (.invalidConfig (.cropTooLarge crop image))

def sourceChannel (config : Preprocessing) (channel : Nat) : Nat :=
  match config.channelSwap with
  | some order => order.getD channel 0
  | none => channel

def targetChannel (config : Preprocessing) (source : Nat) : Nat :=
  match config.channelSwap with
  | some order => order.idxOf source
  | none => source

def applied (operation : Float32 → Float32 → Float32) (operand : Option Float32) (x : Float32) :
    Float32 :=
  match operand with
  | some value => operation x value
  | none => x

def meanAt (config : Preprocessing) (channel : Nat) : Option Float32 :=
  config.mean.map fun values => values.getD channel 0

/-- A sample as the network takes it in, in a channel of the network input. -/
def encodeSample (config : Preprocessing) (channel : Nat) (x : Float32) : Float32 :=
  applied (· * ·) config.inputScale
    (applied (· - ·) (config.meanAt channel) (applied (· * ·) config.rawScale x))

def decodeSample (config : Preprocessing) (channel : Nat) (x : Float32) : Float32 :=
  applied (· / ·) config.rawScale
    (applied (· + ·) (config.meanAt channel) (applied (· / ·) config.inputScale x))

def arrange (config : Preprocessing) (image : Image) : NetworkInput :=
  Volume.ofFn image.channels image.height image.width fun channel y x =>
    config.encodeSample channel (image.get y x (config.sourceChannel channel))

def preprocess (config : Preprocessing) (image : Image) : Result NetworkInput := do
  config.validate image.channels
  return config.arrange (← image.resize config.cropDims)

def deprocess (config : Preprocessing) (input : NetworkInput) : Result Image := do
  config.validate input.outer
  return Volume.ofFn input.middle input.inner input.outer fun y x source =>
    let channel := config.targetChannel source
    config.decodeSample channel (input.get channel y x)

end Preprocessing

end ViewClassifier
