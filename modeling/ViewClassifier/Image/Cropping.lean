import ViewClassifier.Error

/-!
# Cropping

Windows of images: the centred one, the ten that stand for an image in a prediction, and the one that
a region covers.
-/

set_option autoImplicit false

namespace ViewClassifier

namespace Image

def cut (image : Image) (y x : Nat) (dims : Dims) : Image :=
  Volume.ofFn dims.height dims.width image.channels fun i j c => image.get (y + i) (x + j) c

def flip (image : Image) : Image :=
  Volume.ofFn image.height image.width image.channels fun i j c =>
    image.get i (image.width - 1 - j) c

/-- Fails unless the window has pixels and is no larger than the image. -/
def checkCrop (image : Image) (crop : Dims) : Result Unit :=
  if image.height < crop.height ∨ image.width < crop.width ∨ crop.height = 0 ∨ crop.width = 0 then
    .error (.shapeMismatch (.crop image.dims crop))
  else .ok ()

/-- The centred window, one pixel nearer to the top left corner when there is no centre. -/
def centre (image : Image) (crop : Dims) : Image :=
  image.cut ((image.height - crop.height) / 2) ((image.width - crop.width) / 2) crop

def centerCrop (image : Image) (crop : Dims) : Result Image := do
  image.checkCrop crop
  return image.centre crop

/-- The windows at the corners, from left to right and from top to bottom, and the centred one. -/
def fiveCrops (image : Image) (crop : Dims) : List Image :=
  let bottom := image.height - crop.height
  let right := image.width - crop.width
  [image.cut 0 0 crop, image.cut 0 right crop, image.cut bottom 0 crop,
    image.cut bottom right crop, image.centre crop]

/-- The five windows, and then each of them reversed left to right in the same order. -/
def tenCrops (image : Image) (crop : Dims) : List Image :=
  let crops := image.fiveCrops crop
  crops ++ crops.map flip

def cropsPerImage : Nat := 10

theorem length_tenCrops (image : Image) (crop : Dims) :
    (image.tenCrops crop).length = cropsPerImage := rfl

def oversample (images : List Image) (crop : Dims) : Result (List Image) := do
  let crops ← images.mapM fun image => do
    image.checkCrop crop
    return image.tenCrops crop
  return crops.flatten

def regionStart (low : Float32) (length : Nat) : Nat :=
  min (Binary32.toCount (Binary32.max low 0)) length

def regionEnd (high : Float32) (length : Nat) : Nat :=
  min (Binary32.toCount (Binary32.ceil (Binary32.max high 0))) length

def cropRegion (image : Image) (region : Region) : Result Image :=
  let x₁ := regionStart region.minX image.width
  let y₁ := regionStart region.minY image.height
  let x₂ := regionEnd region.maxX image.width
  let y₂ := regionEnd region.maxY image.height
  if x₂ ≤ x₁ ∨ y₂ ≤ y₁ then
    .error (.invalidConfig (.regionOutside region image.dims))
  else .ok (image.cut y₁ x₁ ⟨y₂ - y₁, x₂ - x₁⟩)

end Image

end ViewClassifier
