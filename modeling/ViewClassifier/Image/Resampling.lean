import ViewClassifier.Error
import ViewClassifier.Tensor

/-!
# Resampling

Images of another size by a triangle filter. Each axis takes a pass of its own, in which a sample of
the result is a weighted sum of a window of samples of the source. The weights of a window fall off
linearly from its centre and are divided by their sum. All sums go from left to right.
-/

set_option autoImplicit false

namespace ViewClassifier

open Binary32 (ofNat toInteger)

structure Window where
  start : Nat
  weights : List Float32

namespace Window

def triangle (x : Float32) : Float32 :=
  let distance := x.abs
  if distance < 1 then 1 - distance else 0

def clampInt (low high value : Int) : Int :=
  if value < low then low else if high < value then high else value

/-- How far the window reaches to either side of its centre. It covers one source sample at least,
and all that fall on one result sample when the result is smaller. -/
def reach (ratio : Float32) : Float32 :=
  if ratio < 1 then 1 else ratio

/-- The first source sample of a window, and the first one after it. There is at least one in
between. -/
def bounds (source : Nat) (centre reach : Float32) : Nat × Nat :=
  let left := clampInt 0 (source - 1) (toInteger (Binary32.floor (centre - reach)))
  let right := clampInt (left + 1) source (toInteger (Binary32.ceil (centre + reach)))
  (left.toNat, right.toNat)

/-- The window of result sample `place` out of `result`, over a source of `source` samples. -/
def of (source result place : Nat) : Window :=
  let ratio := ofNat source / ofNat result
  let reach := reach ratio
  let centre := (ofNat place + 0.5) * ratio
  let (left, right) := bounds source centre reach
  let middle := centre - 0.5
  let raw := (List.range' left (right - left)).map fun i => triangle ((ofNat i - middle) / reach)
  let sum := raw.foldl (· + ·) 0
  ⟨left, raw.map (· / sum)⟩

def sumFrom (samples : Nat → Float32) : Nat → Float32 → List Float32 → Float32
  | _, total, [] => total
  | i, total, weight :: weights => sumFrom samples (i + 1) (total + samples i * weight) weights

def blend (w : Window) (samples : Nat → Float32) : Float32 :=
  sumFrom samples w.start 0 w.weights

end Window

namespace Image

def windows (source result : Nat) : Array Window :=
  Array.ofFn (n := result) fun place => Window.of source result place.val

def windowAt (windows : Array Window) (place : Nat) : Window :=
  windows.getD place ⟨0, []⟩

theorem windowAt_windows {source result place : Nat} (inside : place < result) :
    windowAt (windows source result) place = Window.of source result place := by
  simp [windowAt, windows, inside]

/-- The pass over columns of pixels, which gives the image a new height. -/
def resampleRows (image : Image) (height : Nat) : Image :=
  let windows := windows image.height height
  Volume.ofFn height image.width image.channels fun y x c =>
    (windowAt windows y).blend fun i => image.get i x c

/-- The pass over rows of pixels, which gives the image a new width. Its results are moved into the
unit interval. -/
def resampleColumns (image : Image) (width : Nat) : Image :=
  let windows := windows image.width width
  Volume.ofFn image.height width image.channels fun y x c =>
    Binary32.clampUnit ((windowAt windows x).blend fun i => image.get y i c)

/-- The image with another size. Where there are no pixels to blend, all samples are zero. -/
def resample (image : Image) (dims : Dims) : Image :=
  if image.height = 0 ∨ image.width = 0 then
    Volume.ofFn dims.height dims.width image.channels fun _ _ _ => 0
  else
    (image.resampleRows dims.height).resampleColumns dims.width

/-- The image as the resampler gets it. Each plane is read from its start under sides that are cut to
32 bits. -/
def buffered (image : Image) : Image :=
  let height := image.height % UInt32.size
  let width := image.width % UInt32.size
  Volume.ofFn height width image.channels fun y x c =>
    let place := y * width + x
    image.get (place / image.width) (place % image.width) c

/-- The image with another size. An image that has the size already is not resampled, no image has
an empty size as its target, and an image without channels cannot be put together again. The target
is cut to 32 bits as well, and then its planes are too short for the size that was asked for. -/
def resize (image : Image) (dims : Dims) : Result Image :=
  if image.dims = dims then .ok image
  else if dims.height = 0 ∨ dims.width = 0 then
    .error (.invalidConfig (.resizeToNothing dims))
  else if image.channels = 0 then .error (.join .nothing)
  else if dims.InWords then .ok (image.buffered.resample dims)
  else if Addressable [dims.height, dims.width, 1] then .error (.join .tooShort)
  else .error (.join .tooLarge)

end Image

end ViewClassifier
