import ViewClassifier.Error

/-!
# Pictures

A picture is what a picture file holds: samples of 8 or 16 bits or real samples, grey or in colour,
with or without transparency. It becomes an image with one grey or three colour samples between zero
and one. An image becomes an 8-bit colour picture.
-/

set_option autoImplicit false

namespace ViewClassifier

inductive PixelKind where
  | grey
  | greyAlpha
  | colour
  | colourAlpha
  deriving DecidableEq, Repr

def PixelKind.samples : PixelKind → Nat
  | .grey => 1
  | .greyAlpha => 2
  | .colour => 3
  | .colourAlpha => 4

def PixelKind.isColour : PixelKind → Bool
  | .grey | .greyAlpha => false
  | .colour | .colourAlpha => true

inductive Samples where
  | bytes (values : Array UInt8)
  | words (values : Array UInt16)
  | reals (values : Array Float32)

namespace Samples

def size : Samples → Nat
  | .bytes values => values.size
  | .words values => values.size
  | .reals values => values.size

def fraction (samples : Samples) (i : Nat) : Float32 :=
  match samples with
  | .bytes values => (values.getD i 0).toFloat32 / 255
  | .words values => (values.getD i 0).toFloat32 / 65535
  | .reals values => values.getD i 0

/-- A sample multiplied by the rounded reciprocal of the greatest one, and a real sample as it is.
This is not always the rounded quotient. -/
def scaled (samples : Samples) (i : Nat) : Float32 :=
  match samples with
  | .bytes values => (values.getD i 0).toFloat32 * (1 / 255)
  | .words values => (values.getD i 0).toFloat32 * (1 / 65535)
  | .reals values => values.getD i 0

end Samples

structure Picture where
  height : Nat
  width : Nat
  kind : PixelKind
  samples : Samples
  size_samples : samples.size = height * width * kind.samples
  inWords : Dims.InWords ⟨height, width⟩

def redWeight : Float32 := .ofBits 0x3e59c05b

def greenWeight : Float32 := .ofBits 0x3f3715fc

def blueWeight : Float32 := .ofBits 0x3d93cf75

/-- The brightness of a colour, added up in the order red, green, blue. -/
def brightness (red green blue : Float32) : Float32 :=
  ((0 + red * redWeight) + green * greenWeight) + blue * blueWeight

namespace Picture

def pixelStart (p : Picture) (y x : Nat) : Nat :=
  (y * p.width + x) * p.kind.samples

/-- The image with three colour samples for each pixel. A grey sample is repeated. -/
def toColour (p : Picture) : Image :=
  Volume.ofFn p.height p.width 3 fun y x c =>
    let start := p.pixelStart y x
    if p.kind.isColour then p.samples.fraction (start + c) else p.samples.scaled start

def toGrey (p : Picture) : Image :=
  Volume.ofFn p.height p.width 1 fun y x _ =>
    let start := p.pixelStart y x
    if p.kind.isColour then
      brightness (p.samples.scaled start) (p.samples.scaled (start + 1))
        (p.samples.scaled (start + 2))
    else p.samples.fraction start

/-- The image with three samples for each pixel when `colour` is set, and with one otherwise.
Transparency has no part in it. -/
def toImage (p : Picture) (colour : Bool) : Image :=
  if colour then p.toColour else p.toGrey

end Picture

/-- The byte for a sample. What is outside of the unit interval goes to its nearer end, halves go
up, and NaN goes to zero. -/
def sampleByte (x : Float32) : UInt8 :=
  (Binary32.round (Binary32.clampUnit x * 255)).toUInt8

/-- The 8-bit colour picture of an image with one or three channels. A grey sample is repeated, and
sides are cut to 32 bits. -/
def Image.toPicture (image : Image) : Result Picture :=
  if image.channels ≠ 1 ∧ image.channels ≠ 3 then
    .error (.shapeMismatch (.imageChannels image.channels))
  else
    let height := image.height % UInt32.size
    let width := image.width % UInt32.size
    let bytes := Volume.ofFn height width 3 fun y x c =>
      image.get y x (min c (image.channels - 1))
    .ok {
      height
      width
      kind := .colour
      samples := .bytes (bytes.data.map sampleByte)
      size_samples := by simp [Samples.size, bytes.size_data, bytes, PixelKind.samples]
      inWords := ⟨Nat.mod_lt _ (by decide), Nat.mod_lt _ (by decide)⟩ }

end ViewClassifier
