import ViewClassifier.Files.Words

/-!
# Headers of PNG files

The first chunk of a PNG file tells the size of the picture, and what the samples of its pixels are.
-/

set_option autoImplicit false

namespace ViewClassifier.Png

open Files (Bytes)

inductive PixelLayout where
  | grey
  | colour
  | indexed
  | greyAlpha
  | colourAlpha
  deriving DecidableEq, Repr

namespace PixelLayout

def ofNat? : Nat → Option PixelLayout
  | 0 => some .grey
  | 2 => some .colour
  | 3 => some .indexed
  | 4 => some .greyAlpha
  | 6 => some .colourAlpha
  | _ => none

def samples : PixelLayout → Nat
  | .grey | .indexed => 1
  | .greyAlpha => 2
  | .colour => 3
  | .colourAlpha => 4

def depths : PixelLayout → List Nat
  | .grey => [1, 2, 4, 8, 16]
  | .indexed => [1, 2, 4, 8]
  | .colour | .greyAlpha | .colourAlpha => [8, 16]

end PixelLayout

structure Header where
  width : Nat
  height : Nat
  depth : Nat
  layout : PixelLayout

namespace Header

/-- The header that the data of a chunk holds. The rows of the picture have to come one after the
other. -/
def ofBytes? (data : Bytes) : Option Header :=
  match data.drop 8 with
  | [depth, layout, 0, 0, 0] => do
      let layout ← PixelLayout.ofNat? layout.toNat
      let width := Files.bigEndian (data.take 4)
      let height := Files.bigEndian ((data.drop 4).take 4)
      if depth.toNat ∈ layout.depths ∧ 0 < width ∧ 0 < height then
        return ⟨width, height, depth.toNat, layout⟩
      else failure
  | _ => none

/-- The data of the chunk that holds the header of an 8-bit colour picture. -/
def colourBytes (width height : Nat) : Bytes :=
  Files.toBigEndian 4 width ++ Files.toBigEndian 4 height ++ [8, 2, 0, 0, 0]

def rowSamples (header : Header) : Nat :=
  header.width * header.layout.samples

def rowBytes (header : Header) : Nat :=
  (header.rowSamples * header.depth + 7) / 8

end Header

end ViewClassifier.Png
