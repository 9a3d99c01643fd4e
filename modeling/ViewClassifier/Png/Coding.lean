import ViewClassifier.Image.Picture
import ViewClassifier.Png.Chunk
import ViewClassifier.Png.Header
import ViewClassifier.Png.Stored

/-!
# PNG files

Reads pictures whose rows are stored as they are, and writes 8-bit colour pictures in that way.
Samples of fewer than eight bits are stretched to eight, and places in a palette become colours.
-/

set_option autoImplicit false

namespace ViewClassifier.Png

open Files (Bytes)

structure Parts where
  header : Header
  palette : Option Bytes := none
  pixels : Option Bytes := none

/-- The parts with one more chunk. Other chunks than those of the palette and the pixels do not
count. -/
def Parts.add (parts : Parts) (chunk : Chunk) : Except PictureFault Parts :=
  if chunk.is "IDAT" then
    .ok { parts with pixels := some (parts.pixels.getD [] ++ chunk.data) }
  else if chunk.is "PLTE" then .ok { parts with palette := some chunk.data }
  else if chunk.is "IHDR" ∨ chunk.is "IEND" then .error .malformed
  else .ok parts

/-- Reads chunks up to the name of the one after the pixels, with fuel for each of them. A wrong
checksum matters only where a file cannot do without the chunk. -/
def readParts (fuel : Nat) (parts : Parts) (bytes : Bytes) : Except PictureFault Parts :=
  match fuel with
  | 0 => .error .interrupted
  | fuel + 1 => do
      let (name, length, bytes) ← Chunk.readHead bytes
      if parts.pixels.isSome ∧ name ≠ "IDAT".toUTF8.toList then return parts
      let (chunk, intact, bytes) ← Chunk.readBody name length bytes
      if intact then readParts fuel (← parts.add chunk) bytes
      else if chunk.isCritical then throw .malformed
      else readParts fuel parts bytes

/-- Reads the signature. It is compared four bytes at a time. -/
def readSignature (bytes : Bytes) : Except PictureFault Bytes :=
  if bytes.length < 4 then .error .interrupted
  else if bytes.take 4 ≠ signature.take 4 then .error .malformed
  else if bytes.length < 8 then .error .interrupted
  else if bytes.take 8 ≠ signature then .error .malformed
  else .ok (bytes.drop 8)

def readHeader (bytes : Bytes) : Except PictureFault (Header × Bytes) := do
  let (name, length, bytes) ← Chunk.readHead bytes
  if name ≠ "IHDR".toUTF8.toList then throw .malformed
  let (chunk, intact, bytes) ← Chunk.readBody name length bytes
  match Header.ofBytes? chunk.data with
  | some header => if intact then return (header, bytes) else throw .malformed
  | none => throw .malformed

def byteSamples (depth : Nat) (b : UInt8) : List Nat :=
  (List.range (8 / depth)).map fun i => (b.toNat >>> (8 - depth * (i + 1))) % (1 <<< depth)

def wordSamples : Bytes → List Nat
  | a :: b :: rest => Files.bigEndian [a, b] :: wordSamples rest
  | _ => []

def samplesOfRow (header : Header) (row : Bytes) : List Nat :=
  if header.depth = 16 then wordSamples row
  else (row.flatMap (byteSamples header.depth)).take header.rowSamples

def samplesOfRows? (header : Header) : Nat → Bytes → Option (List Nat)
  | 0, _ => some []
  | rows + 1, bytes =>
      match bytes with
      | 0 :: rest =>
          if rest.length < header.rowBytes then none
          else
            (samplesOfRows? header rows (rest.drop header.rowBytes)).map
              (samplesOfRow header (rest.take header.rowBytes) ++ ·)
      | _ => none

/-- The colour at a place of a palette. Beyond its end all is black. -/
def paletteColour (palette : Bytes) (place : Nat) : List UInt8 :=
  match (palette.drop (3 * place)).take 3 with
  | [red, green, blue] => [red, green, blue]
  | _ => [0, 0, 0]

def pictureSamples? (parts : Parts) (samples : List Nat) : Option (PixelKind × Samples) :=
  let depth := parts.header.depth
  let values :=
    if depth = 16 then Samples.words (samples.map Nat.toUInt16).toArray
    else Samples.bytes (samples.map fun v => (v * (255 / ((1 <<< depth) - 1))).toUInt8).toArray
  match parts.header.layout with
  | .grey => some (.grey, values)
  | .greyAlpha => some (.greyAlpha, values)
  | .colour => some (.colour, values)
  | .colourAlpha => some (.colourAlpha, values)
  | .indexed =>
      parts.palette.map fun palette =>
        (.colour, .bytes (samples.flatMap (paletteColour palette)).toArray)

def Parts.picture? (parts : Parts) : Option Picture := do
  let rows ← Stored.decode? (← parts.pixels)
  let samples ← samplesOfRows? parts.header parts.header.height rows
  let (kind, values) ← pictureSamples? parts samples
  let dims : Dims := ⟨parts.header.height, parts.header.width⟩
  if h : values.size = dims.height * dims.width * kind.samples ∧ dims.InWords then
    return ⟨dims.height, dims.width, kind, values, h.1, h.2⟩
  else failure

def decode (bytes : Bytes) : Except PictureFault Picture := do
  let (header, bytes) ← readHeader (← readSignature bytes)
  let parts ← readParts (bytes.length + 1) { header } bytes
  match parts.picture? with
  | some picture => return picture
  | none => throw .malformed

def storedRows (rowBytes : Nat) : Nat → Bytes → Bytes
  | 0, _ => []
  | rows + 1, bytes => 0 :: bytes.take rowBytes ++ storedRows rowBytes rows (bytes.drop rowBytes)

/-- The file of an 8-bit colour picture. A picture of any other kind, or without pixels, has none. -/
def encode? (picture : Picture) : Option Bytes :=
  match picture.kind, picture.samples with
  | .colour, .bytes values =>
      if picture.width = 0 ∨ picture.height = 0 then none
      else
        let rows := storedRows (3 * picture.width) picture.height values.toList
        some (signature ++
          (Chunk.named "IHDR" (Header.colourBytes picture.width picture.height)).encode ++
          (Chunk.named "IDAT" (Stored.encode rows)).encode ++ (Chunk.named "IEND" []).encode)
  | _, _ => none

end ViewClassifier.Png
