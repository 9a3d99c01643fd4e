import ViewClassifier.Npy.Header
import ViewClassifier.Tensor

/-!
# Array files

An array file holds the numbers of a tensor in one of four encodings and one of two orders. All of
them give the same tensor, except that a number of 64 bits is rounded to the nearest one of 32 bits.
-/

set_option autoImplicit false

namespace ViewClassifier.Npy

open Files (Bytes)

structure Encoding where
  bigEndian : Bool
  /-- Whether a number has 64 bits and not 32. -/
  wide : Bool
  deriving DecidableEq, Repr

namespace Encoding

def ofDescriptor? : Literal → Option Encoding
  | .text "<f4" => some ⟨false, false⟩
  | .text ">f4" => some ⟨true, false⟩
  | .text "<f8" => some ⟨false, true⟩
  | .text ">f8" => some ⟨true, true⟩
  | _ => none

def width (e : Encoding) : Nat :=
  if e.wide then 8 else 4

def number (e : Encoding) (bytes : Bytes) : Float32 :=
  let bits := if e.bigEndian then Files.bigEndian bytes else Files.littleEndian bytes
  if e.wide then Binary32.narrow (.ofBits bits.toUInt64) else .ofBits bits.toUInt32

def numbers (e : Encoding) : Nat → Bytes → List Float32
  | 0, _ => []
  | count + 1, bytes => e.number (bytes.take e.width) :: e.numbers count (bytes.drop e.width)

end Encoding

/-- Number of elements of a shape. The product of the axes, taken one after the other, must not pass
64 bits, nor the whole product 63 bits. -/
def elementCount? (shape : List Nat) : Option Nat := do
  let count ← shape.foldlM (fun n k => if n * k < UInt64.size then some (n * k) else none) 1
  if count < UInt64.size / 2 then return count else failure

/-- The place, with the first axis as the fastest one, of the element at a row-major place. -/
def columnPlace : List Nat → Nat → Nat
  | [], _ => 0
  | n :: rest, place => place / positions rest + n * columnPlace rest (place % positions rest)

/-- The tensor of which the numbers come in the order that the header says. -/
def Header.tensor (header : Header) (values : Array Float32) : Tensor where
  shape := header.shape
  data := Array.ofFn fun place : Fin (positions header.shape) =>
    values.getD (if header.columnMajor then columnPlace header.shape place else place) 0
  size_data := by simp

def decode (bytes : Bytes) : Except Fault Tensor := do
  let (header, data) ← Header.read bytes
  let some count := elementCount? header.shape | throw .lengthOverflow
  let some encoding := Encoding.ofDescriptor? header.descriptor
    | throw (.wrongDescriptor header.descriptor.spelling)
  let needed := count * encoding.width
  if data.length < needed then throw .missingData
  if needed < data.length then throw (.extraBytes (data.length - needed))
  return header.tensor (encoding.numbers count data).toArray

end ViewClassifier.Npy
