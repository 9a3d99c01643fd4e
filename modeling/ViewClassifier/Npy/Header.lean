import ViewClassifier.Files.Words
import ViewClassifier.Npy.Fault
import ViewClassifier.Npy.Literal

/-!
# Headers of array files

The header of an array file says how its numbers are encoded, in which order they come and how many
there are along each axis.
-/

set_option autoImplicit false

namespace ViewClassifier.Npy

open Files (Bytes bigEndian littleEndian)

structure Header where
  descriptor : Literal
  /-- Whether the first axis is the fastest one. -/
  columnMajor : Bool
  shape : List Nat

/-- The length of an axis. It is a 64-bit word. -/
def axisLength? : Literal → Option Nat
  | .whole n => if 0 ≤ n ∧ n < UInt64.size then some n.toNat else none
  | _ => none

def shape? : Literal → Option (List Nat)
  | .tuple items => items.mapM axisLength?
  | _ => none

structure Parts where
  descriptor : Option Literal := none
  columnMajor : Option Bool := none
  shape : Option (List Nat) := none

/-- The parts with one more of them. A part that comes twice counts as it comes last. -/
def Parts.add (parts : Parts) (key value : Literal) : Except HeaderFault Parts :=
  match key, value with
  | .text "descr", value => .ok { parts with descriptor := some value }
  | .text "fortran_order", .truth flag => .ok { parts with columnMajor := some flag }
  | .text "fortran_order", value => .error (.illegalValue "fortran_order" value.spelling)
  | .text "shape", value =>
      match shape? value with
      | some shape => .ok { parts with shape := some shape }
      | none => .error (.illegalValue "shape" value.spelling)
  | key, _ => .error (.unknownKey key.spelling)

def Parts.header (parts : Parts) : Except HeaderFault Header :=
  match parts with
  | ⟨some descriptor, some columnMajor, some shape⟩ => .ok ⟨descriptor, columnMajor, shape⟩
  | ⟨none, _, _⟩ => .error (.missingKey "descr")
  | ⟨_, none, _⟩ => .error (.missingKey "fortran_order")
  | ⟨_, _, none⟩ => .error (.missingKey "shape")

def Header.ofLiteral : Literal → Except HeaderFault Header
  | .dictionary members => do
      let parts ← members.foldlM (fun parts (key, value) => parts.add key value) ({} : Parts)
      parts.header
  | value => .error (.notDictionary value.spelling)

def magic : Bytes :=
  0x93 :: "NUMPY".toUTF8.toList

inductive Version where
  | one
  | two
  | three
  deriving DecidableEq, Repr

namespace Version

def ofBytes? : Bytes → Option Version
  | [1, 0] => some .one
  | [2, 0] => some .two
  | [3, 0] => some .three
  | _ => none

def lengthBytes : Version → Nat
  | .one => 2
  | .two | .three => 4

/-- The characters of a header. Only the third version goes beyond ASCII. -/
def chars (version : Version) (bytes : Bytes) : Except HeaderFault (List Char) :=
  match version with
  | .one | .two =>
      if bytes.all (· < 128) then .ok (bytes.map fun b => Char.ofNat b.toNat)
      else .error .notAscii
  | .three =>
      match String.fromUTF8? ⟨bytes.toArray⟩ with
      | some text => .ok text.toList
      | none => .error .notUnicode

end Version

def splitHead (count : Nat) (bytes : Bytes) : Except Fault (Bytes × Bytes) :=
  if bytes.length < count then .error .cutHeader else .ok (bytes.splitAt count)

def Header.ofText (version : Version) (text : Bytes) : Except HeaderFault Header := do
  if text.getLast? ≠ some 10 then throw .missingNewline
  match Literal.ofChars? (← version.chars text.dropLast) with
  | some literal => Header.ofLiteral literal
  | none => throw .notLiteral

/-- Reads a header. The bytes of the numbers are left. -/
def Header.read (bytes : Bytes) : Except Fault (Header × Bytes) := do
  let (start, bytes) ← splitHead magic.length bytes
  if start ≠ magic then throw (.header .wrongMagic)
  let (numbers, bytes) ← splitHead 2 bytes
  let some version := Version.ofBytes? numbers
    | throw (.header (.unknownVersion (bigEndian (numbers.take 1)) (bigEndian (numbers.drop 1))))
  let (length, bytes) ← splitHead version.lengthBytes bytes
  let (text, data) ← splitHead (littleEndian length) bytes
  match Header.ofText version text with
  | .ok header => return (header, data)
  | .error fault => throw (.header fault)

end ViewClassifier.Npy
