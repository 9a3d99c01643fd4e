import ViewClassifier.Files.Words

/-!
# Stored streams

A stream of bytes in blocks that are not compressed, between two bytes of head and a checksum. The
checksum is written but not looked at.
-/

set_option autoImplicit false

namespace ViewClassifier.Png.Stored

open Files (Bytes)

def blockLimit : Nat := 0xffff

def checksum (bytes : Bytes) : Nat :=
  let (a, b) := bytes.foldl
    (fun (sums : Nat × Nat) byte =>
      let a := (sums.1 + byte.toNat) % 65521
      (a, (sums.2 + a) % 65521)) (1, 0)
  65536 * b + a

/-- A block. The flag says whether it is the last one. -/
def block (last : Bool) (bytes : Bytes) : Bytes :=
  (if last then 1 else 0) :: Files.toLittleEndian 2 bytes.length ++
    Files.toLittleEndian 2 (blockLimit - bytes.length) ++ bytes

def blocks (fuel : Nat) (bytes : Bytes) : Bytes :=
  match fuel with
  | 0 => block true (bytes.take blockLimit)
  | fuel + 1 =>
      if bytes.length ≤ blockLimit then block true bytes
      else block false (bytes.take blockLimit) ++ blocks fuel (bytes.drop blockLimit)

def encode (bytes : Bytes) : Bytes :=
  [0x78, 0x01] ++ blocks bytes.length bytes ++ Files.toBigEndian 4 (checksum bytes)

def readBlocks? (fuel : Nat) (bytes : Bytes) : Option Bytes :=
  match fuel, bytes with
  | fuel + 1, head :: a :: b :: c :: d :: rest => do
      let length := Files.littleEndian [a, b]
      if head &&& 6 ≠ 0 ∨ Files.littleEndian [c, d] + length ≠ blockLimit then failure
      if rest.length < length then failure
      if head &&& 1 = 1 then return rest.take length
      return rest.take length ++ (← readBlocks? fuel (rest.drop length))
  | _, _ => none

def decode? (stream : Bytes) : Option Bytes :=
  match stream with
  | a :: b :: rest =>
      if a &&& 0x0f = 8 ∧ a < 0x80 ∧ b &&& 0x20 = 0 ∧ Files.bigEndian [a, b] % 31 = 0 then
        readBlocks? rest.length rest
      else none
  | _ => none

end ViewClassifier.Png.Stored
