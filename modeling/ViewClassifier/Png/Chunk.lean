import ViewClassifier.Error
import ViewClassifier.Files.Words

/-!
# Chunks

A PNG file is a signature and a row of chunks. A chunk has a name of four letters, data, and a
checksum of both.
-/

set_option autoImplicit false

namespace ViewClassifier.Png

open Files (Bytes)

def checksumBit (c : UInt32) : UInt32 :=
  if c &&& 1 = 1 then (c >>> 1) ^^^ 0xedb88320 else c >>> 1

def checksumByte (c : UInt32) (b : UInt8) : UInt32 :=
  Nat.repeat checksumBit 8 (c ^^^ b.toUInt32)

def checksum (bytes : Bytes) : UInt32 :=
  bytes.foldl checksumByte 0xffffffff ^^^ 0xffffffff

def signature : Bytes :=
  [0x89, 0x50, 0x4e, 0x47, 0x0d, 0x0a, 0x1a, 0x0a]

structure Chunk where
  name : Bytes
  data : Bytes
  deriving DecidableEq

namespace Chunk

def named (name : String) (data : Bytes) : Chunk :=
  ⟨name.toUTF8.toList, data⟩

def is (chunk : Chunk) (name : String) : Bool :=
  chunk.name == name.toUTF8.toList

/-- Whether a file cannot do without the chunk. Such a name starts with a capital letter. -/
def isCritical (chunk : Chunk) : Bool :=
  chunk.name.head?.any fun b => b &&& 0x20 == 0

def encode (chunk : Chunk) : Bytes :=
  Files.toBigEndian 4 chunk.data.length ++ chunk.name ++ chunk.data ++
    Files.toBigEndian 4 (checksum (chunk.name ++ chunk.data)).toNat

def readHead (bytes : Bytes) : Except PictureFault (Bytes × Nat × Bytes) :=
  if bytes.length < 8 then .error .interrupted
  else .ok ((bytes.drop 4).take 4, Files.bigEndian (bytes.take 4), bytes.drop 8)

/-- Reads the rest of a chunk. The flag says whether the checksum is right. -/
def readBody (name : Bytes) (length : Nat) (bytes : Bytes) :
    Except PictureFault (Chunk × Bool × Bytes) :=
  if bytes.length < length + 4 then .error .interrupted
  else
    let data := bytes.take length
    let found := Files.bigEndian ((bytes.drop length).take 4)
    .ok (⟨name, data⟩, found == (checksum (name ++ data)).toNat, bytes.drop (length + 4))

end Chunk

end ViewClassifier.Png
