import Mathlib.Data.List.Basic
import Mathlib.Data.List.Perm.Basic
import ViewClassifier.Npy.Decoding
import ViewClassifier.Proofs.Npy.Spelling

/-!
# Heads of array files

An array file starts with the magic bytes, a version, a length and the header. A header that spells
its three members in any order is read as what they say, in every version of the format.
-/

set_option autoImplicit false

namespace ViewClassifier.Npy

open Files (Bytes toLittleEndian)
open Literal (Dictionary IsAscii)

theorem ok_bind {ε α β : Type} (value : α) (next : α → Except ε β) :
    ((.ok value : Except ε α) >>= next) = next value := rfl

section Members

def Encoding.descriptor (e : Encoding) : String :=
  match e with
  | ⟨false, false⟩ => "<f4"
  | ⟨true, false⟩ => ">f4"
  | ⟨false, true⟩ => "<f8"
  | ⟨true, true⟩ => ">f8"

theorem Encoding.ofDescriptor?_descriptor (e : Encoding) :
    ofDescriptor? (.text e.descriptor) = some e := by
  obtain ⟨bigEndian, wide⟩ := e
  cases bigEndian <;> cases wide <;> rfl

def axes (shape : List ℕ) : Literal :=
  .tuple (shape.map fun n : ℕ => .whole n)

/-- The header of a file with the last axis as the fastest one. -/
def headerOf (e : Encoding) (shape : List ℕ) : Header :=
  ⟨.text e.descriptor, false, shape⟩

def Header.members (header : Header) : List (Literal × Literal) :=
  [(.text "descr", header.descriptor), (.text "fortran_order", .truth header.columnMajor),
    (.text "shape", axes header.shape)]

variable {shape : List ℕ}

theorem shape?_axes (small : ∀ n ∈ shape, n < UInt64.size) : shape? (axes shape) = some shape := by
  rw [axes, shape?]
  induction shape with
  | nil => rfl
  | cons n shape ih =>
      obtain ⟨first, others⟩ := List.forall_mem_cons.mp small
      have axis : axisLength? (.whole n) = some n := by
        rw [axisLength?, if_pos ⟨Int.natCast_nonneg n, by omega⟩, Int.toNat_natCast]
      rw [List.map_cons, List.mapM_cons, axis, ih others]
      rfl

/-- The members go to different parts, so that their order does not matter. -/
theorem ofLiteral_members {header : Header} {members : List (Literal × Literal)}
    (order : members.Perm header.members) (small : ∀ n ∈ header.shape, n < UInt64.size) :
    Header.ofLiteral (.dictionary members) = .ok header := by
  have axes := shape?_axes small
  rw [Header.ofLiteral, List.foldlM_eq_foldl, order.foldl_eq']
  · simp only [Header.members, List.foldl_cons, List.foldl_nil, pure_bind, Parts.add, axes, ok_bind,
      Parts.header]
  · intro x xMember y yMember z
    have xAmong := order.mem_iff.mp xMember
    have yAmong := order.mem_iff.mp yMember
    simp only [Header.members, List.mem_cons, List.not_mem_nil, or_false] at xAmong yAmong
    cases z with
    | error fault => rfl
    | ok parts =>
        rcases xAmong with rfl | rfl | rfl <;> rcases yAmong with rfl | rfl | rfl <;>
          simp only [ok_bind, Parts.add, axes]

end Members

section Characters

def asciiBytes (s : List Char) : Bytes :=
  s.map fun c => c.toNat.toUInt8

variable {s : List Char}

theorem toNat_byte {c : Char} (ascii : c.toNat < 128) : c.toNat.toUInt8.toNat = c.toNat := by
  change c.toNat % 256 = c.toNat
  omega

theorem ofNat_byte {c : Char} (ascii : c.toNat < 128) :
    Char.ofNat c.toNat.toUInt8.toNat = c := by
  rw [toNat_byte ascii, Char.ofNat_toNat]

/-- A character of ASCII is one byte of UTF-8. -/
theorem utf8Encode_ascii (ascii : IsAscii s) : s.utf8Encode = ⟨(asciiBytes s).toArray⟩ := by
  have encoded : s.flatMap String.utf8EncodeChar = asciiBytes s := by
    induction s with
    | nil => rfl
    | cons c s ih =>
        obtain ⟨first, others⟩ := List.forall_mem_cons.mp ascii
        have single : c.val ≤ 127 := UInt32.le_iff_toNat_le.mpr (Nat.le_of_lt_succ first)
        rw [List.flatMap_cons, ih others,
          String.utf8EncodeChar_eq_singleton (Char.utf8Size_eq_one_iff.mpr single)]
        rfl
  rw [List.utf8Encode, encoded]
  exact ByteArray.ext (List.data_toByteArray)

theorem chars_asciiBytes (version : Version) (ascii : IsAscii s) :
    version.chars (asciiBytes s) = .ok s := by
  have single : (asciiBytes s).all (· < 128) = true := by
    rw [asciiBytes, List.all_map, List.all_eq_true]
    intro c member
    have less := ascii c member
    rw [← toNat_byte less] at less
    exact decide_eq_true (UInt8.lt_iff_toNat_lt.mpr less)
  have back : (asciiBytes s).map (fun b => Char.ofNat b.toNat) = s := by
    rw [asciiBytes, List.map_map]
    exact (List.map_congr_left fun c member => ofNat_byte (ascii c member)).trans (List.map_id s)
  cases version with
  | one => rw [Version.chars, if_pos single, back]
  | two => rw [Version.chars, if_pos single, back]
  | three =>
      have decoded : String.fromUTF8? ⟨(asciiBytes s).toArray⟩ = some (String.ofList s) := by
        rw [← utf8Encode_ascii ascii]
        exact dif_pos (String.ofList s).isValidUTF8
      rw [Version.chars, decoded]
      exact congrArg Except.ok String.toList_ofList

end Characters

section Heads

def Version.bytes : Version → Bytes
  | .one => [1, 0]
  | .two => [2, 0]
  | .three => [3, 0]

/-- What stands before the numbers in a file with a given header. -/
inductive Head (header : Header) : Bytes → Prop where
  | intro (version : Version) {members : List (Literal × Literal)} {text : List Char}
      (order : members.Perm header.members) (spelled : Dictionary members text)
      (fits : text.length + 1 < Nat.pow 256 version.lengthBytes) :
      Head header (magic ++ (version.bytes ++ (toLittleEndian version.lengthBytes (text.length + 1) ++
        (asciiBytes text ++ [10]))))

variable {header : Header} {head : Bytes}

theorem splitHead_append {count : ℕ} (bytes rest : Bytes) (length : bytes.length = count) :
    splitHead count (bytes ++ rest) = .ok (bytes, rest) := by
  rw [splitHead, if_neg (by simp [length]), List.splitAt_eq, List.take_left' length,
    List.drop_left' length]

theorem ofText_spelled (version : Version) {members : List (Literal × Literal)} {text : List Char}
    (order : members.Perm header.members) (small : ∀ n ∈ header.shape, n < UInt64.size)
    (spelled : Dictionary members text) :
    Header.ofText version (asciiBytes text ++ [10]) = .ok header := by
  rw [Header.ofText, if_neg (by simp), List.dropLast_concat,
    chars_asciiBytes version spelled.isAscii]
  simp only [ok_bind, spelled.ofChars?_eq, ofLiteral_members order small]

/-- A head is read as its header, and what comes after it is left. -/
theorem Head.read (isHead : Head header head) (small : ∀ n ∈ header.shape, n < UInt64.size)
    (data : Bytes) : Header.read (head ++ data) = .ok (header, data) := by
  cases isHead with
  | @intro version members text order spelled fits =>
      have length : Files.littleEndian (toLittleEndian version.lengthBytes (text.length + 1)) =
          (asciiBytes text ++ [10]).length := by
        rw [Files.littleEndian_toLittleEndian, Nat.mod_eq_of_lt fits]
        simp [asciiBytes]
      have known : Version.ofBytes? version.bytes = some version := by cases version <;> rfl
      have two : version.bytes.length = 2 := by cases version <;> rfl
      rw [List.append_assoc, List.append_assoc, List.append_assoc, Header.read,
        splitHead_append magic _ rfl]
      simp only [ok_bind, ne_eq, not_true_eq_false, if_false,
        splitHead_append version.bytes _ two, known,
        splitHead_append _ _ (Files.length_toLittleEndian version.lengthBytes (text.length + 1)),
        splitHead_append _ data length.symm, ofText_spelled version order small spelled]
      rfl

end Heads

end ViewClassifier.Npy
