import ViewClassifier.Npy.Decoding
import ViewClassifier.Proofs.Addressable
import ViewClassifier.Proofs.Binary32.Words

/-!
# Payloads of array files

After the head come the numbers, one word after the other. A number has words of both sizes, and each
of them is read as the number, bit for bit. Two words of one number differ only when it is NaN.
-/

set_option autoImplicit false

namespace ViewClassifier.Npy

open Binary32 (IsWord)
open Files (Bytes toLittleEndian toBigEndian)

namespace Encoding

variable {e : Encoding} {x : Float32} {bytes : Bytes}

def wordBytes (e : Encoding) (word : ℕ) : Bytes :=
  if e.bigEndian then toBigEndian e.width word else toLittleEndian e.width word

/-- The bytes of a number in an encoding. -/
inductive Stores : Encoding → Float32 → Bytes → Prop where
  | narrow {bigEndian : Bool} {word : UInt32} {x : Float32}
      (isWord : IsWord .binary32 word.toBitVec x) :
      Stores ⟨bigEndian, false⟩ x (wordBytes ⟨bigEndian, false⟩ word.toNat)
  | wide {bigEndian : Bool} {word : UInt64} {x : Float32}
      (isWord : IsWord .binary64 word.toBitVec x) :
      Stores ⟨bigEndian, true⟩ x (wordBytes ⟨bigEndian, true⟩ word.toNat)

theorem length_wordBytes (e : Encoding) (word : ℕ) : (e.wordBytes word).length = e.width := by
  unfold wordBytes
  split <;> simp [toBigEndian]

theorem number_wordBytes (e : Encoding) {word : ℕ} (fits : word < 256 ^ e.width) :
    e.number (e.wordBytes word) =
      if e.wide then Binary32.narrow (.ofBits word.toUInt64) else .ofBits word.toUInt32 := by
  unfold number wordBytes
  split
  · rw [Files.bigEndian_toBigEndian, Nat.pow_eq, Nat.mod_eq_of_lt fits]
  · rw [Files.littleEndian_toLittleEndian, Nat.pow_eq, Nat.mod_eq_of_lt fits]

theorem Stores.length_eq (stores : e.Stores x bytes) : bytes.length = e.width := by
  cases stores <;> exact length_wordBytes _ _

theorem Stores.number_eq (stores : e.Stores x bytes) : e.number bytes = x := by
  cases stores with
  | @narrow _ word _ isWord =>
      rw [number_wordBytes _ word.toNat_lt, if_neg Bool.false_ne_true, Nat.toUInt32_eq,
        UInt32.ofNat_toNat]
      exact Binary32.ofBits_of_isWord isWord
  | @wide _ word _ isWord =>
      rw [number_wordBytes _ word.toNat_lt, if_pos rfl, Nat.toUInt64_eq, UInt64.ofNat_toNat]
      exact Binary32.narrow_of_isWord isWord

/-- The bytes of numbers, one after the other. -/
inductive Payload (e : Encoding) : List Float32 → Bytes → Prop where
  | nil : Payload e [] []
  | cons {x : Float32} {values : List Float32} {bytes rest : Bytes} (first : e.Stores x bytes)
      (others : Payload e values rest) : Payload e (x :: values) (bytes ++ rest)

variable {values : List Float32} {payload : Bytes}

theorem Payload.length_eq (holds : Payload e values payload) :
    payload.length = values.length * e.width := by
  induction holds with
  | nil => simp
  | cons first _ ih => rw [List.length_append, first.length_eq, ih, List.length_cons]; ring

theorem Payload.numbers_eq (holds : Payload e values payload) :
    e.numbers values.length payload = values := by
  induction holds with
  | nil => rfl
  | cons first _ ih =>
      rw [List.length_cons, numbers, List.take_left' first.length_eq,
        List.drop_left' first.length_eq, first.number_eq, ih]

end Encoding

section Counts

variable {shape : List ℕ}

/-- By induction on the axes: no product on the way passes 64 bits. -/
theorem foldlM_positions {count : ℕ} (small : count * positions (shape.filter (· ≠ 0)) < UInt64.size) :
    shape.foldlM (fun n k => if n * k < UInt64.size then some (n * k) else none) count =
      some (count * positions shape) := by
  induction shape generalizing count with
  | nil => simp [positions]
  | cons k shape ih =>
      have positive := positions_filter_pos shape
      have next : count * k * positions (shape.filter (· ≠ 0)) < UInt64.size := by
        rcases Nat.eq_zero_or_pos k with rfl | some
        · simp
        · rwa [positions_filter_cons some, ← Nat.mul_assoc] at small
      have step : count * k < UInt64.size :=
        (Nat.le_mul_of_pos_right _ positive).trans_lt next
      rw [List.foldlM_cons, if_pos step, Option.bind_eq_bind, Option.bind_some, ih next, positions,
        Nat.mul_assoc]

theorem elementCount?_of_addressable (addressable : Addressable shape) :
    elementCount? shape = some (positions shape) := by
  have small : 1 * positions (shape.filter (· ≠ 0)) < UInt64.size := by
    rw [Nat.one_mul]
    exact Nat.lt_trans addressable (by decide)
  rw [elementCount?, foldlM_positions small, Nat.one_mul, Option.bind_eq_bind, Option.bind_some,
    if_pos addressable.positions_lt]
  rfl

end Counts

end ViewClassifier.Npy
