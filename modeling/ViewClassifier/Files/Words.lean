import ViewClassifier.Files.Tree

/-!
# Numbers in files

A number is written as a fixed count of bytes, with either the least or the greatest of them first.
-/

set_option autoImplicit false

namespace ViewClassifier.Files

def littleEndian : Bytes → Nat
  | [] => 0
  | b :: rest => b.toNat + 256 * littleEndian rest

def bigEndian (bytes : Bytes) : Nat :=
  littleEndian bytes.reverse

/-- The bytes of a number, the least one first. What `width` bytes do not hold is lost. -/
def toLittleEndian : Nat → Nat → Bytes
  | 0, _ => []
  | width + 1, n => n.toUInt8 :: toLittleEndian width (n / 256)

def toBigEndian (width n : Nat) : Bytes :=
  (toLittleEndian width n).reverse

@[simp] theorem length_toLittleEndian (width n : Nat) : (toLittleEndian width n).length = width := by
  induction width generalizing n with
  | zero => rfl
  | succ width ih => simp [toLittleEndian, ih]

/-- What is read back is the number without what its bytes do not hold. -/
theorem littleEndian_toLittleEndian (width n : Nat) :
    littleEndian (toLittleEndian width n) = n % Nat.pow 256 width := by
  induction width generalizing n with
  | zero => simp [toLittleEndian, littleEndian, Nat.mod_one]
  | succ width ih =>
      have more : Nat.pow 256 (width + 1) = 256 * Nat.pow 256 width := Nat.pow_succ'
      rw [toLittleEndian, littleEndian, ih, more, Nat.mod_mul]
      rfl

theorem bigEndian_toBigEndian (width n : Nat) :
    bigEndian (toBigEndian width n) = n % Nat.pow 256 width := by
  simp [bigEndian, toBigEndian, littleEndian_toLittleEndian]

end ViewClassifier.Files
