import ViewClassifier.Tensor

/-!
# Tables

Numbers in rows and columns. A table of probabilities has one row for each image and one column for
each class.
-/

set_option autoImplicit false

namespace ViewClassifier

structure Table where
  rows : Nat
  cols : Nat
  /-- All numbers, row after row. -/
  data : Array Float32
  size_data : data.size = rows * cols

namespace Table

theorem offset_lt {a b i j : Nat} (hi : i < a) (hj : j < b) : i * b + j < a * b :=
  calc i * b + j < i * b + b := by omega
    _ = (i + 1) * b := by rw [Nat.succ_mul]
    _ ≤ a * b := Nat.mul_le_mul_right b hi

def get (t : Table) (i j : Nat) : Float32 :=
  if h : i < t.rows ∧ j < t.cols then
    have bound : i * t.cols + j < t.data.size := by
      rw [t.size_data]; exact offset_lt h.1 h.2
    t.data[i * t.cols + j]
  else 0

def ofFn (a b : Nat) (f : Nat → Nat → Float32) : Table where
  rows := a
  cols := b
  data := Array.ofFn (n := a * b) fun t => f (t.val / b) (t.val % b)
  size_data := by simp

@[simp] theorem rows_ofFn (a b : Nat) (f : Nat → Nat → Float32) : (ofFn a b f).rows = a := rfl

@[simp] theorem cols_ofFn (a b : Nat) (f : Nat → Nat → Float32) : (ofFn a b f).cols = b := rfl

theorem get_ofFn {a b i j : Nat} (f : Nat → Nat → Float32) (hi : i < a) (hj : j < b) :
    (ofFn a b f).get i j = f i j := by
  have row : (i * b + j) / b = i := by
    rw [Nat.mul_comm, Nat.mul_add_div (by omega), Nat.div_eq_of_lt hj, Nat.add_zero]
  have col : (i * b + j) % b = j := by
    rw [Nat.mul_add_mod_self_right, Nat.mod_eq_of_lt hj]
  simp [get, ofFn, hi, hj, row, col]

def row (t : Table) (i : Nat) : List Float32 :=
  List.ofFn fun j : Fin t.cols => t.get i j.val

@[simp] theorem length_row (t : Table) (i : Nat) : (t.row i).length = t.cols := by
  simp [row]

theorem getElem_row {t : Table} {i j : Nat} (hj : j < (t.row i).length) :
    (t.row i)[j] = t.get i j := by
  simp [row]

def rowList (t : Table) : List (List Float32) :=
  List.ofFn fun i : Fin t.rows => t.row i.val

/-- Whether two tables have one size and equal numbers. NaN is not equal to itself. -/
def equals (s t : Table) : Bool :=
  s.rows == t.rows && s.cols == t.cols && (s.data.zip t.data).all fun (x, y) => x == y

def toTensor (t : Table) : Tensor where
  shape := [t.rows, t.cols]
  data := t.data
  size_data := by simp [t.size_data, positions]

end Table

namespace Tensor

/-- The numbers of a tensor in rows of a given length, if they fill them. -/
def toTable? (t : Tensor) (rows cols : Nat) : Option Table :=
  if h : t.data.size = rows * cols then some ⟨rows, cols, t.data, h⟩ else none

end Tensor

end ViewClassifier
