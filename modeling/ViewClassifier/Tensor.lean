import ViewClassifier.Volume

/-!
# Tensors

Numbers on a grid with any number of axes, stored row-major. The raw output of a network and a mean
array come with any rank. A batch is a tensor of rank four.
-/

set_option autoImplicit false

namespace ViewClassifier

def positions : List Nat → Nat
  | [] => 1
  | length :: rest => length * positions rest

/-- A grid that can be addressed. The axes that are not empty must not multiply to 63 bits, even when
another axis is empty. -/
def Addressable (shape : List Nat) : Prop :=
  positions (shape.filter (· ≠ 0)) < UInt64.size / 2

instance : DecidablePred Addressable := fun _ => inferInstanceAs (Decidable (_ < _))

structure Tensor where
  /-- Length of each axis, the slowest one first. -/
  shape : List Nat
  /-- All numbers in row-major order. -/
  data : Array Float32
  size_data : data.size = positions shape

namespace Tensor

def ofList (values : List Float32) : Tensor where
  shape := [values.length]
  data := values.toArray
  size_data := by simp [positions]

def ofVolume (v : Volume) : Tensor where
  shape := [v.outer, v.middle, v.inner]
  data := v.data
  size_data := by simp [v.size_data, positions, Nat.mul_assoc]

def toVolume? (t : Tensor) : Option Volume :=
  match h : t.shape with
  | [a, b, c] => some ⟨a, b, c, t.data, by rw [t.size_data, h]; simp [positions, Nat.mul_assoc]⟩
  | _ => none

end Tensor

end ViewClassifier
