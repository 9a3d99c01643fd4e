import ViewClassifier.Tensor

/-!
# Sizes that can be addressed

The bound on a grid counts the axes that are not empty. It bounds each axis and the number of positions,
and a shorter axis keeps to it as long as it is not empty.
-/

set_option autoImplicit false

namespace ViewClassifier

variable {shape : List Nat}

theorem positions_filter_cons {n : Nat} (positive : 0 < n) (shape : List Nat) :
    positions ((n :: shape).filter (· ≠ 0)) = n * positions (shape.filter (· ≠ 0)) := by
  rw [List.filter_cons_of_pos (by simpa using Nat.ne_of_gt positive), positions]

theorem positions_filter_pos (shape : List Nat) : 0 < positions (shape.filter (· ≠ 0)) := by
  induction shape with
  | nil => exact Nat.one_pos
  | cons n shape ih =>
      rcases Nat.eq_zero_or_pos n with rfl | positive
      · exact ih
      · rw [positions_filter_cons positive]
        exact Nat.mul_pos positive ih

theorem positions_le_filter (shape : List Nat) :
    positions shape ≤ positions (shape.filter (· ≠ 0)) := by
  induction shape with
  | nil => exact Nat.le_refl 1
  | cons n shape ih =>
      rcases Nat.eq_zero_or_pos n with rfl | positive
      · rw [positions, Nat.zero_mul]
        exact Nat.zero_le _
      · rw [positions_filter_cons positive, positions]
        exact Nat.mul_le_mul_left n ih

theorem le_positions_filter {n : Nat} (member : n ∈ shape) :
    n ≤ positions (shape.filter (· ≠ 0)) := by
  induction shape with
  | nil => cases member
  | cons m shape ih =>
      rcases Nat.eq_zero_or_pos m with rfl | positive
      · rcases List.mem_cons.mp member with rfl | later
        · exact Nat.zero_le _
        · exact ih later
      · rw [positions_filter_cons positive]
        rcases List.mem_cons.mp member with rfl | later
        · exact Nat.le_mul_of_pos_right n (positions_filter_pos shape)
        · exact Nat.le_trans (ih later) (Nat.le_mul_of_pos_left _ positive)

theorem Addressable.axis_lt (addressable : Addressable shape) {n : Nat} (member : n ∈ shape) :
    n < UInt64.size / 2 :=
  Nat.lt_of_le_of_lt (le_positions_filter member) addressable

theorem Addressable.positions_lt (addressable : Addressable shape) :
    positions shape < UInt64.size / 2 :=
  Nat.lt_of_le_of_lt (positions_le_filter shape) addressable

/-- With an axis in place of a longer one a grid can still be addressed. -/
theorem Addressable.of_le {m n : Nat} (addressable : Addressable (n :: shape)) (positive : 0 < m)
    (le : m ≤ n) : Addressable (m :: shape) := by
  unfold Addressable at *
  rw [positions_filter_cons (Nat.lt_of_lt_of_le positive le)] at addressable
  rw [positions_filter_cons positive]
  exact Nat.lt_of_le_of_lt (Nat.mul_le_mul_right _ le) addressable

end ViewClassifier
