import ViewClassifier.Proofs.Binary32.Extent

/-!
# The greater and the lesser of two numbers

Two numbers that are not NaN are compared by their levels. A number of a level above zero is given
back as it is, and one of level zero may change its sign.
-/

set_option autoImplicit false

namespace ViewClassifier.Binary32

variable {x y : Float32}

theorem max_spec (xNumber : x.isNaN = false) (yNumber : y.isNaN = false) :
    (max x y).isNaN = false ∧ level (max x y) = Max.max (level x) (level y) := by
  have less := lt_iff_level_lt xNumber yNumber
  unfold max
  rw [xNumber, yNumber, if_neg Bool.false_ne_true, if_neg Bool.false_ne_true]
  by_cases below : x < y
  · rw [if_pos below]
    exact ⟨yNumber, (Int.max_eq_right (less.mp below).le).symm⟩
  · rw [if_neg below]
    exact ⟨xNumber, (Int.max_eq_left (Int.not_lt.mp (mt less.mpr below))).symm⟩

theorem min_spec (xNumber : x.isNaN = false) (yNumber : y.isNaN = false) :
    (min x y).isNaN = false ∧ level (min x y) = Min.min (level x) (level y) := by
  have less := lt_iff_level_lt yNumber xNumber
  unfold min
  rw [xNumber, yNumber, if_neg Bool.false_ne_true, if_neg Bool.false_ne_true]
  by_cases below : y < x
  · rw [if_pos below]
    exact ⟨yNumber, (Int.min_eq_right (less.mp below).le).symm⟩
  · rw [if_neg below]
    exact ⟨xNumber, (Int.min_eq_left (Int.not_lt.mp (mt less.mpr below))).symm⟩

theorem max_zero_spec (number : x.isNaN = false) :
    Extent (max x 0) ∧ level (max x 0) = Max.max (level x) 0 := by
  obtain ⟨kept, greater⟩ := max_spec number (show (0 : Float32).isNaN = false by decide)
  rw [show level (0 : Float32) = 0 by decide] at greater
  exact ⟨⟨kept, by omega⟩, greater⟩

theorem max_zero_of_nonpos (number : x.isNaN = false) (nonpos : level x ≤ 0) :
    Extent (max x 0) ∧ exact (max x 0) = 0 := by
  obtain ⟨extent, greater⟩ := max_zero_spec number
  rw [Int.max_eq_right nonpos] at greater
  refine ⟨extent, ?_⟩
  rw [exact, greater]
  exact Rounding.magnitude_zero _

theorem max_zero_of_pos (number : x.isNaN = false) (positive : 0 < level x) : max x 0 = x := by
  obtain ⟨_, greater⟩ := max_zero_spec number
  exact eq_of_level_eq (greater.trans (Int.max_eq_left positive.le)) positive

/-- The greatest of some numbers is one of them, and no other one is above it. -/
theorem foldl_max_spec {start : Float32} {values : List Float32} (startNumber : start.isNaN = false)
    (numbers : ∀ x ∈ values, x.isNaN = false) :
    (values.foldl max start).isNaN = false ∧
      (∀ x ∈ start :: values, level x ≤ level (values.foldl max start)) ∧
      ∃ x ∈ start :: values, level x = level (values.foldl max start) := by
  induction values generalizing start with
  | nil => exact ⟨startNumber, by simp, start, .head _, rfl⟩
  | cons next rest ih =>
      obtain ⟨nextNumber, restNumbers⟩ := List.forall_mem_cons.mp numbers
      obtain ⟨kept, greater⟩ := max_spec startNumber nextNumber
      obtain ⟨number, greatest, x, member, attained⟩ := ih kept restNumbers
      obtain ⟨pair, others⟩ := List.forall_mem_cons.mp greatest
      rw [List.foldl_cons]
      refine ⟨number, ?_, ?_⟩
      · rw [List.forall_mem_cons, List.forall_mem_cons]
        exact ⟨by omega, by omega, others⟩
      · rcases List.mem_cons.mp member with rfl | later
        · rcases Int.le_total (level start) (level next) with below | above
          · exact ⟨next, .tail _ (.head _), by omega⟩
          · exact ⟨start, .head _, by omega⟩
        · exact ⟨x, .tail _ (.tail _ later), attained⟩

end ViewClassifier.Binary32
