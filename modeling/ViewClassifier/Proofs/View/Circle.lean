import Mathlib.Algebra.Order.Group.Unbundled.Abs
import Mathlib.Data.Int.ConditionallyCompleteOrder
import Mathlib.Data.Int.ModEq
import Mathlib.Order.Bounds.Basic
import ViewClassifier.View.Label

/-!
# Azimuths on the circle

The error of an azimuth is the shortest way around the circle: the least distance on the line when one
of the two azimuths may make any number of turns in either direction. What holds of a distance on the
line for all turns holds of the error as well.
-/

set_option autoImplicit false

namespace ViewClassifier

variable {a b c tolerance : ℕ}

/-- The distance on the line when the first azimuth has made some more turns. -/
def distanceAfter (a b : ℕ) (turns : ℤ) : ℤ :=
  |(a : ℤ) - b + 360 * turns|

section Distances

theorem distanceAfter_comm (a b : ℕ) (turns : ℤ) :
    distanceAfter a b turns = distanceAfter b a (-turns) := by
  have back : (b : ℤ) - a + 360 * -turns = -((a : ℤ) - b + 360 * turns) := by omega
  unfold distanceAfter
  rw [back, abs_neg]

theorem distanceAfter_add_turns (a b m n : ℕ) (turns : ℤ) :
    distanceAfter (a + 360 * m) (b + 360 * n) turns = distanceAfter a b (turns + (m - n)) := by
  unfold distanceAfter
  congr 1
  omega

theorem distanceAfter_triangle (a b c : ℕ) (first second : ℤ) :
    distanceAfter a c (first + second) ≤ distanceAfter a b first + distanceAfter b c second := by
  have way : (a : ℤ) - c + 360 * (first + second) =
      ((a : ℤ) - b + 360 * first) + ((b : ℤ) - c + 360 * second) := by omega
  unfold distanceAfter
  rw [way]
  exact abs_add_le _ _

theorem exists_distanceAfter_eq_zero_iff :
    (∃ turns, distanceAfter a b turns = 0) ↔ a ≡ b [MOD 360] := by
  unfold distanceAfter
  simp only [abs_eq_zero]
  rw [Nat.modEq_iff_dvd]
  constructor
  · intro met
    obtain ⟨turns, met⟩ := met
    exact ⟨turns, by omega⟩
  · intro divided
    obtain ⟨turns, divided⟩ := divided
    exact ⟨turns, by omega⟩

end Distances

/-- No number of turns makes the way shorter. -/
theorem angularError_le_distanceAfter (a b : ℕ) (turns : ℤ) :
    (angularError a b : ℤ) ≤ distanceAfter a b turns := by
  unfold angularError distanceAfter azimuthBins
  dsimp only
  rw [le_abs]
  omega

/-- Whole turns bring the azimuths as near as the remainder of their difference. One turn more is the
way in the other direction. -/
theorem exists_distanceAfter_eq (a b : ℕ) :
    ∃ turns, distanceAfter a b turns = angularError a b := by
  unfold angularError distanceAfter azimuthBins
  dsimp only
  rcases Nat.le_total a b with behind | ahead
  · rcases Nat.le_total ((b - a) % 360) 180 with near | far
    · refine ⟨((b - a) / 360 : ℕ), ?_⟩
      rw [abs_of_nonpos (by omega)]
      omega
    · refine ⟨((b - a) / 360 : ℕ) + 1, ?_⟩
      rw [abs_of_nonneg (by omega)]
      omega
  · rcases Nat.le_total ((a - b) % 360) 180 with near | far
    · refine ⟨-((a - b) / 360 : ℕ), ?_⟩
      rw [abs_of_nonneg (by omega)]
      omega
    · refine ⟨-((a - b) / 360 : ℕ) - 1, ?_⟩
      rw [abs_of_nonpos (by omega)]
      omega

theorem isLeast_angularError (a b : ℕ) :
    IsLeast (Set.range (distanceAfter a b)) (angularError a b) := by
  refine ⟨exists_distanceAfter_eq a b, ?_⟩
  rintro distance ⟨turns, rfl⟩
  exact angularError_le_distanceAfter a b turns

theorem angularError_le_iff :
    angularError a b ≤ tolerance ↔ ∃ turns, distanceAfter a b turns ≤ tolerance := by
  constructor
  · intro within
    obtain ⟨turns, shortest⟩ := exists_distanceAfter_eq a b
    exact ⟨turns, shortest.trans_le (by exact_mod_cast within)⟩
  · intro within
    obtain ⟨turns, within⟩ := within
    exact_mod_cast (angularError_le_distanceAfter a b turns).trans within

/-- Azimuths whose distances after all turns are those of two others have their error. -/
theorem angularError_eq_of_turns {first second : ℕ} (turned : ℤ ≃ ℤ)
    (same : ∀ turns, distanceAfter a b turns = distanceAfter first second (turned turns)) :
    angularError a b = angularError first second := by
  have distances : Set.range (distanceAfter a b) = Set.range (distanceAfter first second) := by
    rw [← turned.surjective.range_comp (distanceAfter first second)]
    exact congrArg Set.range (funext same)
  have least := isLeast_angularError a b
  rw [distances] at least
  exact_mod_cast least.unique (isLeast_angularError first second)

theorem angularError_comm (a b : ℕ) : angularError a b = angularError b a :=
  angularError_eq_of_turns (Equiv.neg ℤ) (distanceAfter_comm a b)

theorem angularError_add_turns (a b m n : ℕ) :
    angularError (a + 360 * m) (b + 360 * n) = angularError a b :=
  angularError_eq_of_turns (Equiv.addRight ((m : ℤ) - n)) (distanceAfter_add_turns a b m n)

theorem angularError_eq_zero_iff : angularError a b = 0 ↔ a ≡ b [MOD 360] := by
  rw [← exists_distanceAfter_eq_zero_iff, ← Nat.le_zero, angularError_le_iff]
  exact exists_congr fun turns => (abs_nonneg _).ge_iff_eq'

theorem angularError_triangle (a b c : ℕ) :
    angularError a c ≤ angularError a b + angularError b c := by
  obtain ⟨first, shortest⟩ := exists_distanceAfter_eq a b
  obtain ⟨second, further⟩ := exists_distanceAfter_eq b c
  refine angularError_le_iff.mpr ⟨first + second, ?_⟩
  calc distanceAfter a c (first + second)
      ≤ distanceAfter a b first + distanceAfter b c second := distanceAfter_triangle a b c _ _
    _ = (angularError a b + angularError b c : ℕ) := by rw [shortest, further, Nat.cast_add]

/-- The farther of the two ways around the circle takes at least half a turn. -/
theorem angularError_le_half (a b : ℕ) : angularError a b ≤ 180 := by
  unfold angularError azimuthBins
  dsimp only
  omega

/-- The error is the least distance over all turns, and so it is a distance on the circle: symmetric,
zero only for one and the same azimuth, and never longer than a way over a third azimuth. -/
theorem angularError_shortest (a b : ℕ) :
    IsLeast (Set.range fun turns : ℤ => |(a : ℤ) - b + 360 * turns|) (angularError a b) ∧
      angularError a b = angularError b a ∧
      angularError a b ≤ 180 ∧
      (angularError a b = 0 ↔ a ≡ b [MOD 360]) ∧
      (∀ m n, angularError (a + 360 * m) (b + 360 * n) = angularError a b) ∧
      ∀ c, angularError a c ≤ angularError a b + angularError b c :=
  ⟨isLeast_angularError a b, angularError_comm a b, angularError_le_half a b,
    angularError_eq_zero_iff, angularError_add_turns a b, angularError_triangle a b⟩

end ViewClassifier
