import ViewClassifier.Proofs.Binary32.Intervals
import ViewClassifier.Proofs.Binary32.Quotient
import ViewClassifier.Proofs.Outcome

/-!
# Averages in the unit interval

A sum of numbers from the unit interval is at most the sum of as many ones. The sum of ones counts
them as long as the mantissa does and then stays where it is, so that it never passes the count that
a mean divides by. Averaging the crops of an image therefore keeps probabilities in the interval.
-/

set_option autoImplicit false

namespace ViewClassifier

open Binary32

/-- The count that one more is half of the distance to the next number away from. -/
def lastCount : ℕ :=
  2 ^ 24

/-- The sum of ones, which stays at the last count from there on. -/
def onesSum (count : ℕ) : Float32 :=
  ofNat (min count lastCount)

theorem amount_onesSum (count : ℕ) : Amount (onesSum count) :=
  amount_ofNat ((Nat.min_le_right count lastCount).trans_lt (by decide))

theorem onesSum_succ (count : ℕ) : onesSum (count + 1) = onesSum count + 1 := by
  unfold onesSum
  rcases Nat.lt_or_ge count lastCount with growing | full
  · rw [Nat.min_eq_left growing.le, Nat.min_eq_left (Nat.succ_le_of_lt growing)]
    have counted := rounds_ofNat (count + 1)
    have added := (amount_ofNat (growing.trans (by decide))).rounds_add
      (show Amount 1 by decide)
    rw [exact_ofNat growing, exact_one, ← Nat.cast_add_one] at added
    exact (added.unique counted (level_ofNat_pos (Nat.succ_pos count))).symm
  · rw [Nat.min_eq_right full, Nat.min_eq_right (Nat.le_succ_of_le full)]
    decide

section Sums

variable {count : ℕ} {values : ℕ → Float32}

theorem runningSum_succ (count : ℕ) (values : ℕ → Float32) :
    runningSum (count + 1) values = runningSum count values + values count := by
  unfold runningSum
  rw [List.range_succ, List.foldl_append]
  rfl

theorem runningSum_upTo (each : ∀ i < count, UpTo 1 (values i)) :
    UpTo (onesSum count) (runningSum count values) := by
  induction count with
  | zero => exact (by decide : UpTo (onesSum 0) 0)
  | succ count ih =>
      have before := ih fun i inside => each i (Nat.lt_succ_of_lt inside)
      have limit := amount_onesSum (count + 1)
      rw [onesSum_succ] at limit ⊢
      rw [runningSum_succ]
      exact before.add (each count (Nat.lt_succ_self count)) limit

/-- The divisor of a mean is not below the sum of ones, and may be infinite. -/
theorem runningSum_div_upTo_one (some : 0 < count) (each : ∀ i < count, UpTo 1 (values i)) :
    UpTo 1 (runningSum count values / ofNat count) := by
  have sum := runningSum_upTo each
  rcases (rounds_ofNat count).extent.amount_or_infinite with counts | ⟨infinite, _⟩
  · have ones : UpTo (ofNat count) (onesSum count) := .ofNat (Nat.min_le_left _ _) counts
    have positive := level_ofNat_pos some
    have quotient := counts.div_eq_one positive
    have within := (sum.trans ones).div counts positive (by rw [quotient]; decide)
    rwa [quotient] at within
  · obtain ⟨sign, zero⟩ := sum.amount.exists_div_infinite infinite
    rw [zero]
    cases sign with
    | negative => decide
    | positive => decide

theorem cropMean_upTo_one (some : 0 < count) (each : ∀ i < count, UpTo 1 (values i)) :
    UpTo 1 (cropMean count values) := by
  unfold cropMean
  by_cases single : count = 1
  · rw [if_pos single]
    exact each 0 some
  · rw [if_neg single]
    exact runningSum_div_upTo_one some each

end Sums

/-- The rows of whole groups of crops can be averaged, and probabilities stay between zero and one,
however many crops a group has. -/
theorem averageCrops_unit {perCrop : Table} {group : ℕ}
    (unit : ∀ v ∈ perCrop.data, 0 ≤ v ∧ v ≤ 1) (rows : 0 < perCrop.rows) (some : 1 ≤ group)
    (even : group ∣ perCrop.rows) :
    ∃ table, averageCrops perCrop group = .ok table ∧ table.rows = perCrop.rows / group ∧
      table.cols = perCrop.cols ∧ ∀ v ∈ table.data, v.isNaN = false ∧ 0 ≤ v ∧ v ≤ 1 := by
  have counted : perCrop.rows = perCrop.rows / group * group := (Nat.div_mul_cancel even).symm
  obtain ⟨table, averaged, images, cols, _, entries⟩ :=
    averageCrops_eq_ok counted (counted ▸ rows.ne')
  refine ⟨table, averaged, images, cols, fun v member => ?_⟩
  obtain ⟨i, k, hi, hk, rfl⟩ := Table.mem_data_iff.mp member
  rw [images] at hi
  rw [cols] at hk
  have mean : UpTo 1 (table.get i k) := by
    rw [entries i k hi hk]
    refine cropMean_upTo_one some fun r inside => upTo_one_iff.mpr (unit _ ?_)
    have row : i * group + r < perCrop.rows := counted ▸ Table.offset_lt hi inside
    exact Table.mem_data_iff.mpr ⟨_, _, row, hk, rfl⟩
  exact ⟨mean.amount.number, upTo_one_iff.mp mean⟩

/-- Three crops of one image that are certain of its first class. -/
def certainCrops : Table :=
  ⟨3, 2, #[1, 0, 1, -0, 1, 0.1], rfl⟩

theorem averageCrops_unit_certainCrops :
    (∀ v ∈ certainCrops.data, 0 ≤ v ∧ v ≤ 1) ∧ 3 ∣ certainCrops.rows ∧
      ∃ table, averageCrops certainCrops 3 = .ok table ∧ table.rows = 1 ∧ table.cols = 2 ∧
        ∀ v ∈ table.data, v.isNaN = false ∧ 0 ≤ v ∧ v ≤ 1 := by
  have unit : ∀ v ∈ certainCrops.data, 0 ≤ v ∧ v ≤ 1 := by decide
  exact ⟨unit, by decide, averageCrops_unit unit (by decide) (by decide) (by decide)⟩

end ViewClassifier
