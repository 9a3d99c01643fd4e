import ViewClassifier.Chart
import ViewClassifier.Proofs.Binary32.Extremes
import ViewClassifier.Proofs.Binary32.Intervals

/-!
# The top of a chart

The value at the top is at least every probability of the chart, even after the margin above the
greatest one is rounded. It is never zero, so that probabilities can be divided by it.
-/

set_option autoImplicit false

namespace ViewClassifier.Chart

open Binary32 (Amount Between UpTo exact level signed)

/-- A number of the unit interval, or none at all: NaN is drawn as well. -/
def Drawable (p : Float32) : Prop :=
  p.isNaN = true ∨ 0 ≤ p ∧ p ≤ 1

variable {p : Float32} {probabilities : List Float32}

theorem Drawable.between (drawable : Drawable p) (number : p.isNaN = false) : Between 0 1 p := by
  rcases drawable with missing | unit
  · exact absurd missing (Bool.eq_false_iff.mp number)
  · exact Binary32.between_unit_iff.mpr unit

/-- The greatest finite probability, or the least value at a top if this is greater. -/
def peak (probabilities : List Float32) : Float32 :=
  Binary32.max ((probabilities.filter Float32.isFinite).foldl Binary32.max 0) leastTop

theorem peak_spec (drawable : ∀ p ∈ probabilities, Drawable p) :
    Between 0 1 (peak probabilities) ∧ 0 < signed (peak probabilities) ∧
      ∀ p ∈ probabilities, p.isNaN = false → signed p ≤ signed (peak probabilities) := by
  have finite : ∀ p ∈ probabilities.filter Float32.isFinite, Between 0 1 p := by
    intro p member
    obtain ⟨listed, isFinite⟩ := List.mem_filter.mp member
    exact (drawable p listed).between (Binary32.isNaN_of_isFinite isFinite)
  obtain ⟨number, above, x, member, attained⟩ :=
    Binary32.foldl_max_spec Binary32.between_zero.number fun p member => (finite p member).number
  obtain ⟨kept, greater⟩ : (peak probabilities).isNaN = false ∧ level (peak probabilities) = _ :=
    Binary32.max_spec number (show leastTop.isNaN = false by decide)
  -- The fold starts at zero, so that it may end there, and only the least top is certainly above it.
  have levels : level 0 = 0 ∧ level leastTop = 0x34000000 ∧ level 1 = 0x3f800000 := by decide
  have unit : Between 0 1 x := by
    rcases List.mem_cons.mp member with rfl | listed
    · exact Binary32.between_zero.mono le_rfl zero_le_one
    · exact finite x listed
  have below : level x ≤ level 1 :=
    Binary32.signed_le_iff.mp (unit.greatest.trans_eq Binary32.between_one.signed_eq.symm)
  have positive : 0 < signed (peak probabilities) := by
    rw [← Binary32.between_zero.signed_eq]
    exact Binary32.reading_strictMono (show level 0 < level (peak probabilities) by omega)
  refine ⟨Binary32.between_unit kept positive.le ?_, positive, fun p member number => ?_⟩
  · rw [← Binary32.between_one.signed_eq]
    exact Binary32.signed_le_iff.mpr (by omega)
  · have listed := List.mem_filter.mpr ⟨member, ((drawable p member).between number).finite⟩
    have least := above p (.tail _ listed)
    exact Binary32.signed_le_iff.mpr (by omega)

theorem between_margin : Between 1 (2 : ℕ) 1.05 := by
  have two := Binary32.between_ofNat (show 2 < 2 ^ 24 by decide)
  refine ⟨by decide, ?_, ?_⟩
  · rw [← Binary32.between_one.signed_eq]
    exact Binary32.signed_le_iff.mpr (by decide)
  · rw [← two.signed_eq]
    exact Binary32.signed_le_iff.mpr (by decide)

theorem valueAtTop_spec (drawable : ∀ p ∈ probabilities, Drawable p) :
    Between 0 (2 : ℕ) (valueAtTop probabilities) ∧ 0 < signed (valueAtTop probabilities) ∧
      ∀ p ∈ probabilities, p.isNaN = false → signed p ≤ signed (valueAtTop probabilities) := by
  obtain ⟨unit, positive, above⟩ := peak_spec drawable
  have margin := between_margin
  have between := unit.mul (margin.mono zero_le_one le_rfl)
    (Binary32.fits_natCast (show 2 < 2 ^ 24 by decide)) (by rw [one_mul])
  have reached := (Binary32.settles_mul unit.finite margin.finite).le_signed
    (Binary32.fits_signed unit.finite) (le_mul_of_one_le_right positive.le margin.least)
  exact ⟨between, positive.trans_le reached,
    fun p member number => (above p member number).trans reached⟩

/-- A probability is a part of the value at the top. -/
theorem upTo_valueAtTop (drawable : ∀ p ∈ probabilities, Drawable p) (member : p ∈ probabilities)
    (number : p.isNaN = false) : UpTo (valueAtTop probabilities) p := by
  obtain ⟨top, -, above⟩ := valueAtTop_spec drawable
  have unit := (drawable p member).between number
  refine ⟨unit.amount, top.amount, ?_⟩
  exact (Binary32.le_iff_signed_le number top.number).mpr (above p member number)

end ViewClassifier.Chart
