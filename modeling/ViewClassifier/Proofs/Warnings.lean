import ViewClassifier.Proofs.Binary32.NotANumber
import ViewClassifier.Proofs.Outcome

/-!
# Warnings

Which rows of an outcome are warned about. The test on the sum of a row is a comparison that fails
for NaN, so that a row with NaN in it passes in silence.
-/

set_option autoImplicit false

namespace ViewClassifier

open Binary32

section Sums

def Lanes.toList (l : Lanes) : List Float32 :=
  [l.a, l.b, l.c, l.d, l.e, l.f, l.g, l.h]

variable {values : List Float32} {total : Float32} {lanes : Lanes}

theorem Lanes.isNaN_total (nan : ∃ x ∈ lanes.toList, x.isNaN = true) :
    lanes.total.isNaN = true := by
  simp only [toList, List.exists_mem_cons_iff, List.not_mem_nil, false_and, exists_false,
    or_false] at nan
  unfold total
  grind [isNaN_add_left, isNaN_add_right]

theorem isNaN_foldl_add (nan : total.isNaN = true ∨ ∃ x ∈ values, x.isNaN = true) :
    (values.foldl (· + ·) total).isNaN = true := by
  induction values generalizing total with
  | nil => exact nan.resolve_right (fun none => by simp at none)
  | cons next rest ih =>
      apply ih
      rcases nan with nan | ⟨x, member, nan⟩
      · exact .inl (isNaN_add_left nan next)
      · cases member with
        | head => exact .inl (isNaN_add_right total nan)
        | tail _ member => exact .inr ⟨x, member, nan⟩

/-- NaN in a lane stays there, and NaN among eight values enters its lane. -/
theorem isNaN_laneSumFrom (nan : ∃ x ∈ lanes.toList ++ values, x.isNaN = true) :
    (laneSumFrom lanes values).isNaN = true := by
  induction lanes, values using laneSumFrom.induct with
  | case1 l a b c d e f g h rest ih =>
      rw [laneSumFrom]
      apply ih
      simp only [Lanes.toList, List.cons_append, List.nil_append, List.exists_mem_cons_iff] at nan ⊢
      grind [isNaN_add_left, isNaN_add_right]
  | case2 l rest few =>
      obtain ⟨x, member, nan⟩ := nan
      rw [laneSumFrom]
      · apply isNaN_foldl_add
        rcases List.mem_append.mp member with lane | value
        · exact .inl (Lanes.isNaN_total ⟨x, lane, nan⟩)
        · exact .inr ⟨x, value, nan⟩
      · exact few

theorem isNaN_laneSum (nan : ∃ x ∈ values, x.isNaN = true) : (laneSum values).isNaN = true := by
  obtain ⟨x, member, nan⟩ := nan
  exact isNaN_laneSumFrom ⟨x, List.mem_append_right _ member, nan⟩

end Sums

section Warnings

variable {table : Table} {warning : Warning} {i : Nat}

theorem sumWarning_eq_some_iff :
    sumWarning table i = some warning ↔
      ((laneSum (table.row i)).isNaN = false ∧
        ¬ (laneSum (table.row i) - 1).abs ≤ sumTolerance) ∧
        ⟨i, laneSum (table.row i)⟩ = warning := by
  have test : sumTolerance < (laneSum (table.row i) - 1).abs ↔
      (laneSum (table.row i)).isNaN = false ∧
        ¬ (laneSum (table.row i) - 1).abs ≤ sumTolerance := by
    rw [lt_iff_not_le (by decide), isNaN_abs, isNaN_sub _ (by decide) (by decide)]
  unfold sumWarning
  dsimp only
  rw [Option.ite_none_right_eq_some, test, Option.some.injEq]

theorem mem_warnings :
    warning ∈ (Outcome.of table).warnings ↔
      warning.row < table.rows ∧ sumWarning table warning.row = some warning := by
  unfold Outcome.of
  rw [List.mem_filterMap]
  constructor
  · intro found
    obtain ⟨i, inside, made⟩ := found
    obtain ⟨_, rfl⟩ := sumWarning_eq_some_iff.mp made
    exact ⟨List.mem_range.mp inside, made⟩
  · intro found
    obtain ⟨inside, made⟩ := found
    exact ⟨warning.row, List.mem_range.mpr inside, made⟩

theorem pairwise_warnings (table : Table) :
    (Outcome.of table).warnings.Pairwise fun a b => a.row < b.row := by
  apply List.Pairwise.filterMap _ _ List.pairwise_lt_range
  intro i j less a aMade b bMade
  obtain ⟨_, rfl⟩ := sumWarning_eq_some_iff.mp aMade
  obtain ⟨_, rfl⟩ := sumWarning_eq_some_iff.mp bMade
  exact less

end Warnings

section Postprocess

variable {raw : Tensor} {images group : Nat} {declared : Option Nat} {outcome : Outcome}

theorem eq_of_postprocess (accepted : postprocess raw images group declared = .ok outcome) :
    outcome = .of outcome.predictions := by
  obtain ⟨table, all, _⟩ := (fills_of_ok accepted).postprocess_eq_ok
  obtain rfl : Outcome.of table = outcome := Except.ok.inj ((all raw rfl).symm.trans accepted)
  rfl

/-- The warnings come in row order, one for each row whose sum is a number that is not within the
tolerance. A row with NaN in it has no such sum. -/
theorem postprocess_warnings (accepted : postprocess raw images group declared = .ok outcome) :
    (outcome.warnings.Pairwise fun a b => a.row < b.row) ∧
      (∀ warning ∈ outcome.warnings, warning.row < outcome.predictions.rows ∧
        warning.sum = laneSum (outcome.predictions.row warning.row)) ∧
      (∀ i < outcome.predictions.rows,
        ((∃ warning ∈ outcome.warnings, warning.row = i) ↔
          (laneSum (outcome.predictions.row i)).isNaN = false ∧
            ¬ (laneSum (outcome.predictions.row i) - 1).abs ≤ sumTolerance)) ∧
      ∀ i, (∃ x ∈ outcome.predictions.row i, x.isNaN = true) →
        (laneSum (outcome.predictions.row i)).isNaN = true ∧
          ¬ ∃ warning ∈ outcome.warnings, warning.row = i := by
  rw [eq_of_postprocess accepted]
  obtain ⟨table, _⟩ := outcome
  refine ⟨pairwise_warnings table, ?_, ?_, ?_⟩
  · intro warning member
    obtain ⟨inside, made⟩ := mem_warnings.mp member
    have sum := congrArg Warning.sum (sumWarning_eq_some_iff.mp made).2
    exact ⟨inside, sum.symm⟩
  · intro i inside
    constructor
    · intro found
      obtain ⟨warning, member, rfl⟩ := found
      exact (sumWarning_eq_some_iff.mp (mem_warnings.mp member).2).1
    · intro far
      have made := sumWarning_eq_some_iff.mpr ⟨far, rfl⟩
      exact ⟨⟨i, laneSum (table.row i)⟩, mem_warnings.mpr ⟨inside, made⟩, rfl⟩
  · intro i nan
    have sum := isNaN_laneSum nan
    refine ⟨sum, fun found => ?_⟩
    obtain ⟨warning, member, rfl⟩ := found
    have number := (sumWarning_eq_some_iff.mp (mem_warnings.mp member).2).1.1
    exact absurd (sum.symm.trans number) (by decide)

def threeRows : Table :=
  ⟨3, 2, #[0.5, 0.5, nan, 0.5, 2, 2], rfl⟩

theorem postprocess_warnings_threeRows :
    postprocess threeRows.toTensor 3 1 none = .ok (.of threeRows) ∧
      (∃ warning ∈ (Outcome.of threeRows).warnings, warning.row = 2) ∧
      ¬ (∃ warning ∈ (Outcome.of threeRows).warnings, warning.row = 0) ∧
      ¬ ∃ warning ∈ (Outcome.of threeRows).warnings, warning.row = 1 := by
  have accepted : postprocess threeRows.toTensor 3 1 none = .ok (.of threeRows) := by
    unfold postprocess
    rfl
  obtain ⟨_, _, about, silent⟩ := postprocess_warnings accepted
  have close : (laneSum (threeRows.row 0) - 1).abs ≤ sumTolerance := by decide
  have far : ¬ (laneSum (threeRows.row 2) - 1).abs ≤ sumTolerance := by decide
  refine ⟨accepted, (about 2 (by decide)).mpr ⟨by decide, far⟩, ?_, ?_⟩
  · exact fun found => ((about 0 (by decide)).mp found).2 close
  · exact (silent 1 ⟨nan, .head _, by decide⟩).2

def halfNaN : Table :=
  ⟨1, 2, #[nan, 0.5], rfl⟩

theorem halfNaN_silent :
    postprocess halfNaN.toTensor 1 1 none = .ok (.of halfNaN) ∧
      ¬ (laneSum (halfNaN.row 0) - 1).abs ≤ sumTolerance ∧
      ¬ ∃ warning ∈ (Outcome.of halfNaN).warnings, warning.row = 0 := by
  have accepted : postprocess halfNaN.toTensor 1 1 none = .ok (.of halfNaN) := by
    unfold postprocess
    rfl
  refine ⟨accepted, by decide, fun found => ?_⟩
  obtain ⟨warning, member, row⟩ := found
  have number := (sumWarning_eq_some_iff.mp (mem_warnings.mp member).2).1.1
  rw [row] at number
  exact absurd number (by decide)

end Postprocess

end ViewClassifier
