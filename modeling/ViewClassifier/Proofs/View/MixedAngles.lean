import ViewClassifier.Proofs.Binary32.Extremes
import ViewClassifier.Proofs.Binary32.Quotient
import ViewClassifier.Proofs.Ranking.Slices
import ViewClassifier.View.Bins

/-!
# Angles from bins and offsets

The angles that a period and a number of bins allow for lie between zero and the upper edge of the
last bin, and the edge is one of them. It is a rounded sum, so that it may lie beyond the period, and
it is infinite where the sum leaves the range.
-/

set_option autoImplicit false

namespace ViewClassifier

open Binary32 (Amount Extent UpTo exact ofNat)

section Offsets

variable {unit : Float32}

/-- An offset is kept inside the bin, whatever number it is. -/
theorem clampOffset_upTo (amount : Amount unit) (offset : Float32) :
    UpTo unit (clampOffset unit offset) := by
  have nonneg := amount.nonneg
  unfold clampOffset
  cases number : offset.isNaN with
  | true =>
      rw [if_pos rfl]
      have zero : Amount 0 := by decide
      exact ⟨zero, amount, amount.zero_le⟩
  | false =>
      obtain ⟨kept, lesser⟩ := Binary32.min_spec number amount.number
      obtain ⟨extent, greater⟩ := Binary32.max_zero_spec kept
      rw [if_neg Bool.false_ne_true]
      exact extent.upTo amount
        ((Binary32.le_iff_level_le extent.number amount.number).mpr (by omega))

theorem clampOffset_self (amount : Amount unit) : clampOffset unit unit = unit := by
  have least : ¬ unit < 0 := by
    rw [Binary32.lt_iff_level_lt amount.number (by decide)]
    exact not_lt.mpr amount.nonneg
  have lesser : Binary32.min unit unit = unit := by
    unfold Binary32.min
    rw [amount.number, if_neg Bool.false_ne_true, if_neg Bool.false_ne_true, ite_self]
  have zero : (0 : Float32).isNaN = false := by decide
  unfold clampOffset
  rw [lesser]
  unfold Binary32.max
  rw [amount.number, zero, if_neg Bool.false_ne_true, if_neg Bool.false_ne_true,
    if_neg Bool.false_ne_true, if_neg least]

end Offsets

/-- The upper edge of the last bin. -/
def lastEdge (period : Float32) (bins : ℕ) : Float32 :=
  period / ofNat bins + ofNat (bins - 1) * (period / ofNat bins)

section Angles

variable {unit period : Float32} {bins : ℕ} {probabilities offsets : Table}

theorem mixedAngle_le (amount : Amount unit) {values : List Float32} (offset : ℕ → Float32)
    (some : 0 < values.length) (word : values.length < UInt64.size) :
    Extent (mixedAngle unit values offset) ∧
      mixedAngle unit values offset ≤ unit + ofNat (values.length - 1) * unit := by
  have inside := argmax_getD_lt_length some
  unfold mixedAngle
  dsimp only
  generalize (argmax values).getD 0 = best at inside
  have start := (Binary32.amount_ofNat (inside.trans word)).rounds_mul amount
  have last : Amount (ofNat (values.length - 1)) := Binary32.amount_ofNat (by omega)
  have counts : exact (ofNat best) ≤ exact (ofNat (values.length - 1)) :=
    (Binary32.rounds_ofNat _).exact_le_exact (Binary32.rounds_ofNat _)
      (by exact_mod_cast Nat.le_pred_of_lt inside)
  have further := last.rounds_mul amount
  have starts := start.le_of_le further
    (mul_le_mul_of_nonneg_right counts (Binary32.exact_nonneg unit))
  have within := clampOffset_upTo amount (offset best)
  exact ⟨within.amount.extent_add start.extent,
    within.sum_le_sum start.extent further.extent starts⟩

/-- Tables with as many rows as each other and a given number of columns. -/
structure Paired (bins : ℕ) (probabilities offsets : Table) : Prop where
  rows : offsets.rows = probabilities.rows
  cols : probabilities.cols = bins
  offsetCols : offsets.cols = bins

theorem mixedPrediction_eq_ok (finite : period.isFinite = true) (positive : 0 < period)
    (some : 0 < bins) (paired : Paired bins probabilities offsets) :
    mixedPrediction probabilities offsets period =
      .ok (List.ofFn fun i : Fin probabilities.rows =>
        mixedAngle (period / ofNat bins) (probabilities.row i.val) (offsets.get i.val)) := by
  obtain ⟨rows, rfl, cols⟩ := paired
  have accepted : ¬ (!(period.isFinite && decide (0 < period))) = true := by
    rw [finite, decide_eq_true positive]
    decide
  unfold mixedPrediction
  rw [if_neg (not_not_intro (Prod.ext rows.symm cols.symm)), if_neg some.ne', if_neg accepted]

theorem mixedPrediction_bounded (finite : period.isFinite = true) (positive : 0 < period)
    (some : 0 < bins) (word : bins < UInt64.size) (paired : Paired bins probabilities offsets) :
    ∃ angles, mixedPrediction probabilities offsets period = .ok angles ∧
      angles.length = probabilities.rows ∧
      ∀ angle ∈ angles, Extent angle ∧ angle ≤ lastEdge period bins := by
  have amount := (Binary32.amount_of_pos finite positive).share_upTo some word |>.amount
  refine ⟨_, mixedPrediction_eq_ok finite positive some paired, List.length_ofFn, ?_⟩
  intro angle member
  obtain ⟨i, rfl⟩ := List.mem_ofFn.mp member
  have length : (probabilities.row i.val).length = bins :=
    (Table.length_row _ _).trans paired.cols
  obtain ⟨extent, le⟩ := mixedAngle_le amount (offsets.get i.val) (length ▸ some) (length ▸ word)
  rw [length] at le
  exact ⟨extent, le⟩

/-- One row whose last bin is certain. -/
def certain (bins : ℕ) : Table :=
  .ofFn 1 bins fun _ j => if j = bins - 1 then 1 else 0

theorem length_certain (bins : ℕ) : ((certain bins).row 0).length = bins :=
  Table.length_row _ _

theorem argmax_certain (some : 0 < bins) : argmax ((certain bins).row 0) = .some (bins - 1) := by
  have entry : ∀ {j : ℕ}, j < bins →
      ((certain bins).row 0)[j]? = .some (if j = bins - 1 then 1 else 0) := by
    intro j inside
    have within : j < ((certain bins).row 0).length := inside.trans_eq (length_certain bins).symm
    rw [List.getElem?_eq_getElem within, Table.getElem_row within, certain,
      Table.get_ofFn _ Nat.one_pos inside]
  have last : bins - 1 < bins := Nat.sub_lt some Nat.one_pos
  have one : 1 ∈ (certain bins).row 0 := by
    refine List.mem_of_getElem? ((entry last).trans ?_)
    rw [if_pos rfl]
  cases found : argmax ((certain bins).row 0) with
  | none =>
      have nan := candidates_eq_nil_iff.mp (argmax_eq_none_iff.mp found) 1 one
      cases nan
  | some best =>
      obtain ⟨x, inside, number, greatest⟩ := greatest_of_argmax found
      have within := (argmax_lt found).trans_eq (length_certain bins)
      rw [entry within, Option.some.injEq] at inside
      have least := greatest 1 one (by decide)
      by_cases here : best = bins - 1
      · rw [here]
      · rw [if_neg here] at inside
        rw [← inside] at least
        exact absurd least (by decide)

theorem paired_certain (bins : ℕ) (offset : Float32) :
    Paired bins (certain bins) (.ofFn 1 bins fun _ _ => offset) :=
  ⟨rfl, rfl, rfl⟩

/-- The angle in the last bin with one offset for all bins. -/
theorem mixedPrediction_certain (finite : period.isFinite = true) (positive : 0 < period)
    (some : 0 < bins) (offset : Float32) :
    mixedPrediction (certain bins) (.ofFn 1 bins fun _ _ => offset) period =
      .ok [clampOffset (period / ofNat bins) offset +
        ofNat (bins - 1) * (period / ofNat bins)] := by
  have paired := paired_certain bins offset
  have last : bins - 1 < bins := Nat.sub_lt some Nat.one_pos
  have angle : mixedAngle (period / ofNat bins) ((certain bins).row 0)
      ((Table.ofFn 1 bins fun _ _ => offset).get 0) =
        clampOffset (period / ofNat bins) offset + ofNat (bins - 1) * (period / ofNat bins) := by
    unfold mixedAngle
    dsimp only
    rw [argmax_certain some, Option.getD_some, Table.get_ofFn _ Nat.one_pos last]
  rw [mixedPrediction_eq_ok finite positive some paired]
  exact congrArg (fun angle => Except.ok [angle]) angle

/-- The upper edge is the angle of a row whose last bin is certain and has its greatest offset. -/
theorem lastEdge_reached (finite : period.isFinite = true) (positive : 0 < period)
    (some : 0 < bins) (word : bins < UInt64.size) :
    mixedPrediction (certain bins) (.ofFn 1 bins fun _ _ => period / ofNat bins) period =
      .ok [lastEdge period bins] := by
  have unit := ((Binary32.amount_of_pos finite positive).share_upTo some word).amount
  rw [mixedPrediction_certain finite positive some, clampOffset_self unit, lastEdge]

theorem extent_lastEdge (finite : period.isFinite = true) (positive : 0 < period)
    (some : 0 < bins) (word : bins < UInt64.size) : Extent (lastEdge period bins) := by
  have unit := ((Binary32.amount_of_pos finite positive).share_upTo some word).amount
  have last : Amount (ofNat (bins - 1)) := Binary32.amount_ofNat (by omega)
  exact unit.extent_add (last.rounds_mul unit).extent

/-- Each of the three roundings adds half a unit of the last bit at most. -/
theorem exact_lastEdge_le (finite : period.isFinite = true) (positive : 0 < period)
    (some : 0 < bins) (few : bins < 2 ^ 24) (normal : 2 ^ (-126 : ℤ) ≤ exact period / bins) :
    exact (lastEdge period bins) ≤ exact period + exact period / 2 ^ 22 := by
  have amount := Binary32.amount_of_pos finite positive
  have word : bins < UInt64.size := few.trans (by decide)
  have unit := (amount.share_upTo some word).amount
  have last : Amount (ofNat (bins - 1)) := Binary32.amount_ofNat (by omega)
  have shares := amount.rounds_div (Binary32.amount_ofNat word) (Binary32.level_ofNat_pos some)
  have starts := last.rounds_mul unit
  rw [Binary32.exact_ofNat few] at shares
  rw [Binary32.exact_ofNat (show bins - 1 < 2 ^ 24 by omega), Nat.cast_pred some] at starts
  have filled := shares.normal normal
  have share := shares.exact_le (.inr normal)
  have count : (0 : ℚ) < bins := by exact_mod_cast some
  obtain ⟨width, named⟩ : ∃ width, exact (period / ofNat bins) = width := ⟨_, rfl⟩
  rw [named] at filled share starts
  have nonneg : 0 ≤ width := (Binary32.exact_nonneg _).trans_eq named
  have start := starts.exact_le (by
    rcases Nat.eq_or_lt_of_le some with one | more
    · exact .inl (by rw [← one]; norm_num)
    · have two : (2 : ℚ) ≤ bins := by exact_mod_cast more
      exact .inr (filled.trans (le_mul_of_one_le_left nonneg (by linarith))))
  have all : bins * width ≤ exact period + exact period / 2 ^ 24 := by
    calc bins * width ≤ bins * (exact period / bins + exact period / bins / 2 ^ 24) :=
          mul_le_mul_of_nonneg_left share count.le
      _ = exact period + exact period / 2 ^ 24 := by field_simp
  have whole := Binary32.exact_nonneg period
  rcases starts.extent.amount_or_infinite with finiteStart | ⟨infinite, atLevel⟩
  · have normalSum := le_add_of_le_of_nonneg filled
      (Binary32.exact_nonneg (ofNat (bins - 1) * (period / ofNat bins)))
    have rounds := unit.rounds_add finiteStart
    rw [named] at rounds
    have sum := rounds.exact_le (.inr normalSum)
    unfold lastEdge
    linarith
  · have edge : exact (lastEdge period bins) =
        exact (ofNat (bins - 1) * (period / ofNat bins)) := by
      unfold lastEdge
      rw [Binary32.add_of_infinite unit infinite, Binary32.exact_of_infinite atLevel,
        Binary32.exact_of_infinite (by decide)]
    linarith

/-- No input leads beyond the upper edge of the last bin, and the angles stay on the circle for all
inputs if and only if the edge does. It exceeds the period by few units of the last bit. -/
theorem mixedPrediction_onCircle (finite : period.isFinite = true) (positive : 0 < period)
    (some : 0 < bins) (word : bins < UInt64.size) :
    (∀ probabilities offsets, Paired bins probabilities offsets →
      ∃ angles, mixedPrediction probabilities offsets period = .ok angles ∧
        angles.length = probabilities.rows ∧
        ∀ angle ∈ angles, angle.isNaN = false ∧ 0 ≤ angle ∧ angle ≤ lastEdge period bins) ∧
      ((∀ probabilities offsets angles, Paired bins probabilities offsets →
        mixedPrediction probabilities offsets period = .ok angles →
        ∀ angle ∈ angles, angle.isFinite = true ∧ 0 ≤ angle ∧ angle ≤ period) ↔
          lastEdge period bins ≤ period) ∧
      (bins < 2 ^ 24 → 2 ^ (-126 : ℤ) ≤ exact period / bins →
        exact (lastEdge period bins) ≤ exact period + exact period / 2 ^ 22) := by
  refine ⟨?_, ⟨?_, ?_⟩, exact_lastEdge_le finite positive some⟩
  · intro probabilities offsets paired
    obtain ⟨angles, accepted, counted, within⟩ :=
      mixedPrediction_bounded finite positive some word paired
    refine ⟨angles, accepted, counted, fun angle member => ?_⟩
    obtain ⟨extent, le⟩ := within angle member
    exact ⟨extent.number, extent.zero_le, le⟩
  · intro inside
    have reached := lastEdge_reached finite positive some word
    exact (inside _ _ _ (paired_certain bins _) reached _ List.mem_cons_self).2.2
  · intro inside probabilities offsets angles paired accepted angle member
    obtain ⟨_, bounded, _, within⟩ := mixedPrediction_bounded finite positive some word paired
    obtain rfl := Except.ok.inj (bounded.symm.trans accepted)
    obtain ⟨extent, le⟩ := within angle member
    have edge := (extent_lastEdge finite positive some word).upTo
      (Binary32.amount_of_pos finite positive) inside
    have within := (extent.upTo edge.amount le).trans edge
    exact ⟨within.amount.isFinite, within.amount.zero_le, within.le⟩

theorem mixedPrediction_onCircle_quarters :
    (360 : Float32).isFinite = true ∧ (0 : Float32) < 360 ∧ 0 < 4 ∧ 4 < UInt64.size ∧
      ∀ probabilities offsets angles, Paired 4 probabilities offsets →
        mixedPrediction probabilities offsets 360 = .ok angles →
        ∀ angle ∈ angles, angle.isFinite = true ∧ 0 ≤ angle ∧ angle ≤ 360 := by
  have finite : (360 : Float32).isFinite = true := by decide
  have positive : (0 : Float32) < 360 := by decide
  have some : 0 < 4 := by decide
  have word : 4 < UInt64.size := by decide
  have edge : lastEdge 360 4 ≤ 360 := by decide
  obtain ⟨_, onCircle, _⟩ := mixedPrediction_onCircle finite positive some word
  exact ⟨finite, positive, some, word, onCircle.mpr edge⟩

/-- Thirteen bins and an offset that is greater than their width. -/
theorem mixedPrediction_beyond :
    Paired 13 (certain 13) (.ofFn 1 13 fun _ _ => 30) ∧ (360 : Float32).isFinite = true ∧
      (0 : Float32) < 360 ∧
      mixedPrediction (certain 13) (.ofFn 1 13 fun _ _ => 30) 360 = .ok [.ofBits 0x43b40001] ∧
      ¬ Float32.ofBits 0x43b40001 ≤ 360 := by
  have finite : (360 : Float32).isFinite = true := by decide
  have positive : (0 : Float32) < 360 := by decide
  have angle : clampOffset (360 / ofNat 13) 30 + ofNat (13 - 1) * (360 / ofNat 13) =
      .ofBits 0x43b40001 := by decide
  refine ⟨paired_certain 13 30, finite, positive, ?_, by decide⟩
  rw [mixedPrediction_certain finite positive (by decide), angle]

end Angles

end ViewClassifier
