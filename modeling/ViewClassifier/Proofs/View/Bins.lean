import ViewClassifier.Proofs.Binary32.Quotient
import ViewClassifier.Proofs.Binary32.Remainder
import ViewClassifier.View.Bins

/-!
# Bins of labels

The offset of a label is an exact remainder, but its bin is the whole part of a quotient that was
rounded. The two belong together unless the quotient is rounded up to the edge of the next bin. In the
same way an angle just below the lower edge of bin zero may get a bin beyond the last one. How near it
has to be to the edge depends on the bits of the count of bins before it.
-/

set_option autoImplicit false

namespace ViewClassifier

open Binary32 (Amount exact level)

variable {period : Float32} {bins : UInt32}

def binWidth (period : Float32) (bins : UInt32) : Float32 :=
  period / bins.toFloat32

def rescale (label period labelMax : Float32) : Float32 :=
  label / (labelMax / period)

/-- A period that is cut into bins of some width. -/
structure Cut (period : Float32) (bins : UInt32) : Prop where
  finite : period.isFinite = true
  positive : 0 < period
  some : bins ≠ 0
  wide : 0 < binWidth period bins

namespace Cut

theorem amount (cut : Cut period bins) : Amount period :=
  Binary32.amount_of_pos cut.finite cut.positive

theorem bins_pos (cut : Cut period bins) : 0 < bins.toNat :=
  Nat.pos_of_ne_zero fun none => cut.some (UInt32.toNat_inj.mp none)

theorem width_upTo (cut : Cut period bins) : Binary32.UpTo period (binWidth period bins) := by
  have word : bins.toNat < UInt64.size := bins.toNat_lt.trans (by decide)
  rw [binWidth, Binary32.toFloat32_eq]
  exact cut.amount.share_upTo cut.bins_pos word

theorem rounds_width (cut : Cut period bins) (few : bins.toNat ≤ 2 ^ 22) :
    Binary32.Rounds (exact period / bins.toNat) (binWidth period bins) := by
  have word : bins.toNat < UInt64.size := bins.toNat_lt.trans (by decide)
  have rounds := cut.amount.rounds_div (Binary32.amount_ofNat word)
    (Binary32.level_ofNat_pos cut.bins_pos)
  rwa [Binary32.exact_ofNat (few.trans_lt (by decide)), ← Binary32.toFloat32_eq] at rounds

theorem level_width_pos (cut : Cut period bins) : 0 < level (binWidth period bins) :=
  Binary32.level_pos_of_pos cut.wide

theorem exact_width_pos (cut : Cut period bins) : 0 < exact (binWidth period bins) :=
  Binary32.exact_pos cut.level_width_pos

end Cut

section Splitting

variable {label labelMax : Float32}

/-- A label that is not negative and keeps in range when it is brought to the period. -/
structure Splittable (label period : Float32) (bins : UInt32) (labelMax : Float32) : Prop
    extends Cut period bins where
  scalePositive : 0 < labelMax
  labelFinite : label.isFinite = true
  labelNonneg : 0 ≤ label
  rescaledFinite : (rescale label period labelMax).isFinite = true

theorem Splittable.rescaled (given : Splittable label period bins labelMax) :
    Amount (rescale label period labelMax) := by
  obtain ⟨number, level⟩ := Binary32.pos_iff.mp given.scalePositive
  have scale : Binary32.Extent labelMax := ⟨number, level.le⟩
  have ratio := scale.div given.amount (Binary32.level_pos_of_pos given.positive)
  have amount := Binary32.amount_iff.mpr ⟨given.labelFinite, given.labelNonneg⟩
  exact amount.div ratio given.rescaledFinite

/-- A bin and an offset as quotient and remainder. -/
structure Division (bins : UInt32) (unit value : ℚ) (split : UInt32 × Float32) : Prop where
  amount : Amount split.2
  sum : split.1.toNat * unit + exact split.2 = value
  lt : exact split.2 < unit
  inside : split.1 < bins

/-- The offset is always the remainder of an exact division, and the whole part of the rounded quotient
is its quotient or the next count. It is the quotient below the midpoint between the edge and the
number before it. -/
theorem labelSplit_spec (given : Splittable label period bins labelMax) :
    let unit := exact (binWidth period bins)
    let value := exact (rescale label period labelMax)
    let whole := ⌊value / unit⌋₊
    let found := ⌊exact (rescale label period labelMax / binWidth period bins)⌋₊
    let split := labelSplit label period bins labelMax
    (Amount split.2 ∧ exact split.2 < unit ∧ whole * unit + exact split.2 = value) ∧
      split.1.toNat = min found (UInt32.size - 1) ∧
      (Division bins unit value split ↔ found = whole ∧ whole < bins.toNat) ∧
      (whole < 2 ^ 23 →
        (found = whole ↔ value < (whole + 1 - 2 ^ whole.size / 2 ^ 25) * unit)) ∧
      (whole + 1 < 2 ^ 24 → found = whole ∨ found = whole + 1) := by
  intro unit value whole found split
  have width := given.width_upTo.amount
  have positive : 0 < unit := given.exact_width_pos
  have rounds := given.rescaled.rounds_div width given.level_width_pos
  have nonneg : 0 ≤ value / unit := div_nonneg (Binary32.exact_nonneg _) positive.le
  obtain ⟨amount, less, rest⟩ := given.rescaled.remainder_spec width given.level_width_pos
  have offset : whole * unit + exact split.2 = value := add_eq_of_eq_sub' rest
  have bin : split.1.toNat = min found (UInt32.size - 1) := rounds.extent.toNat_toUInt32_floor
  have word : bins.toNat < UInt32.size := bins.toNat_lt
  refine ⟨⟨amount, less, offset⟩, bin, ?_, ?_, rounds.floor_eq_or nonneg⟩
  · constructor
    · intro division
      have sum := division.sum
      have same : split.1.toNat = whole := by
        have scaled : (split.1.toNat : ℚ) * unit = whole * unit := by linarith
        exact_mod_cast mul_right_cancel₀ positive.ne' scaled
      have inside := UInt32.lt_iff_toNat_lt.mp division.inside
      omega
    · intro both
      have same : split.1.toNat = whole := by omega
      refine ⟨amount, by rw [same]; exact offset, less, UInt32.lt_iff_toNat_lt.mpr ?_⟩
      omega
  · intro small
    rw [← div_lt_iff₀ positive]
    exact rounds.floor_eq_iff nonneg small

/-- A label on a scale of 720 and a period that is cut into seven bins. -/
theorem labelSplit_seventh :
    Splittable 248 360 7 720 ∧
      Division 7 (exact (binWidth 360 7)) (exact (rescale 248 360 720)) (labelSplit 248 360 7 720) ∧
      (labelSplit 248 360 7 720).1 = 2 := by
  have given : Splittable 248 360 7 720 :=
    ⟨⟨by decide, by decide, by decide, by decide⟩, by decide, by decide, by decide, by decide⟩
  have width : exact (binWidth 360 7) = (0xcdb6db : ℕ) * 2 ^ (-149 + (131 : ℕ) : ℤ) :=
    Binary32.exact_eq (by decide) (by decide) (by decide)
  have rescaled : exact (rescale 248 360 720) = (0xf80000 : ℕ) * 2 ^ (-149 + (132 : ℕ) : ℤ) :=
    Binary32.exact_eq (by decide) (by decide) (by decide)
  obtain ⟨_, bin, division, near, _⟩ := labelSplit_spec given
  have whole : ⌊exact (rescale 248 360 720) / exact (binWidth 360 7)⌋₊ = 2 := by
    rw [width, rescaled, Nat.floor_eq_iff (by positivity)]
    norm_num
  rw [whole] at division near
  have below : exact (rescale 248 360 720) <
      ((2 : ℕ) + 1 - 2 ^ (2 : ℕ).size / 2 ^ 25) * exact (binWidth 360 7) := by
    rw [width, rescaled, show (2 : ℕ).size = 2 by decide]
    norm_num
  have found := (near (by decide)).mpr below
  rw [found] at bin
  exact ⟨given, division.mpr ⟨found, by decide⟩, UInt32.toNat_inj.mp bin⟩

/-- Thirteen widths of the 26 bins are rounded to more than half of the period. -/
theorem labelSplit_edge :
    Splittable 180 360 26 360 ∧ (180 : Float32) < 360 ∧
      labelSplit 180 360 26 360 = (13, .ofBits 0x415d89d4) ∧
      ¬ Division 26 (exact (binWidth 360 26)) (exact (rescale 180 360 360))
        (labelSplit 180 360 26 360) := by
  have given : Splittable 180 360 26 360 :=
    ⟨⟨by decide, by decide, by decide, by decide⟩, by decide, by decide, by decide, by decide⟩
  have split : labelSplit 180 360 26 360 = (13, .ofBits 0x415d89d4) := by decide
  refine ⟨given, by decide, split, fun division => ?_⟩
  have width : exact (binWidth 360 26) = (0xdd89d9 : ℕ) * 2 ^ (-149 + (129 : ℕ) : ℤ) :=
    Binary32.exact_eq (by decide) (by decide) (by decide)
  have rescaled : exact (rescale 180 360 360) = (0xb40000 : ℕ) * 2 ^ (-149 + (133 : ℕ) : ℤ) :=
    Binary32.exact_eq (by decide) (by decide) (by decide)
  have nonneg := Binary32.exact_nonneg (labelSplit 180 360 26 360).2
  have sum : (13 : ℕ) * exact (binWidth 360 26) + exact (labelSplit 180 360 26 360).2 =
      exact (rescale 180 360 360) := division.sum
  rw [width, rescaled] at sum
  norm_num at sum
  linarith

end Splitting

section Centred

variable {angle : Float32}

/-- The angle as it is seen from the lower edge of bin zero. -/
def fromEdge (period : Float32) (bins : UInt32) (angle : Float32) : Float32 :=
  Binary32.modulo (angle + binWidth period bins / 2) period

/-- What is known of the bin of an angle. The angle may be rounded up to the upper edge of the last
bin, where it gets a bin of its own. -/
structure Binned (period : Float32) (bins : UInt32) (angle : Float32) (bin : ℤ) : Prop where
  nonneg : 0 ≤ bin
  le_floor : bin ≤ ⌊exact (period / binWidth period bins)⌋₊
  le_bins : bins.toNat ≤ 2 ^ 22 → 2 ^ (-126 : ℤ) ≤ exact period / bins.toNat → bin ≤ bins.toNat
  of_isNaN : (fromEdge period bins angle).isNaN = true → bin = 0
  eq_floor : (fromEdge period bins angle).isNaN = false →
    bin = (min ⌊exact (fromEdge period bins angle / binWidth period bins)⌋₊ (2 ^ 63 - 1) : ℕ)
  lt_iff : (fromEdge period bins angle).isNaN = false →
    (bin < bins.toNat ↔
      exact (fromEdge period bins angle / binWidth period bins) < bins.toNat)
  lt_iff_exact : (fromEdge period bins angle).isNaN = false → bins.toNat ≤ 2 ^ 23 →
    (bin < bins.toNat ↔ exact (fromEdge period bins angle) <
      (bins.toNat - 2 ^ (bins.toNat - 1).size / 2 ^ 25) * exact (binWidth period bins))

namespace Cut

theorem fromEdge_upTo (cut : Cut period bins)
    (number : (fromEdge period bins angle).isNaN = false) :
    Binary32.UpTo period (fromEdge period bins angle) := by
  cases finite : (angle + binWidth period bins / 2).isFinite with
  | true =>
      exact Binary32.modulo_upTo cut.amount (Binary32.level_pos_of_pos cut.positive) finite
  | false =>
      have nan := Binary32.modulo_of_not_isFinite finite period
      cases number.symm.trans nan

/-- The width is rounded down by half a unit of its last bit at most, so that less than a whole
width is left over after `bins` of them. -/
theorem floor_widths_le (cut : Cut period bins) (few : bins.toNat ≤ 2 ^ 22)
    (normal : 2 ^ (-126 : ℤ) ≤ exact period / bins.toNat) :
    ⌊exact (period / binWidth period bins)⌋₊ ≤ bins.toNat := by
  have some : (0 : ℚ) < bins.toNat := by exact_mod_cast cut.bins_pos
  have wide := cut.exact_width_pos
  have whole := Binary32.exact_pos (Binary32.level_pos_of_pos cut.positive)
  have covered : exact period - exact period / 2 ^ 24 ≤
      bins.toNat * exact (binWidth period bins) := by
    have least := (cut.rounds_width few).le_exact cut.width_upTo.amount normal
    calc exact period - exact period / 2 ^ 24
        = bins.toNat * (exact period / bins.toNat - exact period / bins.toNat / 2 ^ 24) := by
          field_simp
      _ ≤ bins.toNat * exact (binWidth period bins) := mul_le_mul_of_nonneg_left least some.le
  have rounds := cut.amount.rounds_div cut.width_upTo.amount cut.level_width_pos
  rw [← Nat.lt_succ_iff, Nat.floor_lt (Binary32.exact_nonneg _), Nat.succ_eq_add_one,
    Nat.cast_add_one, ← not_le, rounds.succ_le_iff (few.trans_lt (by decide)), le_div_iff₀ wide]
  intro reached
  have quarter : (2 : ℚ) ^ bins.toNat.size / 2 ^ 25 ≤ 1 / 4 := by
    have bits : bins.toNat.size ≤ 23 := Nat.size_le.mpr (few.trans_lt (by decide))
    have power : (2 : ℚ) ^ bins.toNat.size ≤ 2 ^ 23 := pow_le_pow_right₀ one_le_two bits
    linarith
  have left : (bins.toNat + 3 / 4) * exact (binWidth period bins) ≤ exact period :=
    (mul_le_mul_of_nonneg_right (by linarith) wide.le).trans reached
  have share : bins.toNat * exact (binWidth period bins) ≤
      2 ^ 22 * exact (binWidth period bins) :=
    mul_le_mul_of_nonneg_right (by exact_mod_cast few) wide.le
  linarith

end Cut

theorem binned_centredBin (cut : Cut period bins) (angle : Float32) :
    Binned period bins angle (centredBin period (binWidth period bins) angle) := by
  have word : bins.toNat < 2 ^ 32 := bins.toNat_lt
  have some := cut.bins_pos
  cases nan : (fromEdge period bins angle).isNaN with
  | true =>
      have none : centredBin period (binWidth period bins) angle = 0 :=
        Binary32.toInteger_of_isNaN
          (Binary32.isNaN_toWhole .down (Binary32.isNaN_div_left nan _))
      rw [none]
      have number : ∀ {claim : Prop}, (fromEdge period bins angle).isNaN = false → claim :=
        fun number => by cases nan.symm.trans number
      exact ⟨le_rfl, Int.natCast_nonneg _, fun _ _ => Int.natCast_nonneg _, fun _ => rfl,
        number, number, number⟩
  | false =>
      have within := cut.fromEdge_upTo nan
      have wide := cut.exact_width_pos
      have rounds := within.amount.rounds_div cut.width_upTo.amount cut.level_width_pos
      have limit := cut.amount.rounds_div cut.width_upTo.amount cut.level_width_pos
      have bin : centredBin period (binWidth period bins) angle = _ :=
        rounds.extent.toInteger_floor
      have most : ⌊exact (fromEdge period bins angle / binWidth period bins)⌋₊ ≤
          ⌊exact (period / binWidth period bins)⌋₊ :=
        Nat.floor_le_floor (rounds.exact_le_exact limit
          (div_le_div_of_nonneg_right within.exact_le wide.le))
      have inside : centredBin period (binWidth period bins) angle < bins.toNat ↔
          exact (fromEdge period bins angle / binWidth period bins) < bins.toNat := by
        rw [bin, ← Nat.floor_lt (Binary32.exact_nonneg _)]
        omega
      refine ⟨by omega, by omega, ?_, ?_, fun _ => bin, fun _ => inside, ?_⟩
      · intro few normal
        have least := cut.floor_widths_le few normal
        omega
      · intro number
        cases number.symm.trans nan
      · intro _ few
        obtain ⟨last, next⟩ := Nat.exists_eq_add_of_le' some
        have midpoint := rounds.succ_le_iff (show last < 2 ^ 23 by omega)
        rw [inside, next, Nat.add_sub_cancel, Nat.cast_add_one, ← not_le, midpoint, not_le,
          div_lt_iff₀ wide]

variable {predictions labels : List Float32}

/-- Lists of equal length get one pair of bins for each prediction and its label. -/
theorem quantizedAccuracy_bins (cut : Cut period bins) (labelMax : Float32)
    (paired : predictions.length = labels.length) (nonempty : predictions ≠ []) :
    ∃ score : BinScore, quantizedAccuracy predictions labels period bins labelMax = .ok score ∧
      score.pairs.length = predictions.length ∧
      ∀ (i : ℕ) (pair : BinPair), score.pairs[i]? = some pair → ∃ prediction label,
        predictions[i]? = some prediction ∧ labels[i]? = some label ∧
        Binned period bins prediction pair.predicted ∧
        Binned period bins (rescale label period labelMax) pair.labelled := by
  unfold quantizedAccuracy
  rw [if_neg (not_not_intro paired), if_neg nonempty]
  refine ⟨_, rfl, ?_, ?_⟩
  · rw [List.length_zipWith, ← paired, Nat.min_self]
  · intro i pair found
    obtain ⟨prediction, label, predicted, labelled, made⟩ := List.getElem?_zipWith_eq_some.mp found
    refine ⟨prediction, label, predicted, labelled, ?_⟩
    rw [← made]
    exact ⟨binned_centredBin cut _, binned_centredBin cut _⟩

theorem quantizedAccuracy_sixteen :
    Cut 360 16 ∧ [(355 : Float32), 100].length = [(10 : Float32), 400].length ∧
      [(355 : Float32), 100] ≠ [] ∧ ∃ score : BinScore,
        quantizedAccuracy [355, 100] [10, 400] 360 16 720 = .ok score ∧
        ∃ pair : BinPair, score.pairs[0]? = some pair ∧
          0 ≤ pair.predicted ∧ pair.predicted < (16 : UInt32).toNat ∧
          0 ≤ pair.labelled ∧ pair.labelled < (16 : UInt32).toNat := by
  have cut : Cut 360 16 := ⟨by decide, by decide, by decide, by decide⟩
  have nonempty : [(355 : Float32), 100] ≠ [] := List.cons_ne_nil _ _
  have paired : [(355 : Float32), 100].length = [(10 : Float32), 400].length := by decide
  obtain ⟨score, accepted, counted, binned⟩ := quantizedAccuracy_bins cut 720 paired nonempty
  have inside : 0 < score.pairs.length := counted ▸ Nat.two_pos
  have first := List.getElem?_eq_getElem inside
  obtain ⟨prediction, label, left, right, predicted, labelled⟩ := binned 0 _ first
  obtain rfl : 355 = prediction := Option.some.inj left
  obtain rfl : 10 = label := Option.some.inj right
  have width : exact (binWidth 360 16) = (0xb40000 : ℕ) * 2 ^ (-149 + (130 : ℕ) : ℤ) :=
    Binary32.exact_eq (by decide) (by decide) (by decide)
  have wrapped : exact (fromEdge 360 16 355) = (0xc80000 : ℕ) * 2 ^ (-149 + (128 : ℕ) : ℤ) :=
    Binary32.exact_eq (by decide) (by decide) (by decide)
  have ahead : exact (fromEdge 360 16 (rescale 10 360 720)) =
      (0x820000 : ℕ) * 2 ^ (-149 + (130 : ℕ) : ℤ) :=
    Binary32.exact_eq (by decide) (by decide) (by decide)
  have few : (16 : UInt32).toNat = 16 := by decide
  have bits : (16 - 1 : ℕ).size = 4 := by decide
  refine ⟨cut, paired, nonempty, score, accepted, _, first,
    predicted.nonneg, (predicted.lt_iff_exact (by decide) (by decide)).mpr ?_,
    labelled.nonneg, (labelled.lt_iff_exact (by decide) (by decide)).mpr ?_⟩
  · rw [wrapped, width, few, bits]
    norm_num
  · rw [ahead, width, few, bits]
    norm_num

/-- A prediction one step below the lower edge of bin zero. -/
theorem quantizedAccuracy_edge :
    Cut 360 16 ∧ ∃ score : BinScore,
      quantizedAccuracy [.ofBits 0xc1340001] [-12] 360 16 360 = .ok score ∧
        score.pairs = [⟨16, 15⟩] ∧
        ∃ pair ∈ score.pairs, ¬ pair.predicted < (16 : UInt32).toNat := by
  refine ⟨⟨by decide, by decide, by decide, by decide⟩, ?_⟩
  have predicted : centredBin 360 (360 / (16 : UInt32).toFloat32) (.ofBits 0xc1340001) = 16 := by
    decide +kernel
  have labelled : centredBin 360 (360 / (16 : UInt32).toFloat32) (-12 / (360 / 360)) = 15 := by
    decide +kernel
  unfold quantizedAccuracy
  rw [if_neg (by decide), if_neg (List.cons_ne_nil _ _)]
  refine ⟨_, rfl, ?_, _, List.mem_cons_self, ?_⟩
  · simp only [List.zipWith, predicted, labelled]
  · simp only [predicted]
    decide

end Centred

end ViewClassifier
