import ViewClassifier.Chart
import ViewClassifier.Proofs.Binary64.Places
import ViewClassifier.Proofs.Rounding.Spacing

/-!
# Pixels of a chart

A part of a whole covers a number of whole pixels on an axis. Its share of the whole, the pixels of the
share and the sum with the slack are rounded one after the other. No rounding changes the order, so that
a later class is never farther to the left and a greater probability is never farther down.
-/

set_option autoImplicit false

namespace ViewClassifier.Chart

open Binary32 (UpTo exact)
open Binary64
open Float.Model.UnpackedFloat (Sign)
open Rounding

section Slack

/-- The place of the slack. -/
def slackPlace : ℕ :=
  1012 * stride .binary64 + 0x10624dd2f1a9fc

theorem standsAt_slack : StandsAt .positive slackPlace slack := by
  have unpacked : slack.toModel.unpack = .finite .positive 0x10624dd2f1a9fc (-62) (by decide) := rfl
  refine ⟨?_, by decide⟩
  rw [unpacked]
  exact .of_eq (by decide) (.inr (by decide)) rfl rfl

theorem magnitude_slack_le_one : magnitude .binary64 slackPlace ≤ 1 := by
  have below : slackPlace ≤ (1022 + 0) * stride .binary64 + stride .binary64 := by decide
  have ordered := (magnitude_strictMono .binary64).monotone below
  rwa [magnitude_two_pow, pow_zero] at ordered

end Slack

/-- The whole pixels that a part of a whole covers of an extent. -/
inductive Covers (extent whole part : ℕ) : ℕ → Prop where
  | rounded {share covered moved : ℕ}
      (isShare : Nearest .binary64 (magnitude .binary64 part / magnitude .binary64 whole) share)
      (isCovered : Nearest .binary64 (magnitude .binary64 extent * magnitude .binary64 share) covered)
      (isMoved : Nearest .binary64
        (magnitude .binary64 covered + magnitude .binary64 slackPlace) moved) :
      Covers extent whole part ⌊magnitude .binary64 moved⌋₊

/-- The two numbers of an axis: its extent in pixels, under a sign, and the whole that takes all of it. -/
structure Scale (sign : Sign) (extent whole : ℕ) (pixels greatest : Float) : Prop where
  extent_le : magnitude .binary64 extent ≤ 2 ^ 10
  pixels : StandsAt sign extent pixels
  greatest : StandsAt .positive whole greatest
  some : whole ≠ 0

section Parts

variable {extent whole part larger count other : ℕ} {sign : Sign} {pixels greatest x : Float}
  {value : ℚ}

theorem Covers.le_of_le (first : Covers extent whole part count)
    (second : Covers extent whole larger other) (ordered : part ≤ larger) : count ≤ other := by
  obtain ⟨isShare, isCovered, isMoved⟩ := first
  obtain ⟨isShareLarger, isCoveredLarger, isMovedLarger⟩ := second
  have monotone := (magnitude_strictMono .binary64).monotone
  have nonneg := magnitude_nonneg .binary64
  have shares := isShare.le_of_le isShareLarger
    (div_le_div_of_nonneg_right (monotone ordered) (nonneg whole))
  have pixels := isCovered.le_of_le isCoveredLarger
    (mul_le_mul_of_nonneg_left (monotone shares) (nonneg extent))
  have sums := isMoved.le_of_le isMovedLarger (add_le_add_left (monotone pixels) _)
  exact Nat.floor_mono (monotone sums)

theorem magnitude_le_of_nearest {shift : ℕ} (nearest : Nearest .binary64 value part)
    (le : value ≤ 2 ^ shift) : magnitude .binary64 part ≤ 2 ^ shift := by
  rw [← magnitude_two_pow] at le ⊢
  exact (magnitude_strictMono .binary64).monotone (nearest.le_limit le)

theorem two_pow_le_limit {shift : ℕ} (small : shift ≤ 64) : (2 : ℚ) ^ shift ≤ limit :=
  pow_le_pow_right₀ one_le_two small

/-- A part stands at a share of the whole that is not beyond one. -/
theorem Scale.exists_share (scale : Scale sign extent whole pixels greatest)
    (stands : StandsAt .positive part x) (within : part ≤ whole) :
    ∃ share, Nearest .binary64 (magnitude .binary64 part / magnitude .binary64 whole) share ∧
      magnitude .binary64 share ≤ 2 ^ 0 ∧ StandsAt .positive share (x / greatest) := by
  have least := (magnitude_strictMono .binary64).monotone within
  have le : magnitude .binary64 part / magnitude .binary64 whole ≤ 2 ^ 0 := by
    rw [pow_zero]
    exact div_le_one_of_le₀ least (magnitude_nonneg _ _)
  obtain ⟨share, nearest, divided⟩ :=
    stands.div scale.greatest scale.some (le.trans (two_pow_le_limit (by decide)))
  exact ⟨share, nearest, magnitude_le_of_nearest nearest le, divided⟩

/-- The pixels of a share leave room for the slack. -/
theorem Scale.exists_covered (scale : Scale sign extent whole pixels greatest)
    (stands : StandsAt .positive part x) (le : magnitude .binary64 part ≤ 2 ^ 0) :
    ∃ covered, Nearest .binary64 (magnitude .binary64 extent * magnitude .binary64 part) covered ∧
      magnitude .binary64 covered + magnitude .binary64 slackPlace ≤ 2 ^ 11 ∧
      StandsAt sign covered (pixels * x) := by
  rw [pow_zero] at le
  have product : magnitude .binary64 extent * magnitude .binary64 part ≤ 2 ^ 10 :=
    (mul_le_of_le_one_right (magnitude_nonneg _ _) le).trans scale.extent_le
  obtain ⟨covered, nearest, multiplied⟩ :=
    scale.pixels.mul stands (product.trans (two_pow_le_limit (by decide)))
  have coveredLe := magnitude_le_of_nearest nearest product
  have slackLe := magnitude_slack_le_one
  refine ⟨covered, nearest, by linarith, ?_⟩
  cases sign <;> exact multiplied

theorem Scale.exists_floor (scale : Scale .positive extent whole pixels greatest)
    (stands : StandsAt .positive part x) (within : part ≤ whole) :
    ∃ count ≤ 2 ^ 11, Covers extent whole part count ∧
      floor (pixels * (x / greatest) + slack) = count := by
  obtain ⟨_, isShare, shareLe, divided⟩ := scale.exists_share stands within
  obtain ⟨_, isCovered, sumLe, multiplied⟩ := scale.exists_covered divided shareLe
  obtain ⟨_, isMoved, added⟩ :=
    multiplied.add standsAt_slack (sumLe.trans (two_pow_le_limit (by decide)))
  have movedLe := magnitude_le_of_nearest isMoved sumLe
  exact ⟨_, Nat.floor_le_of_le (by exact_mod_cast movedLe), .rounded isShare isCovered isMoved,
    floor_of_standsAt added⟩

theorem Scale.exists_ceil (scale : Scale .negative extent whole pixels greatest)
    (stands : StandsAt .positive part x) (within : part ≤ whole) :
    ∃ count ≤ 2 ^ 11, Covers extent whole part count ∧
      ceil (pixels * (x / greatest) - slack) = -count := by
  obtain ⟨_, isShare, shareLe, divided⟩ := scale.exists_share stands within
  obtain ⟨_, isCovered, sumLe, multiplied⟩ := scale.exists_covered divided shareLe
  obtain ⟨_, isMoved, subtracted⟩ :=
    multiplied.sub standsAt_slack (sumLe.trans (two_pow_le_limit (by decide)))
  have movedLe := magnitude_le_of_nearest isMoved sumLe
  exact ⟨_, Nat.floor_le_of_le (by exact_mod_cast movedLe), .rounded isShare isCovered isMoved,
    ceil_of_standsAt subtracted⟩

theorem exists_extent {count : ℕ} (few : count ≤ 2 ^ 10) :
    ∃ extent, magnitude .binary64 extent ≤ 2 ^ 10 ∧
      StandsAt .positive extent count.toUInt64.toFloat := by
  obtain ⟨extent, nearest, stands⟩ := standsAt_ofNat (few.trans_lt (by decide))
  exact ⟨extent, magnitude_le_of_nearest nearest (by exact_mod_cast few), stands⟩

end Parts

section Words

variable {count : ℕ} {value : ℤ}

theorem saturate_of_small (small : value.natAbs ≤ 2 ^ 11) : saturate value = value := by
  have bounds : Int32.minValue.toInt = -2 ^ 31 ∧ Int32.maxValue.toInt = 2 ^ 31 - 1 := by decide
  unfold saturate clamp
  omega

theorem wrap_of_small (small : value.natAbs ≤ 2 ^ 12) : wrap value = value := by
  unfold wrap
  rw [Int.bmod_eq_of_le] <;> simp [UInt32.size] <;> omega

theorem clamp_columns (few : count ≤ 2 ^ 11) :
    clamp columns.1 (columns.2 + 1) (wrap (columns.1 + saturate count)) = 70 + min count 880 := by
  rw [saturate_of_small (by omega), wrap_of_small (by simp only [columns]; omega)]
  simp only [clamp, columns]
  omega

theorem clamp_rows (few : count ≤ 2 ^ 11) :
    clamp rows.1 (rows.2 + 1) (wrap (rows.2 + saturate (-count))) = 429 - min count 393 := by
  rw [saturate_of_small (by omega), wrap_of_small (by simp only [rows]; omega)]
  simp only [clamp, rows]
  omega

end Words

section Columns

variable {lastClass i j : ℕ}

theorem ne_zero_of_nearest {count place : ℕ} (nearest : Nearest .binary64 count place)
    (some : 0 < count) : place ≠ 0 := by
  have one : magnitude .binary64 ((1022 + 0) * stride .binary64 + stride .binary64) ≤ count := by
    rw [magnitude_two_pow, pow_zero]
    exact_mod_cast some
  have least := (Nearest.of_magnitude _).le_of_le nearest one
  have positive := stride_pos .binary64
  omega

/-- From class to class, a line goes to the right or stays in its column. -/
theorem column_mono (some : 0 < lastClass) (inside : lastClass < UInt64.size) (ordered : i ≤ j)
    (within : j ≤ lastClass) : column lastClass i ≤ column lastClass j := by
  obtain ⟨extent, extentLe, width⟩ := exists_extent (show 879 ≤ 2 ^ 10 by decide)
  obtain ⟨whole, isWhole, greatest⟩ := standsAt_ofNat inside
  have scale : Scale .positive extent whole _ _ :=
    ⟨extentLe, width, greatest, ne_zero_of_nearest isWhole some⟩
  have each : ∀ index ≤ lastClass, ∃ part count, Nearest .binary64 index part ∧
      Covers extent whole part count ∧ column lastClass index = 70 + min count 880 := by
    intro index le
    obtain ⟨part, isPart, stands⟩ := standsAt_ofNat (le.trans_lt inside)
    obtain ⟨count, few, covers, floored⟩ :=
      scale.exists_floor stands (isPart.le_of_le isWhole (by exact_mod_cast le))
    refine ⟨part, count, isPart, covers, ?_⟩
    rw [← clamp_columns few, ← floored]
    rfl
  obtain ⟨left, first, isLeft, coversFirst, leftColumn⟩ := each i (ordered.trans within)
  obtain ⟨right, second, isRight, coversSecond, rightColumn⟩ := each j within
  have counts := coversFirst.le_of_le coversSecond
    (isLeft.le_of_le isRight (by exact_mod_cast ordered))
  omega

end Columns

section Rows

variable {top x y : Float32}

/-- Larger numbers of rows are farther down. -/
theorem row_antitone (lower : UpTo y x) (upper : UpTo top y) (positive : 0 < exact top)
    (small : exact top ≤ limit) : row top y ≤ row top x := by
  have strict := magnitude_strictMono .binary64
  obtain ⟨extent, extentLe, height⟩ := exists_extent (show 393 ≤ 2 ^ 10 by decide)
  obtain ⟨whole, wholeExact, greatest⟩ := standsAt_widen upper.limit small
  have some : whole ≠ 0 := by
    rintro rfl
    rw [← wholeExact, magnitude_zero] at positive
    exact positive.false
  have scale : Scale .negative extent whole _ _ := ⟨extentLe, height.neg, greatest, some⟩
  -- Both rows are counted on one scale, so that only the parts of it differ.
  have each : ∀ {value}, UpTo top value → ∃ part count, magnitude .binary64 part = exact value ∧
      Covers extent whole part count ∧ row top value = 429 - min count 393 := by
    intro value upTo
    obtain ⟨part, partExact, stands⟩ := standsAt_widen upTo.amount (upTo.exact_le.trans small)
    have within : part ≤ whole := by
      rw [← strict.le_iff_le, partExact, wholeExact]
      exact upTo.exact_le
    obtain ⟨_, -, -, divided⟩ := scale.exists_share stands within
    obtain ⟨count, few, covers, raised⟩ := scale.exists_ceil stands within
    refine ⟨part, count, partExact, covers, ?_⟩
    rw [← clamp_rows few, ← raised]
    unfold row
    dsimp only
    rw [divided.isInf, if_neg Bool.false_ne_true]
    rfl
  obtain ⟨less, first, lessExact, coversFirst, lowerRow⟩ := each (lower.trans upper)
  obtain ⟨more, second, moreExact, coversSecond, upperRow⟩ := each upper
  have parts : less ≤ more := by
    rw [← strict.le_iff_le, lessExact, moreExact]
    exact lower.exact_le
  have counts := coversFirst.le_of_le coversSecond parts
  omega

end Rows

end ViewClassifier.Chart
