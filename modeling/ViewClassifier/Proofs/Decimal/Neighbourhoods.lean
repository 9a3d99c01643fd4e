import Mathlib.Data.Rat.Floor
import Mathlib.Algebra.Order.Floor.Semifield
import Mathlib.Tactic.FieldSimp
import Mathlib.Tactic.NormNum
import ViewClassifier.Decimal.Shortest
import ViewClassifier.Proofs.Rounding.Grid

/-!
# The interval of a number

The numbers that read back as a binary number lie between the midpoints to its neighbours. The
search for a shortest decimal counts steps of a decimal grid in whole numbers. What it finds is a
decimal between these midpoints, and the finest grid that it looks at always has one.
-/

set_option autoImplicit false

namespace ViewClassifier.Decimal

open Float.Model (Format)
open Rounding

section Grids

variable (ten two : ℤ)

theorem zpow_toNat {base : ℚ} (some : base ≠ 0) (k : ℤ) :
    base ^ k.toNat = base ^ k * base ^ (-k).toNat := by
  rw [← zpow_natCast, ← zpow_natCast, ← zpow_add₀ some]
  congr 1
  omega

theorem stepDenominator_pos : 0 < stepDenominator ten two := by
  rw [stepDenominator, Nat.shiftLeft_eq]
  exact Nat.mul_pos (Nat.pow_pos (by decide)) (Nat.two_pow_pos _)

theorem stepNumerator_pos : 0 < stepNumerator ten two := by
  rw [stepNumerator, Nat.shiftLeft_eq]
  exact Nat.mul_pos (Nat.pow_pos (by decide)) (Nat.two_pow_pos _)

/-- A step of the decimal grid is counted in binary units without rounding. -/
theorem step_eq :
    (stepNumerator ten two : ℚ) * 2 ^ two = 10 ^ ten * stepDenominator ten two := by
  have tens := zpow_toNat (show (10 : ℚ) ≠ 0 by norm_num) ten
  have twos := zpow_toNat (show (2 : ℚ) ≠ 0 by norm_num) two
  simp only [stepNumerator, stepDenominator, Nat.shiftLeft_eq, Nat.pow_eq]
  push_cast
  rw [tens, twos]
  ring

/-- Binary units and decimal steps are compared as whole numbers on one scale. -/
theorem exists_scale :
    ∃ scale : ℚ, 0 < scale ∧
      (∀ units : ℕ, ((units * stepDenominator ten two : ℕ) : ℚ) = units * 2 ^ two * scale) ∧
      ∀ steps : ℕ, ((steps * stepNumerator ten two : ℕ) : ℚ) = steps * 10 ^ ten * scale := by
  have positive : (0 : ℚ) < stepDenominator ten two := by
    exact_mod_cast stepDenominator_pos ten two
  have unit := scale_pos two
  have counted := step_eq ten two
  refine ⟨stepDenominator ten two / 2 ^ two, div_pos positive unit, fun units => ?_,
    fun steps => ?_⟩
  · push_cast
    field_simp
  · rw [← eq_div_iff unit.ne'] at counted
    push_cast
    rw [counted]
    ring

end Grids

/-- A decimal as a number. -/
def Digits.amount (d : Digits) : ℚ :=
  d.digits * 10 ^ d.exponent

theorem Digits.amount_strip (fuel : ℕ) (d : Digits) : (d.strip fuel).amount = d.amount := by
  induction fuel generalizing d with
  | zero => rfl
  | succ fuel ih =>
      unfold Digits.strip
      split
      · rename_i divisible
        have whole : 10 * (d.digits / 10) = d.digits := by omega
        have cast : (10 : ℚ) * (d.digits / 10 : ℕ) = d.digits := by exact_mod_cast whole
        rw [ih, amount, amount, zpow_add_one₀ (by norm_num), ← cast]
        ring
      · rfl

namespace Neighbourhood

variable {n : Neighbourhood} {tie : Tie}

/-- A number in the interval. The ends belong to it when it is closed. -/
structure Holds (n : Neighbourhood) (x : ℚ) : Prop where
  least : n.low * 2 ^ n.exponent ≤ x
  greatest : x ≤ n.high * 2 ^ n.exponent
  inside : n.closed = false → n.low * 2 ^ n.exponent ≠ x ∧ x ≠ n.high * 2 ^ n.exponent

theorem contains_iff {ten : ℤ} {t : ℕ} : n.contains ten t = true ↔ n.Holds (t * 10 ^ ten) := by
  obtain ⟨scale, positive, units, steps⟩ := exists_scale ten n.exponent
  have least : n.low * stepDenominator ten n.exponent ≤ t * stepNumerator ten n.exponent ↔
      (n.low : ℚ) * 2 ^ n.exponent ≤ t * 10 ^ ten := by
    rw [← Nat.cast_le (α := ℚ), units, steps, mul_le_mul_iff_left₀ positive]
  have greatest : t * stepNumerator ten n.exponent ≤ n.high * stepDenominator ten n.exponent ↔
      (t : ℚ) * 10 ^ ten ≤ n.high * 2 ^ n.exponent := by
    rw [← Nat.cast_le (α := ℚ), units, steps, mul_le_mul_iff_left₀ positive]
  have above : n.low * stepDenominator ten n.exponent < t * stepNumerator ten n.exponent ↔
      (n.low : ℚ) * 2 ^ n.exponent < t * 10 ^ ten := by
    rw [← Nat.cast_lt (α := ℚ), units, steps, mul_lt_mul_iff_left₀ positive]
  have below : t * stepNumerator ten n.exponent < n.high * stepDenominator ten n.exponent ↔
      (t : ℚ) * 10 ^ ten < n.high * 2 ^ n.exponent := by
    rw [← Nat.cast_lt (α := ℚ), units, steps, mul_lt_mul_iff_left₀ positive]
  unfold contains
  cases closed : n.closed with
  | true =>
      simp only [↓reduceIte, Bool.and_eq_true, decide_eq_true_iff, least, greatest]
      refine ⟨fun both => ⟨both.1, both.2, fun open_ => ?_⟩, fun holds => ⟨holds.1, holds.2⟩⟩
      rw [closed] at open_
      cases open_
  | false =>
      simp only [Bool.false_eq_true, ↓reduceIte, Bool.and_eq_true, decide_eq_true_iff, above, below]
      constructor
      · intro both
        exact ⟨both.1.le, both.2.le, fun _ => ⟨both.1.ne, both.2.ne⟩⟩
      · intro holds
        obtain ⟨low, high⟩ := holds.inside closed
        exact ⟨lt_of_le_of_ne holds.least low, lt_of_le_of_ne holds.greatest high⟩

theorem holds_of_point? {ten : ℤ} {t : ℕ} (found : n.point? tie ten = some t) :
    n.Holds (t * 10 ^ ten) := by
  rw [← contains_iff]
  cases lower : n.contains ten (n.below ten) with
  | false =>
      cases upper : n.contains ten (n.below ten + 1) with
      | false => simp [point?, lower, upper] at found
      | true =>
          simp only [point?, lower, upper, Option.some.injEq] at found
          exact found ▸ upper
  | true =>
      cases upper : n.contains ten (n.below ten + 1) with
      | false =>
          simp only [point?, lower, upper, Option.some.injEq] at found
          exact found ▸ lower
      | true =>
          have either : t = n.below ten ∨ t = n.below ten + 1 := by
            simp only [point?, lower, upper] at found
            split at found
            · exact .inl (Option.some.inj found).symm
            · exact .inr (Option.some.inj found).symm
            · exact .inr (Option.some.inj found).symm
            · rw [← Option.some.inj found]
              split
              · exact .inl rfl
              · exact .inr rfl
          rcases either with rfl | rfl
          · exact lower
          · exact upper

theorem point?_isSome {ten : ℤ} (hit : n.contains ten (n.below ten) = true) :
    (n.point? tie ten).isSome = true := by
  simp only [point?, hit]
  cases n.contains ten (n.below ten + 1) with
  | false => rfl
  | true => cases n.half ten <;> cases tie <;> rfl

/-- The steps below a number end less than one step away from it. -/
theorem below_spec (n : Neighbourhood) (ten : ℤ) :
    (n.below ten : ℚ) * 10 ^ ten ≤ n.value * 2 ^ n.exponent ∧
      (n.value : ℚ) * 2 ^ n.exponent < (n.below ten + 1) * 10 ^ ten := by
  obtain ⟨scale, positive, units, steps⟩ := exists_scale ten n.exponent
  constructor
  · rw [← mul_le_mul_iff_left₀ positive, ← units, ← steps, Nat.cast_le]
    exact Nat.div_mul_le_self _ _
  · rw [← mul_lt_mul_iff_left₀ positive, ← units, ← Nat.cast_add_one, ← steps, Nat.cast_lt,
      ← Nat.div_lt_iff_lt_mul (stepNumerator_pos ten n.exponent)]
    exact Nat.lt_succ_self _

theorem below_pos_iff (n : Neighbourhood) (ten : ℤ) :
    n.below ten ≠ 0 ↔ (10 : ℚ) ^ ten ≤ n.value * 2 ^ n.exponent := by
  obtain ⟨le, lt⟩ := n.below_spec ten
  have step : (0 : ℚ) < 10 ^ ten := by positivity
  constructor
  · intro some
    have one : (1 : ℚ) ≤ n.below ten := by exact_mod_cast Nat.one_le_iff_ne_zero.mpr some
    exact (le_mul_of_one_le_left step.le one).trans le
  · intro reaches none
    rw [none, Nat.cast_zero, zero_add, one_mul] at lt
    exact absurd reaches (not_le.mpr lt)

theorem leadingZeros_spec {fuel start count : ℕ} (from_ : start ≤ count)
    (until_ : count < start + fuel) (some : n.below (-(count : ℤ)) ≠ 0) :
    n.below (-(n.leadingZeros fuel start : ℤ)) ≠ 0 := by
  induction fuel generalizing start with
  | zero => omega
  | succ fuel ih =>
      unfold leadingZeros
      by_cases none : n.below (-(start : ℤ)) = 0
      · rw [if_pos none]
        have later : start ≠ count := by
          rintro rfl
          exact some none
        exact ih (by omega) (by omega)
      · rw [if_neg none]
        exact none

/-- The leading digit of a number does not stand above the number. -/
theorem decade_le {count : ℕ} (from_ : 1 ≤ count) (until_ : count ≤ 400)
    (reaches : (10 : ℚ) ^ (-(count : ℤ)) ≤ n.value * 2 ^ n.exponent) :
    (10 : ℚ) ^ n.decade ≤ n.value * 2 ^ n.exponent := by
  rw [← below_pos_iff] at reaches ⊢
  unfold decade
  split
  · exact leadingZeros_spec from_ (by omega) reaches
  · rename_i whole some
    have length := @Nat.length_toDigits_pos 10 (n.below 0)
    obtain ⟨places, counted⟩ : ∃ places, (Nat.toDigits 10 (n.below 0)).length = places + 1 :=
      ⟨_, (Nat.sub_add_cancel length).symm⟩
    have reached : 10 ^ places ≤ n.below 0 := by
      rcases Nat.eq_zero_or_pos places with rfl | more
      · exact Nat.one_le_iff_ne_zero.mpr some
      · by_contra less
        have short := (Nat.length_toDigits_le_iff (by decide) more).mpr (Nat.not_le.mp less)
        omega
    have exponent : ((Nat.toDigits 10 (n.below 0)).length : ℤ) - 1 = places := by omega
    rw [exponent, below_pos_iff, zpow_natCast]
    have le := (n.below_spec 0).1
    rw [zpow_zero, mul_one] at le
    exact le_trans (by exact_mod_cast reached) le

/-- The search ends with a hit if one of the grids that it looks at has one. -/
theorem holds_search {decade : ℤ} {fuel start count : ℕ} (from_ : start ≤ count)
    (until_ : count < start + fuel) (hit : (n.point? tie (decade + 1 - count)).isSome = true) :
    n.Holds (n.search tie decade fuel start).amount := by
  induction fuel generalizing start with
  | zero => omega
  | succ fuel ih =>
      unfold search
      dsimp only
      split
      · rename_i t found
        rw [Digits.amount_strip]
        exact holds_of_point? found
      · rename_i none
        have later : start ≠ count := by
          rintro rfl
          rw [none] at hit
          cases hit
        exact ih (by omega) (by omega)

end Neighbourhood

section Midpoints

variable {format : Format} {x : ℚ} {place : ℕ}

/-- Only the two neighbours of a place can come nearer than the place itself. -/
theorem nearest_of_adjacent
    (below : ∀ before, place = before + 1 →
      magnitude format before + magnitude format place ≤ 2 * x ∧
        (magnitude format before + magnitude format place = 2 * x → Even place))
    (above : 2 * x ≤ magnitude format place + magnitude format (place + 1) ∧
      (2 * x = magnitude format place + magnitude format (place + 1) → Even place)) :
    Nearest format x place where
  below := by
    intro other less
    obtain ⟨before, rfl⟩ := Nat.exists_eq_succ_of_ne_zero (Nat.ne_zero_of_lt less)
    obtain ⟨least, tie⟩ := below before rfl
    have grows := (magnitude_strictMono format).monotone (Nat.le_of_lt_succ less)
    exact ⟨by linarith, fun same => tie (by linarith)⟩
  above := by
    intro other greater
    obtain ⟨most, tie⟩ := above
    have grows := (magnitude_strictMono format).monotone (Nat.succ_le_of_lt greater)
    exact ⟨by linarith, fun same => tie (by linarith)⟩

variable {octave mantissa : ℕ}

/-- A quarter of the unit of the mantissa, in which the ends of an interval are counted. -/
theorem quarter_eq (format : Format) (octave : ℕ) :
    (2 : ℚ) ^ (format.minExponent + octave) = 4 * 2 ^ (format.minExponent + octave - 2) := by
  rw [zpow_sub₀ two_ne_zero]
  norm_num
  ring

theorem high_eq (bounded : mantissa < 2 * stride format)
    (canonical : octave = 0 ∨ stride format ≤ mantissa) :
    let n := Neighbourhood.of format mantissa (format.minExponent + octave)
    2 * (n.high * 2 ^ n.exponent : ℚ) =
      magnitude format (octave * stride format + mantissa) +
        magnitude format (octave * stride format + mantissa + 1) := by
  have next := magnitude_eq (show mantissa + 1 ≤ 2 * stride format from bounded)
    (canonical.imp id Nat.le_succ_of_le)
  rw [Nat.add_assoc, next, magnitude_eq bounded.le canonical, quarter_eq]
  simp only [Neighbourhood.of]
  push_cast
  ring

/-- The neighbour below the least full mantissa has the next exponent down, and is nearer. -/
theorem low_eq {before : ℕ} (bounded : mantissa < 2 * stride format)
    (canonical : octave = 0 ∨ stride format ≤ mantissa)
    (follows : octave * stride format + mantissa = before + 1) :
    let n := Neighbourhood.of format mantissa (format.minExponent + octave)
    2 * (n.low * 2 ^ n.exponent : ℚ) =
      magnitude format before + magnitude format (octave * stride format + mantissa) := by
  intro n
  have positive := stride_pos format
  have stride_eq : 1 <<< format.mantissaBitsWithoutImplicit = stride format := Nat.one_shiftLeft _
  rw [magnitude_eq bounded.le canonical, quarter_eq]
  by_cases first : mantissa = stride format ∧ 0 < octave
  · obtain ⟨rfl, later⟩ := first
    obtain ⟨lower, rfl⟩ := Nat.exists_eq_succ_of_ne_zero (Nat.ne_of_gt later)
    obtain rfl : before = lower * stride format + (2 * stride format - 1) := by
      rw [Nat.succ_mul] at follows
      omega
    have low : n.low = 4 * stride format - 1 := if_pos ⟨stride_eq.symm, by omega⟩
    rw [magnitude_eq (by omega) (.inr (by omega)), low, Nat.cast_sub (by omega),
      Nat.cast_sub (by omega)]
    have exponent : format.minExponent + (lower.succ : ℕ) - 2 = format.minExponent + lower - 1 := by
      push_cast
      ring
    have half : (2 : ℚ) ^ (format.minExponent + lower) =
        2 * 2 ^ (format.minExponent + lower - 1) := by
      rw [← scale_succ, sub_add_cancel]
    simp only [n, Neighbourhood.of, exponent, half]
    push_cast
    ring
  · have some : 0 < mantissa := by
      rcases canonical with rfl | filled
      · omega
      · omega
    obtain rfl : before = octave * stride format + (mantissa - 1) := by omega
    have low : n.low = 4 * mantissa - 2 := if_neg (by rw [stride_eq]; omega)
    have below : octave = 0 ∨ stride format ≤ mantissa - 1 := by omega
    rw [magnitude_eq (by omega) below, quarter_eq, low, Nat.cast_sub (by omega),
      Nat.cast_sub (by omega)]
    simp only [n, Neighbourhood.of]
    push_cast
    ring

theorem even_of_closed {exponent : ℤ}
    (closed : (Neighbourhood.of format mantissa exponent).closed ≠ false) :
    Even (octave * stride format + mantissa) := by
  refine ((even_stride format).mul_left octave).add (Nat.even_iff.mpr ?_)
  simpa [Neighbourhood.of] using closed

/-- The ends of the interval are the midpoints to the neighbours, and belong to it when the mantissa
is even. -/
theorem nearest_of_holds (bounded : mantissa < 2 * stride format)
    (canonical : octave = 0 ∨ stride format ≤ mantissa)
    (holds : (Neighbourhood.of format mantissa (format.minExponent + octave)).Holds x) :
    Nearest format x (octave * stride format + mantissa) := by
  obtain ⟨least, greatest, inside⟩ := holds
  refine nearest_of_adjacent (fun before follows => ?_) ?_
  · rw [← low_eq bounded canonical follows]
    refine ⟨by linarith, fun tie => even_of_closed fun open_ => (inside open_).1 ?_⟩
    linarith
  · rw [← high_eq bounded canonical]
    refine ⟨by linarith, fun tie => even_of_closed fun open_ => (inside open_).2 ?_⟩
    linarith

end Midpoints

section Shortest

variable {octave mantissa : ℕ}

/-- Below a binary32 number there is less than a quarter of its unit to the grid of seventeen
digits. -/
theorem holds_below (positive : 0 < mantissa) (bounded : mantissa < 2 * stride .binary32)
    (exponent decade : ℤ)
    (le : (10 : ℚ) ^ decade ≤ (4 * mantissa : ℕ) * 2 ^ (exponent - 2)) :
    let n := Neighbourhood.of .binary32 mantissa exponent
    n.Holds (n.below (decade + 1 - (17 : ℕ)) * 10 ^ (decade + 1 - (17 : ℕ))) := by
  intro n
  obtain ⟨ten, finest⟩ : ∃ ten : ℤ, decade + 1 - (17 : ℕ) = ten := ⟨_, rfl⟩
  obtain ⟨unit, named⟩ : ∃ unit : ℚ, (2 : ℚ) ^ (exponent - 2) = unit := ⟨_, rfl⟩
  have unitPositive : 0 < unit := named ▸ scale_pos _
  obtain ⟨under, beyond⟩ := n.below_spec ten
  change _ ≤ ((4 * mantissa : ℕ) : ℚ) * 2 ^ (exponent - 2) at under
  change ((4 * mantissa : ℕ) : ℚ) * 2 ^ (exponent - 2) < _ at beyond
  rw [named] at le under beyond
  have step : (10 : ℚ) ^ ten * 10 ^ 16 = 10 ^ decade := by
    rw [← zpow_natCast, ← zpow_add₀ (by norm_num)]
    congr 1
    omega
  have small : ((4 * mantissa : ℕ) : ℚ) ≤ 2 ^ 26 := by
    have count : 4 * mantissa ≤ 2 ^ 26 := by
      change mantissa < 2 * 2 ^ 23 at bounded
      omega
    exact_mod_cast count
  have fine : (10 : ℚ) ^ ten < unit := by
    have scaled := mul_le_mul_of_nonneg_right small unitPositive.le
    linarith
  have low : (n.low : ℚ) + 1 ≤ (4 * mantissa : ℕ) := by
    have count : n.low + 1 ≤ 4 * mantissa := by
      simp only [n, Neighbourhood.of]
      split <;> omega
    exact_mod_cast count
  have lowScaled := mul_le_mul_of_nonneg_right low unitPositive.le
  have high : ((n.high : ℕ) : ℚ) = (4 * mantissa : ℕ) + 2 := by
    simp [n, Neighbourhood.of]
  have exponent_eq : n.exponent = exponent - 2 := rfl
  have above : (n.low : ℚ) * unit < n.below ten * 10 ^ ten := by linarith
  have below : (n.below ten : ℚ) * 10 ^ ten < n.high * unit := by
    rw [high]
    linarith
  rw [finest]
  refine ⟨?_, ?_, fun _ => ⟨?_, ?_⟩⟩ <;> rw [exponent_eq, named]
  · exact above.le
  · exact below.le
  · exact above.ne
  · exact below.ne

/-- The shortest decimal of a binary32 number reads back as it. -/
theorem holds_shortest (tie : Tie) (positive : 0 < mantissa)
    (bounded : mantissa < 2 * stride .binary32) {exponent : ℤ} (least : -149 ≤ exponent) :
    (Neighbourhood.of .binary32 mantissa exponent).Holds
      (shortest .binary32 tie mantissa exponent).amount := by
  have smallest : (10 : ℚ) ^ (-(45 : ℕ) : ℤ) ≤ (4 * mantissa : ℕ) * 2 ^ (exponent - 2) := by
    have one : (1 : ℚ) ≤ mantissa := by exact_mod_cast positive
    have unit : (2 : ℚ) ^ (-151 : ℤ) ≤ 2 ^ (exponent - 2) :=
      zpow_le_zpow_right₀ one_le_two (by omega)
    calc (10 : ℚ) ^ (-(45 : ℕ) : ℤ) ≤ 4 * 2 ^ (-151 : ℤ) := by norm_num
      _ ≤ 4 * mantissa * 2 ^ (exponent - 2) :=
          mul_le_mul (by linarith) unit (by positivity) (by linarith)
      _ = (4 * mantissa : ℕ) * 2 ^ (exponent - 2) := by push_cast; ring
  have decade := Neighbourhood.decade_le (n := .of .binary32 mantissa exponent)
    (show 1 ≤ 45 by decide) (by decide) smallest
  refine Neighbourhood.holds_search (show 1 ≤ 17 by decide) (by decide) ?_
  exact Neighbourhood.point?_isSome
    (Neighbourhood.contains_iff.mpr (holds_below positive bounded exponent _ decade))

end Shortest

end ViewClassifier.Decimal
