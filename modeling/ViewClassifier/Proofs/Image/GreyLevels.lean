import Mathlib.Tactic.LinearCombination
import ViewClassifier.Proofs.Binary32.Extent
import ViewClassifier.Proofs.Binary32.Whole
import ViewClassifier.Proofs.Image.Samples

/-!
# Grey levels

A sample is scaled by a division by the greatest sample, or by a product with the rounded reciprocal of
it. The two results are the same number or neighbours. Which of the two they are depends on the leading
bits of a byte and on the last nine bits of a word, where the leading bit is moved to the front.
-/

set_option autoImplicit false

namespace ViewClassifier

open Binary32
open Rounding

/-- A count moved up until its leading bit is the first one of so many bits. -/
def front (bits count : ℕ) : ℕ :=
  count * 2 ^ (bits - 1 - count.log2)

/-- How many places the scaled byte stands above the quotient. The reciprocal of 255 is rounded up, which
shows in the products with the greater half of the mantissas, except that one stays one. -/
def byteDrift (count : ℕ) : ℤ :=
  if 192 ≤ front 8 count ∧ count ≠ 255 then 1 else 0

/-- How many places the scaled word stands above the quotient. The reciprocal of 65535 is rounded down,
which shows where the product is a midpoint whose even place is the lower one. -/
def wordDrift (count : ℕ) : ℤ :=
  if front 16 count % 512 = 128 then -1 else 0

theorem level_byte {count : ℕ} (small : count ≤ 255) :
    level (ofNat count * (1 / ofNat 255)) = level (ofNat count / ofNat 255) + byteDrift count := by
  have each : ∀ byte : Fin 256, level (ofNat byte.val * (1 / ofNat 255)) =
      level (ofNat byte.val / ofNat 255) + byteDrift byte.val := by
    decide +kernel
  exact each ⟨count, Nat.lt_succ_of_le small⟩

/-- The two bytes of a word after its leading bit is moved to the front, and the octave of the word
divided by the greatest one. -/
structure Fronted (count shift octave high low : ℕ) : Prop where
  moved : count * 2 ^ shift = 256 * high + low
  shift_add : shift + octave = 125
  leading : 128 ≤ high
  high_lt : high < 256
  low_lt : low < 256

/-- The scaled word in units of its last place, without the part behind the point. -/
def wholeMantissa (high low : ℕ) : ℕ :=
  256 * (256 * high + low) + high

theorem exact_reciprocal : exact (1 / ofNat 65535) = 1 / 2 ^ 16 + 1 / 2 ^ 32 := by
  have read : exact (1 / ofNat 65535) = (0x800080 : ℕ) * 2 ^ (-149 + (110 : ℕ) : ℤ) :=
    exact_eq (by decide) (by decide) (by decide)
  rw [read]
  norm_num

theorem exists_fronted {count : ℕ} (some : 0 < count) (small : count ≤ 65535) :
    ∃ octave high low, Fronted count (15 - count.log2) octave high low := by
  have bits : count.log2 ≤ 15 := by
    have below := (Nat.log2_lt some.ne').mpr (show count < 2 ^ 16 by omega)
    omega
  have least := Nat.mul_le_mul_right (2 ^ (15 - count.log2)) (Nat.log2_self_le some.ne')
  have most := Nat.mul_lt_mul_of_pos_right (Nat.lt_log2_self (n := count))
    (Nat.two_pow_pos (15 - count.log2))
  rw [← Nat.pow_add, Nat.add_sub_cancel' bits] at least
  rw [← Nat.pow_add, Nat.add_right_comm, Nat.add_sub_cancel' bits] at most
  refine ⟨125 - (15 - count.log2), count * 2 ^ (15 - count.log2) / 256,
    count * 2 ^ (15 - count.log2) % 256, ?_, ?_, ?_, ?_, ?_⟩
  · exact (Nat.div_add_mod _ 256).symm
  · omega
  · omega
  · omega
  · omega

namespace Fronted

variable {count shift octave high low : ℕ} (fronted : Fronted count shift octave high low)

include fronted

theorem count_lt : count < 2 * stride .binary32 := by
  have moved := fronted.moved
  have unmoved := Nat.le_mul_of_pos_right count (Nat.two_pow_pos shift)
  have highLt := fronted.high_lt
  have lowLt := fronted.low_lt
  change count < 0x1000000
  omega

theorem octave_lt : octave < 254 := by
  have sum := fronted.shift_add
  omega

theorem stride_le : stride .binary32 ≤ wholeMantissa high low := by
  have leading := fronted.leading
  change 0x800000 ≤ 256 * (256 * high + low) + high
  omega

theorem wholeMantissa_lt : wholeMantissa high low < 2 * stride .binary32 := by
  have highLt := fronted.high_lt
  have lowLt := fronted.low_lt
  change 256 * (256 * high + low) + high < 0x1000000
  omega

theorem unit_eq : (2 : ℚ) ^ (-149 + octave : ℤ) = (2 ^ 24 * 2 ^ shift)⁻¹ := by
  have sum := fronted.shift_add
  have exponent : (-149 + octave : ℤ) = -(24 + shift : ℕ) := by omega
  rw [exponent, zpow_neg, zpow_natCast, pow_add]

/-- The product has the low byte behind the point. -/
theorem rounds_product :
    Rounds ((wholeMantissa high low + low / 256) * 2 ^ (-149 + octave : ℤ))
      (ofNat count * (1 / ofNat 65535)) := by
  have amount : Amount (ofNat count) := amount_ofNat (fronted.count_lt.trans (by decide))
  have rounds := amount.rounds_mul (show Amount (1 / ofNat 65535) by decide)
  have moved : (count : ℚ) * 2 ^ shift = 256 * high + low := by exact_mod_cast fronted.moved
  have value : (count * (1 / 2 ^ 16 + 1 / 2 ^ 32) : ℚ) =
      (wholeMantissa high low + low / 256) * 2 ^ (-149 + octave : ℤ) := by
    rw [fronted.unit_eq, eq_mul_inv_iff_mul_eq₀ (by positivity), wholeMantissa]
    push_cast
    linear_combination (2 ^ 8 + 1 / 2 ^ 8) * moved
  rwa [exact_ofNat fronted.count_lt, exact_reciprocal, value] at rounds

/-- The quotient has a little more than the low byte behind the point. -/
theorem rounds_quotient :
    Rounds ((wholeMantissa high low + (low + (256 * high + low) / 65535) / 256) *
      2 ^ (-149 + octave : ℤ)) (ofNat count / ofNat 65535) := by
  have amount : Amount (ofNat count) := amount_ofNat (fronted.count_lt.trans (by decide))
  have rounds := amount.rounds_div (show Amount (ofNat 65535) by decide) (by decide)
  have divisor : exact (ofNat 65535) = 65535 := exact_ofNat (by decide)
  have moved : (count : ℚ) * 2 ^ shift = 256 * high + low := by exact_mod_cast fronted.moved
  have value : (count / 65535 : ℚ) =
      (wholeMantissa high low + (low + (256 * high + low) / 65535) / 256) *
        2 ^ (-149 + octave : ℤ) := by
    rw [fronted.unit_eq, eq_mul_inv_iff_mul_eq₀ (by positivity), wholeMantissa]
    push_cast
    linear_combination (2 ^ 24 / 65535) * moved
  rwa [exact_ofNat fronted.count_lt, divisor, value] at rounds

theorem level_product :
    level (ofNat count * (1 / ofNat 65535)) = (octave * 0x800000 + (wholeMantissa high low +
      if low < 128 then 0 else if low = 128 then high % 2 else 1) : ℕ) := by
  have lowLt := fronted.low_lt
  have rounds := fronted.rounds_product
  have nonneg : (0 : ℚ) ≤ low := Nat.cast_nonneg low
  rcases Nat.lt_trichotomy low 128 with less | middle | greater
  · have below : (low : ℚ) < 128 := by exact_mod_cast less
    rw [if_pos less, Nat.add_zero]
    exact rounds.level_eq (.of_lt_half fronted.stride_le fronted.wholeMantissa_lt (by linarith)
      (by linarith)) fronted.octave_lt
  · have half : 2 * (low / 256 : ℚ) = 1 := by
      rw [middle]
      norm_num
    have digit : high % 2 = wholeMantissa high low % 2 := by
      unfold wholeMantissa
      omega
    rw [if_neg (by omega), if_pos middle, digit]
    exact rounds.level_eq (.of_half fronted.stride_le fronted.wholeMantissa_lt half)
      fronted.octave_lt
  · have above : (128 : ℚ) < low := by exact_mod_cast greater
    have most : (low : ℚ) ≤ 255 := by exact_mod_cast Nat.le_of_lt_succ lowLt
    rw [if_neg (by omega), if_neg (by omega)]
    exact rounds.level_eq (.of_half_lt fronted.stride_le fronted.wholeMantissa_lt (by linarith)
      (by linarith)) fronted.octave_lt

/-- The quotient is no midpoint, so that it does not matter which of two places is even. -/
theorem level_quotient :
    level (ofNat count / ofNat 65535) =
      (octave * 0x800000 + (wholeMantissa high low + if low < 128 then 0 else 1) : ℕ) := by
  have highLt := fronted.high_lt
  have lowLt := fronted.low_lt
  have leading := fronted.leading
  have rounds := fronted.rounds_quotient
  have nonneg : (0 : ℚ) ≤ low := Nat.cast_nonneg low
  have positive : (0 : ℚ) < 256 * high + low := by exact_mod_cast (by omega : 0 < 256 * high + low)
  rcases Nat.lt_or_ge low 128 with less | greater
  · have below : (low : ℚ) ≤ 127 := by exact_mod_cast Nat.le_of_lt_succ less
    have most : (256 * high + low : ℚ) < 65535 := by
      exact_mod_cast (by omega : 256 * high + low < 65535)
    rw [if_pos less, Nat.add_zero]
    exact rounds.level_eq (.of_lt_half fronted.stride_le fronted.wholeMantissa_lt (by linarith)
      (by linarith)) fronted.octave_lt
  · have above : (128 : ℚ) ≤ low := by exact_mod_cast greater
    have lowMost : (low : ℚ) ≤ 255 := by exact_mod_cast Nat.le_of_lt_succ lowLt
    have most : (256 * high + low : ℚ) ≤ 65535 := by
      exact_mod_cast (by omega : 256 * high + low ≤ 65535)
    rw [if_neg (by omega)]
    exact rounds.level_eq (.of_half_lt fronted.stride_le fronted.wholeMantissa_lt (by linarith)
      (by linarith)) fronted.octave_lt

end Fronted

theorem level_word {count : ℕ} (small : count ≤ 65535) :
    level (ofNat count * (1 / ofNat 65535)) =
      level (ofNat count / ofNat 65535) + wordDrift count := by
  rcases Nat.eq_zero_or_pos count with rfl | some
  · decide
  · obtain ⟨octave, high, low, fronted⟩ := exists_fronted some small
    have moved : front 16 count = 256 * high + low := fronted.moved
    have lowLt := fronted.low_lt
    rw [fronted.level_product, fronted.level_quotient, wordDrift, moved]
    split_ifs <;> push_cast <;> omega

namespace Samples

variable {samples : Samples} {i : ℕ}

/-- How many places a scaled sample stands above the fraction. -/
def drift (samples : Samples) (i : ℕ) : ℤ :=
  match samples with
  | .bytes _ => byteDrift (samples.count i)
  | .words _ => wordDrift (samples.count i)
  | .reals _ => 0

theorem level_scaled (samples : Samples) (i : ℕ) :
    level (samples.scaled i) = level (samples.fraction i) + samples.drift i := by
  have small := samples.count_le_greatest i
  cases samples with
  | bytes values =>
      have whole : IsWhole (.bytes values) := trivial
      rw [(fraction_scaled_eq whole i).1, (fraction_scaled_eq whole i).2]
      exact level_byte small
  | words values =>
      have whole : IsWhole (.words values) := trivial
      rw [(fraction_scaled_eq whole i).1, (fraction_scaled_eq whole i).2]
      exact level_word small
  | reals values => exact (Int.add_zero _).symm

theorem level_fraction_pos (whole : samples.IsWhole) (some : 0 < samples.count i) :
    0 < level (samples.fraction i) := by
  have least : 0 < level (ofNat 1 / ofNat samples.greatest) :=
    greatest_cases (P := fun greatest => 0 < level (ofNat 1 / ofNat greatest)) whole (by decide)
      (by decide)
  have within := fraction_upTo_one whole i
  have divisor := amount_greatest whole
  rw [(fraction_scaled_eq whole i).1] at within ⊢
  have size : samples.count i < UInt64.size :=
    (samples.count_le_greatest i).trans_lt
      (greatest_cases (P := fun greatest => greatest < UInt64.size) whole (by decide) (by decide))
  have counted : 1 ≤ samples.count i := some
  have above := (UpTo.ofNat counted (amount_ofNat size)).div divisor (level_greatest_pos whole)
    within.amount
  have levels := (le_iff_level_le above.amount.number above.limit.number).mp above.le
  omega

theorem scaled_eq_fraction_of_zero (whole : samples.IsWhole) (zero : samples.count i = 0) :
    samples.scaled i = samples.fraction i := by
  have product : ofNat 0 * (1 / ofNat samples.greatest) = .ofBits 0 :=
    greatest_cases (P := fun greatest => ofNat 0 * (1 / ofNat greatest) = .ofBits 0) whole
      (by decide) (by decide)
  have quotient : ofNat 0 / ofNat samples.greatest = .ofBits 0 :=
    greatest_cases (P := fun greatest => ofNat 0 / ofNat greatest = .ofBits 0) whole (by decide)
      (by decide)
  rw [(fraction_scaled_eq whole i).1, (fraction_scaled_eq whole i).2, zero, product, quotient]

theorem scaled_eq_fraction_iff : samples.scaled i = samples.fraction i ↔ samples.drift i = 0 := by
  have levels := samples.level_scaled i
  constructor
  · intro same
    rw [same] at levels
    omega
  · intro none
    rw [none, Int.add_zero] at levels
    by_cases whole : samples.IsWhole
    · -- The level does not tell the two zeros apart.
      rcases Nat.eq_zero_or_pos (samples.count i) with zero | some
      · exact scaled_eq_fraction_of_zero whole zero
      · exact eq_of_level_eq levels (level_fraction_pos whole some)
    · cases samples with
      | bytes => exact absurd trivial whole
      | words => exact absurd trivial whole
      | reals => rfl

end Samples

end ViewClassifier
