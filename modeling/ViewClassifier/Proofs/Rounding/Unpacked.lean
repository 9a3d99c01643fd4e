import Mathlib.Tactic.FieldSimp
import ViewClassifier.Proofs.Rounding.Grid

/-!
# Rounding of unpacked numbers

A mantissa is shifted to the exponent that the format has for it, and two residual bits describe
what leaves it on the way. Rounding takes the mantissa that the bits ask for, shifts it once more
when it became full, and so reaches the nearest place of the format.
-/

set_option autoImplicit false

namespace ViewClassifier.Rounding

open Float.Model (Format totalExponent UnpackedFloat)
open Float.Model.UnpackedFloat

/-- What an accuracy says about the part of a number that its mantissa leaves out. -/
def Tells : Accuracy → ℚ → Prop
  | .exact, rest => rest = 0
  | .inexact .lt, rest => 0 < rest ∧ 2 * rest < 1
  | .inexact .eq, rest => 2 * rest = 1
  | .inexact .gt, rest => 1 < 2 * rest ∧ rest < 1

theorem Tells.nonneg {accuracy : Accuracy} {rest : ℚ} (tells : Tells accuracy rest) : 0 ≤ rest := by
  cases accuracy with
  | exact => exact le_of_eq tells.symm
  | inexact side =>
      cases side with
      | lt => exact tells.1.le
      | eq =>
          have half : 2 * rest = 1 := tells
          linarith
      | gt => linarith [tells.1]

/-- The halves of a unit that a mantissa and its round bit count. -/
def halves (extended : ExtendedMantissa) : ℕ :=
  2 * extended.mantissa + extended.roundBit.toNat

/-- A mantissa with its residual bits describes a number that it counts in halves, and the sticky
bit tells whether anything is left. -/
structure Extends (extended : ExtendedMantissa) (exact : ℚ) : Prop where
  least : halves extended ≤ 2 * exact
  greatest : 2 * exact < halves extended + 1
  sticky : extended.stickyBit = true ↔ (halves extended : ℚ) ≠ 2 * exact

section Shifting

variable {extended : ExtendedMantissa} {exact : ℚ}

theorem extends_ofMantissaAndAccuracy {mantissa : ℕ} {accuracy : Accuracy} {rest : ℚ}
    (tells : Tells accuracy rest) :
    Extends (.ofMantissaAndAccuracy mantissa accuracy) (mantissa + rest) := by
  cases accuracy with
  | exact =>
      have none : rest = 0 := tells
      constructor <;> simp [ExtendedMantissa.ofMantissaAndAccuracy, halves, none]
  | inexact side =>
      cases side with
      | lt =>
          obtain ⟨positive, small⟩ := tells
          constructor <;>
            simp [ExtendedMantissa.ofMantissaAndAccuracy, halves, mul_add, positive.ne',
              positive.le, small]
      | eq =>
          have half : 2 * rest = 1 := tells
          constructor <;>
            simp [ExtendedMantissa.ofMantissaAndAccuracy, halves, mul_add, half]
      | gt =>
          obtain ⟨large, bounded⟩ := tells
          constructor <;>
            simp [ExtendedMantissa.ofMantissaAndAccuracy, halves, mul_add, large.le, large.ne]
          linarith

/-- The bit that leaves the mantissa becomes the round bit, so that the halves after a shift are the
mantissa before it. -/
theorem halves_shiftRightOne : halves extended.shiftRightOne = extended.mantissa := by
  have division := Nat.div_add_mod extended.mantissa 2
  rcases Nat.mod_two_eq_zero_or_one extended.mantissa with even | odd
  · simp only [halves, ExtendedMantissa.shiftRightOne, even, bne_self_eq_false, Bool.toNat_false]
    omega
  · simp only [halves, ExtendedMantissa.shiftRightOne, odd]
    change 2 * (extended.mantissa / 2) + 1 = _
    omega

theorem Extends.shiftRightOne (described : Extends extended exact) :
    Extends extended.shiftRightOne (exact / 2) := by
  obtain ⟨least, greatest, sticky⟩ := described
  have whole : 2 * (exact / 2) = exact := by ring
  cases round : extended.roundBit with
  | false =>
      have count : (halves extended : ℚ) = 2 * extended.mantissa := by
        simp [halves, round]
      rw [count] at least greatest sticky
      constructor <;> rw [halves_shiftRightOne, whole]
      · linarith
      · linarith
      · simp [ExtendedMantissa.shiftRightOne, round, sticky]
  | true =>
      have count : (halves extended : ℚ) = 2 * extended.mantissa + 1 := by
        simp [halves, round]
      rw [count] at least greatest
      constructor <;> rw [halves_shiftRightOne, whole]
      · linarith
      · linarith
      · have different : (extended.mantissa : ℚ) ≠ exact := by
          intro same
          linarith
        simp [ExtendedMantissa.shiftRightOne, round, different]

theorem Extends.shiftRight (described : Extends extended exact) (count : ℕ) :
    Extends (extended >>> count) (exact / 2 ^ count) := by
  change Extends (count.repeat ExtendedMantissa.shiftRightOne extended) _
  induction count with
  | zero => simpa [Nat.repeat] using described
  | succ count ih =>
      rw [Nat.repeat, pow_succ, ← div_div]
      exact ih.shiftRightOne

theorem mantissa_shiftRight (extended : ExtendedMantissa) (count : ℕ) :
    (extended >>> count).mantissa = extended.mantissa / 2 ^ count := by
  change (count.repeat ExtendedMantissa.shiftRightOne extended).mantissa = _
  induction count with
  | zero => simp [Nat.repeat]
  | succ count ih =>
      rw [Nat.repeat, Nat.pow_succ, ← Nat.div_div_eq_div_mul, ← ih]
      rfl

theorem mantissa_ofMantissaAndAccuracy (mantissa : ℕ) (accuracy : Accuracy) :
    (ExtendedMantissa.ofMantissaAndAccuracy mantissa accuracy).mantissa = mantissa := by
  cases accuracy with
  | exact => rfl
  | inexact side => cases side <;> rfl

/-- The rounded mantissa is the whole number nearest to what is described, the even one of two. -/
theorem Extends.roundedMantissa (described : Extends extended exact) :
    2 * (extended.roundedMantissa : ℚ) - 1 ≤ 2 * exact ∧
      2 * exact ≤ 2 * (extended.roundedMantissa : ℚ) + 1 ∧
      (2 * exact = 2 * (extended.roundedMantissa : ℚ) - 1 ∨
        2 * exact = 2 * (extended.roundedMantissa : ℚ) + 1 → Even extended.roundedMantissa) ∧
      extended.roundedMantissa ≤ extended.mantissa + 1 := by
  obtain ⟨least, greatest, sticky⟩ := described
  obtain ⟨mantissa, roundBit, stickyBit⟩ := extended
  cases roundBit with
  | false =>
      have rounded : (ExtendedMantissa.mk mantissa false stickyBit).roundedMantissa = mantissa := by
        cases stickyBit <;> rfl
      simp only [halves, Bool.toNat_false, add_zero, Nat.cast_mul, Nat.cast_ofNat] at least greatest
      rw [rounded]
      refine ⟨by linarith, by linarith, fun tie => ?_, Nat.le_succ _⟩
      rcases tie with tie | tie <;> linarith
  | true =>
      simp only [halves, Bool.toNat_true, Nat.cast_add, Nat.cast_mul, Nat.cast_ofNat,
        Nat.cast_one] at least greatest sticky
      cases stickyBit with
      | true =>
          have rounded : (ExtendedMantissa.mk mantissa true true).roundedMantissa = mantissa + 1 :=
            rfl
          have off : (2 * mantissa + 1 : ℚ) ≠ 2 * exact := sticky.mp rfl
          rw [rounded, Nat.cast_add_one]
          refine ⟨by linarith, by linarith, fun tie => ?_, le_rfl⟩
          rcases tie with tie | tie
          · exact absurd (by linarith) off
          · linarith
      | false =>
          have middle : (2 * mantissa + 1 : ℚ) = 2 * exact := by
            by_contra off
            exact Bool.false_ne_true (sticky.mpr off)
          have rounded : (ExtendedMantissa.mk mantissa true false).roundedMantissa =
              mantissa + mantissa % 2 := rfl
          rw [rounded]
          rcases Nat.mod_two_eq_zero_or_one mantissa with even | odd
          · rw [even, add_zero]
            exact ⟨by linarith, by linarith, fun _ => Nat.even_iff.mpr even, Nat.le_succ _⟩
          · rw [odd, Nat.cast_add_one]
            refine ⟨by linarith, by linarith, fun _ => ?_, le_rfl⟩
            exact Nat.even_iff.mpr (by omega)

end Shifting

section Rounding

variable {format : Format}

/-- Rounding can only drop bits. It needs an exponent that leaves no bits below the least one, or a
mantissa that fills the format. -/
def Ready (format : Format) (mantissa : ℕ) (exponent : ℤ) : Prop :=
  exponent ≤ format.minExponent ∨ stride format ≤ mantissa

theorem mantissaBits_eq (format : Format) :
    format.mantissaBits = format.mantissaBitsWithoutImplicit + 1 :=
  Nat.add_comm _ _

theorem two_mul_stride (format : Format) :
    2 * stride format = 2 ^ (format.mantissaBitsWithoutImplicit + 1) := by
  rw [stride, Nat.pow_succ, Nat.mul_comm]

theorem targetExponent_totalExponent (format : Format) (mantissa : ℕ) (exponent : ℤ) :
    format.targetExponent (totalExponent mantissa exponent) =
      max (mantissa.log2 + exponent - format.mantissaBitsWithoutImplicit) format.minExponent := by
  have bits := mantissaBits_eq format
  change max ((mantissa.log2 : ℤ) + 1 + exponent - format.mantissaBits) format.minExponent = _
  omega

/-- A shift to the target exponent leaves the bits that the format has room for. -/
theorem shiftToTargetExponent_eq {mantissa : ℕ} {exponent : ℤ} (accuracy : Accuracy)
    (ready : Ready format mantissa exponent) :
    ∃ count octave : ℕ, exponent + count = format.minExponent + octave ∧
      shiftToTargetExponent format mantissa exponent accuracy =
        (ExtendedMantissa.ofMantissaAndAccuracy mantissa accuracy >>> count,
          format.minExponent + (octave : ℤ)) ∧
      mantissa / 2 ^ count < 2 * stride format ∧
      (octave = 0 ∨ stride format ≤ mantissa / 2 ^ count) := by
  obtain ⟨target, chosen⟩ : ∃ target, format.targetExponent (totalExponent mantissa exponent) =
    target := ⟨_, rfl⟩
  have greater := chosen.symm.trans (targetExponent_totalExponent format mantissa exponent)
  have reaches : exponent ≤ target := by
    rcases ready with low | filled
    · omega
    · have positive : mantissa ≠ 0 := Nat.ne_of_gt (Nat.lt_of_lt_of_le (stride_pos format) filled)
      have logarithm := (Nat.le_log2 positive).mpr filled
      omega
  refine ⟨(target - exponent).toNat, (target - format.minExponent).toNat, by omega, ?_, ?_, ?_⟩
  · have sum : exponent + ((target - exponent).toNat : ℤ) =
        format.minExponent + ((target - format.minExponent).toNat : ℤ) := by omega
    simp only [shiftToTargetExponent, chosen, shiftToExponent, sum]
  · rw [two_mul_stride, Nat.div_lt_iff_lt_mul (Nat.two_pow_pos _), ← Nat.pow_add]
    exact Nat.lt_of_lt_of_le Nat.lt_log2_self (Nat.pow_le_pow_right Nat.two_pos (by omega))
  · by_cases lowest : target = format.minExponent
    · exact .inl (by omega)
    · right
      have positive : mantissa ≠ 0 := by
        rintro rfl
        rcases ready with low | filled
        · simp only [Nat.log2_zero] at greater
          omega
        · exact absurd filled (Nat.not_le.mpr (stride_pos format))
      rw [Nat.le_div_iff_mul_le (Nat.two_pow_pos _), stride, ← Nat.pow_add,
        ← Nat.le_log2 positive]
      omega

/-- An unpacked number in canonical form stands at a place. A zero may have any sign. -/
inductive Stands (format : Format) (sign : Sign) : UnpackedFloat → ℕ → Prop where
  | zero {any : Sign} : Stands format sign (.zero any) 0
  | finite {octave mantissa : ℕ} {positive : 0 < mantissa}
      (bounded : mantissa < 2 * stride format) (canonical : octave = 0 ∨ stride format ≤ mantissa) :
      Stands format sign (.finite sign mantissa (format.minExponent + octave) positive)
        (octave * stride format + mantissa)

theorem Stands.of_eq {sign : Sign} {mantissa octave place : ℕ} {exponent : ℤ}
    {positive : 0 < mantissa} (bounded : mantissa < 2 * stride format)
    (canonical : octave = 0 ∨ stride format ≤ mantissa)
    (exponents : exponent = format.minExponent + octave)
    (places : place = octave * stride format + mantissa) :
    Stands format sign (.finite sign mantissa exponent positive) place := by
  subst exponents places
  exact .finite bounded canonical

/-- After rounding, a mantissa that became full is moved to the next exponent. It stays in place. -/
theorem stands_carried {octave rounded : ℕ} (sign : Sign) (bounded : rounded ≤ 2 * stride format)
    (canonical : octave = 0 ∨ stride format ≤ rounded) :
    let carried := shiftToTargetExponent format rounded (format.minExponent + octave) .exact
    Stands format sign
      (if h : carried.1.mantissa = 0 then .zero sign
        else .finite sign carried.1.mantissa carried.2 (Nat.pos_of_ne_zero h))
      (octave * stride format + rounded) := by
  intro carried
  have ready : Ready format rounded (format.minExponent + octave) := by
    refine canonical.imp (fun first => ?_) id
    rw [first, Nat.cast_zero, add_zero]
  obtain ⟨count, next, exponents, shifted, inside, filled⟩ :=
    shiftToTargetExponent_eq .exact ready
  have mantissa : carried.1.mantissa = rounded / 2 ^ count := by
    rw [show carried = _ from shifted, mantissa_shiftRight, mantissa_ofMantissaAndAccuracy]
  have exponent : carried.2 = format.minExponent + next := by
    rw [show carried = _ from shifted]
  have octaves : next = octave + count := by omega
  have place : octave * stride format + rounded =
      next * stride format + rounded / 2 ^ count := by
    cases count with
    | zero => simp [octaves]
    | succ count =>
        have large := filled.resolve_left (by omega)
        have halved : rounded / 2 ^ (count + 1) ≤ rounded / 2 := by
          rw [Nat.pow_succ, Nat.mul_comm, ← Nat.div_div_eq_div_mul]
          exact Nat.div_le_self _ _
        -- Two bits less would leave a mantissa that does not fill its exponent.
        have once : count = 0 := by
          by_contra more
          have quartered : rounded / 2 ^ (count + 1) ≤ rounded / 4 :=
            Nat.div_le_div_left (Nat.pow_le_pow_right Nat.two_pos
              (show 2 ≤ count + 1 by omega)) (by decide)
          have positive := stride_pos format
          omega
        subst once
        rw [octaves, Nat.add_mul]
        omega
  rw [place]
  by_cases none : carried.1.mantissa = 0
  · rw [dif_pos none]
    have empty : rounded / 2 ^ count = 0 := mantissa ▸ none
    have first : next = 0 := filled.resolve_right (by have := stride_pos format; omega)
    rw [empty, first, Nat.zero_mul]
    exact .zero
  · rw [dif_neg none]
    exact .of_eq (mantissa ▸ inside) (mantissa ▸ filled) exponent (by rw [mantissa])

/-- Rounding reaches the place that is nearest to the exact number. -/
theorem exists_nearest_roundWithAccuracy {mantissa : ℕ} {exponent : ℤ} {accuracy : Accuracy}
    {rest : ℚ} (sign : Sign) (ready : Ready format mantissa exponent)
    (tells : Tells accuracy rest) :
    ∃ place, Stands format sign (roundWithAccuracy format sign mantissa exponent accuracy) place ∧
      Nearest format ((mantissa + rest) * 2 ^ exponent) place := by
  obtain ⟨count, octave, exponents, shifted, inside, filled⟩ :=
    shiftToTargetExponent_eq accuracy ready
  obtain ⟨extended, named⟩ : ∃ extended,
    ExtendedMantissa.ofMantissaAndAccuracy mantissa accuracy >>> count = extended := ⟨_, rfl⟩
  have described : Extends extended ((mantissa + rest) / 2 ^ count) :=
    named ▸ (extends_ofMantissaAndAccuracy tells).shiftRight count
  have whole : extended.mantissa = mantissa / 2 ^ count := by
    rw [← named, mantissa_shiftRight, mantissa_ofMantissaAndAccuracy]
  obtain ⟨lower, upper, even, carry⟩ := described.roundedMantissa
  have rounded : RoundedMantissa format octave ((mantissa + rest) / 2 ^ count)
      extended.roundedMantissa := {
    bounded := by omega
    filled := by
      refine filled.imp id fun filled => ?_
      rw [le_div_iff₀ (by positivity)]
      have kept : stride format * 2 ^ count ≤ mantissa :=
        (Nat.le_div_iff_mul_le (Nat.two_pow_pos count)).mp filled
      have cast : (stride format : ℚ) * 2 ^ count ≤ mantissa := by exact_mod_cast kept
      linarith [tells.nonneg]
    lower := lower
    upper := upper
    even := even }
  refine ⟨octave * stride format + extended.roundedMantissa, ?_, ?_⟩
  · rw [named] at shifted
    have carried := stands_carried sign rounded.bounded rounded.canonical
    unfold roundWithAccuracy
    rw [shifted]
    exact carried
  · have scaled : ((mantissa : ℚ) + rest) * 2 ^ exponent =
        (mantissa + rest) / 2 ^ count * 2 ^ (format.minExponent + octave) := by
      rw [← exponents, zpow_add₀ two_ne_zero, zpow_natCast]
      field_simp
    rw [scaled]
    exact rounded.nearest

end Rounding

end ViewClassifier.Rounding
