import Mathlib.Algebra.Order.Field.Power
import Mathlib.Algebra.Order.Field.Rat
import Mathlib.Tactic.Linarith
import Mathlib.Tactic.Positivity
import Mathlib.Tactic.Ring

/-!
# The magnitudes of a format

The magnitudes that a binary format can hold are counted from zero upward. A place of this count is
nearest to a number if the number lies on its side of the midpoint to every other place. On a
midpoint the even place is taken. Rounding to the nearest place keeps the order.
-/

set_option autoImplicit false

namespace ViewClassifier.Rounding

open Float.Model (Format)

/-- The number of mantissas that share an exponent above the least one. -/
def stride (format : Format) : ℕ :=
  2 ^ format.mantissaBitsWithoutImplicit

/-- The magnitude at a place. The distance to the next one is constant over the first two strides
and doubles with every further stride. -/
def magnitude (format : Format) (place : ℕ) : ℚ :=
  let octave := place / stride format - 1
  (place - octave * stride format : ℕ) * 2 ^ (format.minExponent + octave)

section Magnitude

variable (format : Format)

theorem stride_pos : 0 < stride format :=
  Nat.two_pow_pos _

theorem even_stride : Even (stride format) :=
  (Nat.even_pow.mpr ⟨even_two, Nat.ne_of_gt format.hm⟩)

theorem scale_pos (exponent : ℤ) : (0 : ℚ) < 2 ^ exponent :=
  zpow_pos two_pos exponent

theorem scale_succ (exponent : ℤ) : (2 : ℚ) ^ (exponent + 1) = 2 * 2 ^ exponent := by
  rw [zpow_add_one₀ two_ne_zero, mul_comm]

variable {format}

/-- A full mantissa, which is one more than the greatest, stands for the first one of the next
exponent. -/
theorem magnitude_eq {octave mantissa : ℕ} (bounded : mantissa ≤ 2 * stride format)
    (canonical : octave = 0 ∨ stride format ≤ mantissa) :
    magnitude format (octave * stride format + mantissa) =
      mantissa * 2 ^ (format.minExponent + octave) := by
  have positive := stride_pos format
  have quotient : (octave * stride format + mantissa) / stride format =
      octave + mantissa / stride format := by
    rw [Nat.mul_comm, Nat.mul_add_div positive]
  unfold magnitude
  rw [quotient]
  rcases Nat.lt_or_ge mantissa (stride format) with small | large
  · obtain rfl := canonical.resolve_right (Nat.not_le.mpr small)
    simp [Nat.div_eq_of_lt small]
  · rcases Nat.lt_or_eq_of_le bounded with inside | full
    · have once : mantissa / stride format = 1 :=
        Nat.div_eq_of_lt_le (by omega) (by omega)
      simp [once]
    · have twice : mantissa / stride format = 2 := by
        rw [full, Nat.mul_div_cancel _ positive]
      have rest : octave * stride format + mantissa - (octave + 1) * stride format =
          stride format := by
        rw [full, Nat.add_mul]
        omega
      simp only [twice, show octave + 2 - 1 = octave + 1 from rfl, rest]
      rw [full, Nat.cast_add_one, ← add_assoc, scale_succ]
      push_cast
      ring

variable (format)

theorem exists_octave (place : ℕ) :
    ∃ octave mantissa, place = octave * stride format + mantissa ∧
      mantissa < 2 * stride format ∧ (octave = 0 ∨ stride format ≤ mantissa) := by
  have positive := stride_pos format
  have division := Nat.div_add_mod place (stride format)
  have remainder := Nat.mod_lt place positive
  rcases Nat.eq_zero_or_pos (place / stride format) with first | later
  · rw [first] at division
    exact ⟨0, place, by omega, by omega, .inl rfl⟩
  · obtain ⟨octave, quotient⟩ := Nat.exists_eq_add_of_lt later
    have whole : stride format * (0 + octave + 1) = octave * stride format + stride format := by
      ring
    rw [quotient, whole] at division
    exact ⟨octave, stride format + place % stride format, by omega, by omega, .inr (by omega)⟩

theorem magnitude_strictMono : StrictMono (magnitude format) := by
  refine strictMono_nat_of_lt_succ fun place => ?_
  obtain ⟨octave, mantissa, rfl, bounded, canonical⟩ := exists_octave format place
  have next : octave = 0 ∨ stride format ≤ mantissa + 1 := canonical.imp id Nat.le_succ_of_le
  rw [magnitude_eq bounded.le canonical, Nat.add_assoc, magnitude_eq bounded next]
  exact mul_lt_mul_of_pos_right (by exact_mod_cast Nat.lt_succ_self mantissa) (scale_pos _)

theorem magnitude_zero : magnitude format 0 = 0 := by
  simp [magnitude]

theorem magnitude_nonneg (place : ℕ) : 0 ≤ magnitude format place := by
  rw [← magnitude_zero format]
  exact (magnitude_strictMono format).monotone (Nat.zero_le _)

end Magnitude

/-- The place of the magnitude that is nearest to a number, and the even one of two. -/
structure Nearest (format : Format) (value : ℚ) (place : ℕ) : Prop where
  below : ∀ other < place, magnitude format other + magnitude format place ≤ 2 * value ∧
    (magnitude format other + magnitude format place = 2 * value → Even place)
  above : ∀ other > place, 2 * value ≤ magnitude format place + magnitude format other ∧
    (2 * value = magnitude format place + magnitude format other → Even place)

namespace Nearest

variable {format : Format} {value larger : ℚ} {place other : ℕ}

/-- Both numbers would lie on the midpoint of two even places, with a third one in between. -/
theorem le_of_le (first : Nearest format value place) (second : Nearest format larger other)
    (le : value ≤ larger) : place ≤ other := by
  by_contra above
  have less : other < place := Nat.not_le.mp above
  obtain ⟨lower, evenFirst⟩ := first.below other less
  obtain ⟨upper, evenSecond⟩ := second.above place less
  have firstEven := evenFirst (by linarith)
  have secondEven := evenSecond (by linarith)
  have between : other + 1 < place := by
    obtain ⟨i, rfl⟩ := firstEven
    obtain ⟨j, rfl⟩ := secondEven
    omega
  have further := (first.below (other + 1) between).1
  have grows := magnitude_strictMono format (Nat.lt_succ_self other)
  linarith

theorem unique (first : Nearest format value place) (second : Nearest format value other) :
    place = other :=
  Nat.le_antisymm (first.le_of_le second le_rfl) (second.le_of_le first le_rfl)

theorem of_magnitude (place : ℕ) : Nearest format (magnitude format place) place where
  below := by
    intro other less
    have grows := magnitude_strictMono format less
    exact ⟨by linarith, fun tie => by linarith⟩
  above := by
    intro other greater
    have grows := magnitude_strictMono format greater
    exact ⟨by linarith, fun tie => by linarith⟩

end Nearest

section Rounded

variable {format : Format} {octave rounded : ℕ} {exact : ℚ}

/-- A mantissa rounded to the nearest whole number, where the bits before rounding are all that the
exponent has room for. -/
structure RoundedMantissa (format : Format) (octave : ℕ) (exact : ℚ) (rounded : ℕ) : Prop where
  bounded : rounded ≤ 2 * stride format
  filled : octave = 0 ∨ (stride format : ℚ) ≤ exact
  lower : 2 * (rounded : ℚ) - 1 ≤ 2 * exact
  upper : 2 * exact ≤ 2 * (rounded : ℚ) + 1
  even : 2 * exact = 2 * (rounded : ℚ) - 1 ∨ 2 * exact = 2 * (rounded : ℚ) + 1 → Even rounded

namespace RoundedMantissa

theorem canonical (mantissa : RoundedMantissa format octave exact rounded) :
    octave = 0 ∨ stride format ≤ rounded := by
  refine mantissa.filled.imp id fun filled => ?_
  have upper := mantissa.upper
  have close : (stride format : ℚ) < rounded + 1 := by linarith
  exact Nat.le_of_lt_succ (by exact_mod_cast close)

theorem even_place (mantissa : RoundedMantissa format octave exact rounded)
    (tie : 2 * exact = 2 * (rounded : ℚ) - 1 ∨ 2 * exact = 2 * (rounded : ℚ) + 1) :
    Even (octave * stride format + rounded) :=
  ((even_stride format).mul_left octave).add (mantissa.even tie)

/-- The place before is one unit down, or the exact mantissa is not below the rounded one. -/
theorem magnitude_of_lt (mantissa : RoundedMantissa format octave exact rounded) {other : ℕ}
    (less : other < octave * stride format + rounded) :
    magnitude format other ≤ ((rounded : ℚ) - 1) * 2 ^ (format.minExponent + octave) ∨
      (rounded : ℚ) ≤ exact := by
  have bounded := mantissa.bounded
  by_cases first : octave = 0 ∨ stride format < rounded
  · left
    have positive : 0 < rounded := by
      rcases first with rfl | large
      · omega
      · omega
    obtain ⟨before, rfl⟩ := Nat.exists_eq_succ_of_ne_zero (Nat.ne_of_gt positive)
    have place : other ≤ octave * stride format + before := by omega
    have canonical : octave = 0 ∨ stride format ≤ before := first.imp id Nat.le_of_lt_succ
    refine ((magnitude_strictMono format).monotone place).trans (le_of_eq ?_)
    rw [magnitude_eq (by omega) canonical]
    push_cast
    ring
  · right
    obtain ⟨later, small⟩ := not_or.mp first
    have filled := mantissa.filled.resolve_left later
    have least : (rounded : ℚ) ≤ stride format := by exact_mod_cast Nat.not_lt.mp small
    exact least.trans filled

theorem magnitude_of_gt (mantissa : RoundedMantissa format octave exact rounded) {other : ℕ}
    (greater : octave * stride format + rounded < other) :
    ((rounded : ℚ) + 1) * 2 ^ (format.minExponent + octave) ≤ magnitude format other := by
  have next : octave = 0 ∨ stride format ≤ rounded + 1 :=
    mantissa.canonical.imp id Nat.le_succ_of_le
  refine le_trans ?_ ((magnitude_strictMono format).monotone (Nat.succ_le_of_lt greater))
  rcases Nat.lt_or_eq_of_le mantissa.bounded with inside | full
  · rw [Nat.succ_eq_add_one, Nat.add_assoc, magnitude_eq inside next, Nat.cast_add_one]
  · -- The next place belongs to the next exponent, whose unit is twice as large.
    have positive := stride_pos format
    have place : (octave * stride format + rounded).succ =
        (octave + 1) * stride format + (stride format + 1) := by
      rw [full, Nat.add_mul]
      omega
    rw [place, magnitude_eq (by omega) (.inr (Nat.le_succ _)), full, Nat.cast_add_one octave,
      ← add_assoc, scale_succ]
    push_cast
    linarith [scale_pos (format.minExponent + octave)]

theorem nearest (mantissa : RoundedMantissa format octave exact rounded) :
    Nearest format (exact * 2 ^ (format.minExponent + octave))
      (octave * stride format + rounded) := by
  have scale := scale_pos (format.minExponent + octave)
  have here := magnitude_eq mantissa.bounded mantissa.canonical
  refine ⟨fun other less => ?_, fun other greater => ?_⟩
  · have grows := magnitude_strictMono format less
    rw [here] at grows ⊢
    have lower := mul_le_mul_of_nonneg_right mantissa.lower scale.le
    rcases mantissa.magnitude_of_lt less with down | covered
    · refine ⟨by linarith, fun tie => mantissa.even_place (.inl ?_)⟩
      exact mul_right_cancel₀ scale.ne' (by linarith)
    · have covers := mul_le_mul_of_nonneg_right covered scale.le
      exact ⟨by linarith, fun tie => by linarith⟩
  · have up := mantissa.magnitude_of_gt greater
    have upper := mul_le_mul_of_nonneg_right mantissa.upper scale.le
    rw [here]
    refine ⟨by linarith, fun tie => mantissa.even_place (.inr ?_)⟩
    exact mul_right_cancel₀ scale.ne' (by linarith)

section Parts

/-! A full mantissa with a part behind the point goes to the nearer whole number. -/

variable {whole : ℕ} {part : ℚ} (full : stride format ≤ whole) (room : whole < 2 * stride format)

include full room

theorem of_lt_half (nonneg : 0 ≤ part) (less : 2 * part < 1) :
    RoundedMantissa format octave (whole + part) whole := by
  have least : (stride format : ℚ) ≤ whole := by exact_mod_cast full
  refine ⟨room.le, .inr (by linarith), by linarith, by linarith, fun tie => ?_⟩
  rcases tie with below | above
  · linarith
  · linarith

theorem of_half_lt (greater : 1 < 2 * part) (le : part ≤ 1) :
    RoundedMantissa format octave (whole + part) (whole + 1) := by
  have least : (stride format : ℚ) ≤ whole := by exact_mod_cast full
  refine ⟨room, .inr (by linarith), ?_, ?_, fun tie => ?_⟩
  · push_cast
    linarith
  · push_cast
    linarith
  · push_cast at tie
    rcases tie with below | above
    · linarith
    · linarith

theorem of_half (tie : 2 * part = 1) :
    RoundedMantissa format octave (whole + part) (whole + whole % 2) := by
  have least : (stride format : ℚ) ≤ whole := by exact_mod_cast full
  have even : Even (whole + whole % 2) := by
    rw [Nat.even_iff]
    omega
  have nonneg : (0 : ℚ) ≤ (whole % 2 : ℕ) := Nat.cast_nonneg _
  have le : ((whole % 2 : ℕ) : ℚ) ≤ 1 := by
    exact_mod_cast Nat.le_of_lt_succ (Nat.mod_lt whole two_pos)
  refine ⟨by omega, .inr (by linarith), ?_, ?_, fun _ => even⟩
  · rw [Nat.cast_add]
    linarith
  · rw [Nat.cast_add]
    linarith

end Parts

end RoundedMantissa

end Rounded

end ViewClassifier.Rounding
