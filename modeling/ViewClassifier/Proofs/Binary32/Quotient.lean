import Mathlib.Data.Nat.Size
import ViewClassifier.Proofs.Binary32.WholePart

/-!
# Whole parts of quotients

A quotient is rounded before its whole part is taken. Rounding does not pass a count that the
mantissa has room for, so that the whole part is the exact one or the next count. It is the exact one
when the exact quotient keeps a distance from the next count.
-/

set_option autoImplicit false

namespace ViewClassifier.Binary32

open Float.Model (UnpackedFloat)
open Float.Model.UnpackedFloat (Sign)
open Rounding

section Rounded

variable {value larger limit : ℚ} {x y : Float32} {count : ℕ}

theorem Rounds.exact_le_exact (left : Rounds value x) (right : Rounds larger y)
    (le : value ≤ larger) : exact x ≤ exact y := by
  obtain ⟨place, nearest, atPlace⟩ := left.nearest
  obtain ⟨other, otherNearest, atOther⟩ := right.nearest
  have places := nearest.le_of_le otherNearest le
  exact (magnitude_strictMono _).monotone (by omega)

theorem Rounds.natCast_le (rounds : Rounds value x) (small : count < 2 * stride .binary32)
    (le : count ≤ value) : count ≤ exact x :=
  exact_ofNat small ▸ (rounds_ofNat count).exact_le_exact rounds le

theorem Rounds.le_natCast (rounds : Rounds value x) (small : count < 2 * stride .binary32)
    (le : value ≤ count) : exact x ≤ count :=
  exact_ofNat small ▸ rounds.exact_le_exact (rounds_ofNat count) le

theorem magnitude_stride : magnitude .binary32 (stride .binary32) = 2 ^ (-126 : ℤ) := by
  have first : magnitude .binary32 (0 * stride .binary32 + stride .binary32) = _ :=
    magnitude_eq (by omega) (.inl rfl)
  rw [Nat.zero_mul, Nat.zero_add] at first
  rw [first]
  change ((2 ^ 23 : ℕ) : ℚ) * 2 ^ (-149 : ℤ) = 2 ^ (-126 : ℤ)
  norm_num

/-- A value that fills the mantissa has a result that does. -/
theorem Rounds.normal (rounds : Rounds value x) (normal : 2 ^ (-126 : ℤ) ≤ value) :
    2 ^ (-126 : ℤ) ≤ exact x := by
  obtain ⟨place, nearest, atPlace⟩ := rounds.nearest
  rw [← magnitude_stride] at normal ⊢
  have filled := (Nearest.of_magnitude _).le_of_le nearest normal
  have first : stride .binary32 ≤ 0x7f800000 := by decide
  exact (magnitude_strictMono _).monotone (by omega)

/-- A result that fills the mantissa is off by half a unit of its last bit at most. -/
theorem Rounds.relative_error (rounds : Rounds value x) (normal : 2 ^ (-126 : ℤ) ≤ value) :
    ∃ place : ℕ, level x = (Min.min place 0x7f800000 : ℕ) ∧
      |magnitude .binary32 place - value| ≤ value / 2 ^ 24 := by
  obtain ⟨place, nearest, atPlace⟩ := rounds.nearest
  have error := nearest.relative_error (magnitude_stride.trans_le normal)
  have width : (stride .binary32 : ℚ) = 2 ^ 23 := by
    change ((2 ^ 23 : ℕ) : ℚ) = 2 ^ 23
    norm_num
  rw [width] at error
  exact ⟨place, atPlace, by linarith⟩

theorem Rounds.exact_le (rounds : Rounds value x)
    (normal : value = 0 ∨ 2 ^ (-126 : ℤ) ≤ value) : exact x ≤ value + value / 2 ^ 24 := by
  rcases normal with rfl | normal
  · have none := rounds.le_natCast (show 0 < 2 * stride .binary32 by decide) (by rw [Nat.cast_zero])
    rw [zero_div, add_zero]
    exact none.trans_eq Nat.cast_zero
  · obtain ⟨place, atPlace, error⟩ := rounds.relative_error normal
    have least : exact x ≤ magnitude .binary32 place :=
      (magnitude_strictMono _).monotone (by omega)
    linarith [(abs_le.mp error).2]

theorem Rounds.le_exact (rounds : Rounds value x) (amount : Amount x)
    (normal : 2 ^ (-126 : ℤ) ≤ value) : value - value / 2 ^ 24 ≤ exact x := by
  obtain ⟨place, atPlace, error⟩ := rounds.relative_error normal
  have finite := amount.finite
  have same : (level x).toNat = place := by omega
  rw [exact, same]
  linarith [(abs_le.mp error).1]

/-- Moves the count after `whole` up until it fills the mantissa, which the place below it does as
well. -/
theorem exists_full_mantissa {whole : ℕ} (small : whole < stride .binary32) :
    ∃ shift, whole.size + (shift + 1) = 24 ∧ stride .binary32 < (whole + 1) * 2 ^ (shift + 1) ∧
      (whole + 1) * 2 ^ (shift + 1) ≤ 2 * stride .binary32 := by
  have bits : whole.size ≤ 23 := Nat.size_le.mpr small
  obtain ⟨shift, sum⟩ : ∃ shift, whole.size + (shift + 1) = 24 := ⟨23 - whole.size, by omega⟩
  have full : 2 ^ whole.size * 2 ^ (shift + 1) = 2 * stride .binary32 := by
    rw [← Nat.pow_add, sum]
    rfl
  have least : 2 ^ whole.size ≤ 2 * whole + 1 := by
    rcases Nat.eq_zero_or_pos whole.size with none | some
    · rw [none]
      omega
    · obtain ⟨before, same⟩ := Nat.exists_eq_add_of_le' some
      have leading := Nat.lt_size.mp (show before < whole.size by omega)
      rw [same, Nat.pow_succ]
      omega
  refine ⟨shift, sum, ?_, full ▸ Nat.mul_le_mul_right _ (Nat.lt_size_self whole)⟩
  have scaled := Nat.mul_le_mul_right (2 ^ (shift + 1)) least
  have positive := Nat.two_pow_pos (shift + 1)
  have split : 2 * ((whole + 1) * 2 ^ (shift + 1)) =
      (2 * whole + 1) * 2 ^ (shift + 1) + 2 ^ (shift + 1) := by ring
  omega

/-- A count below the full mantissa stands at an even place. The bits of the count before it give the
distance from the place below. -/
theorem exists_place_succ {whole : ℕ} (small : whole < stride .binary32) :
    ∃ before, Even (before + 1) ∧ before + 1 < 0x7f800000 ∧
      magnitude .binary32 (before + 1) = whole + 1 ∧
      magnitude .binary32 before = whole + 1 - 2 ^ whole.size / 2 ^ 24 := by
  obtain ⟨shift, sum, filled, bounded⟩ := exists_full_mantissa small
  obtain ⟨mantissa, next⟩ : ∃ mantissa, (whole + 1) * 2 ^ (shift + 1) = mantissa + 1 :=
    Nat.exists_eq_succ_of_ne_zero (by omega)
  have exponent : (-149 + (125 + whole.size : ℕ) : ℤ) = -(shift + 1 : ℕ) := by omega
  have width : (2 : ℚ) ^ whole.size / 2 ^ 24 * 2 ^ (shift + 1) = 1 := by
    rw [← sum, pow_add]
    field_simp
  have counted : ((mantissa + 1 : ℕ) : ℚ) = (whole + 1) * 2 ^ (shift + 1) := by
    exact_mod_cast next.symm
  have even : Even (mantissa + 1) :=
    next ▸ (Nat.even_pow.mpr ⟨even_two, Nat.succ_ne_zero shift⟩).mul_left _
  have unit : (0 : ℚ) < 2 ^ (shift + 1) := by positivity
  rw [next] at bounded filled
  refine ⟨(125 + whole.size) * stride .binary32 + mantissa, ?_, ?_, ?_, ?_⟩
  · rw [Nat.add_assoc]
    exact ((even_stride .binary32).mul_left _).add even
  · change (125 + whole.size) * 0x800000 + mantissa + 1 < 0x7f800000
    change mantissa + 1 ≤ 2 * 0x800000 at bounded
    omega
  · rw [Nat.add_assoc, magnitude_eq bounded (.inr filled.le)]
    change ((mantissa + 1 : ℕ) : ℚ) * 2 ^ (-149 + (125 + whole.size : ℕ) : ℤ) = _
    rw [exponent, zpow_neg, zpow_natCast, counted, mul_inv_cancel_right₀ unit.ne']
  · rw [magnitude_eq (by omega) (.inr (Nat.le_of_lt_succ filled))]
    change (mantissa : ℚ) * 2 ^ (-149 + (125 + whole.size : ℕ) : ℤ) = _
    rw [exponent, zpow_neg, zpow_natCast, ← div_eq_mul_inv, div_eq_iff unit.ne', sub_mul, width,
      ← counted, Nat.cast_add_one, add_sub_cancel_right]

theorem Rounds.succ_le_iff (rounds : Rounds value x) {whole : ℕ} (small : whole < stride .binary32) :
    (whole + 1 : ℚ) ≤ exact x ↔ whole + 1 - 2 ^ whole.size / 2 ^ 25 ≤ value := by
  obtain ⟨before, even, finite, exactly, below⟩ := exists_place_succ small
  obtain ⟨place, nearest, atPlace⟩ := rounds.nearest
  have reached := nearest.succ_le_iff even
  have places : before + 1 ≤ (level x).toNat ↔ before + 1 ≤ place := by omega
  rw [← exactly, exact, (magnitude_strictMono _).le_iff_le, places, reached, exactly, below]
  constructor
  · intro midpoint
    linarith
  · intro midpoint
    linarith

theorem Rounds.floor_eq_or (rounds : Rounds value x) (nonneg : 0 ≤ value)
    (small : ⌊value⌋₊ + 1 < 2 * stride .binary32) :
    ⌊exact x⌋₊ = ⌊value⌋₊ ∨ ⌊exact x⌋₊ = ⌊value⌋₊ + 1 := by
  have lower := rounds.natCast_le (by omega) (Nat.floor_le nonneg)
  have upper := rounds.le_natCast small (by exact_mod_cast (Nat.lt_floor_add_one value).le)
  have atLeast : ⌊value⌋₊ ≤ ⌊exact x⌋₊ := Nat.le_floor lower
  have atMost : ⌊exact x⌋₊ ≤ ⌊value⌋₊ + 1 := Nat.floor_le_of_le upper
  omega

/-- The whole part is the exact one below the midpoint before the next count. -/
theorem Rounds.floor_eq_iff (rounds : Rounds value x) (nonneg : 0 ≤ value)
    (small : ⌊value⌋₊ < stride .binary32) :
    ⌊exact x⌋₊ = ⌊value⌋₊ ↔ value < ⌊value⌋₊ + 1 - 2 ^ ⌊value⌋₊.size / 2 ^ 25 := by
  have lower := rounds.natCast_le (by omega) (Nat.floor_le nonneg)
  rw [Nat.floor_eq_iff (exact_nonneg x), and_iff_right lower, ← not_le, ← not_le,
    rounds.succ_le_iff small]

end Rounded

section Shares

variable {x y period : Float32} {count : ℕ}

theorem Amount.exists_div (amount : Amount x) (y : Float32) :
    ∃ u : UnpackedFloat, ∃ place, Stands .binary32 .positive u place ∧
      x / y = pack (.div .binary32 u (unpack y)) :=
  ⟨_, _, amount.stands, rfl⟩

theorem isFinite_pack_infinity (sign : Sign) : (pack (.infinity sign)).isFinite = false := by
  cases sign <;> decide

theorem amount_pack_zero (sign : Sign) : Amount (pack (.zero sign)) := by
  cases sign <;> decide

theorem Amount.exists_div_infinite (amount : Amount x)
    (infinite : unpack y = .infinity .positive) : ∃ sign, x / y = pack (.zero sign) := by
  obtain ⟨u, place, stands, divided⟩ := amount.exists_div y
  rw [divided, infinite]
  cases stands with
  | zero => exact ⟨_, rfl⟩
  | finite => exact ⟨_, rfl⟩

theorem Amount.div_infinite (amount : Amount x) (infinite : unpack y = .infinity .positive) :
    Amount (x / y) := by
  obtain ⟨sign, zero⟩ := amount.exists_div_infinite infinite
  exact zero ▸ amount_pack_zero sign

/-- A finite quotient has a divisor above zero. It is zero if the divisor is infinite. -/
theorem Amount.div (left : Amount x) (right : Extent y) (finite : (x / y).isFinite = true) :
    Amount (x / y) := by
  rcases right.amount_or_infinite with amount | ⟨infinite, _⟩
  · rcases amount.nonneg.lt_or_eq with positive | none
    · exact (left.rounds_div amount positive).extent.amount finite
    · obtain ⟨u, place, stands, divided⟩ := left.exists_div y
      obtain ⟨sign, zero⟩ := amount.exists_zero none.symm
      rw [divided, zero] at finite
      cases stands with
      | zero => exact absurd finite (by decide : ¬ (pack .notANumber).isFinite = true)
      | finite => cases (isFinite_pack_infinity _).symm.trans finite
  · exact left.div_infinite infinite

theorem Extent.div (left : Extent x) (right : Amount y) (positive : 0 < level y) :
    Extent (x / y) := by
  rcases left.amount_or_infinite with amount | ⟨infinite, _⟩
  · exact (amount.rounds_div right positive).extent
  · have beyond : Extent (pack (.infinity .positive)) := ⟨by decide, by decide⟩
    have stands := right.stands
    obtain ⟨place, atPlace⟩ : ∃ place, (level y).toNat = place := ⟨_, rfl⟩
    obtain ⟨v, unpacked⟩ : ∃ v, unpack y = v := ⟨_, rfl⟩
    change Extent (pack (.div .binary32 (unpack x) (unpack y)))
    rw [atPlace, unpacked] at stands
    rw [infinite, unpacked]
    cases stands with
    | zero => omega
    | finite => exact beyond

theorem toFloat32_eq (bins : UInt32) : bins.toFloat32 = ofNat bins.toNat := by
  rw [ofNat_eq]
  rfl

/-- A share of a period is not greater than the period. -/
theorem Amount.share_upTo (amount : Amount period) (some : 0 < count) (small : count < UInt64.size) :
    UpTo period (period / ofNat count) := by
  have one : (1 : ℚ) ≤ exact (ofNat count) := by
    have least := (rounds_ofNat count).natCast_le (show 1 < 2 * stride .binary32 by decide)
      (by exact_mod_cast some)
    exact_mod_cast least
  refine (amount.rounds_div (amount_ofNat small) (level_ofNat_pos some)).upTo amount.rounds ?_ amount
  exact div_le_self (exact_nonneg period) one

/-- A share is not negative, however many shares there are. -/
theorem Amount.extent_share (amount : Amount period) (some : 0 < count) :
    Extent (period / ofNat count) := by
  rcases (rounds_ofNat count).extent.amount_or_infinite with counts | ⟨infinite, _⟩
  · exact (amount.rounds_div counts (level_ofNat_pos some)).extent
  · exact (amount.div_infinite infinite).extent

end Shares

end ViewClassifier.Binary32
