import ViewClassifier.Proofs.Binary32.Packing

/-!
# Arithmetic of amounts

An amount is a number that is neither negative nor infinite. Counts and the sums, products and
quotients of amounts are the exact results rounded, so that they keep the order of the operands.
-/

set_option autoImplicit false

namespace ViewClassifier.Binary32

open Float.Model (UnpackedFloat)
open Rounding

/-- A number that is neither NaN nor negative nor infinite. Both zeros are amounts. -/
structure Amount (x : Float32) : Prop where
  number : x.isNaN = false
  nonneg : 0 ≤ level x
  finite : level x < 0x7f800000

instance (x : Float32) : Decidable (Amount x) :=
  decidable_of_iff (x.isNaN = false ∧ 0 ≤ level x ∧ level x < 0x7f800000)
    ⟨fun fields => ⟨fields.1, fields.2.1, fields.2.2⟩,
      fun amount => ⟨amount.number, amount.nonneg, amount.finite⟩⟩

def exact (x : Float32) : ℚ :=
  magnitude .binary32 (level x).toNat

/-- The number that an exact value without a sign is rounded to. It may be infinite. -/
structure Rounds (value : ℚ) (x : Float32) : Prop where
  number : x.isNaN = false
  nearest : ∃ place : ℕ, Nearest .binary32 value place ∧ level x = (Min.min place 0x7f800000 : ℕ)

theorem Amount.stands {x : Float32} (amount : Amount x) :
    Stands .binary32 .positive (unpack x) (level x).toNat :=
  (reads_unpack amount.number).stands amount.nonneg amount.finite

theorem isNaN_of_stands {sign : UnpackedFloat.Sign} {u : UnpackedFloat} {place : ℕ}
    (stands : Stands .binary32 sign u place) : u.isNaN = false := by
  cases stands with
  | zero => rfl
  | finite => rfl

theorem rounds_pack {value : ℚ} {u : UnpackedFloat}
    (rounded : RoundsTo .binary32 .positive value u) : Rounds value (pack u) := by
  obtain ⟨place, stands, nearest⟩ := rounded
  refine ⟨?_, place, nearest, level_pack stands⟩
  rw [isNaN_pack, isNaN_of_stands stands]

section Operations

variable {x y : Float32}

theorem rounds_ofNat (count : ℕ) : Rounds count (ofNat count) := by
  rw [ofNat_eq]
  exact rounds_pack (roundsTo_ofNat count)

theorem Amount.rounds_add (left : Amount x) (right : Amount y) :
    Rounds (exact x + exact y) (x + y) :=
  rounds_pack (left.stands.add right.stands)

theorem Amount.rounds_mul (left : Amount x) (right : Amount y) :
    Rounds (exact x * exact y) (x * y) :=
  rounds_pack (left.stands.mul right.stands)

theorem Amount.rounds_div (left : Amount x) (right : Amount y) (positive : 0 < level y) :
    Rounds (exact x / exact y) (x / y) :=
  rounds_pack (left.stands.div right.stands (by omega))

end Operations

section Order

variable {x y bound other : Float32} {value larger : ℚ}

theorem Rounds.le_of_le (left : Rounds value x) (right : Rounds larger y) (le : value ≤ larger) :
    x ≤ y := by
  obtain ⟨xNumber, place, xNearest, xLevel⟩ := left
  obtain ⟨yNumber, other, yNearest, yLevel⟩ := right
  have places := xNearest.le_of_le yNearest le
  rw [le_iff_level_le xNumber yNumber]
  omega

theorem Rounds.nonneg (rounds : Rounds value x) : 0 ≤ level x := by
  obtain ⟨place, _, level⟩ := rounds.nearest
  omega

theorem exact_le_iff (left : Amount x) (right : Amount y) : exact x ≤ exact y ↔ x ≤ y := by
  have xNonneg := left.nonneg
  have yNonneg := right.nonneg
  rw [le_iff_level_le left.number right.number, exact, exact, (magnitude_strictMono _).le_iff_le]
  omega

theorem exact_nonneg (x : Float32) : 0 ≤ exact x :=
  magnitude_nonneg _ _

theorem exact_pos (positive : 0 < level x) : 0 < exact x := by
  rw [← magnitude_zero .binary32]
  exact magnitude_strictMono _ (show 0 < (level x).toNat by omega)

/-- Equal levels leave only the sign of zero open. -/
theorem eq_of_level_eq (same : level x = level y) (positive : 0 < level y) : x = y := by
  apply rank_injective
  unfold level at same positive
  split at same <;> split at same <;> split at positive <;> omega

/-- Above zero an exact value is rounded to one number. -/
theorem Rounds.unique (left : Rounds value x) (right : Rounds value y) (positive : 0 < level y) :
    x = y := by
  obtain ⟨place, nearest, atPlace⟩ := left.nearest
  obtain ⟨other, otherNearest, atOther⟩ := right.nearest
  obtain rfl := nearest.unique otherNearest
  exact eq_of_level_eq (atPlace.trans atOther.symm) positive

/-- A value whose mantissa is rounded stands at the place of the rounded mantissa. -/
theorem Rounds.level_eq {octave rounded : ℕ} (rounds : Rounds (value * 2 ^ (-149 + octave : ℤ)) x)
    (mantissa : RoundedMantissa .binary32 octave value rounded) (inside : octave < 254) :
    level x = (octave * 0x800000 + rounded : ℕ) := by
  obtain ⟨place, nearest, atPlace⟩ := rounds.nearest
  obtain rfl := nearest.unique mantissa.nearest
  have bounded : rounded ≤ 0x1000000 := mantissa.bounded
  change level x = (Min.min (octave * 0x800000 + rounded) 0x7f800000 : ℕ) at atPlace
  omega

theorem Rounds.eq_of_amount (rounds : Rounds (exact y) x) (amount : Amount y)
    (positive : 0 < level y) : x = y := by
  obtain ⟨place, nearest, atPlace⟩ := rounds.nearest
  have same := nearest.unique (.of_magnitude _)
  have finite := amount.finite
  exact eq_of_level_eq (by omega) positive

theorem Amount.zero_le (amount : Amount x) : 0 ≤ x :=
  (le_iff_level_le (by decide) amount.number).mpr amount.nonneg

structure UpTo (bound x : Float32) : Prop where
  amount : Amount x
  limit : Amount bound
  le : x ≤ bound

instance (bound x : Float32) : Decidable (UpTo bound x) :=
  decidable_of_iff (Amount x ∧ Amount bound ∧ x ≤ bound)
    ⟨fun fields => ⟨fields.1, fields.2.1, fields.2.2⟩,
      fun within => ⟨within.amount, within.limit, within.le⟩⟩

theorem Rounds.upTo (left : Rounds value x) (right : Rounds larger bound) (le : value ≤ larger)
    (limit : Amount bound) : UpTo bound x := by
  have ordered := left.le_of_le right le
  have levels := (le_iff_level_le left.number limit.number).mp ordered
  exact ⟨⟨left.number, left.nonneg, levels.trans_lt limit.finite⟩, limit, ordered⟩

theorem Amount.upTo (amount : Amount x) : UpTo x x :=
  ⟨amount, amount, (exact_le_iff amount amount).mp le_rfl⟩

namespace UpTo

variable {otherBound : Float32}

theorem exact_le (within : UpTo bound x) : exact x ≤ exact bound :=
  (exact_le_iff within.amount within.limit).mpr within.le

theorem trans (within : UpTo bound x) (further : UpTo other bound) : UpTo other x where
  amount := within.amount
  limit := further.limit
  le := (exact_le_iff within.amount further.limit).mp (within.exact_le.trans further.exact_le)

theorem ofNat {count greatest : ℕ} (le : count ≤ greatest)
    (limit : Amount (Binary32.ofNat greatest)) :
    UpTo (Binary32.ofNat greatest) (Binary32.ofNat count) :=
  (rounds_ofNat count).upTo (rounds_ofNat greatest) (by exact_mod_cast le) limit

theorem add (left : UpTo bound x) (right : UpTo other y) (limit : Amount (bound + other)) :
    UpTo (bound + other) (x + y) :=
  (left.amount.rounds_add right.amount).upTo (left.limit.rounds_add right.limit)
    (add_le_add left.exact_le right.exact_le) limit

theorem mul (left : UpTo bound x) (right : UpTo other y) (limit : Amount (bound * other)) :
    UpTo (bound * other) (x * y) :=
  (left.amount.rounds_mul right.amount).upTo (left.limit.rounds_mul right.limit)
    (mul_le_mul left.exact_le right.exact_le (exact_nonneg y) (exact_nonneg bound)) limit

theorem div (left : UpTo bound x) (right : Amount y) (positive : 0 < level y)
    (limit : Amount (bound / y)) : UpTo (bound / y) (x / y) :=
  (left.amount.rounds_div right positive).upTo (left.limit.rounds_div right positive)
    (div_le_div_of_nonneg_right left.exact_le (exact_nonneg y)) limit

end UpTo

/-- Reads the mantissa and the exponent off a level. -/
theorem exact_eq {octave mantissa : ℕ} (place : level x = (octave * 0x800000 + mantissa : ℕ))
    (bounded : mantissa ≤ 0x1000000) (canonical : octave = 0 ∨ 0x800000 ≤ mantissa) :
    exact x = mantissa * 2 ^ (-149 + octave : ℤ) := by
  rw [exact, place, Int.toNat_natCast]
  exact magnitude_eq bounded canonical

theorem exact_one : exact 1 = 1 := by
  have read : exact 1 = (0x800000 : ℕ) * 2 ^ (-149 + (126 : ℕ) : ℤ) :=
    exact_eq (by decide) (by decide) (by decide)
  rw [read]
  norm_num

theorem Amount.div_eq_one (amount : Amount x) (positive : 0 < level x) : x / x = 1 := by
  have rounds := amount.rounds_div amount positive
  rw [div_self (exact_pos positive).ne', ← exact_one] at rounds
  exact rounds.eq_of_amount (by decide) (by decide)

end Order

end ViewClassifier.Binary32
