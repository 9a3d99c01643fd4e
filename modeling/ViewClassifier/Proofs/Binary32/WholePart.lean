import ViewClassifier.Proofs.Binary32.Extent
import ViewClassifier.Proofs.Binary32.Whole
import ViewClassifier.Proofs.Rounding.Exact

/-!
# Whole parts

The whole numbers below and above an amount are exact, and so is the nearest one. A number that is
not negative becomes its whole part as a machine word, or the greatest word when the whole part has
no room in it.
-/

set_option autoImplicit false

namespace ViewClassifier.Binary32

open Float.Model (UnpackedFloat)
open Float.Model.UnpackedFloat (Sign)
open Rounding

variable {x : Float32}

section Words

theorem exact_of_infinite (infinite : level x = 0x7f800000) : exact x = (2 ^ 128 : ℕ) := by
  have read : exact x = (0x800000 : ℕ) * 2 ^ (-149 + (254 : ℕ) : ℤ) :=
    exact_eq (infinite.trans (by decide)) (by decide) (by decide)
  rw [read]
  norm_num

/-- An infinite number is the greatest word, and its exact value is beyond all words. -/
theorem Extent.toInt_clamped (extent : Extent x) (least : ℤ) {greatest : ℕ}
    (inside : greatest ≤ 2 ^ 128) :
    ∃ word : ℕ, UnpackedFloat.toInt least greatest (unpack x) = word ∧
      Min.min word greatest = Min.min ⌊exact x⌋₊ greatest := by
  rcases extent.amount_or_infinite with amount | ⟨infinite, atLevel⟩
  · exact ⟨_, amount.stands.toInt_eq _ _, rfl⟩
  · refine ⟨greatest, by rw [infinite]; rfl, ?_⟩
    rw [exact_of_infinite atLevel, Nat.floor_natCast, Nat.min_eq_right inside, Nat.min_self]

theorem Extent.toNat_toUInt32 (extent : Extent x) :
    x.toUInt32.toNat = Min.min ⌊exact x⌋₊ (UInt32.size - 1) := by
  obtain ⟨word, converted, clamped⟩ := extent.toInt_clamped 0
    (show UInt32.size - 1 ≤ 2 ^ 128 by decide)
  have unfolded : x.toUInt32 =
      UInt32.ofNatClamp (UnpackedFloat.toInt 0 (UInt32.size - 1 : ℕ) (unpack x)).toNat := rfl
  rw [unfolded, converted, Int.toNat_natCast]
  rcases Nat.lt_or_ge word UInt32.size with small | large
  · rw [UInt32.toNat_ofNatClamp_of_lt small]
    omega
  · rw [UInt32.toNat_ofNatClamp_of_le large]
    omega

theorem Extent.toCount_eq (extent : Extent x) :
    toCount x = Min.min ⌊exact x⌋₊ (UInt64.size - 1) := by
  obtain ⟨word, converted, clamped⟩ := extent.toInt_clamped 0
    (show UInt64.size - 1 ≤ 2 ^ 128 by decide)
  have unfolded : toCount x =
      (UInt64.ofNatClamp (UnpackedFloat.toInt 0 (UInt64.size - 1 : ℕ) (unpack x)).toNat).toNat :=
    rfl
  rw [unfolded, converted, Int.toNat_natCast]
  rcases Nat.lt_or_ge word UInt64.size with small | large
  · rw [UInt64.toNat_ofNatClamp_of_lt small]
    omega
  · rw [UInt64.toNat_ofNatClamp_of_le large]
    omega

theorem Extent.toInteger_eq (extent : Extent x) :
    toInteger x = (Min.min ⌊exact x⌋₊ (2 ^ 63 - 1) : ℕ) := by
  obtain ⟨word, converted, clamped⟩ := extent.toInt_clamped Int64.minValue.toInt
    (show 2 ^ 63 - 1 ≤ 2 ^ 128 by decide)
  have unfolded : toInteger x = (Int64.ofIntClamp
      (UnpackedFloat.toInt Int64.minValue.toInt (2 ^ 63 - 1 : ℕ) (unpack x))).toInt := rfl
  have least : Int64.minValue.toInt ≤ word := le_trans (by decide) (Int.natCast_nonneg word)
  rw [unfolded, converted, ← clamped, Int64.ofIntClamp, dif_pos least]
  have greatest : Int64.maxValue.toInt = (2 ^ 63 - 1 : ℕ) := rfl
  by_cases inside : (word : ℤ) ≤ Int64.maxValue.toInt
  · rw [dif_pos inside, Int64.toInt_ofIntLE]
    omega
  · rw [dif_neg inside]
    omega

theorem toInteger_of_isNaN (nan : x.isNaN = true) : toInteger x = 0 := by
  have unfolded : toInteger x = (Int64.ofIntClamp
      (UnpackedFloat.toInt Int64.minValue.toInt Int64.maxValue.toInt (unpack x))).toInt := rfl
  rw [unfolded, unpack_of_isNaN nan]
  decide

end Words

section Rounded

theorem rounds_nearest (count : ℕ) : Rounds count (nearest .positive count 0) := by
  have rounded : RoundsTo .binary32 .positive (count * 2 ^ (0 : ℤ)) _ :=
    roundsTo_round_count .positive count 0
  rw [zpow_zero, mul_one] at rounded
  exact rounds_pack rounded

/-- The whole number that stands for a nonnegative exact value. -/
def Direction.whole : Direction → ℚ → ℕ
  | .down, value => ⌊value⌋₊
  | .up, value => ⌈value⌉₊
  | .nearest, value => ⌊value + 1 / 2⌋₊

/-- The whole part of a fraction is found with a step that depends on what is left over. -/
theorem Direction.whole_div (direction : Direction) (mantissa : ℕ) {scale : ℕ} (some : 0 < scale) :
    direction.whole ((mantissa : ℚ) / scale) = mantissa / scale +
      (if direction.grows .positive (mantissa % scale) scale then 1 else 0) := by
  have division := Nat.div_add_mod mantissa scale
  have remainder := Nat.mod_lt mantissa some
  have positive : (0 : ℚ) < scale := by exact_mod_cast some
  cases direction with
  | down => exact Nat.floor_div_eq_div mantissa scale
  | up =>
      refine eq_of_forall_lt_iff fun count => ?_
      have above : count < Direction.whole .up ((mantissa : ℚ) / scale) ↔
          count * scale < mantissa := by
        rw [Direction.whole, Nat.lt_ceil, lt_div_iff₀ positive]
        exact_mod_cast Iff.rfl
      have step : Direction.up.grows .positive (mantissa % scale) scale = true ↔
          0 < mantissa % scale := by
        rw [Nat.pos_iff_ne_zero]
        exact bne_iff_ne
      rw [above]
      by_cases left : 0 < mantissa % scale
      · rw [if_pos (step.mpr left), Nat.lt_succ_iff, Nat.le_div_iff_mul_le some]
        refine ⟨Nat.le_of_lt, fun le => Nat.lt_of_le_of_ne le ?_⟩
        rintro whole
        rw [← whole, Nat.mul_mod_left] at left
        exact Nat.lt_irrefl 0 left
      · rw [if_neg (mt step.mp left), Nat.add_zero, Nat.lt_div_iff_mul_lt_of_dvd some.ne'
          (Nat.dvd_of_mod_eq_zero (Nat.eq_zero_of_not_pos left))]
  | nearest =>
      have halves : (mantissa : ℚ) / scale + 1 / 2 =
          (2 * mantissa + scale : ℕ) / (2 * scale : ℕ) := by
        push_cast
        field_simp
      have step : Direction.nearest.grows .positive (mantissa % scale) scale = true ↔
          scale ≤ 2 * (mantissa % scale) := decide_eq_true_iff
      have here : (mantissa / scale + 0) * (2 * scale) = 2 * (scale * (mantissa / scale)) := by ring
      have next : (mantissa / scale + 1) * (2 * scale) =
          2 * (scale * (mantissa / scale)) + 2 * scale := by ring
      have further : (mantissa / scale + 1 + 1) * (2 * scale) =
          2 * (scale * (mantissa / scale)) + 4 * scale := by ring
      rw [Direction.whole, halves, Nat.floor_div_eq_div]
      by_cases grows : scale ≤ 2 * (mantissa % scale)
      · rw [if_pos (step.mpr grows)]
        exact Nat.div_eq_of_lt_le (by rw [next]; omega) (by rw [further]; omega)
      · rw [if_neg (mt step.mp grows)]
        exact Nat.div_eq_of_lt_le (by rw [here]; omega) (by rw [Nat.add_zero, next]; omega)

theorem Direction.whole_natCast (direction : Direction) (count : ℕ) :
    direction.whole count = count := by
  have unit := direction.whole_div count Nat.one_pos
  have exactly : direction.grows .positive 0 1 = false := by
    cases direction <;> rfl
  rwa [Nat.mod_one, exactly, Nat.div_one, Nat.cast_one, div_one] at unit

theorem Amount.toWhole_spec (direction : Direction) (amount : Amount x) :
    Amount (toWhole direction x) ∧ exact (toWhole direction x) = direction.whole (exact x) := by
  have stands := amount.stands
  have value : exact x = magnitude .binary32 (level x).toNat := rfl
  obtain ⟨place, atPlace⟩ : ∃ place, (level x).toNat = place := ⟨_, rfl⟩
  obtain ⟨u, unpacked⟩ : ∃ u, unpack x = u := ⟨_, rfl⟩
  rw [atPlace, unpacked] at stands
  rw [atPlace] at value
  cases stands with
  | @zero sign =>
      have same : toWhole direction x = x := by
        unfold toWhole
        rw [unpacked]
      rw [magnitude_zero] at value
      rw [same, value]
      exact ⟨amount, by exact_mod_cast (direction.whole_natCast 0).symm⟩
  | @finite octave mantissa positive bounded canonical =>
      rw [magnitude_eq bounded.le canonical] at value
      change exact x = mantissa * 2 ^ (-149 + octave : ℤ) at value
      have rounded : toWhole direction x = if 0 ≤ (-149 + octave : ℤ) then x else
          nearest .positive (mantissa / (1 <<< (-(-149 + octave : ℤ)).toNat) +
            (if direction.grows .positive (mantissa % (1 <<< (-(-149 + octave : ℤ)).toNat))
              (1 <<< (-(-149 + octave : ℤ)).toNat) then 1 else 0)) 0 := by
        unfold toWhole
        rw [unpacked]
        rfl
      rw [rounded]
      by_cases whole : 0 ≤ (-149 + octave : ℤ)
      · obtain ⟨shift, named⟩ := Int.eq_ofNat_of_zero_le whole
        have natural : exact x = (mantissa * 2 ^ shift : ℕ) := by
          rw [value, named]
          push_cast
          rw [zpow_natCast]
        rw [if_pos whole, natural, direction.whole_natCast]
        exact ⟨amount, rfl⟩
      · obtain ⟨shift, named⟩ : ∃ shift : ℕ, -(-149 + octave : ℤ) = shift :=
          ⟨149 - octave, by omega⟩
        have fraction : exact x = mantissa / (2 ^ shift : ℕ) := by
          rw [value, ← neg_neg (-149 + octave : ℤ), named, zpow_neg, zpow_natCast, div_eq_mul_inv]
          push_cast
          rfl
        have counted := direction.whole_div mantissa (Nat.two_pow_pos shift)
        rw [if_neg whole, fraction, named, Int.toNat_natCast, Nat.one_shiftLeft, ← counted]
        refine (rounds_nearest _).exact_of_count ?_
        have halved : mantissa / 2 ^ shift ≤ mantissa / 2 :=
          Nat.div_le_div_left (Nat.le_self_pow (by omega) 2) Nat.two_pos
        have full := stride_pos .binary32
        rw [counted]
        split <;> omega

/-- An amount within half of a unit of a count is zero, or it is rounded to the count. -/
theorem round_of_close (amount : Amount x) {count : ℕ} (close : 2 * |exact x - count| < 1) :
    (count = 0 ∧ ∃ sign, unpack (round x) = .zero sign) ∨
      round x = nearest .positive count 0 := by
  obtain ⟨rounded, whole⟩ := amount.toWhole_spec .nearest
  change Amount (round x) at rounded
  have counted : Direction.nearest.whole (exact x) = count := by
    obtain ⟨lower, upper⟩ := abs_lt.mp (show |2 * (exact x - count)| < 1 by
      rwa [abs_mul, abs_two])
    rw [Direction.whole, Nat.floor_eq_iff (by linarith [exact_nonneg x])]
    constructor <;> linarith
  have value : exact (round x) = count := whole.trans (congrArg Nat.cast counted)
  rcases rounded.nonneg.eq_or_lt with zero | positive
  · obtain ⟨sign, unpacked⟩ := rounded.exists_zero zero.symm
    rw [exact, ← zero, Int.toNat_zero, magnitude_zero] at value
    exact .inl ⟨by exact_mod_cast value.symm, sign, unpacked⟩
  · have rounds := rounds_nearest count
    rw [← value] at rounds
    exact .inr (rounds.eq_of_amount rounded positive).symm

theorem toWhole_of_infinite (direction : Direction) {sign : Sign}
    (infinite : unpack x = .infinity sign) : toWhole direction x = x := by
  unfold toWhole
  rw [infinite]

theorem Extent.toWhole_spec (direction : Direction) (extent : Extent x) :
    Extent (toWhole direction x) ∧ exact (toWhole direction x) = direction.whole (exact x) := by
  rcases extent.amount_or_infinite with amount | ⟨infinite, atLevel⟩
  · obtain ⟨rounded, whole⟩ := amount.toWhole_spec direction
    exact ⟨rounded.extent, whole⟩
  · rw [toWhole_of_infinite direction infinite, exact_of_infinite atLevel,
      direction.whole_natCast]
    exact ⟨extent, rfl⟩

theorem isNaN_toWhole (direction : Direction) (nan : x.isNaN = true) :
    (toWhole direction x).isNaN = true := by
  unfold toWhole
  rw [unpack_of_isNaN nan]
  exact nan

theorem Extent.toNat_toUInt32_floor (extent : Extent x) :
    (floor x).toUInt32.toNat = Min.min ⌊exact x⌋₊ (UInt32.size - 1) := by
  obtain ⟨rounded, whole⟩ := extent.toWhole_spec .down
  rw [floor, rounded.toNat_toUInt32, whole, Nat.floor_natCast]
  rfl

theorem Extent.toInteger_floor (extent : Extent x) :
    toInteger (floor x) = (Min.min ⌊exact x⌋₊ (2 ^ 63 - 1) : ℕ) := by
  obtain ⟨rounded, whole⟩ := extent.toWhole_spec .down
  rw [floor, rounded.toInteger_eq, whole, Nat.floor_natCast]
  rfl

theorem Extent.toInteger_ceil (extent : Extent x) :
    toInteger (ceil x) = (Min.min ⌈exact x⌉₊ (2 ^ 63 - 1) : ℕ) := by
  obtain ⟨rounded, whole⟩ := extent.toWhole_spec .up
  rw [ceil, rounded.toInteger_eq, whole, Nat.floor_natCast]
  rfl

theorem Extent.toCount_ceil (extent : Extent x) :
    toCount (ceil x) = Min.min ⌈exact x⌉₊ (UInt64.size - 1) := by
  obtain ⟨rounded, whole⟩ := extent.toWhole_spec .up
  rw [ceil, rounded.toCount_eq, whole, Nat.floor_natCast]
  rfl

end Rounded

end ViewClassifier.Binary32
