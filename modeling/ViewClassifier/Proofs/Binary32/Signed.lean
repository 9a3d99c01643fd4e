import Mathlib.Data.Int.ConditionallyCompleteOrder
import ViewClassifier.Proofs.Binary32.Remainder
import ViewClassifier.Proofs.Rounding.Signed

/-!
# Finite numbers of any sign

A level stands for an exact value with a sign. The four operations on finite numbers settle on the
level that is nearest to the exact result, so that they keep the order of exact results and reach those
that the format has room for.
-/

set_option autoImplicit false

namespace ViewClassifier.Binary32

open Float.Model (UnpackedFloat)
open Float.Model.UnpackedFloat (Sign)
open Rounding

section Levels

/-- The exact value at a level. -/
def reading (i : ℤ) : ℚ :=
  if 0 ≤ i then magnitude .binary32 i.toNat else -magnitude .binary32 (-i).toNat

theorem reading_apply (sign : Sign) (place : ℕ) :
    reading (sign.apply place) = directed sign (magnitude .binary32 place) := by
  have zero := magnitude_zero .binary32
  cases sign with
  | positive => exact if_pos (Int.natCast_nonneg place)
  | negative =>
      simp only [reading, Sign.apply, directed, neg_neg, Int.toNat_natCast]
      rcases Nat.eq_zero_or_pos place with rfl | positive
      · simp [zero]
      · rw [if_neg (by omega)]

theorem reading_neg (i : ℤ) : reading (-i) = -reading i := by
  have zero := magnitude_zero .binary32
  unfold reading
  rcases Int.lt_trichotomy i 0 with negative | rfl | positive
  · rw [if_pos (by omega), if_neg (by omega), neg_neg]
  · simp [zero]
  · rw [if_neg (by omega), if_pos positive.le, neg_neg]

theorem reading_strictMono : StrictMono reading := by
  intro i j less
  have grows : ∀ {m n : ℕ}, m < n → magnitude .binary32 m < magnitude .binary32 n :=
    fun less => magnitude_strictMono _ less
  have nonneg := magnitude_nonneg .binary32
  unfold reading
  split <;> split
  · exact grows (by omega)
  · omega
  · have positive := grows (show 0 < (-i).toNat by omega)
    rw [magnitude_zero] at positive
    exact (neg_neg_of_pos positive).trans_le (nonneg j.toNat)
  · exact neg_lt_neg (grows (show (-j).toNat < (-i).toNat by omega))

/-- The level nearest to an exact value. From infinity on all levels become infinite. -/
def NearestLevel (value : ℚ) (i : ℤ) : Prop :=
  ∃ (sign : Sign) (amount : ℚ) (place : ℕ), 0 ≤ amount ∧ directed sign amount = value ∧
    Nearest .binary32 amount place ∧ i = sign.apply (Min.min place 0x7f800000 : ℕ)

variable {value larger : ℚ} {i j : ℤ}

theorem nearestLevel_reading (finite : i.natAbs ≤ 0x7f800000) : NearestLevel (reading i) i := by
  obtain ⟨sign, signed⟩ : ∃ sign : Sign, i = sign.apply (i.natAbs : ℕ) := by
    rcases Int.le_total 0 i with nonneg | nonpos
    · exact ⟨.positive, by simp only [Sign.apply]; omega⟩
    · exact ⟨.negative, by simp only [Sign.apply]; omega⟩
  refine ⟨sign, _, i.natAbs, magnitude_nonneg _ _, ?_, .of_magnitude _, ?_⟩
  · rw [← reading_apply, ← signed]
  · rw [Nat.min_eq_left finite, ← signed]

theorem NearestLevel.le_of_le (left : NearestLevel value i) (right : NearestLevel larger j)
    (le : value ≤ larger) : i ≤ j := by
  obtain ⟨s, p, m, pNonneg, rfl, pNearest, rfl⟩ := left
  obtain ⟨t, q, n, qNonneg, rfl, qNearest, rfl⟩ := right
  cases s with
  | positive =>
      cases t with
      | positive =>
          have places := pNearest.le_of_le qNearest le
          simp only [Sign.apply]
          omega
      | negative =>
          simp only [directed] at le
          have zero : p = 0 := by linarith
          have other : q = 0 := by linarith
          subst zero other
          rw [pNearest.eq_zero, qNearest.eq_zero]
          simp only [Sign.apply]
          omega
  | negative =>
      cases t with
      | positive =>
          simp only [Sign.apply]
          omega
      | negative =>
          have places := qNearest.le_of_le pNearest (neg_le_neg_iff.mp le)
          simp only [Sign.apply]
          omega

end Levels

/-- The exact value of a finite number. -/
def signed (x : Float32) : ℚ :=
  reading (level x)

/-- The number that an exact value of any sign is rounded to. It may be infinite. -/
structure Settles (value : ℚ) (x : Float32) : Prop where
  number : x.isNaN = false
  nearest : NearestLevel value (level x)

/-- An exact value that the format has room for. -/
def Fits (value : ℚ) : Prop :=
  ∃ i : ℤ, i.natAbs < 0x7f800000 ∧ reading i = value

variable {x y : Float32} {value low high : ℚ}

theorem isFinite_iff : x.isFinite = true ↔ x.isNaN = false ∧ (level x).natAbs < 0x7f800000 := by
  constructor
  · intro finite
    have number := isNaN_of_isFinite finite
    exact ⟨number, (reads_unpack number).isFinite_iff.mp finite⟩
  · intro both
    exact (reads_unpack both.1).isFinite_iff.mpr both.2

theorem signed_eq_exact (nonneg : 0 ≤ level x) : signed x = exact x :=
  if_pos nonneg

theorem signed_le_iff : signed x ≤ signed y ↔ level x ≤ level y :=
  reading_strictMono.le_iff_le

theorem level_nonneg (nonneg : 0 ≤ signed x) : 0 ≤ level x := by
  have zero : reading 0 = 0 := magnitude_zero .binary32
  exact reading_strictMono.le_iff_le.mp (zero.trans_le nonneg)

theorem signed_inj : signed x = signed y ↔ level x = level y :=
  reading_strictMono.injective.eq_iff

theorem fits_signed (finite : x.isFinite = true) : Fits (signed x) :=
  ⟨level x, (isFinite_iff.mp finite).2, rfl⟩

theorem settles_pack {u : UnpackedFloat} (settled : SettlesTo .binary32 value u) :
    Settles value (pack u) := by
  obtain ⟨sign, amount, nonneg, direct, place, stands, nearest⟩ := settled
  refine ⟨?_, sign, amount, place, nonneg, direct, nearest, level_pack stands⟩
  rw [isNaN_pack, isNaN_of_stands stands]

theorem exists_stands (finite : x.isFinite = true) :
    ∃ sign place, Stands .binary32 sign (unpack x) place ∧
      directed sign (magnitude .binary32 place) = signed x := by
  obtain ⟨number, inRange⟩ := isFinite_iff.mp finite
  obtain ⟨sign, place, stands, atLevel⟩ := (reads_unpack number).exists_stands inRange
  exact ⟨sign, place, stands, by rw [signed, atLevel, reading_apply]⟩

theorem level_abs (number : x.isNaN = false) : level x.abs = (level x).natAbs := by
  change level (pack (unpack x).abs) = (level x).natAbs
  obtain ⟨i, atLevel⟩ : ∃ i, level x = i := ⟨_, rfl⟩
  obtain ⟨u, unpacked⟩ : ∃ u, unpack x = u := ⟨_, rfl⟩
  have reads := reads_unpack number
  rw [atLevel, unpacked] at reads ⊢
  cases reads with
  | @infinity sign => cases sign <;> decide
  | @zero sign => cases sign <;> decide
  | @finite sign mantissa exponent positive least bounded canonical inRange =>
      have absolute : Reads (.finite .positive mantissa exponent positive) _ :=
        .finite least bounded canonical inRange
      have stands := absolute.stands (by simp only [Sign.apply]; omega)
        (by simp only [Sign.apply]; omega)
      refine (level_pack stands).trans ?_
      cases sign <;> simp only [Sign.apply] <;> omega

section Operations

variable (xFinite : x.isFinite = true) (yFinite : y.isFinite = true)

include xFinite

theorem exact_abs : Amount x.abs ∧ exact x.abs = |signed x| := by
  obtain ⟨number, inRange⟩ := isFinite_iff.mp xFinite
  have absolute := level_abs number
  have kept : x.abs.isNaN = false := (isNaN_abs x).trans number
  refine ⟨⟨kept, by omega, by omega⟩, ?_⟩
  rw [exact, absolute, Int.toNat_natCast, signed, reading]
  split
  · rw [abs_of_nonneg (magnitude_nonneg _ _)]
    congr 1
    omega
  · rw [abs_neg, abs_of_nonneg (magnitude_nonneg _ _)]
    congr 1
    omega

include yFinite

theorem settles_add : Settles (signed x + signed y) (x + y) := by
  obtain ⟨s, a, left, xSigned⟩ := exists_stands xFinite
  obtain ⟨t, b, right, ySigned⟩ := exists_stands yFinite
  rw [← xSigned, ← ySigned]
  exact settles_pack (left.settles_add right)

theorem settles_sub : Settles (signed x - signed y) (x - y) := by
  obtain ⟨s, a, left, xSigned⟩ := exists_stands xFinite
  obtain ⟨t, b, right, ySigned⟩ := exists_stands yFinite
  rw [← xSigned, ← ySigned]
  exact settles_pack (left.settles_sub right)

theorem settles_mul : Settles (signed x * signed y) (x * y) := by
  obtain ⟨s, a, left, xSigned⟩ := exists_stands xFinite
  obtain ⟨t, b, right, ySigned⟩ := exists_stands yFinite
  rw [← xSigned, ← ySigned]
  exact settles_pack (left.settles_mul right)

theorem settles_div (some : signed y ≠ 0) : Settles (signed x / signed y) (x / y) := by
  obtain ⟨s, a, left, xSigned⟩ := exists_stands xFinite
  obtain ⟨t, b, right, ySigned⟩ := exists_stands yFinite
  have divisor : b ≠ 0 := by
    rintro rfl
    rw [magnitude_zero, directed_zero] at ySigned
    exact some ySigned.symm
  rw [← xSigned, ← ySigned]
  exact settles_pack (left.settles_div right divisor)

end Operations

theorem Settles.le_signed (settles : Settles value x) (fits : Fits low) (le : low ≤ value) :
    low ≤ signed x := by
  obtain ⟨i, finite, rfl⟩ := fits
  exact reading_strictMono.monotone
    ((nearestLevel_reading finite.le).le_of_le settles.nearest le)

theorem Amount.signed_eq (amount : Amount x) : signed x = exact x :=
  signed_eq_exact amount.nonneg

section Words

theorem toInt_ofIntClamp_nonpos {i : ℤ} (nonpos : i ≤ 0) : (Int64.ofIntClamp i).toInt ≤ 0 := by
  have greatest : i ≤ Int64.maxValue.toInt := nonpos.trans (by decide)
  unfold Int64.ofIntClamp
  split
  · rw [Int64.toInt_ofIntLE]
    exact nonpos
  · decide

theorem toInteger_nonpos (number : x.isNaN = false) (nonpos : level x ≤ 0) : toInteger x ≤ 0 := by
  have unfolded : toInteger x = (Int64.ofIntClamp
      (UnpackedFloat.toInt Int64.minValue.toInt Int64.maxValue.toInt (unpack x))).toInt := rfl
  rw [unfolded]
  refine toInt_ofIntClamp_nonpos ?_
  obtain ⟨i, atLevel⟩ : ∃ i, level x = i := ⟨_, rfl⟩
  obtain ⟨u, unpacked⟩ : ∃ u, unpack x = u := ⟨_, rfl⟩
  have reads := reads_unpack number
  rw [atLevel] at nonpos
  rw [atLevel, unpacked] at reads
  rw [unpacked]
  by_cases finite : i.natAbs < 0x7f800000
  · obtain ⟨sign, place, stands, rfl⟩ := reads.exists_stands finite
    rw [stands.toInt_eq]
    cases sign with
    | negative =>
        simp only [Sign.apply]
        omega
    | positive =>
        simp only [Sign.apply] at nonpos ⊢
        obtain rfl : place = 0 := by omega
        rw [magnitude_zero, Nat.floor_zero]
        rfl
  · cases reads with
    | @infinity sign =>
        cases sign with
        | negative => decide
        | positive =>
            simp only [Sign.apply] at nonpos
            omega
    | zero => exact absurd (by decide) finite
    | @finite sign mantissa exponent positive least bounded canonical inRange =>
        refine absurd ?_ finite
        cases sign <;> simp only [Sign.apply] <;> omega

theorem level_floor_nonpos (finite : x.isFinite = true) (nonpos : level x ≤ 0) :
    (floor x).isNaN = false ∧ level (floor x) ≤ 0 := by
  obtain ⟨number, inRange⟩ := isFinite_iff.mp finite
  have reads := reads_unpack number
  obtain ⟨i, atLevel⟩ : ∃ i, level x = i := ⟨_, rfl⟩
  obtain ⟨u, unpacked⟩ : ∃ u, unpack x = u := ⟨_, rfl⟩
  rw [atLevel, unpacked] at reads
  unfold floor toWhole
  rw [unpacked]
  cases reads with
  | infinity => exact ⟨number, nonpos⟩
  | zero => exact ⟨number, nonpos⟩
  | @finite sign mantissa exponent positive least bounded canonical inRange =>
      cases sign with
      | positive =>
          simp only [Sign.apply] at atLevel
          omega
      | negative =>
          by_cases whole : 0 ≤ exponent
          · simp only [if_pos whole]
            exact ⟨number, nonpos⟩
          · simp only [if_neg whole]
            obtain ⟨place, stands, _⟩ := @roundsTo_round_count .binary32 .negative
              (mantissa / 1 <<< (-exponent).toNat +
                if Direction.down.grows .negative (mantissa % 1 <<< (-exponent).toNat)
                  (1 <<< (-exponent).toNat) then 1 else 0) 0
            refine ⟨(isNaN_pack _).trans (isNaN_of_stands stands), (level_pack stands).trans_le ?_⟩
            simp only [Sign.apply]
            omega

/-- The whole number below a number that does not exceed a count does not exceed it either. -/
theorem toInteger_floor_le (finite : x.isFinite = true) {count : ℕ} (le : signed x ≤ count) :
    toInteger (floor x) ≤ count := by
  obtain ⟨number, _⟩ := isFinite_iff.mp finite
  rcases Int.lt_or_le 0 (level x) with positive | nonpos
  · have extent : Extent x := ⟨number, positive.le⟩
    rw [signed_eq_exact positive.le] at le
    have whole : ⌊exact x⌋₊ ≤ count := Nat.floor_le_of_le le
    rw [extent.toInteger_floor]
    omega
  · obtain ⟨kept, below⟩ := level_floor_nonpos finite nonpos
    have atMost := toInteger_nonpos kept below
    omega

/-- The whole number above a number reaches every count that the number reaches. -/
theorem le_toInteger_ceil {count : ℕ} (finite : x.isFinite = true) (small : count < 2 ^ 63)
    (le : count ≤ signed x) : count ≤ toInteger (ceil x) := by
  have nonneg := level_nonneg ((Nat.cast_nonneg count).trans le)
  have extent : Extent x := ⟨(isFinite_iff.mp finite).1, nonneg⟩
  rw [signed_eq_exact nonneg] at le
  have whole : count ≤ ⌈exact x⌉₊ := by exact_mod_cast le.trans (Nat.le_ceil _)
  rw [extent.toInteger_ceil]
  omega

end Words

end ViewClassifier.Binary32
