import ViewClassifier.Proofs.Binary32.WholePart

/-!
# Remainders

The remainder of a division by a whole number of times is exact: it has no more bits than the number
that has fewer bits below the point. A negative remainder is moved up by the modulus and rounded, so
that it may reach the modulus but not pass it.
-/

set_option autoImplicit false

namespace ViewClassifier.Binary32

open Float.Model (UnpackedFloat Format)
open Float.Model.UnpackedFloat
open Rounding

section Unpacked

variable {x y : Float32} {sign : Sign} {a b : ℕ}

theorem value_shiftLeft (mantissa : ℕ) {exponent unit : ℤ} (le : unit ≤ exponent) :
    ((mantissa <<< (exponent - unit).toNat : ℕ) : ℚ) * 2 ^ unit = mantissa * 2 ^ exponent := by
  have moved := value_decreaseExponent mantissa exponent unit
  have reached : (decreaseExponent mantissa exponent unit).2 = unit := by
    simp only [decreaseExponent]
    omega
  rwa [reached] at moved

/-- The remainder of two counts, in any unit. -/
theorem mod_mul_eq {p q : ℕ} {unit : ℚ} (positive : 0 < unit) :
    ((p % q : ℕ) : ℚ) * unit = p * unit - ⌊p * unit / (q * unit)⌋₊ * (q * unit) := by
  have division : (q : ℚ) * (p / q : ℕ) + (p % q : ℕ) = p := by exact_mod_cast Nat.div_add_mod p q
  have rest : ((p % q : ℕ) : ℚ) = p - q * (p / q : ℕ) := by linarith
  rw [mul_div_mul_right _ _ positive.ne', Nat.floor_div_eq_div, rest]
  ring

theorem level_of_zero (zero : unpack x = .zero sign) : x.isNaN = false ∧ level x = 0 := by
  have number : x.isNaN = false := by
    change (unpack x).isNaN = false
    rw [zero]
    rfl
  have reads := reads_unpack number
  rw [zero] at reads
  obtain ⟨i, atLevel⟩ : ∃ i, level x = i := ⟨_, rfl⟩
  rw [atLevel] at reads ⊢
  cases reads
  exact ⟨number, rfl⟩

/-- Both mantissas are moved to the lesser exponent. The one that stays bounds the remainder. -/
theorem remainder_finite {m n i j : ℕ} {mPositive : 0 < m} {nPositive : 0 < n}
    (xUnpacked : unpack x = .finite sign m (Format.binary32.minExponent + i) mPositive)
    (yUnpacked : unpack y = .finite .positive n (Format.binary32.minExponent + j) nPositive)
    (mBounded : m < 2 * stride .binary32) (nBounded : n < 2 * stride .binary32) :
    ∃ (p q octave : ℕ), p % q < 2 * stride .binary32 ∧ 0 < q ∧
      (p : ℚ) * 2 ^ (Format.binary32.minExponent + octave) =
        m * 2 ^ (Format.binary32.minExponent + i) ∧
      (q : ℚ) * 2 ^ (Format.binary32.minExponent + octave) =
        n * 2 ^ (Format.binary32.minExponent + j) ∧
      remainder x y = nearest sign (p % q) (Format.binary32.minExponent + octave) := by
  have least : Min.min (Format.binary32.minExponent + (i : ℤ))
      (Format.binary32.minExponent + (j : ℤ)) =
        Format.binary32.minExponent + (Min.min i j : ℕ) := by
    omega
  obtain ⟨unit, named⟩ : ∃ unit, Format.binary32.minExponent + ((Min.min i j : ℕ) : ℤ) = unit :=
    ⟨_, rfl⟩
  refine ⟨m <<< (Format.binary32.minExponent + (i : ℤ) - unit).toNat,
    n <<< (Format.binary32.minExponent + (j : ℤ) - unit).toNat, Min.min i j, ?_, ?_, ?_, ?_, ?_⟩
  · rcases Nat.le_total i j with first | second
    · have same : (Format.binary32.minExponent + (i : ℤ) - unit).toNat = 0 := by omega
      rw [same, Nat.shiftLeft_zero]
      exact (Nat.mod_le _ _).trans_lt mBounded
    · have same : (Format.binary32.minExponent + (j : ℤ) - unit).toNat = 0 := by omega
      rw [same, Nat.shiftLeft_zero]
      exact (Nat.mod_lt _ nPositive).trans nBounded
  · rw [Nat.shiftLeft_eq]
    exact Nat.mul_pos nPositive (Nat.two_pow_pos _)
  · rw [named]
    exact value_shiftLeft m (by omega)
  · rw [named]
    exact value_shiftLeft n (by omega)
  · unfold remainder
    rw [xUnpacked, yUnpacked]
    simp only [least, named]

theorem remainder_stands (left : Stands .binary32 sign (unpack x) a)
    (right : Stands .binary32 .positive (unpack y) b) (some : b ≠ 0) (finite : b < 0x7f800000) :
    ∃ place : ℕ, (remainder x y).isNaN = false ∧ level (remainder x y) = sign.apply place ∧
      place < b ∧ magnitude .binary32 place = magnitude .binary32 a -
        ⌊magnitude .binary32 a / magnitude .binary32 b⌋₊ * magnitude .binary32 b := by
  obtain ⟨u, xUnpacked⟩ : ∃ u, unpack x = u := ⟨_, rfl⟩
  obtain ⟨v, yUnpacked⟩ : ∃ v, unpack y = v := ⟨_, rfl⟩
  rw [xUnpacked] at left
  rw [yUnpacked] at right
  cases right with
  | zero => exact absurd rfl some
  | @finite j n nPositive nBounded nCanonical =>
      cases left with
      | zero =>
          obtain ⟨number, atZero⟩ := level_of_zero xUnpacked
          have same : remainder x y = x := by
            unfold remainder
            rw [xUnpacked, yUnpacked]
          refine ⟨0, by rw [same, number], ?_, Nat.pos_of_ne_zero some, ?_⟩
          · rw [same, atZero]
            cases sign <;> rfl
          · rw [magnitude_zero, zero_div, Nat.floor_zero]
            simp
      | @finite i m mPositive mBounded mCanonical =>
          obtain ⟨p, q, octave, small, qPositive, pValue, qValue, divided⟩ :=
            remainder_finite xUnpacked yUnpacked mBounded nBounded
          obtain ⟨place, stands, value⟩ := stands_round sign small octave
          have unit := scale_pos (Format.binary32.minExponent + octave)
          have less : place < j * stride .binary32 + n := by
            rw [← (magnitude_strictMono .binary32).lt_iff_lt, value,
              magnitude_eq nBounded.le nCanonical, ← qValue]
            exact mul_lt_mul_of_pos_right (by exact_mod_cast Nat.mod_lt p qPositive) unit
          rw [mod_mul_eq unit, pValue, qValue, ← magnitude_eq mBounded.le mCanonical,
            ← magnitude_eq nBounded.le nCanonical] at value
          rw [divided]
          refine ⟨place, ?_, ?_, less, value⟩
          · exact (isNaN_pack _).trans (isNaN_of_stands stands)
          · exact (level_pack stands).trans (by rw [Nat.min_eq_left (less.trans finite).le])

end Unpacked

theorem Reads.isFinite_iff {u : UnpackedFloat} {i : ℤ} (reads : Reads u i) :
    u.isFinite = true ↔ i.natAbs < 0x7f800000 := by
  cases reads with
  | @infinity sign => cases sign <;> decide
  | zero => exact iff_of_true rfl (by decide)
  | @finite sign mantissa exponent positive least bounded canonical inRange =>
      refine iff_of_true rfl ?_
      cases sign <;> simp only [Sign.apply] <;> omega

section Numbers

variable {x y : Float32}

theorem Amount.remainder_spec (left : Amount x) (right : Amount y) (positive : 0 < level y) :
    Amount (remainder x y) ∧ exact (remainder x y) < exact y ∧
      exact (remainder x y) = exact x - ⌊exact x / exact y⌋₊ * exact y := by
  have finite := right.finite
  obtain ⟨place, number, atPlace, less, value⟩ :=
    remainder_stands left.stands right.stands (by omega) (by omega)
  change level (remainder x y) = place at atPlace
  have same : exact (remainder x y) = magnitude .binary32 place := by
    rw [exact, atPlace, Int.toNat_natCast]
  refine ⟨⟨number, by omega, by omega⟩, ?_, same.trans value⟩
  rw [same]
  exact magnitude_strictMono _ less

theorem Amount.abs_eq (amount : Amount y) (positive : 0 < level y) : y.abs = y := by
  refine eq_of_level_eq ?_ positive
  change level (pack (unpack y).abs) = level y
  have stands := amount.stands
  have finite := amount.finite
  obtain ⟨place, atPlace⟩ : ∃ place : ℕ, level y = place := ⟨(level y).toNat, by omega⟩
  obtain ⟨u, unpacked⟩ : ∃ u, unpack y = u := ⟨_, rfl⟩
  rw [atPlace, Int.toNat_natCast, unpacked] at stands
  rw [atPlace] at positive finite ⊢
  have same : u.abs = u := by
    cases stands with
    | zero => omega
    | finite => rfl
  rw [unpacked, same, level_pack stands]
  change ((Min.min place 0x7f800000 : ℕ) : ℤ) = place
  omega

/-- A negative remainder is moved up by the modulus, from which no more than the modulus is taken
away. -/
theorem modulo_upTo (right : Amount y) (positive : 0 < level y) (finite : x.isFinite = true) :
    UpTo y (modulo x y) := by
  have inRange := right.finite
  have reads := reads_unpack (isNaN_of_isFinite finite)
  obtain ⟨sign, a, left, _⟩ := reads.exists_stands (reads.isFinite_iff.mp finite)
  obtain ⟨place, number, atPlace, less, _⟩ :=
    remainder_stands left right.stands (by omega) (by omega)
  have small : (level (remainder x y)).natAbs = place := by
    rw [atPlace]
    cases sign <;> simp only [Sign.apply] <;> omega
  obtain ⟨r, named⟩ : ∃ r, remainder x y = r := ⟨_, rfl⟩
  rw [named] at number small
  have below : r < 0 ↔ level r < level (0 : Float32) := lt_iff_level_lt number (by decide)
  have atZero : level (0 : Float32) = 0 := by decide
  unfold modulo
  dsimp only
  rw [named]
  by_cases negative : r < 0
  · have levels := below.mp negative
    obtain ⟨other, rest, stands, restLevel⟩ := (reads_unpack number).exists_stands (by omega)
    have opposite : other = .negative := by
      cases other with
      | negative => rfl
      | positive =>
          simp only [Sign.apply] at restLevel
          omega
    rw [opposite] at stands restLevel
    simp only [Sign.apply] at restLevel
    rw [if_pos negative, right.abs_eq positive]
    have rounds : Rounds (exact y - magnitude .binary32 rest) (r + y) :=
      rounds_pack (stands.add_opposite right.stands (fun same => by cases same) (by omega))
    have least := magnitude_nonneg .binary32 rest
    exact rounds.upTo right.rounds (by linarith) right
  · have levels := mt below.mpr negative
    rw [if_neg negative]
    have amount : Amount r := ⟨number, by omega, by omega⟩
    exact ⟨amount, right, (le_iff_level_le number right.number).mpr (by omega)⟩

theorem modulo_of_not_isFinite (infinite : x.isFinite = false) (y : Float32) :
    (modulo x y).isNaN = true := by
  change (unpack x).isFinite = false at infinite
  have rest : remainder x y = nan := by
    unfold remainder
    cases form : unpack x with
    | zero => cases form ▸ infinite
    | finite => cases form ▸ infinite
    | infinity => rfl
    | notANumber => rfl
  have noStep : ¬ nan < 0 := by decide
  unfold modulo
  dsimp only
  rw [rest, if_neg noStep]
  decide

end Numbers

end ViewClassifier.Binary32
