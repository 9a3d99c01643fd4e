import ViewClassifier.Proofs.Rounding.Unpacked

/-!
# Arithmetic of unpacked numbers

Counts, sums of numbers of one sign, products and quotients stand at the place that is nearest to
the exact result. The operands have to be in canonical form.
-/

set_option autoImplicit false

namespace ViewClassifier.Rounding

open Float.Model (Format totalExponent UnpackedFloat)
open Float.Model.UnpackedFloat

/-- An unpacked number of a given sign that is an exact number rounded to the format. -/
def RoundsTo (format : Format) (sign : Sign) (exact : ℚ) (u : UnpackedFloat) : Prop :=
  ∃ place, Stands format sign u place ∧ Nearest format exact place

variable {format : Format} {sign other : Sign} {u v : UnpackedFloat} {a b : ℕ}

theorem Stands.roundsTo (stands : Stands format sign u a) :
    RoundsTo format sign (magnitude format a) u :=
  ⟨a, stands, .of_magnitude a⟩

theorem roundsTo_zero : RoundsTo format sign 0 (.zero other) :=
  ⟨0, .zero, magnitude_zero format ▸ .of_magnitude 0⟩

theorem minExponent_nonpos (format : Format) : format.minExponent ≤ 0 := by
  have powers : (1 : ℤ) ≤ 2 ^ (format.exponentBits - 1) := by
    exact_mod_cast Nat.one_le_two_pow
  have some := format.hm
  have bits := mantissaBits_eq format
  unfold Format.minExponent
  omega

theorem ready_decreaseExponent {mantissa : ℕ} (positive : 0 < mantissa) (exponent : ℤ) :
    let moved := decreaseExponent mantissa exponent
      (format.targetExponent (totalExponent mantissa exponent))
    Ready format moved.1 moved.2 := by
  obtain ⟨target, chosen⟩ : ∃ target, format.targetExponent (totalExponent mantissa exponent) =
    target := ⟨_, rfl⟩
  have greater := chosen.symm.trans (targetExponent_totalExponent format mantissa exponent)
  simp only [chosen, decreaseExponent, Ready]
  by_cases low : exponent - ((exponent - target).toNat : ℤ) ≤ format.minExponent
  · exact .inl low
  · right
    rw [Nat.shiftLeft_eq]
    have logarithm : format.mantissaBitsWithoutImplicit ≤
        mantissa.log2 + (exponent - target).toNat := by omega
    calc stride format ≤ 2 ^ (mantissa.log2 + (exponent - target).toNat) :=
          Nat.pow_le_pow_right Nat.two_pos logarithm
      _ = 2 ^ mantissa.log2 * 2 ^ (exponent - target).toNat := Nat.pow_add _ _ _
      _ ≤ mantissa * 2 ^ (exponent - target).toNat :=
          Nat.mul_le_mul_right _ (Nat.log2_self_le (Nat.ne_of_gt positive))

theorem value_decreaseExponent (mantissa : ℕ) (exponent target : ℤ) :
    ((decreaseExponent mantissa exponent target).1 : ℚ) *
        2 ^ (decreaseExponent mantissa exponent target).2 = mantissa * 2 ^ exponent := by
  obtain ⟨count, named⟩ : ∃ count, (exponent - target).toNat = count := ⟨_, rfl⟩
  simp only [decreaseExponent, named, Nat.shiftLeft_eq, Nat.cast_mul, Nat.cast_pow, Nat.cast_ofNat]
  rw [mul_assoc, ← zpow_natCast, ← zpow_add₀ two_ne_zero, add_sub_cancel]

theorem roundsTo_round {mantissa : ℕ} (sign : Sign) (positive : 0 < mantissa) (exponent : ℤ) :
    RoundsTo format sign (mantissa * 2 ^ exponent)
      (UnpackedFloat.round format sign mantissa exponent) := by
  obtain ⟨place, stands, nearest⟩ := exists_nearest_roundWithAccuracy sign
    (ready_decreaseExponent positive exponent) (show Tells .exact 0 from rfl)
  rw [add_zero, value_decreaseExponent] at nearest
  exact ⟨place, stands, nearest⟩

theorem roundsTo_normalize {mantissa : ℕ} (positive : 0 < mantissa) (exponent : ℤ) :
    RoundsTo format sign (mantissa * 2 ^ exponent)
      (UnpackedFloat.normalize format (sign.apply mantissa) exponent other) := by
  have rounded : RoundsTo format sign _ _ := roundsTo_round sign positive exponent
  cases sign with
  | positive =>
      have above : compare (Sign.positive.apply (mantissa : ℤ)) 0 = .gt :=
        Int.compare_eq_gt.mpr (by simp only [Sign.apply]; omega)
      unfold UnpackedFloat.normalize
      rw [above]
      simpa only [Sign.apply, Int.toNat_natCast] using rounded
  | negative =>
      have below : compare (Sign.negative.apply (mantissa : ℤ)) 0 = .lt :=
        Int.compare_eq_lt.mpr (by simp only [Sign.apply]; omega)
      unfold UnpackedFloat.normalize
      rw [below]
      simpa only [Sign.apply, neg_neg, Int.toNat_natCast] using rounded

theorem roundsTo_ofNat (count : ℕ) :
    RoundsTo format .positive count (UnpackedFloat.ofNat format count) := by
  rcases Nat.eq_zero_or_pos count with rfl | positive
  · rw [Nat.cast_zero]
    exact roundsTo_zero
  · have rounded : RoundsTo format .positive (count * 2 ^ (0 : ℤ))
        (UnpackedFloat.ofNat format count) := roundsTo_normalize positive 0
    rwa [zpow_zero, mul_one] at rounded

/-- Both mantissas are moved to the lesser exponent before they are added. -/
theorem add_finite {m n : ℕ} (mPositive : 0 < m) (nPositive : 0 < n) (e f : ℤ) :
    UnpackedFloat.add format (.finite sign m e mPositive) (.finite other n f nPositive) =
      UnpackedFloat.normalize format
        (sign.apply (decreaseExponent m e (min e f)).1 +
          other.apply (decreaseExponent n f (min e f)).1) (min e f) .positive :=
  rfl

/-- The counts of the lesser unit that two numbers stand for are what is added. -/
theorem exists_add_finite {m n : ℕ} (mPositive : 0 < m) (nPositive : 0 < n) (e f : ℤ) :
    ∃ (p q : ℕ) (least : ℤ), 0 < p ∧ (p : ℚ) * 2 ^ least = m * 2 ^ e ∧
      (q : ℚ) * 2 ^ least = n * 2 ^ f ∧
      UnpackedFloat.add format (.finite sign m e mPositive) (.finite other n f nPositive) =
        UnpackedFloat.normalize format (sign.apply p + other.apply q) least .positive := by
  obtain ⟨least, named⟩ : ∃ least, min e f = least := ⟨_, rfl⟩
  have mValue := value_decreaseExponent m e least
  have nValue := value_decreaseExponent n f least
  have mExponent : (decreaseExponent m e least).2 = least := by
    simp only [decreaseExponent]
    omega
  have nExponent : (decreaseExponent n f least).2 = least := by
    simp only [decreaseExponent]
    omega
  rw [mExponent] at mValue
  rw [nExponent] at nValue
  refine ⟨_, _, least, ?_, mValue, nValue, by rw [add_finite, named]⟩
  rw [decreaseExponent, Nat.shiftLeft_eq]
  exact Nat.mul_pos mPositive (Nat.two_pow_pos _)

theorem Stands.add (left : Stands format sign u a) (right : Stands format sign v b) :
    RoundsTo format sign (magnitude format a + magnitude format b)
      (UnpackedFloat.add format u v) := by
  cases left with
  | @zero s =>
      rw [magnitude_zero, zero_add]
      cases right with
      | @zero t =>
          rw [magnitude_zero]
          cases s <;> cases t <;> exact roundsTo_zero
      | finite bounded canonical => exact (Stands.finite bounded canonical).roundsTo
  | @finite i m mPositive mBounded mCanonical =>
      cases right with
      | zero =>
          rw [magnitude_zero, add_zero]
          exact (Stands.finite mBounded mCanonical).roundsTo
      | @finite j n nPositive nBounded nCanonical =>
          obtain ⟨p, q, least, pPositive, pValue, qValue, added⟩ :=
            exists_add_finite mPositive nPositive (format.minExponent + i) (format.minExponent + j)
          rw [magnitude_eq mBounded.le mCanonical, magnitude_eq nBounded.le nCanonical, ← pValue,
            ← qValue, ← add_mul, ← Nat.cast_add, added]
          have signed : sign.apply (p : ℤ) + sign.apply (q : ℤ) = sign.apply ((p + q : ℕ) : ℤ) := by
            cases sign <;> simp only [Sign.apply] <;> omega
          rw [signed]
          exact roundsTo_normalize (Nat.add_pos_left pPositive q) least

theorem Stands.mul (left : Stands format sign u a) (right : Stands format other v b) :
    RoundsTo format (sign * other) (magnitude format a * magnitude format b)
      (UnpackedFloat.mul format u v) := by
  cases left with
  | zero =>
      rw [magnitude_zero, zero_mul]
      cases right with
      | zero => exact roundsTo_zero
      | finite => exact roundsTo_zero
  | @finite i m mPositive mBounded mCanonical =>
      cases right with
      | zero =>
          rw [magnitude_zero, mul_zero]
          exact roundsTo_zero
      | @finite j n nPositive nBounded nCanonical =>
          rw [magnitude_eq mBounded.le mCanonical, magnitude_eq nBounded.le nCanonical]
          have least := minExponent_nonpos format
          have ready : Ready format (m * n)
              (format.minExponent + i + (format.minExponent + j)) := by
            rcases mCanonical with first | mFilled
            · rcases nCanonical with second | nFilled
              · exact .inl (by omega)
              · exact .inr (nFilled.trans (Nat.le_mul_of_pos_left n mPositive))
            · exact .inr (mFilled.trans (Nat.le_mul_of_pos_right m nPositive))
          have rounded := exists_nearest_roundWithAccuracy (sign * other) ready
            (show Tells .exact 0 from rfl)
          rw [add_zero, Nat.cast_mul, zpow_add₀ two_ne_zero, mul_mul_mul_comm] at rounded
          exact rounded

theorem tells_accuracyOfFraction {numerator denominator : ℕ} (proper : numerator < denominator) :
    Tells (accuracyOfFraction numerator denominator) (numerator / denominator) := by
  have positive : (0 : ℚ) < denominator := by exact_mod_cast Nat.zero_lt_of_lt proper
  unfold accuracyOfFraction
  by_cases none : numerator = 0
  · rw [if_pos none, none, Nat.cast_zero, zero_div]
    rfl
  · rw [if_neg none]
    have some : (0 : ℚ) < numerator := by exact_mod_cast Nat.pos_of_ne_zero none
    rcases Nat.lt_trichotomy (2 * numerator) denominator with less | equal | greater
    · rw [Nat.compare_eq_lt.mpr less]
      have cast : 2 * (numerator : ℚ) < denominator := by exact_mod_cast less
      refine ⟨div_pos some positive, ?_⟩
      rwa [← mul_div_assoc, div_lt_one positive]
    · rw [Nat.compare_eq_eq.mpr equal]
      have cast : 2 * (numerator : ℚ) = denominator := by exact_mod_cast equal
      change 2 * ((numerator : ℚ) / denominator) = 1
      rw [← mul_div_assoc, cast, div_self positive.ne']
    · rw [Nat.compare_eq_gt.mpr greater]
      have cast : (denominator : ℚ) < 2 * numerator := by exact_mod_cast greater
      refine ⟨?_, ?_⟩
      · rwa [← mul_div_assoc, one_lt_div positive]
      · rw [div_lt_one positive]
        exact_mod_cast proper

/-- The quotient is computed with as many bits as the format has room for. -/
theorem ready_divCore (format : Format) {m n : ℕ} (mPositive : 0 < m) (nPositive : 0 < n)
    (e f : ℤ) :
    Ready format (divCore format m e n f).1 (divCore format m e n f).2.1 := by
  obtain ⟨target, chosen⟩ : ∃ target, min (e - f) (format.targetExponent
    (totalExponent m e - totalExponent n f)) = target := ⟨_, rfl⟩
  have bits := mantissaBits_eq format
  have lesser : target = min (e - f) (max ((m.log2 : ℤ) + 1 + e - (n.log2 + 1 + f) -
      format.mantissaBits) format.minExponent) := chosen.symm
  simp only [divCore, chosen, Ready]
  by_cases low : target ≤ format.minExponent
  · exact .inl low
  · right
    rw [Nat.le_div_iff_mul_le nPositive, Nat.shiftLeft_eq]
    have room : format.mantissaBitsWithoutImplicit + (n.log2 + 1) ≤
        m.log2 + (e - f - target).toNat := by omega
    calc stride format * n ≤ stride format * 2 ^ (n.log2 + 1) :=
          Nat.mul_le_mul_left _ Nat.lt_log2_self.le
      _ = 2 ^ (format.mantissaBitsWithoutImplicit + (n.log2 + 1)) := (Nat.pow_add _ _ _).symm
      _ ≤ 2 ^ (m.log2 + (e - f - target).toNat) := Nat.pow_le_pow_right Nat.two_pos room
      _ = 2 ^ m.log2 * 2 ^ (e - f - target).toNat := Nat.pow_add _ _ _
      _ ≤ m * 2 ^ (e - f - target).toNat :=
          Nat.mul_le_mul_right _ (Nat.log2_self_le (Nat.ne_of_gt mPositive))

theorem value_divCore (format : Format) (m : ℕ) {n : ℕ} (nPositive : 0 < n) (e f : ℤ) :
    ∃ rest : ℚ, Tells (divCore format m e n f).2.2 rest ∧
      ((divCore format m e n f).1 + rest) * 2 ^ (divCore format m e n f).2.1 =
        m * 2 ^ e / (n * 2 ^ f) := by
  obtain ⟨target, chosen⟩ : ∃ target, min (e - f) (format.targetExponent
    (totalExponent m e - totalExponent n f)) = target := ⟨_, rfl⟩
  obtain ⟨count, named⟩ : ∃ count, (e - f - target).toNat = count := ⟨_, rfl⟩
  have exponents : e = f + target + count := by omega
  simp only [divCore, chosen, named]
  refine ⟨_, tells_accuracyOfFraction (Nat.mod_lt _ nPositive), ?_⟩
  have positive : (n : ℚ) ≠ 0 := by exact_mod_cast nPositive.ne'
  have division : ((m <<< count / n : ℕ) : ℚ) + (m <<< count % n : ℕ) / n =
      (m <<< count : ℕ) / n := by
    rw [eq_div_iff positive, add_mul, div_mul_cancel₀ _ positive]
    exact_mod_cast Nat.div_add_mod' (m <<< count) n
  rw [division, Nat.shiftLeft_eq, exponents, zpow_add₀ two_ne_zero, zpow_add₀ two_ne_zero,
    zpow_natCast]
  have scale := (scale_pos f).ne'
  push_cast
  field_simp

theorem Stands.div (left : Stands format sign u a) (right : Stands format other v b)
    (some : b ≠ 0) :
    RoundsTo format (sign / other) (magnitude format a / magnitude format b)
      (UnpackedFloat.div format u v) := by
  cases right with
  | zero => exact absurd rfl some
  | @finite j n nPositive nBounded nCanonical =>
      cases left with
      | zero =>
          rw [magnitude_zero, zero_div]
          exact roundsTo_zero
      | @finite i m mPositive mBounded mCanonical =>
          rw [magnitude_eq mBounded.le mCanonical, magnitude_eq nBounded.le nCanonical]
          obtain ⟨rest, tells, value⟩ := value_divCore format m nPositive (format.minExponent + i)
            (format.minExponent + j)
          have ready := ready_divCore format mPositive nPositive (format.minExponent + i)
            (format.minExponent + j)
          have rounded := exists_nearest_roundWithAccuracy (sign / other) ready tells
          rwa [value] at rounded

end ViewClassifier.Rounding
