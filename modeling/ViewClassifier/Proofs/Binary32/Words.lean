import ViewClassifier.Proofs.Binary32.ValueOrder
import ViewClassifier.Proofs.Rounding.Exact

/-!
# Words of 32 and 64 bits

Two words are words of one number when they unpack to the same sign and the same value. A word of
either size is read as the number that it is a word of, and every number has a word of 64 bits.
-/

set_option autoImplicit false

namespace ViewClassifier.Binary32

open Float.Model (Format UnpackedFloat)
open Float.Model.UnpackedFloat (Sign)
open Rounding

/-- Two unpacked numbers with the same sign and the same value. One NaN is as good as another. -/
inductive SameNumber : UnpackedFloat → UnpackedFloat → Prop where
  | notANumber : SameNumber .notANumber .notANumber
  | infinity {sign : Sign} : SameNumber (.infinity sign) (.infinity sign)
  | zero {sign : Sign} : SameNumber (.zero sign) (.zero sign)
  | finite {sign : Sign} {m n : ℕ} {e f : ℤ} {mPositive : 0 < m} {nPositive : 0 < n}
      (value : (m : ℚ) * 2 ^ e = n * 2 ^ f) :
      SameNumber (.finite sign m e mPositive) (.finite sign n f nPositive)

/-- A word of a format that stands for a number. -/
def IsWord (format : Format) (word : BitVec format.numBits) (x : Float32) : Prop :=
  SameNumber (UnpackedFloat.unpack format word) (unpack x)

variable {x y : Float32}

theorem eq_of_sameNumber (same : SameNumber (unpack y) (unpack x)) : y = x := by
  obtain ⟨u, left⟩ : ∃ u, unpack y = u := ⟨_, rfl⟩
  obtain ⟨v, right⟩ : ∃ v, unpack x = v := ⟨_, rfl⟩
  rw [left, right] at same
  cases same with
  | notANumber | infinity | zero =>
      rw [← pack_of_unpack_eq left, ← pack_of_unpack_eq right]
  | finite value => exact Settles.eq_of_unpack right (value ▸ settles_of_unpack left)

section Reading

theorem unpack_ofBits (word : UInt32) :
    unpack (Float32.ofBits word) = UnpackedFloat.unpack .binary32 word.toBitVec :=
  @unpack_pack_unpack .binary32 (by decide) word.toBitVec

theorem unpack_ofBits_wide (word : UInt64) :
    (Float.ofBits word).toModel.unpack = UnpackedFloat.unpack .binary64 word.toBitVec :=
  @unpack_pack_unpack .binary64 (by decide) word.toBitVec

theorem ofBits_of_isWord {word : UInt32} (isWord : IsWord .binary32 word.toBitVec x) :
    Float32.ofBits word = x :=
  eq_of_sameNumber (unpack_ofBits word ▸ isWord)

/-- A finite value is rounded to the place where the number already stands. -/
theorem narrow_of_isWord {word : UInt64} (isWord : IsWord .binary64 word.toBitVec x) :
    narrow (.ofBits word) = x := by
  obtain ⟨v, unpacked⟩ : ∃ v, unpack x = v := ⟨_, rfl⟩
  unfold IsWord at isWord
  unfold narrow
  rw [unpack_ofBits_wide]
  rw [unpacked] at isWord
  generalize UnpackedFloat.unpack .binary64 word.toBitVec = u at isWord ⊢
  cases isWord with
  | notANumber | infinity | zero => exact pack_of_unpack_eq unpacked
  | @finite sign m n e f mPositive nPositive value =>
      have settled : Settles (directed sign (m * 2 ^ e)) (nearest sign m e) :=
        settles_pack ⟨sign, _, by positivity, rfl, roundsTo_round sign mPositive e⟩
      exact Settles.eq_of_unpack unpacked (value ▸ settled)

end Reading

section Writing

/-- Of two counts with the same value, the larger one has the lesser exponent. -/
theorem octave_lt_of_scaled_eq {m n i j : ℕ} {least : ℤ} (less : m < n)
    (same : (n : ℚ) * 2 ^ (least + i) = m * 2 ^ (least + j)) : i < j := by
  by_contra le
  have exponents : (2 : ℚ) ^ (least + j) ≤ 2 ^ (least + i) :=
    zpow_le_zpow_right₀ one_le_two (by omega)
  have counts : (m : ℚ) < n := Nat.cast_lt.mpr less
  have strict := mul_lt_mul counts exponents (scale_pos _) (Nat.cast_nonneg n)
  exact strict.ne' same

/-- The wide format has room for the mantissa of a number, and for its exponent. -/
theorem sameNumber_round {sign : Sign} {mantissa : ℕ} {exponent : ℤ} {positive : 0 < mantissa}
    (unpacked : unpack x = .finite sign mantissa exponent positive) :
    SameNumber
      (UnpackedFloat.unpack .binary64
        (UnpackedFloat.pack .binary64 (.round .binary64 sign mantissa exponent)))
      (.finite sign mantissa exponent positive) := by
  obtain ⟨octave, rfl, bounded, -, inside, -⟩ := exists_octave_of_unpack unpacked
  change mantissa < 2 * 0x800000 at bounded
  have exponents : (-149 + octave : ℤ) = Format.minExponent .binary64 + (octave + 925 : ℕ) := by
    change (-149 + octave : ℤ) = -1074 + (octave + 925 : ℕ)
    push_cast
    ring
  have room : mantissa < 2 * stride .binary64 := bounded.trans (by decide)
  obtain ⟨place, stands, value⟩ := stands_round sign room (octave + 925)
  rw [exponents]
  generalize UnpackedFloat.round .binary64 sign mantissa _ = u at stands ⊢
  cases stands with
  | zero =>
      rw [magnitude_zero] at value
      have : (0 : ℚ) < mantissa * 2 ^ (Format.minExponent .binary64 + (octave + 925 : ℕ)) := by
        positivity
      exact absurd value this.ne
  | @finite other n nPositive nBounded canonical =>
      rw [magnitude_eq nBounded.le canonical] at value
      have inside : other + 2 < 2 ^ Format.exponentBits .binary64 := by
        change other + 2 < 2048
        rcases canonical with first | full
        · omega
        · have := octave_lt_of_scaled_eq (bounded.trans_le ((by decide : _ ≤ _).trans full)) value
          omega
      rw [unpack_pack inside nBounded canonical]
      exact .finite value

theorem isWord_ofModel {u : UnpackedFloat}
    (same : SameNumber (UnpackedFloat.unpack .binary64 (UnpackedFloat.pack .binary64 u))
      (unpack x)) : IsWord .binary64 (Float.ofModel (.pack u)).toBits.toBitVec x :=
  same

theorem isWord_widen (x : Float32) : IsWord .binary64 (widen x).toBits.toBitVec x := by
  obtain ⟨v, unpacked⟩ : ∃ v, unpack x = v := ⟨_, rfl⟩
  unfold widen
  rw [unpacked]
  cases v with
  | notANumber =>
      refine isWord_ofModel ?_
      rw [unpack_pack_nan, unpacked]
      exact .notANumber
  | infinity sign =>
      refine isWord_ofModel ?_
      rw [unpack_pack_infinity, unpacked]
      exact .infinity
  | zero sign =>
      refine isWord_ofModel ?_
      rw [unpack_pack_zero, unpacked]
      exact .zero
  | finite sign mantissa exponent positive =>
      exact isWord_ofModel (unpacked ▸ sameNumber_round unpacked)

end Writing

end ViewClassifier.Binary32
