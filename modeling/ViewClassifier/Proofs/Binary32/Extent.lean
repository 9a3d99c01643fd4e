import ViewClassifier.Proofs.Binary32.NotANumber
import ViewClassifier.Proofs.Binary32.Arithmetic

/-!
# Numbers that are not negative

Such a number is an amount or infinite. A sum with an infinite one is infinite, so that sums keep the
order also where they leave the range.
-/

set_option autoImplicit false

namespace ViewClassifier.Binary32

open Float.Model (UnpackedFloat)
open Float.Model.UnpackedFloat (Sign)
open Rounding

variable {x y bound other : Float32} {value larger : ℚ}

/-- A number that is not negative. It may be infinite. -/
structure Extent (x : Float32) : Prop where
  number : x.isNaN = false
  nonneg : 0 ≤ level x

theorem Amount.extent (amount : Amount x) : Extent x :=
  ⟨amount.number, amount.nonneg⟩

theorem Rounds.extent (rounds : Rounds value x) : Extent x :=
  ⟨rounds.number, rounds.nonneg⟩

theorem Amount.rounds (amount : Amount x) : Rounds (exact x) x where
  number := amount.number
  nearest := by
    have nonneg := amount.nonneg
    have finite := amount.finite
    exact ⟨_, .of_magnitude _, by omega⟩

theorem Extent.amount_or_infinite (extent : Extent x) :
    Amount x ∨ unpack x = .infinity .positive ∧ level x = 0x7f800000 := by
  have nonneg := extent.nonneg
  have reads := reads_unpack extent.number
  obtain ⟨u, unpacked⟩ : ∃ u, unpack x = u := ⟨_, rfl⟩
  obtain ⟨i, atLevel⟩ : ∃ i, level x = i := ⟨_, rfl⟩
  rw [unpacked, atLevel] at reads
  rw [atLevel] at nonneg
  cases reads with
  | @infinity sign =>
      cases sign with
      | negative =>
          simp only [Sign.apply] at nonneg
          omega
      | positive => exact .inr ⟨unpacked, atLevel⟩
  | zero => exact .inl ⟨extent.number, by omega, by omega⟩
  | @finite sign mantissa exponent positive least bounded canonical inRange =>
      cases sign with
      | negative =>
          simp only [Sign.apply] at nonneg
          omega
      | positive =>
          simp only [Sign.apply] at atLevel
          exact .inl ⟨extent.number, by omega, by omega⟩

theorem Extent.level_le (extent : Extent x) : level x ≤ 0x7f800000 := by
  rcases extent.amount_or_infinite with amount | ⟨_, infinite⟩
  · exact amount.finite.le
  · exact infinite.le

theorem Extent.upTo (extent : Extent x) (limit : Amount bound) (le : x ≤ bound) : UpTo bound x := by
  have levels := (le_iff_level_le extent.number limit.number).mp le
  exact ⟨⟨extent.number, extent.nonneg, levels.trans_lt limit.finite⟩, limit, le⟩

theorem Amount.isFinite (amount : Amount x) : x.isFinite = true := by
  change (unpack x).isFinite = true
  obtain ⟨u, unpacked⟩ : ∃ u, unpack x = u := ⟨_, rfl⟩
  obtain ⟨place, stands⟩ : ∃ place, Stands .binary32 .positive (unpack x) place :=
    ⟨_, amount.stands⟩
  rw [unpacked] at stands ⊢
  cases stands with
  | zero => rfl
  | finite => rfl

theorem Extent.amount (extent : Extent x) (finite : x.isFinite = true) : Amount x := by
  rcases extent.amount_or_infinite with amount | ⟨unpacked, _⟩
  · exact amount
  · change (unpack x).isFinite = true at finite
    rw [unpacked] at finite
    cases finite

theorem Extent.zero_le (extent : Extent x) : 0 ≤ x :=
  (le_iff_level_le (by decide) extent.number).mpr extent.nonneg

theorem Extent.not_neg_of_lt (extent : Extent x) (greater : x < y) : ¬ y < 0 := by
  have number := (numbers_of_lt greater).2
  have beyond := (lt_iff_level_lt extent.number number).mp greater
  have nonneg := extent.nonneg.trans beyond.le
  rw [not_lt_iff number (by decide)]
  exact Extent.zero_le ⟨number, nonneg⟩

theorem isNaN_of_isFinite (finite : x.isFinite = true) : x.isNaN = false := by
  change (unpack x).isFinite = true at finite
  change (unpack x).isNaN = false
  cases form : unpack x with
  | notANumber => cases form ▸ finite
  | infinity => rfl
  | zero => rfl
  | finite => rfl

theorem amount_iff : Amount x ↔ x.isFinite = true ∧ 0 ≤ x := by
  constructor
  · intro amount
    exact ⟨amount.isFinite, amount.zero_le⟩
  · intro both
    have number := isNaN_of_isFinite both.1
    have nonneg := (le_iff_level_le (by decide) number).mp both.2
    exact Extent.amount ⟨number, nonneg⟩ both.1

theorem pos_iff : 0 < x ↔ x.isNaN = false ∧ 0 < level x := by
  have zero : (0 : Float32).isNaN = false := by decide
  constructor
  · intro positive
    have number := ((lt_iff_not_le zero x).mp positive).1
    exact ⟨number, (lt_iff_level_lt zero number).mp positive⟩
  · intro both
    exact (lt_iff_level_lt zero both.1).mpr both.2

theorem level_pos_of_pos (positive : 0 < x) : 0 < level x :=
  (pos_iff.mp positive).2

theorem amount_of_pos (finite : x.isFinite = true) (positive : 0 < x) : Amount x :=
  Extent.amount ⟨(pos_iff.mp positive).1, (level_pos_of_pos positive).le⟩ finite

/-- A machine word is far below infinity. -/
theorem amount_ofNat {count : ℕ} (small : count < UInt64.size) : Amount (ofNat count) :=
  (UpTo.ofNat small.le (by decide)).amount

theorem level_ofNat_pos {count : ℕ} (positive : 0 < count) : 0 < level (ofNat count) := by
  have least := (rounds_ofNat 1).le_of_le (rounds_ofNat count) (by exact_mod_cast positive)
  rw [le_iff_level_le (rounds_ofNat 1).number (rounds_ofNat count).number] at least
  exact lt_of_lt_of_le (by decide) least

theorem Amount.exists_zero (amount : Amount x) (none : level x = 0) :
    ∃ sign, unpack x = .zero sign := by
  have stands := amount.stands
  obtain ⟨place, atPlace⟩ : ∃ place, (level x).toNat = place := ⟨_, rfl⟩
  rw [atPlace] at stands
  cases form : unpack x with
  | zero sign => exact ⟨sign, rfl⟩
  | finite =>
      rw [form] at stands
      cases stands
      omega
  | _ =>
      rw [form] at stands
      cases stands

section Sums

theorem add_of_infinite (amount : Amount x) (infinite : unpack y = .infinity .positive) :
    x + y = infinity := by
  change pack (.add .binary32 (unpack x) (unpack y)) = _
  rw [infinite]
  obtain ⟨u, unpacked⟩ : ∃ u, unpack x = u := ⟨_, rfl⟩
  obtain ⟨place, stands⟩ : ∃ place, Stands .binary32 .positive (unpack x) place :=
    ⟨_, amount.stands⟩
  rw [unpacked] at stands ⊢
  cases stands with
  | zero => rfl
  | finite => rfl

theorem Extent.le_infinity (extent : Extent x) : x ≤ infinity :=
  (le_iff_level_le extent.number (by decide)).mpr
    (extent.level_le.trans (show (0x7f800000 : ℤ) ≤ level infinity by decide))

theorem Amount.extent_add (left : Amount x) (right : Extent y) : Extent (x + y) := by
  rcases right.amount_or_infinite with amount | ⟨infinite, _⟩
  · exact (left.rounds_add amount).extent
  · rw [add_of_infinite left infinite]
    exact ⟨by decide, by decide⟩

/-- Sums keep the order of their terms, also those that are infinite. -/
theorem UpTo.sum_le_sum (left : UpTo bound x) (right : Extent y) (further : Extent other)
    (le : y ≤ other) : x + y ≤ bound + other := by
  rcases further.amount_or_infinite with limit | ⟨infinite, _⟩
  · have within := right.upTo limit le
    exact (left.amount.rounds_add within.amount).le_of_le (left.limit.rounds_add limit)
      (add_le_add left.exact_le within.exact_le)
  · rw [add_of_infinite left.limit infinite]
    exact (left.amount.extent_add right).le_infinity

end Sums

end ViewClassifier.Binary32
