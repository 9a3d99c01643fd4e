import ViewClassifier.Proofs.Rounding.Exact

/-!
# Arithmetic of numbers with signs

A sum, a difference, a product or a quotient of numbers of any signs is the exact result rounded. The
result has the sign of the exact one, and the magnitude goes to the nearest place.
-/

set_option autoImplicit false

namespace ViewClassifier.Rounding

open Float.Model (Format UnpackedFloat)
open Float.Model.UnpackedFloat

/-- A magnitude under a sign. -/
def directed (sign : Sign) (amount : ℚ) : ℚ :=
  match sign with
  | .positive => amount
  | .negative => -amount

section Directed

variable (s t : Sign) (p q : ℚ)

theorem directed_zero : directed s 0 = 0 := by
  cases s with
  | positive => rfl
  | negative => exact neg_zero

theorem directed_neg : directed (-s) p = -directed s p := by
  cases s with
  | positive => rfl
  | negative => exact (neg_neg p).symm

theorem directed_add : directed s (p + q) = directed s p + directed s q := by
  cases s with
  | positive => rfl
  | negative => exact neg_add p q

theorem directed_sub_of_ne {s t : Sign} (opposite : s ≠ t) :
    directed t (q - p) = directed s p + directed t q := by
  cases s <;> cases t <;> simp only [directed, ne_eq, not_true_eq_false] at opposite ⊢ <;> ring

theorem directed_mul : directed (s * t) (p * q) = directed s p * directed t q := by
  cases s <;> cases t <;> simp only [directed, neg_mul, mul_neg, neg_neg]

theorem directed_div : directed (s / t) (p / q) = directed s p / directed t q := by
  cases s <;> cases t <;> simp only [directed, neg_div, div_neg, neg_neg] <;> rfl

end Directed

theorem Nearest.eq_zero {format : Format} {place : ℕ} (nearest : Nearest format 0 place) :
    place = 0 :=
  nearest.unique (magnitude_zero format ▸ .of_magnitude 0)

/-- An unpacked number that is an exact value of any sign rounded to the format. -/
def SettlesTo (format : Format) (value : ℚ) (u : UnpackedFloat) : Prop :=
  ∃ sign amount, 0 ≤ amount ∧ directed sign amount = value ∧ RoundsTo format sign amount u

section Operations

variable {format : Format} {s t : Sign} {u v : UnpackedFloat} {a b : ℕ}

theorem add_comm_unpacked (format : Format) (u v : UnpackedFloat) :
    UnpackedFloat.add format u v = UnpackedFloat.add format v u := by
  cases u with
  | notANumber => cases v <;> rfl
  | infinity s =>
      cases v with
      | infinity t => cases s <;> cases t <;> rfl
      | _ => rfl
  | zero s =>
      cases v with
      | zero t => cases s <;> cases t <;> rfl
      | _ => rfl
  | finite s m e positive =>
      cases v with
      | finite t n f otherPositive =>
          rw [add_finite, add_finite, Int.min_comm, Int.add_comm]
      | _ => rfl

theorem sub_eq_add_unpacked (format : Format) (u v : UnpackedFloat) :
    UnpackedFloat.sub format u v = UnpackedFloat.add format u v.neg := by
  cases v with
  | notANumber => cases u <;> rfl
  | infinity t =>
      cases u with
      | infinity s => cases s <;> cases t <;> rfl
      | _ => rfl
  | zero t =>
      cases u with
      | zero s => cases s <;> cases t <;> rfl
      | _ => rfl
  | finite t n f positive =>
      cases u with
      | finite s m e otherPositive =>
          have opposite : ∀ count : ℤ, (-t).apply count = -t.apply count := by
            intro count
            cases t with
            | positive => rfl
            | negative => exact (neg_neg count).symm
          change _ = UnpackedFloat.add format _ (.finite (-t) n f positive)
          rw [add_finite, opposite]
          rfl
      | _ => rfl

theorem Stands.neg (stands : Stands format s u a) : Stands format (-s) u.neg a := by
  cases stands with
  | zero => exact .zero
  | finite bounded canonical => exact .finite bounded canonical

theorem Stands.settles_add (left : Stands format s u a) (right : Stands format t v b) :
    SettlesTo format (directed s (magnitude format a) + directed t (magnitude format b))
      (UnpackedFloat.add format u v) := by
  have monotone := (magnitude_strictMono format).monotone
  by_cases same : s = t
  · subst same
    exact ⟨s, _, add_nonneg (magnitude_nonneg format a) (magnitude_nonneg format b),
      directed_add s _ _, left.add right⟩
  · rcases le_total a b with le | le
    · exact ⟨t, _, sub_nonneg.mpr (monotone le), directed_sub_of_ne _ _ same,
        left.add_opposite right same le⟩
    · have swapped := right.add_opposite left (Ne.symm same) le
      rw [add_comm_unpacked] at swapped
      refine ⟨s, _, sub_nonneg.mpr (monotone le), ?_, swapped⟩
      rw [directed_sub_of_ne _ _ (Ne.symm same), add_comm]

theorem Stands.settles_sub (left : Stands format s u a) (right : Stands format t v b) :
    SettlesTo format (directed s (magnitude format a) - directed t (magnitude format b))
      (UnpackedFloat.sub format u v) := by
  rw [sub_eq_add_unpacked, sub_eq_add_neg, ← directed_neg]
  exact left.settles_add right.neg

theorem Stands.settles_mul (left : Stands format s u a) (right : Stands format t v b) :
    SettlesTo format (directed s (magnitude format a) * directed t (magnitude format b))
      (UnpackedFloat.mul format u v) :=
  ⟨s * t, _, mul_nonneg (magnitude_nonneg format a) (magnitude_nonneg format b),
    directed_mul s t _ _, left.mul right⟩

theorem Stands.settles_div (left : Stands format s u a) (right : Stands format t v b)
    (some : b ≠ 0) :
    SettlesTo format (directed s (magnitude format a) / directed t (magnitude format b))
      (UnpackedFloat.div format u v) :=
  ⟨s / t, _, div_nonneg (magnitude_nonneg format a) (magnitude_nonneg format b),
    directed_div s t _ _, left.div right some⟩

end Operations

end ViewClassifier.Rounding
