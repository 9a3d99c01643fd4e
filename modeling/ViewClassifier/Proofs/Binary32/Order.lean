import ViewClassifier.Binary32.Order

/-!
# The numeric order and the total order

Both orders are read off the bits. The total order compares ranks, and the numeric order of numbers
that are not NaN compares levels, which are ranks with the two zeros brought together.
-/

set_option autoImplicit false

namespace ViewClassifier.Binary32

open Float.Model (UnpackedFloat Format)
open Float.Model.UnpackedFloat (Sign)

/-- Position in the numeric order, where the two zeros share a place. -/
def level (x : Float32) : Int :=
  if rank x < 0 then rank x + 1 else rank x

/-- The position that an unpacked number in canonical form stands for. An exponent takes the room of
all mantissas below it. -/
inductive Reads : UnpackedFloat → Int → Prop where
  | infinity {sign : Sign} : Reads (.infinity sign) (sign.apply 0x7f800000)
  | zero {sign : Sign} : Reads (.zero sign) 0
  | finite {sign : Sign} {mantissa : Nat} {exponent : Int} {positive : 0 < mantissa}
      (least : -149 ≤ exponent) (bounded : mantissa < 0x1000000)
      (canonical : 0x800000 ≤ mantissa ∨ exponent = -149)
      (inRange : exponent ≤ 104) :
      Reads (.finite sign mantissa exponent positive)
        (sign.apply ((exponent + 149) * 0x800000 + mantissa))

private theorem Reads.of_eq {u : UnpackedFloat} {i j : Int} (reads : Reads u i) (same : i = j) :
    Reads u j :=
  same ▸ reads

private theorem compare_magnitudes {e f : Int} {m n : Nat} (least : -149 ≤ e ∧ -149 ≤ f)
    (bounded : m < 0x1000000 ∧ n < 0x1000000)
    (canonical : (0x800000 ≤ m ∨ e = -149) ∧ (0x800000 ≤ n ∨ f = -149)) :
    (compare e f).then (compare m n) =
      compare ((e + 149) * 0x800000 + (m : Int)) ((f + 149) * 0x800000 + (n : Int)) := by
  -- The greater exponent is not the least one, so that its mantissa has the leading bit.
  rcases Int.lt_trichotomy e f with less | equal | greater
  · rw [Int.compare_eq_lt.mpr less, Ordering.lt_then, eq_comm, Int.compare_eq_lt]
    omega
  · subst equal
    rw [Int.compare_eq_eq.mpr rfl, Ordering.eq_then]
    rcases Nat.lt_trichotomy m n with less | equal | greater
    · rw [Nat.compare_eq_lt.mpr less, eq_comm, Int.compare_eq_lt]
      omega
    · rw [equal, Nat.compare_eq_eq.mpr rfl, eq_comm, Int.compare_eq_eq]
    · rw [Nat.compare_eq_gt.mpr greater, eq_comm, Int.compare_eq_gt]
      omega
  · rw [Int.compare_eq_gt.mpr greater, Ordering.gt_then, eq_comm, Int.compare_eq_gt]
    omega

private theorem below {i j : Int} (less : i < j) : some Ordering.lt = some (compare i j) :=
  congrArg some (Int.compare_eq_lt.mpr less).symm

private theorem above {i j : Int} (greater : j < i) : some Ordering.gt = some (compare i j) :=
  congrArg some (Int.compare_eq_gt.mpr greater).symm

private theorem compare_neg (i j : Int) : compare (-i) (-j) = (compare i j).swap := by
  rw [Int.compare_swap]
  rcases Int.lt_trichotomy i j with less | equal | greater
  · rw [Int.compare_eq_gt.mpr less, Int.compare_eq_gt]
    omega
  · rw [equal, Int.compare_eq_eq.mpr rfl, Int.compare_eq_eq.mpr rfl]
  · rw [Int.compare_eq_lt.mpr greater, Int.compare_eq_lt]
    omega

theorem Reads.compare {u v : UnpackedFloat} {i j : Int} (left : Reads u i) (right : Reads v j) :
    u.compare v = some (compare i j) := by
  cases left with
  | @infinity s =>
      cases right with
      | @infinity t => cases s <;> cases t <;> rfl
      | zero => cases s <;> rfl
      | @finite t n f _ _ _ _ _ =>
          cases s with
          | negative =>
              refine below ?_
              cases t <;> simp only [Sign.apply] <;> omega
          | positive =>
              refine above ?_
              cases t <;> simp only [Sign.apply] <;> omega
  | zero =>
      cases right with
      | @infinity t => cases t <;> rfl
      | zero => rfl
      | @finite t n f _ _ _ _ _ =>
          cases t with
          | negative => exact above (by simp only [Sign.apply]; omega)
          | positive => exact below (by simp only [Sign.apply]; omega)
  | @finite s m e _ least bounded canonical _ =>
      cases right with
      | @infinity t =>
          cases t with
          | negative =>
              refine above ?_
              cases s <;> simp only [Sign.apply] <;> omega
          | positive =>
              refine below ?_
              cases s <;> simp only [Sign.apply] <;> omega
      | zero =>
          cases s with
          | negative => exact below (by simp only [Sign.apply]; omega)
          | positive => exact above (by simp only [Sign.apply]; omega)
      | @finite t n f _ otherLeast otherBounded otherCanonical _ =>
          have magnitudes := compare_magnitudes ⟨least, otherLeast⟩ ⟨bounded, otherBounded⟩
            ⟨canonical, otherCanonical⟩
          cases s with
          | negative =>
              cases t with
              | negative =>
                  have swapped := congrArg Ordering.swap magnitudes
                  exact congrArg some (swapped.trans (compare_neg _ _).symm)
              | positive => exact below (by simp only [Sign.apply]; omega)
          | positive =>
              cases t with
              | negative => exact above (by simp only [Sign.apply]; omega)
              | positive => exact congrArg some magnitudes

section Fields

variable (b : BitVec 32)

private theorem toNat_unpackMantissa :
    (@UnpackedFloat.unpackMantissa .binary32 b).toNat = b.toNat % 0x800000 := by
  simp [UnpackedFloat.unpackMantissa]

private theorem toNat_unpackExponent :
    (@UnpackedFloat.unpackExponent .binary32 b).toNat = b.toNat / 0x800000 % 0x100 := by
  simp [UnpackedFloat.unpackExponent, Nat.shiftRight_eq_div_pow]

private theorem toNat_unpackSign :
    (@UnpackedFloat.unpackSign .binary32 b).toNat = b.toNat / 0x80000000 := by
  have small := b.isLt
  change (b.toNat >>> 31) % 2 = b.toNat / 0x80000000
  rw [Nat.shiftRight_eq_div_pow]
  omega

end Fields

section Assembled

variable {sign : Sign} {m : BitVec 23} {e : BitVec 8}

private theorem reads_zero : Reads (.zero sign) (sign.apply (0 * 0x800000 + 0 : Nat)) := by
  cases sign <;> exact .zero

private theorem reads_subnormal (positive : 0 < m.toNat) :
    Reads (.finite sign m.toNat (-149) positive)
      (sign.apply (0 * 0x800000 + m.toNat : Nat)) := by
  refine (Reads.finite ?_ ?_ (.inr rfl) ?_).of_eq (congrArg sign.apply ?_)
  all_goals omega

private theorem reads_normal {positive : 0 < (1#1 ++ m).toNat} (normal : e.toNat ≠ 0)
    (notFull : e.toNat ≠ 255) :
    Reads (.finite sign (1#1 ++ m).toNat ((e.toNat : Int) - 150) positive)
      (sign.apply (e.toNat * 0x800000 + m.toNat : Nat)) := by
  have small := e.isLt
  have implicit : (1#1 ++ m).toNat = 0x800000 + m.toNat := by
    rw [BitVec.toNat_append, ← Nat.shiftLeft_add_eq_or_of_lt m.isLt]
    rfl
  refine (Reads.finite ?_ ?_ ?_ ?_).of_eq (congrArg sign.apply ?_)
  all_goals omega

end Assembled

private theorem reads_fields {b : BitVec 32}
    (number : (UnpackedFloat.unpack .binary32 b).isNaN = false) :
    Reads (UnpackedFloat.unpack .binary32 b)
      ((Sign.ofBitVec (@UnpackedFloat.unpackSign .binary32 b)).apply
        (b.toNat % 0x80000000 : Nat)) := by
  have magnitude : b.toNat % 0x80000000 =
      (b.toNat / 0x800000 % 0x100) * 0x800000 + b.toNat % 0x800000 := by
    omega
  rw [magnitude, ← toNat_unpackMantissa, ← toNat_unpackExponent]
  unfold UnpackedFloat.unpack at number ⊢
  dsimp only at number ⊢
  by_cases full : @UnpackedFloat.unpackExponent .binary32 b = -1#_
  · rw [if_pos full] at number ⊢
    by_cases none : @UnpackedFloat.unpackMantissa .binary32 b = 0#_
    · rw [if_pos none, full, none]
      exact .infinity
    · rw [if_neg none] at number
      cases number
  · rw [if_neg full]
    by_cases subnormal : @UnpackedFloat.unpackExponent .binary32 b = 0#_
    · rw [if_pos subnormal, subnormal]
      by_cases none : @UnpackedFloat.unpackMantissa .binary32 b = 0#_
      · rw [dif_pos none, none]
        exact reads_zero
      · rw [dif_neg none]
        exact reads_subnormal _
    · rw [if_neg subnormal]
      refine reads_normal (fun zero => subnormal ?_) (fun ones => full ?_)
      · exact BitVec.eq_of_toNat_eq zero
      · exact BitVec.eq_of_toNat_eq ones

theorem level_eq (x : Float32) :
    level x = (Sign.ofBitVec (@UnpackedFloat.unpackSign .binary32
      x.toModel.toBits.toBitVec)).apply (x.toBits.toNat % 0x80000000 : Nat) := by
  have sign := toNat_unpackSign x.toModel.toBits.toBitVec
  have small : x.toBits.toNat < 2 ^ 32 := x.toBits.toNat_lt
  have negative : @UnpackedFloat.unpackSign .binary32 x.toModel.toBits.toBitVec = 0#1 ↔
      x.toBits.toNat < 0x80000000 := by
    rw [← BitVec.toNat_inj, sign]
    change x.toBits.toNat / 0x80000000 = 0 ↔ _
    omega
  unfold level rank Sign.ofBitVec
  simp only [negative]
  by_cases positive : x.toBits.toNat < 0x80000000
  · simp only [if_pos positive, Sign.apply]
    omega
  · simp only [if_neg positive, Sign.apply]
    omega

theorem reads_unpack {x : Float32} (number : x.isNaN = false) : Reads (unpack x) (level x) := by
  rw [level_eq]
  exact reads_fields number

/-- The comparison of numbers is the one of their levels. -/
theorem le_iff_level_le {x y : Float32} (xNumber : x.isNaN = false) (yNumber : y.isNaN = false) :
    x ≤ y ↔ level x ≤ level y := by
  have compared := (reads_unpack xNumber).compare (reads_unpack yNumber)
  have unfolded : x ≤ y ↔ ((unpack x).compare (unpack y)).any (·.isLE) = true :=
    decide_eq_true_iff
  rw [unfolded, compared, Option.any_some, Int.isLE_compare]

theorem lt_iff_compare {x y : Float32} : x < y ↔ (unpack x).compare (unpack y) = some .lt := by
  have unfolded : x < y ↔ ((unpack x).compare (unpack y) == some .lt) = true :=
    decide_eq_true_iff
  rw [unfolded, beq_iff_eq]

theorem lt_iff_level_lt {x y : Float32} (xNumber : x.isNaN = false) (yNumber : y.isNaN = false) :
    x < y ↔ level x < level y := by
  rw [lt_iff_compare, (reads_unpack xNumber).compare (reads_unpack yNumber), Option.some.injEq,
    Int.compare_eq_lt]

theorem toBits_injective {x y : Float32} (same : x.toBits = y.toBits) : x = y := by
  obtain ⟨⟨bits, valid⟩⟩ := x
  obtain ⟨⟨otherBits, otherValid⟩⟩ := y
  obtain rfl : bits = otherBits := same
  rfl

theorem rank_injective {x y : Float32} (same : rank x = rank y) : x = y := by
  unfold rank at same
  apply toBits_injective
  apply UInt32.toNat_inj.mp
  dsimp only at same
  omega

/-- The total order puts negative zero below zero and adds nothing else to the numeric order. -/
theorem rank_lt_iff {x y : Float32} :
    rank x < rank y ↔ level x < level y ∨ x = -0 ∧ y = 0 := by
  have negativeZero : rank (-0 : Float32) = -1 := by decide
  have zero : rank (0 : Float32) = 0 := by decide
  unfold level
  constructor
  · intro less
    by_cases zeros : rank x = -1 ∧ rank y = 0
    · exact .inr ⟨rank_injective (zeros.1.trans negativeZero.symm),
        rank_injective (zeros.2.trans zero.symm)⟩
    · exact .inl (by omega)
  · intro less
    rcases less with less | ⟨rfl, rfl⟩
    · omega
    · omega

/-- One number is above another one in the total order of IEEE 754: it is greater, or it is zero and
the other one is negative zero. -/
def Above (x y : Float32) : Prop :=
  y < x ∨ x = 0 ∧ y = -0

theorem above_iff_rank_lt {x y : Float32} (xNumber : x.isNaN = false) (yNumber : y.isNaN = false) :
    Above x y ↔ rank y < rank x := by
  rw [Above, lt_iff_level_lt yNumber xNumber, rank_lt_iff, and_comm (a := x = 0)]

instance : Std.TransCmp totalCompare where
  eq_swap := Std.OrientedOrd.eq_swap
  isLE_trans := Std.TransOrd.isLE_trans

end ViewClassifier.Binary32
