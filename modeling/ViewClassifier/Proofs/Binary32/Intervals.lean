import ViewClassifier.Proofs.Binary32.Signed

/-!
# Intervals of finite numbers

A number keeps two bounds when it is finite and its exact value lies between them. An operation whose
exact result keeps two bounds that the format has room for keeps them as well after rounding, so that
bounds are found as they are for exact values. A number whose bounds are the same is exact.
-/

set_option autoImplicit false

namespace ViewClassifier.Binary32

open Rounding

section Room

variable {value : ℚ}

theorem Fits.neg (fits : Fits value) : Fits (-value) := by
  obtain ⟨i, finite, rfl⟩ := fits
  exact ⟨-i, (Int.natAbs_neg i).trans_lt finite, reading_neg i⟩

theorem fits_scaled {count octave : ℕ} (small : count < 2 ^ 24) (inside : octave < 254) :
    Fits (count * 2 ^ (-149 + octave : ℤ)) := by
  obtain ⟨place, scaled, finite⟩ := exists_magnitude_scaled small inside
  exact ⟨place, finite, (reading_apply .positive place).trans scaled⟩

theorem fits_of_double {count : ℤ} (double : 2 * value = count) (small : count.natAbs < 2 ^ 24) :
    Fits value := by
  have halves := fits_scaled small (show 148 < 254 by decide)
  rw [show (2 : ℚ) ^ (-149 + (148 : ℕ) : ℤ) = 1 / 2 by norm_num] at halves
  obtain ⟨magnitude, rfl | rfl⟩ := Int.eq_nat_or_neg count
  · rw [Int.natAbs_natCast] at halves
    rw [Int.cast_natCast] at double
    rwa [show value = magnitude * (1 / 2) by linarith]
  · rw [Int.natAbs_neg, Int.natAbs_natCast] at halves
    rw [Int.cast_neg, Int.cast_natCast] at double
    rw [show value = -(magnitude * (1 / 2)) by linarith]
    exact halves.neg

/-- Room for all multiples of a unit that the mantissa can count. -/
def FitsMultiples (unit : ℚ) : Prop :=
  ∀ count : ℕ, count < 2 ^ 24 → Fits (count * unit)

theorem fitsMultiples_two_pow {shift : ℕ} (inside : shift < 105) : FitsMultiples (2 ^ shift) := by
  intro count small
  have scaled := fits_scaled small (show 149 + shift < 254 by omega)
  rwa [show (-149 + (149 + shift : ℕ) : ℤ) = shift by omega, zpow_natCast] at scaled

theorem fitsMultiples_one : FitsMultiples 1 :=
  pow_zero (2 : ℚ) ▸ fitsMultiples_two_pow (by decide)

theorem fits_natCast {count : ℕ} (small : count < 2 ^ 24) : Fits count :=
  mul_one (count : ℚ) ▸ fitsMultiples_one count small

theorem fits_zero : Fits 0 :=
  Nat.cast_zero (R := ℚ) ▸ fits_natCast (by decide)

theorem fits_one : Fits 1 :=
  Nat.cast_one (R := ℚ) ▸ fits_natCast (by decide)

theorem fits_half : Fits (1 / 2) := by
  have double : 2 * (1 / 2 : ℚ) = (1 : ℤ) := by norm_num
  exact fits_of_double double (by decide)

theorem FitsMultiples.fits {unit : ℚ} (multiples : FitsMultiples unit) : Fits unit := by
  have once := multiples 1 (by decide)
  rwa [Nat.cast_one, one_mul] at once

theorem fits_two_pow {shift : ℕ} (inside : shift < 105) : Fits (2 ^ shift) :=
  (fitsMultiples_two_pow inside).fits

end Room

/-- A finite number whose exact value keeps two bounds. -/
structure Between (low high : ℚ) (x : Float32) : Prop where
  finite : x.isFinite = true
  least : low ≤ signed x
  greatest : signed x ≤ high

variable {x y : Float32} {value low high a b c d : ℚ}

theorem Settles.between (settles : Settles value x) (lowFits : Fits low) (highFits : Fits high)
    (least : low ≤ value) (greatest : value ≤ high) : Between low high x := by
  obtain ⟨i, iFinite, rfl⟩ := lowFits
  obtain ⟨j, jFinite, rfl⟩ := highFits
  have above := (nearestLevel_reading iFinite.le).le_of_le settles.nearest least
  have below := settles.nearest.le_of_le (nearestLevel_reading jFinite.le) greatest
  exact ⟨isFinite_iff.mpr ⟨settles.number, by omega⟩, reading_strictMono.monotone above,
    reading_strictMono.monotone below⟩

theorem between_signed (finite : x.isFinite = true) : Between (signed x) (signed x) x :=
  ⟨finite, le_rfl, le_rfl⟩

theorem between_ofNat {count : ℕ} (small : count < 2 ^ 24) : Between count count (ofNat count) := by
  obtain ⟨amount, exactly⟩ := (rounds_ofNat count).exact_of_count small
  rw [← exactly, ← amount.signed_eq]
  exact between_signed amount.isFinite

theorem between_zero : Between 0 0 0 := by
  have zero : signed 0 = 0 := (signed_eq_exact (by decide)).trans (magnitude_zero _)
  exact ⟨by decide, zero.ge, zero.le⟩

theorem between_one : Between 1 1 1 := by
  have one : signed 1 = 1 := (signed_eq_exact (by decide)).trans exact_one
  exact ⟨by decide, one.ge, one.le⟩

theorem between_half : Between (1 / 2) (1 / 2) 0.5 := by
  have read : exact 0.5 = (0x800000 : ℕ) * 2 ^ (-149 + (125 : ℕ) : ℤ) :=
    exact_eq (by decide) (by decide) (by decide)
  have half : signed 0.5 = 1 / 2 := by
    rw [signed_eq_exact (by decide), read]
    norm_num
  exact ⟨by decide, half.ge, half.le⟩

namespace Between

theorem number (between : Between a b x) : x.isNaN = false :=
  isNaN_of_isFinite between.finite

theorem amount (between : Between 0 b x) : Amount x :=
  Extent.amount ⟨between.number, level_nonneg between.least⟩ between.finite

theorem mono (between : Between a b x) (least : low ≤ a) (greatest : b ≤ high) :
    Between low high x :=
  ⟨between.finite, least.trans between.least, between.greatest.trans greatest⟩

theorem signed_eq (between : Between a a x) : signed x = a :=
  le_antisymm between.greatest between.least

/-- An exact value above zero leaves one number. -/
theorem eq_of_pos (left : Between a a x) (right : Between a a y) (positive : 0 < a) : x = y := by
  have zero : reading 0 = 0 := magnitude_zero .binary32
  have same : signed x = signed y := left.signed_eq.trans right.signed_eq.symm
  refine eq_of_level_eq (signed_inj.mp same) (reading_strictMono.lt_iff_lt.mp ?_)
  rw [zero]
  exact positive.trans_eq right.signed_eq.symm

theorem add (left : Between a b x) (right : Between c d y) (lowFits : Fits low)
    (highFits : Fits high) (least : low ≤ a + c) (greatest : b + d ≤ high) :
    Between low high (x + y) :=
  (settles_add left.finite right.finite).between lowFits highFits
    (least.trans (add_le_add left.least right.least))
    ((add_le_add left.greatest right.greatest).trans greatest)

theorem sub (left : Between a b x) (right : Between c d y) (lowFits : Fits low)
    (highFits : Fits high) (least : low ≤ a - d) (greatest : b - c ≤ high) :
    Between low high (x - y) :=
  (settles_sub left.finite right.finite).between lowFits highFits
    (least.trans (sub_le_sub left.least right.greatest))
    ((sub_le_sub left.greatest right.least).trans greatest)

theorem mul (left : Between 0 b x) (right : Between 0 d y) (highFits : Fits high)
    (greatest : b * d ≤ high) : Between 0 high (x * y) :=
  (settles_mul left.finite right.finite).between fits_zero highFits
    (mul_nonneg left.least right.least)
    ((mul_le_mul left.greatest right.greatest right.least
      (left.least.trans left.greatest)).trans greatest)

theorem mul_exact (left : Between a a x) (right : Between b b y) (fits : Fits (a * b)) :
    Between (a * b) (a * b) (x * y) :=
  (settles_mul left.finite right.finite).between fits fits
    (by rw [left.signed_eq, right.signed_eq]) (by rw [left.signed_eq, right.signed_eq])

theorem over_one (left : Between a a x) : Between a a (x / 1) := by
  have one := between_one.signed_eq
  have fits := fits_signed left.finite
  have settles := settles_div left.finite between_one.finite (one ▸ one_ne_zero)
  rw [one, div_one, left.signed_eq] at settles
  rw [left.signed_eq] at fits
  exact settles.between fits fits le_rfl le_rfl

/-- A number is no farther from zero after a division by one or more. -/
theorem div_of_one_le (left : Between (-a) a x) (right : Between 1 d y) (fits : Fits a) :
    Between (-a) a (x / y) := by
  have one := right.least
  have positive : 0 < signed y := zero_lt_one.trans_le one
  have magnitude : |signed x / signed y| ≤ a := by
    rw [abs_div, abs_of_pos positive]
    exact (div_le_self (abs_nonneg _) one).trans (abs_le.mpr ⟨left.least, left.greatest⟩)
  exact (settles_div left.finite right.finite positive.ne').between fits.neg fits
    (abs_le.mp magnitude).1 (abs_le.mp magnitude).2

/-- A part of a whole is a share between zero and one. -/
theorem share (left : Between 0 a x) (right : Between 0 d y) (positive : 0 < signed y)
    (part : signed x ≤ signed y) : Between 0 1 (x / y) :=
  (settles_div left.finite right.finite positive.ne').between fits_zero fits_one
    (div_nonneg left.least right.least) ((div_le_one positive).mpr part)

theorem abs (between : Between (-a) a x) : Between 0 a x.abs := by
  obtain ⟨amount, magnitude⟩ := exact_abs between.finite
  rw [← amount.signed_eq] at magnitude
  exact ⟨amount.isFinite, magnitude.ge.trans' (abs_nonneg _),
    magnitude.le.trans (abs_le.mpr ⟨between.least, between.greatest⟩)⟩

end Between

section Order

theorem le_iff_signed_le (xNumber : x.isNaN = false) (yNumber : y.isNaN = false) :
    x ≤ y ↔ signed x ≤ signed y := by
  rw [le_iff_level_le xNumber yNumber, signed_le_iff]

theorem lt_iff_signed_lt (xNumber : x.isNaN = false) (yNumber : y.isNaN = false) :
    x < y ↔ signed x < signed y := by
  rw [lt_iff_level_lt xNumber yNumber]
  exact reading_strictMono.lt_iff_lt.symm

theorem beq_iff_signed_eq (xNumber : x.isNaN = false) (yNumber : y.isNaN = false) :
    (x == y) = true ↔ signed x = signed y := by
  have unfolded : (x == y) = ((unpack x).compare (unpack y) == some .eq) := rfl
  rw [unfolded, (reads_unpack xNumber).compare (reads_unpack yNumber), beq_iff_eq,
    Option.some.injEq, Int.compare_eq_eq, signed_inj]

end Order

section Unit

theorem between_unit (number : x.isNaN = false) (least : 0 ≤ signed x) (greatest : signed x ≤ 1) :
    Between 0 1 x := by
  have bottom := between_zero.signed_eq
  have top := between_one.signed_eq
  have above : level 0 ≤ level x := signed_le_iff.mp (bottom.trans_le least)
  have below : level x ≤ level 1 := signed_le_iff.mp (greatest.trans_eq top.symm)
  have bounds : level 0 = 0 ∧ level 1 < 0x7f800000 := by decide
  exact ⟨isFinite_iff.mpr ⟨number, by omega⟩, least, greatest⟩

theorem between_unit_iff : Between 0 1 x ↔ 0 ≤ x ∧ x ≤ 1 := by
  constructor
  · intro between
    rw [le_iff_signed_le between_zero.number between.number, between_zero.signed_eq,
      le_iff_signed_le between.number between_one.number, between_one.signed_eq]
    exact ⟨between.least, between.greatest⟩
  · intro inside
    have number := (numbers_of_le inside.2).1
    have least := (le_iff_signed_le between_zero.number number).mp inside.1
    have greatest := (le_iff_signed_le number between_one.number).mp inside.2
    rw [between_zero.signed_eq] at least
    rw [between_one.signed_eq] at greatest
    exact between_unit number least greatest

theorem upTo_one_iff : UpTo 1 x ↔ 0 ≤ x ∧ x ≤ 1 := by
  constructor
  · intro within
    exact ⟨within.amount.zero_le, within.le⟩
  · intro unit
    have finite := (between_unit_iff.mpr unit).finite
    exact ⟨amount_iff.mpr ⟨finite, unit.1⟩, by decide, unit.2⟩

theorem clampUnit_spec (number : x.isNaN = false) :
    (clampUnit x).isNaN = false ∧ signed (clampUnit x) = Max.max 0 (Min.min 1 (signed x)) := by
  have below := lt_iff_signed_lt number between_zero.number
  have above := lt_iff_signed_lt between_one.number number
  rw [between_zero.signed_eq] at below
  rw [between_one.signed_eq] at above
  unfold clampUnit
  by_cases negative : x < 0
  · have least := (below.mp negative).le
    rw [if_pos negative, min_eq_right (least.trans zero_le_one), max_eq_left least]
    exact ⟨between_zero.number, between_zero.signed_eq⟩
  · have least := not_lt.mp (mt below.mpr negative)
    rw [if_neg negative]
    by_cases greater : 1 < x
    · rw [if_pos greater, min_eq_left (above.mp greater).le, max_eq_right zero_le_one]
      exact ⟨between_one.number, between_one.signed_eq⟩
    · rw [if_neg greater, min_eq_right (not_lt.mp (mt above.mpr greater)), max_eq_right least]
      exact ⟨number, rfl⟩

/-- Every number is moved into the unit interval. -/
theorem between_clampUnit (number : x.isNaN = false) : Between 0 1 (clampUnit x) := by
  obtain ⟨kept, moved⟩ := clampUnit_spec number
  refine between_unit kept ?_ ?_
  · rw [moved]
    exact le_max_left _ _
  · rw [moved]
    exact max_le zero_le_one (min_le_left _ _)

end Unit

section Sums

variable {terms : List Float32} {start : Float32} {unit : ℚ}

/-- A sum of numbers that are not negative is finite as long as the mantissa can count them in their
unit, and it reaches what was there before and each of them. -/
structure Sums (high : ℚ) (start : Float32) (terms : List Float32) (sum : Float32) : Prop where
  between : Between 0 high sum
  start_le : signed start ≤ signed sum
  term_le : ∀ term ∈ terms, signed term ≤ signed sum

theorem sums_foldl (multiples : FitsMultiples unit) {count : ℕ} (begun : Between 0 (count * unit) start)
    (each : ∀ term ∈ terms, Between 0 unit term) (few : count + terms.length < 2 ^ 24) :
    Sums ((count + terms.length : ℕ) * unit) start terms (terms.foldl (· + ·) start) := by
  induction terms generalizing start count with
  | nil => exact ⟨begun, le_rfl, fun _ member => nomatch member⟩
  | cons term terms ih =>
      rw [List.length_cons] at few
      have first := each term List.mem_cons_self
      have fits := multiples (count + 1) (by omega)
      have next : Between 0 ((count + 1 : ℕ) * unit) (start + term) :=
        begun.add first fits_zero fits (by rw [add_zero]) (by push_cast; linarith)
      have settles := settles_add begun.finite first.finite
      have startLe := settles.le_signed (fits_signed begun.finite)
        (le_add_of_nonneg_right first.least)
      have firstLe := settles.le_signed (fits_signed first.finite)
        (le_add_of_nonneg_left begun.least)
      obtain ⟨between, reached, others⟩ := ih next
        (fun term member => each term (List.mem_cons_of_mem _ member)) (by omega)
      have lengths : count + 1 + terms.length = count + (term :: terms).length := by
        rw [List.length_cons]
        omega
      refine ⟨lengths ▸ between, startLe.trans reached, fun other member => ?_⟩
      rcases List.mem_cons.mp member with rfl | member
      · exact firstLe.trans reached
      · exact others other member

theorem sums_of_zero (multiples : FitsMultiples unit) (each : ∀ term ∈ terms, Between 0 unit term)
    (few : terms.length < 2 ^ 24) :
    Sums (terms.length * unit) 0 terms (terms.foldl (· + ·) 0) := by
  have begun : Between 0 ((0 : ℕ) * unit) 0 := by
    rw [Nat.cast_zero, zero_mul]
    exact between_zero
  have sums := sums_foldl multiples begun each (by omega)
  rwa [Nat.zero_add] at sums

theorem foldl_of_zeros {value : ℚ} (begun : Between value value start)
    (each : ∀ term ∈ terms, Between 0 0 term) :
    Between value value (terms.foldl (· + ·) start) := by
  induction terms generalizing start with
  | nil => exact begun
  | cons term terms ih =>
      have fits := fits_signed begun.finite
      rw [begun.signed_eq] at fits
      refine ih ?_ fun term member => each term (List.mem_cons_of_mem _ member)
      exact begun.add (each term List.mem_cons_self) fits fits (by rw [add_zero]) (by rw [add_zero])

/-- A sum in which one term alone is not zero is that term. -/
theorem foldl_of_single {value : ℚ} {place : ℕ} (inside : place < terms.length)
    (single : Between value value terms[place])
    (others : ∀ i (h : i < terms.length), i ≠ place → Between 0 0 terms[i]) :
    Between value value (terms.foldl (· + ·) 0) := by
  have split : terms = terms.take place ++ terms[place] :: terms.drop (place + 1) := by
    rw [← List.drop_eq_getElem_cons inside, List.take_append_drop]
  have before : ∀ term ∈ terms.take place, Between 0 0 term := by
    intro term member
    obtain ⟨i, bound, rfl⟩ := List.mem_iff_getElem.mp member
    rw [List.length_take] at bound
    rw [List.getElem_take]
    exact others i (by omega) (by omega)
  have after : ∀ term ∈ terms.drop (place + 1), Between 0 0 term := by
    intro term member
    obtain ⟨i, bound, rfl⟩ := List.mem_iff_getElem.mp member
    rw [List.length_drop] at bound
    rw [List.getElem_drop]
    exact others _ (by omega) (by omega)
  have fits := fits_signed single.finite
  rw [single.signed_eq] at fits
  have reached : Between value value ((terms.take place).foldl (· + ·) 0 + terms[place]) :=
    (foldl_of_zeros between_zero before).add single fits fits (by rw [zero_add]) (by rw [zero_add])
  rw [split, List.foldl_append, List.foldl_cons]
  exact foldl_of_zeros reached after

end Sums

end ViewClassifier.Binary32
