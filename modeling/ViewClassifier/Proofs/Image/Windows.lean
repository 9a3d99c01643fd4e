import ViewClassifier.Image.Resampling
import ViewClassifier.Proofs.Binary32.Intervals
import ViewClassifier.Proofs.Binary32.Quotient

/-!
# Windows of a resampled axis

The centre of a window lies on its source, and one source sample holds it. The window covers that
sample, whose weight is at least one half, so that the sum of the weights is positive and every weight
is a share of it. Positions and weights are rounded, and all of this holds after rounding.
-/

set_option autoImplicit false

namespace ViewClassifier

open Binary32

namespace Window

section Parts

variable (source result place : ℕ)

/-- How many source samples there are to one result sample. -/
def ratio : Float32 :=
  ofNat source / ofNat result

/-- Where the middle of a result sample lies on the source. -/
def centre : Float32 :=
  (ofNat place + 0.5) * ratio source result

/-- The first source sample of the window, and the first one after it. -/
def range : ℕ × ℕ :=
  bounds source (centre source result place) (reach (ratio source result))

/-- The weight of a source sample before the weights are divided by their sum. -/
def rawWeight (i : ℕ) : Float32 :=
  triangle ((ofNat i - (centre source result place - 0.5)) / reach (ratio source result))

def rawWeights : List Float32 :=
  (List.range' (range source result place).1
    ((range source result place).2 - (range source result place).1)).map
      (rawWeight source result place)

/-- What the weights are divided by. -/
def sum : Float32 :=
  (rawWeights source result place).foldl (· + ·) 0

theorem of_eq : Window.of source result place =
    ⟨(range source result place).1,
      (rawWeights source result place).map (· / sum source result place)⟩ := by
  unfold Window.of
  rfl

theorem length_rawWeights : (rawWeights source result place).length =
    (range source result place).2 - (range source result place).1 := by
  rw [rawWeights, List.length_map, List.length_range']

theorem getElem_rawWeights {i : ℕ} (h : i < (rawWeights source result place).length) :
    (rawWeights source result place)[i] =
      rawWeight source result place ((range source result place).1 + i) := by
  simp [rawWeights]

end Parts

/-- A place on the result of resampling an axis with samples. The mantissa can count both lengths in
halves. -/
structure Axis (source result place : ℕ) : Prop where
  some : 0 < source
  small : source ≤ 2 ^ 23
  inside : place < result
  few : result ≤ 2 ^ 23

section Bounds

variable {low high value bound : ℤ}

theorem clampInt_mem (value : ℤ) (ordered : low ≤ high) :
    low ≤ clampInt low high value ∧ clampInt low high value ≤ high := by
  unfold clampInt
  split
  · omega
  · split <;> omega

theorem clampInt_le (high : ℤ) (least : low ≤ bound) (le : value ≤ bound) :
    clampInt low high value ≤ bound := by
  unfold clampInt
  split
  · exact least
  · split <;> omega

theorem le_clampInt (low : ℤ) (greatest : bound ≤ high) (le : bound ≤ value) :
    bound ≤ clampInt low high value := by
  unfold clampInt
  split
  · omega
  · split <;> omega

variable {source i : ℕ} {c r : Float32}

/-- A window covers at least one source sample and only source samples, wherever its centre lies. -/
theorem bounds_inside (some : 0 < source) (c r : Float32) :
    (bounds source c r).1 < (bounds source c r).2 ∧ (bounds source c r).2 ≤ source := by
  unfold bounds
  obtain ⟨first, last⟩ := clampInt_mem (toInteger (Binary32.floor (c - r)))
    (show 0 ≤ (source : ℤ) - 1 by omega)
  obtain ⟨next, length⟩ := clampInt_mem (toInteger (Binary32.ceil (c + r)))
    (show clampInt 0 (source - 1) (toInteger (Binary32.floor (c - r))) + 1 ≤ source by omega)
  dsimp only
  omega

/-- A window covers the source sample that holds its centre. -/
theorem bounds_cover (inside : i < source) (small : source ≤ 2 ^ 23) (held : Between i (i + 1) c)
    (far : Between 1 (2 ^ 23) r) : (bounds source c r).1 ≤ i ∧ i < (bounds source c r).2 := by
  have top : ((i + 1 : ℕ) : ℚ) ≤ 2 ^ 23 := by exact_mod_cast (show i + 1 ≤ 2 ^ 23 by omega)
  have position : (0 : ℚ) ≤ i := Nat.cast_nonneg i
  push_cast at top
  have fits : Fits i := fits_natCast (by omega)
  have nextFits : Fits (i + 1 : ℕ) := fits_natCast (by omega)
  have before : Between (-2 ^ 23) i (c - r) :=
    held.sub far (fits_two_pow (by decide)).neg fits (by linarith) (by linarith)
  have after : Between (i + 1 : ℕ) (2 ^ 24) (c + r) :=
    held.add far nextFits (fits_two_pow (by decide)) (by push_cast; linarith) (by linarith)
  have first := clampInt_le (source - 1) (Int.natCast_nonneg i)
    (toInteger_floor_le before.finite before.greatest)
  have last := le_clampInt (clampInt 0 (source - 1) (toInteger (Binary32.floor (c - r))) + 1)
    (show ((i + 1 : ℕ) : ℤ) ≤ source by exact_mod_cast inside)
    (le_toInteger_ceil after.finite (by omega) after.least)
  unfold bounds
  dsimp only
  omega

end Bounds

section Weights

variable {x : Float32} {a : ℚ}

theorem between_triangle (x : Float32) : Between 0 1 (triangle x) := by
  unfold triangle
  by_cases near : x.abs < 1
  · have number := (numbers_of_lt near).1
    have absolute := level_abs ((isNaN_abs x).symm.trans number)
    have nonneg : 0 ≤ signed x.abs := by
      rw [signed_eq_exact (by omega)]
      exact exact_nonneg _
    have less := (lt_iff_signed_lt number between_one.number).mp near
    rw [between_one.signed_eq] at less
    rw [if_pos near]
    exact between_one.sub (between_unit number nonneg less.le) fits_zero fits_one
      (by rw [sub_self]) (by rw [sub_zero])
  · rw [if_neg near]
    exact between_zero.mono le_rfl zero_le_one

theorem triangle_of_near (between : Between (-a) a x) (near : a < 1) (fits : Fits (1 - a)) :
    Between (1 - a) 1 (triangle x) := by
  have absolute := between.abs
  have less : x.abs < 1 := by
    rw [lt_iff_signed_lt absolute.number between_one.number, between_one.signed_eq]
    exact absolute.greatest.trans_lt near
  unfold triangle
  rw [if_pos less]
  exact between_one.sub absolute fits fits_one le_rfl (by rw [sub_zero])

theorem triangle_of_far (finite : x.isFinite = true) (far : 1 ≤ |signed x|) : triangle x = 0 := by
  obtain ⟨amount, absolute⟩ := exact_abs finite
  have greater : ¬ x.abs < 1 := by
    rw [lt_iff_signed_lt amount.number between_one.number, between_one.signed_eq,
      amount.signed_eq, absolute]
    exact not_lt.mpr far
  exact if_neg greater

end Weights

section Positions

variable {source result place : ℕ}

theorem between_ratio (axis : Axis source result place) :
    Between 0 (2 ^ 23) (ratio source result) := by
  obtain ⟨some, small, inside, few⟩ := axis
  have dividend := between_ofNat (show source < 2 ^ 24 by omega)
  have divisor := between_ofNat (show result < 2 ^ 24 by omega)
  have greatest : (source : ℚ) ≤ 2 ^ 23 := by exact_mod_cast small
  have one : (1 : ℚ) ≤ result := by exact_mod_cast Nat.one_le_of_lt inside
  have apart : signed (ofNat result) ≠ 0 := by
    rw [divisor.signed_eq]
    exact (zero_lt_one.trans_le one).ne'
  have settles := settles_div dividend.finite divisor.finite apart
  rw [dividend.signed_eq, divisor.signed_eq] at settles
  exact settles.between fits_zero (fits_two_pow (by decide)) (by positivity)
    ((div_le_self (Nat.cast_nonneg source) one).trans greatest)

/-- The ratio of two lengths fills the mantissa, so that it is off by one part in `2 ^ 24` at most. -/
theorem ratio_le (axis : Axis source result place) :
    signed (ratio source result) ≤ source / result + source / result / 2 ^ 24 := by
  have between := between_ratio axis
  obtain ⟨some, small, inside, few⟩ := axis
  have target : 0 < result := by omega
  have amount : Amount (ratio source result) :=
    Extent.amount ⟨between.number, level_nonneg between.least⟩ between.finite
  have rounds := (amount_ofNat (show source < 2 ^ 64 by omega)).rounds_div
    (amount_ofNat (show result < 2 ^ 64 by omega)) (level_ofNat_pos target)
  rw [exact_ofNat (show source < 2 ^ 24 by omega), exact_ofNat (show result < 2 ^ 24 by omega)]
    at rounds
  have least : (1 : ℚ) ≤ source := by exact_mod_cast some
  have most : (result : ℚ) ≤ 2 ^ 23 := by exact_mod_cast few
  have normal : (2 : ℚ) ^ (-126 : ℤ) ≤ source / result := by
    rw [le_div_iff₀ (by exact_mod_cast target)]
    calc (2 : ℚ) ^ (-126 : ℤ) * result ≤ 2 ^ (-126 : ℤ) * 2 ^ 23 := by gcongr
      _ ≤ 1 := by norm_num
      _ ≤ source := least
  rw [amount.signed_eq]
  exact rounds.exact_le (.inr normal)

theorem between_reach (axis : Axis source result place) :
    Between 1 (2 ^ 23) (reach (ratio source result)) := by
  have quotient := between_ratio axis
  unfold reach
  by_cases less : ratio source result < 1
  · rw [if_pos less]
    exact between_one.mono le_rfl (by norm_num)
  · rw [if_neg less]
    rw [lt_iff_signed_lt quotient.number between_one.number, between_one.signed_eq, not_lt] at less
    exact ⟨quotient.finite, less, quotient.greatest⟩

theorem between_middle (inside : place < 2 ^ 23) :
    Between (place + 1 / 2) (place + 1 / 2) (ofNat place + 0.5) := by
  have double : 2 * (place + 1 / 2 : ℚ) = (2 * place + 1 : ℤ) := by push_cast; ring
  have fits := fits_of_double double (by omega)
  exact (between_ofNat (by omega)).add between_half fits fits le_rfl le_rfl

/-- The centre of a window does not leave the source, although the ratio may be rounded up. -/
theorem between_centre (axis : Axis source result place) :
    Between 0 source (centre source result place) := by
  have quotient := between_ratio axis
  have close : Between 0 (source / result + source / result / 2 ^ 24) (ratio source result) :=
    ⟨quotient.finite, quotient.least, ratio_le axis⟩
  obtain ⟨_, small, inside, few⟩ := axis
  have middle := between_middle (show place < 2 ^ 23 by omega)
  have before : (place + 1 : ℚ) ≤ result := by exact_mod_cast inside
  have most : (result : ℚ) ≤ 2 ^ 23 := by exact_mod_cast few
  have position : (0 : ℚ) ≤ place := Nat.cast_nonneg place
  have positive : (0 : ℚ) < result := by linarith
  -- Half of a result sample is left, which is more than the ratio can be rounded up by.
  have factor : (place + 1 / 2 : ℚ) * (1 + 1 / 2 ^ 24) ≤ result := by linarith
  refine (middle.mono (by linarith) le_rfl).mul close (fits_natCast (by omega)) ?_
  have length := div_mul_cancel₀ (source : ℚ) positive.ne'
  calc (place + 1 / 2 : ℚ) * (source / result + source / result / 2 ^ 24)
      = source / result * ((place + 1 / 2) * (1 + 1 / 2 ^ 24)) := by ring
    _ ≤ source / result * (result : ℚ) := mul_le_mul_of_nonneg_left factor (by positivity)
    _ = (source : ℚ) := length

/-- A position on the source is held by a source sample. At the end of the source it is the last. -/
theorem exists_holder {c : Float32} (some : 0 < source) (on : Between 0 source c) :
    ∃ i < source, Between i (i + 1) c := by
  have below := Nat.floor_le on.least
  have above := Nat.lt_floor_add_one (signed c)
  by_cases inside : ⌊signed c⌋₊ < source
  · exact ⟨_, inside, on.finite, below, above.le⟩
  · have reached : (source : ℚ) ≤ ⌊signed c⌋₊ := by exact_mod_cast Nat.not_lt.mp inside
    obtain ⟨last, rfl⟩ := Nat.exists_eq_add_of_le' some
    have top := on.greatest
    push_cast at reached top
    exact ⟨last, Nat.lt_succ_self last, on.finite, by linarith, top⟩

/-- The weight of a sample that holds the centre is at least one half. -/
theorem rawWeight_of_holder {i : ℕ} (small : i < 2 ^ 23)
    (held : Between i (i + 1) (centre source result place))
    (far : Between 1 (2 ^ 23) (reach (ratio source result))) :
    Between (1 / 2) 1 (rawWeight source result place i) := by
  have lowDouble : 2 * (i - 1 / 2 : ℚ) = (2 * i - 1 : ℤ) := by push_cast; ring
  have highDouble : 2 * (i + 1 / 2 : ℚ) = (2 * i + 1 : ℤ) := by push_cast; ring
  have lowFits := fits_of_double lowDouble (by omega)
  have highFits := fits_of_double highDouble (by omega)
  have left : Between (i - 1 / 2) (i + 1 / 2) (centre source result place - 0.5) :=
    held.sub between_half lowFits highFits (by linarith) (by linarith)
  have distance : Between (-(1 / 2)) (1 / 2)
      (ofNat i - (centre source result place - 0.5)) :=
    (between_ofNat (by omega)).sub left fits_half.neg fits_half (by linarith) (by linarith)
  have rest : (1 / 2 : ℚ) = 1 - 1 / 2 := by norm_num
  have near := triangle_of_near (distance.div_of_one_le far fits_half) (by norm_num)
    (rest ▸ fits_half)
  rwa [← rest] at near

end Positions

section Shares

variable {source result place : ℕ}

/-- A window with at least one weight, all of them for source samples, that come from other weights by
a division by their positive sum. -/
structure Shares (source : ℕ) (raw : List Float32) (w : Window) : Prop where
  some : 0 < w.weights.length
  inside : w.start + w.weights.length ≤ source
  divided : w.weights = raw.map (· / raw.foldl (· + ·) 0)
  positive : 0 < raw.foldl (· + ·) 0

theorem between_of_mem_rawWeights {weight : Float32}
    (member : weight ∈ rawWeights source result place) : Between 0 1 weight := by
  obtain ⟨i, _, rfl⟩ := List.mem_map.mp member
  exact between_triangle _

theorem rawWeight_mem {i : ℕ} (first : (range source result place).1 ≤ i)
    (last : i < (range source result place).2) :
    rawWeight source result place i ∈ rawWeights source result place := by
  refine List.mem_map_of_mem (List.mem_range'_1.mpr ⟨first, ?_⟩)
  omega

theorem range_inside (some : 0 < source) (result place : ℕ) :
    (range source result place).1 < (range source result place).2 ∧
      (range source result place).2 ≤ source :=
  bounds_inside some _ _

theorem sums_rawWeights (axis : Axis source result place) :
    Sums (rawWeights source result place).length 0 (rawWeights source result place)
      (sum source result place) := by
  obtain ⟨_, length⟩ := range_inside axis.some result place
  have few : (rawWeights source result place).length < 2 ^ 24 := by
    have small := axis.small
    rw [length_rawWeights]
    omega
  have sums := sums_of_zero fitsMultiples_one (fun _ => between_of_mem_rawWeights) few
  rwa [mul_one] at sums

theorem half_le_sum (axis : Axis source result place) :
    1 / 2 ≤ signed (sum source result place) := by
  obtain ⟨i, held, between⟩ := exists_holder axis.some (between_centre axis)
  have far := between_reach axis
  obtain ⟨first, last⟩ := bounds_cover held axis.small between far
  have half := rawWeight_of_holder (held.trans_le axis.small) between far
  exact half.least.trans ((sums_rawWeights axis).term_le _ (rawWeight_mem first last))

/-- Every window over a source with samples covers some of them and has a positive sum of weights. -/
theorem shares_of (axis : Axis source result place) :
    Shares source (rawWeights source result place) (Window.of source result place) := by
  obtain ⟨order, length⟩ := range_inside axis.some result place
  have counted := length_rawWeights source result place
  have half := half_le_sum axis
  have between := (sums_rawWeights axis).between
  rw [of_eq]
  refine ⟨?_, ?_, rfl, ?_⟩
  · rw [List.length_map, counted]
    omega
  · change (range source result place).1 + _ ≤ source
    rw [List.length_map, counted]
    omega
  · change 0 < sum source result place
    rw [lt_iff_signed_lt between_zero.number between.number, between_zero.signed_eq]
    linarith

theorem between_of_mem_weights (axis : Axis source result place) {weight : Float32}
    (member : weight ∈ (Window.of source result place).weights) : Between 0 1 weight := by
  have sums := sums_rawWeights axis
  have half := half_le_sum axis
  rw [of_eq] at member
  obtain ⟨raw, rawMember, rfl⟩ := List.mem_map.mp member
  exact (between_of_mem_rawWeights rawMember).share sums.between (by linarith)
    (sums.term_le raw rawMember)

end Shares

section Blending

/-- The weighted samples of a window, in the order in which they are added up. -/
def products (w : Window) (samples : ℕ → Float32) : List Float32 :=
  w.weights.mapIdx fun i weight => samples (w.start + i) * weight

theorem sumFrom_eq (samples : ℕ → Float32) (start : ℕ) (total : Float32) (weights : List Float32) :
    sumFrom samples start total weights =
      (weights.mapIdx fun i weight => samples (start + i) * weight).foldl (· + ·) total := by
  induction weights generalizing start total with
  | nil => rfl
  | cons weight weights ih =>
      have shifted : ∀ i, start + 1 + i = start + (i + 1) := by omega
      rw [sumFrom, ih, List.mapIdx_cons, List.foldl_cons]
      simp only [shifted, Nat.add_zero]

theorem blend_eq (w : Window) (samples : ℕ → Float32) :
    w.blend samples = (w.products samples).foldl (· + ·) 0 :=
  sumFrom_eq samples w.start 0 w.weights

theorem getElem_products {source result place : ℕ} {samples : ℕ → Float32} {i : ℕ}
    (h : i < ((Window.of source result place).products samples).length) :
    ((Window.of source result place).products samples)[i] =
      samples ((range source result place).1 + i) *
        (rawWeight source result place ((range source result place).1 + i) /
          sum source result place) := by
  simp [products, of_eq, getElem_rawWeights]

theorem length_products (w : Window) (samples : ℕ → Float32) :
    (w.products samples).length = w.weights.length :=
  List.length_mapIdx

/-- A blend of numbers that are not negative is finite, and so are blends of blends. -/
theorem between_blend {w : Window} {samples : ℕ → Float32} {unit : ℚ} (multiples : FitsMultiples unit)
    (each : ∀ i, Between 0 unit (samples i)) (shares : ∀ weight ∈ w.weights, Between 0 1 weight)
    (few : w.weights.length < 2 ^ 24) :
    Between 0 (w.weights.length * unit) (w.blend samples) := by
  have terms : ∀ term ∈ w.products samples, Between 0 unit term := by
    intro term member
    obtain ⟨i, inside, rfl⟩ := List.mem_mapIdx.mp member
    exact (each _).mul (shares _ (List.getElem_mem _)) multiples.fits (by rw [mul_one])
  have sums := sums_of_zero multiples terms (by rwa [length_products])
  rw [length_products, ← blend_eq] at sums
  exact sums.between

end Blending

end Window

end ViewClassifier
