import ViewClassifier.Proofs.View.MixedAngles

/-!
# What the angles depend on

A mix of bins and offsets is refused for the sizes of its tables, for a lack of bins or for its period,
in this order. The angle of a row comes from its best bin and from the offset at that bin, so that two
rows which share both have the same angle, whatever else their tables hold.
-/

set_option autoImplicit false

namespace ViewClassifier

open Binary32 (Extent ofNat)

/-- What an offset becomes inside a bin of a given width. -/
inductive Clamped (unit : Float32) : Float32 → Float32 → Prop where
  | nan {offset} : offset.isNaN = true → Clamped unit offset 0
  | below {offset} : offset < 0 → Clamped unit offset 0
  | inside {offset} : 0 ≤ offset → offset ≤ unit → Clamped unit offset offset
  | above {offset} : unit < offset → Clamped unit offset unit

/-- The angle of a row: the start of its best bin and the offset at this bin, moved into the bin. -/
def IsAngle (unit : Float32) (row : List Float32) (offset : ℕ → Float32) (angle : Float32) : Prop :=
  ∃ best kept, BestPlace row best ∧ Clamped unit (offset best) kept ∧
    angle = kept + ofNat best * unit

/-- Rows with one best bin and with one offset at it. -/
def SameMix (row other : List Float32) (offset otherOffset : ℕ → Float32) : Prop :=
  ∃ best, BestPlace row best ∧ BestPlace other best ∧ offset best = otherOffset best

section Rows

variable {unit offset kept angle : Float32} {row other : List Float32}
  {offsets otherOffsets : ℕ → Float32}

theorem clampOffset_of_isNaN (nan : offset.isNaN = true) : clampOffset unit offset = 0 := by
  unfold clampOffset
  rw [if_pos nan]

/-- The lesser of an offset and the width is negative only where the offset is. -/
theorem clampOffset_eq (extent : Extent unit) (number : offset.isNaN = false) :
    clampOffset unit offset = if offset < 0 then 0 else if unit < offset then unit else offset := by
  have zero : (0 : Float32).isNaN = false := by decide
  have least : ¬ unit < 0 := (Binary32.not_lt_iff extent.number zero).mpr extent.zero_le
  unfold clampOffset Binary32.max Binary32.min
  simp only [number, extent.number, zero, if_neg Bool.false_ne_true]
  by_cases greater : unit < offset
  · simp only [if_pos greater, if_neg (extent.not_neg_of_lt greater), extent.number,
      if_neg Bool.false_ne_true, if_neg least]
  · simp only [if_neg greater, number, if_neg Bool.false_ne_true]

theorem clampOffset_of_clamped (extent : Extent unit) (clamped : Clamped unit offset kept) :
    clampOffset unit offset = kept := by
  cases clamped with
  | nan nan => exact clampOffset_of_isNaN nan
  | below less => rw [clampOffset_eq extent (Binary32.numbers_of_lt less).1, if_pos less]
  | inside nonneg le =>
      have number := (Binary32.numbers_of_le le).1
      rw [clampOffset_eq extent number, if_neg ((Binary32.not_lt_iff number (by decide)).mpr nonneg),
        if_neg ((Binary32.not_lt_iff extent.number number).mpr le)]
  | above greater =>
      rw [clampOffset_eq extent (Binary32.numbers_of_lt greater).2,
        if_neg (extent.not_neg_of_lt greater), if_pos greater]

theorem clamped_clampOffset (extent : Extent unit) (offset : Float32) :
    Clamped unit offset (clampOffset unit offset) := by
  cases number : offset.isNaN with
  | true =>
      rw [clampOffset_of_isNaN number]
      exact .nan number
  | false =>
      rw [clampOffset_eq extent number]
      by_cases less : offset < 0
      · rw [if_pos less]
        exact .below less
      · rw [if_neg less]
        by_cases greater : unit < offset
        · rw [if_pos greater]
          exact .above greater
        · rw [if_neg greater]
          exact .inside ((Binary32.not_lt_iff number (by decide)).mp less)
            ((Binary32.not_lt_iff extent.number number).mp greater)

theorem isAngle_iff (extent : Extent unit) :
    IsAngle unit row offsets angle ↔ mixedAngle unit row offsets = angle := by
  unfold mixedAngle
  dsimp only
  constructor
  · intro isAngle
    obtain ⟨best, kept, place, clamped, rfl⟩ := isAngle
    rw [argmax_getD_eq_iff.mpr place, clampOffset_of_clamped extent clamped]
  · rintro rfl
    exact ⟨_, _, argmax_getD_eq_iff.mp rfl, clamped_clampOffset extent _, rfl⟩

theorem SameMix.mixedAngle_eq (same : SameMix row other offsets otherOffsets) :
    mixedAngle unit row offsets = mixedAngle unit other otherOffsets := by
  obtain ⟨best, place, otherPlace, equal⟩ := same
  unfold mixedAngle
  dsimp only
  rw [argmax_getD_eq_iff.mpr place, argmax_getD_eq_iff.mpr otherPlace, equal]

end Rows

/-- Tables and a period that have a mix. -/
structure Mixable (probabilities offsets : Table) (period : Float32) : Prop where
  paired : Paired probabilities.cols probabilities offsets
  some : 0 < probabilities.cols
  finite : period.isFinite = true
  positive : 0 < period

/-- Why a mix is refused. The faults are looked for in this order. -/
inductive MixFault (probabilities offsets : Table) (period : Float32) : Error → Prop where
  | shapes : ¬ Paired probabilities.cols probabilities offsets →
      MixFault probabilities offsets period (.shapeMismatch
        (.tables (probabilities.rows, probabilities.cols) (offsets.rows, offsets.cols)))
  | bins : Paired probabilities.cols probabilities offsets → probabilities.cols = 0 →
      MixFault probabilities offsets period .emptyBatch
  | period : Paired probabilities.cols probabilities offsets → 0 < probabilities.cols →
      ¬ (period.isFinite = true ∧ 0 < period) →
      MixFault probabilities offsets period (.invalidConfig (.period period))

/-- A mix has one angle for each row. -/
structure Mixed (probabilities offsets : Table) (period : Float32) (angles : List Float32) : Prop
    extends Mixable probabilities offsets period where
  length : angles.length = probabilities.rows
  angle : ∀ (i : ℕ) (inside : i < angles.length),
    IsAngle (period / ofNat probabilities.cols) (probabilities.row i) (offsets.get i) angles[i]

/-- Tables of the same sizes that have the same mix in each row. -/
structure AgreeAtBest (probabilities offsets other otherOffsets : Table) : Prop where
  rows : other.rows = probabilities.rows
  cols : other.cols = probabilities.cols
  offsetRows : otherOffsets.rows = offsets.rows
  offsetCols : otherOffsets.cols = offsets.cols
  mix : ∀ i < probabilities.rows,
    SameMix (probabilities.row i) (other.row i) (offsets.get i) (otherOffsets.get i)

section Tables

variable {probabilities offsets other otherOffsets : Table} {period : Float32} {error : Error}
  {angles others : List Float32} {i j : ℕ}

theorem paired_iff :
    Paired probabilities.cols probabilities offsets ↔
      (probabilities.rows, probabilities.cols) = (offsets.rows, offsets.cols) := by
  rw [Prod.mk.injEq]
  constructor
  · intro paired
    exact ⟨paired.rows.symm, paired.offsetCols.symm⟩
  · intro same
    exact ⟨same.1.symm, rfl, same.2.symm⟩

theorem mixable_or_fault (probabilities offsets : Table) (period : Float32) :
    Mixable probabilities offsets period ∨ ∃ error, MixFault probabilities offsets period error := by
  by_cases paired : Paired probabilities.cols probabilities offsets
  · rcases Nat.eq_zero_or_pos probabilities.cols with none | some
    · exact .inr ⟨_, .bins paired none⟩
    · by_cases proper : period.isFinite = true ∧ 0 < period
      · exact .inl ⟨paired, some, proper.1, proper.2⟩
      · exact .inr ⟨_, .period paired some proper⟩
  · exact .inr ⟨_, .shapes paired⟩

theorem MixFault.mixedPrediction_eq (fault : MixFault probabilities offsets period error) :
    mixedPrediction probabilities offsets period = .error error := by
  unfold mixedPrediction
  cases fault with
  | shapes apart => rw [if_pos (mt paired_iff.mpr apart)]
  | bins paired none => rw [if_neg (not_not_intro (paired_iff.mp paired)), if_pos none]
  | period paired some improper =>
      have refused : (!(period.isFinite && decide (0 < period))) = true := by
        rw [Bool.not_eq_true', ← Bool.not_eq_true, Bool.and_eq_true, decide_eq_true_iff]
        exact improper
      rw [if_neg (not_not_intro (paired_iff.mp paired)), if_neg some.ne', if_pos refused]

theorem Mixable.mixedPrediction_eq (mixable : Mixable probabilities offsets period) :
    mixedPrediction probabilities offsets period =
      .ok (List.ofFn fun i : Fin probabilities.rows =>
        mixedAngle (period / ofNat probabilities.cols) (probabilities.row i.val)
          (offsets.get i.val)) :=
  mixedPrediction_eq_ok mixable.finite mixable.positive mixable.some mixable.paired

theorem mixedPrediction_eq_error_iff :
    mixedPrediction probabilities offsets period = .error error ↔
      MixFault probabilities offsets period error := by
  constructor
  · intro refused
    rcases mixable_or_fault probabilities offsets period with mixable | ⟨first, fault⟩
    · cases mixable.mixedPrediction_eq.symm.trans refused
    · obtain rfl := Except.error.inj (fault.mixedPrediction_eq.symm.trans refused)
      exact fault
  · intro fault
    exact fault.mixedPrediction_eq

theorem mixable_of_ok (accepted : mixedPrediction probabilities offsets period = .ok angles) :
    Mixable probabilities offsets period := by
  rcases mixable_or_fault probabilities offsets period with mixable | ⟨error, fault⟩
  · exact mixable
  · cases fault.mixedPrediction_eq.symm.trans accepted

theorem Mixable.extent (mixable : Mixable probabilities offsets period) :
    Extent (period / ofNat probabilities.cols) :=
  (Binary32.amount_of_pos mixable.finite mixable.positive).extent_share mixable.some

theorem mixedPrediction_eq_ok_iff :
    mixedPrediction probabilities offsets period = .ok angles ↔
      Mixed probabilities offsets period angles := by
  constructor
  · intro accepted
    have mixable := mixable_of_ok accepted
    obtain rfl := Except.ok.inj (mixable.mixedPrediction_eq.symm.trans accepted)
    refine ⟨mixable, List.length_ofFn, fun i inside => ?_⟩
    rw [isAngle_iff mixable.extent, List.getElem_ofFn]
  · intro mixed
    rw [mixed.mixedPrediction_eq, Except.ok.injEq]
    apply List.ext_getElem
    · rw [List.length_ofFn, mixed.length]
    · intro i _ inside
      rw [List.getElem_ofFn]
      exact (isAngle_iff mixed.extent).mp (mixed.angle i inside)

/-- The other rows of the tables do not matter, nor does their number. -/
theorem Mixed.getElem_eq (mixed : Mixed probabilities offsets period angles)
    (further : Mixed other otherOffsets period others) (cols : other.cols = probabilities.cols)
    (same : SameMix (probabilities.row i) (other.row j) (offsets.get i) (otherOffsets.get j))
    (inside : i < angles.length) (within : j < others.length) : angles[i] = others[j] := by
  rw [← (isAngle_iff mixed.extent).mp (mixed.angle i inside),
    ← (isAngle_iff further.extent).mp (further.angle j within), cols, same.mixedAngle_eq]

theorem AgreeAtBest.mixedPrediction_eq
    (agree : AgreeAtBest probabilities offsets other otherOffsets) (period : Float32) :
    mixedPrediction other otherOffsets period = mixedPrediction probabilities offsets period := by
  have angles (unit : Float32) : (fun i : Fin probabilities.rows =>
      mixedAngle unit (other.row i.val) (otherOffsets.get i.val)) =
        fun i => mixedAngle unit (probabilities.row i.val) (offsets.get i.val) :=
    funext fun i => (agree.mix i.val i.isLt).mixedAngle_eq.symm
  unfold mixedPrediction
  dsimp only
  rw [agree.rows, agree.cols, agree.offsetRows, agree.offsetCols, angles]

/-- A mix is refused for its first fault, and the angles of any other are those of its rows. An angle
does not depend on other rows nor on offsets of other bins, and as long as all best bins and the offsets
at them stay, the mix does. -/
theorem mixedPrediction_rows (probabilities offsets : Table) (period : Float32) :
    (∀ error, mixedPrediction probabilities offsets period = .error error ↔
      MixFault probabilities offsets period error) ∧
    (∀ angles, mixedPrediction probabilities offsets period = .ok angles ↔
      Mixed probabilities offsets period angles) ∧
    (∀ other otherOffsets angles others i j, other.cols = probabilities.cols →
      mixedPrediction probabilities offsets period = .ok angles →
      mixedPrediction other otherOffsets period = .ok others →
      i < probabilities.rows → j < other.rows →
      SameMix (probabilities.row i) (other.row j) (offsets.get i) (otherOffsets.get j) →
      angles[i]? = others[j]?) ∧
    ∀ other otherOffsets, AgreeAtBest probabilities offsets other otherOffsets →
      mixedPrediction other otherOffsets period = mixedPrediction probabilities offsets period := by
  refine ⟨fun _ => mixedPrediction_eq_error_iff, fun _ => mixedPrediction_eq_ok_iff, ?_,
    fun _ _ agree => agree.mixedPrediction_eq period⟩
  intro other otherOffsets angles others i j cols accepted otherAccepted inside within same
  have mixed := mixedPrediction_eq_ok_iff.mp accepted
  have further := mixedPrediction_eq_ok_iff.mp otherAccepted
  have place : i < angles.length := inside.trans_eq mixed.length.symm
  have otherPlace : j < others.length := within.trans_eq further.length.symm
  rw [List.getElem?_eq_getElem place, List.getElem?_eq_getElem otherPlace,
    mixed.getElem_eq further cols same place otherPlace]

end Tables

/-- A row of equal probabilities above a row whose last bin is the best. -/
def twoBest (filling : Float32) : Table :=
  .ofFn 2 4 fun i j => if i = 1 ∧ j = 3 then 1 else filling

/-- One offset at the best bin of each row and another one in all other bins. -/
def twoOffsets (filling : Float32) : Table :=
  .ofFn 2 4 fun i j => if j = 3 * i then 30 else filling

theorem agreeAtBest_twoBest :
    AgreeAtBest (twoBest 0) (twoOffsets 0) (twoBest Binary32.nan) (twoOffsets Binary32.infinity) where
  rows := rfl
  cols := rfl
  offsetRows := rfl
  offsetCols := rfl
  mix := by
    intro i inside
    match i with
    | 0 => exact ⟨0, argmax_getD_eq_iff.mp (by decide), argmax_getD_eq_iff.mp (by decide), by decide⟩
    | 1 => exact ⟨3, argmax_getD_eq_iff.mp (by decide), argmax_getD_eq_iff.mp (by decide), by decide⟩
    | i + 2 => exact absurd (show i + 2 < 2 from inside) (by omega)

/-- The angle of a row that stands alone is the one of the second of two rows. -/
theorem mixedPrediction_rows_twoBest :
    mixedPrediction (certain 4) (.ofFn 1 4 fun _ _ => 30) 360 = .ok [300] ∧
      (∃ angles, mixedPrediction (twoBest 0) (twoOffsets 0) 360 = .ok angles ∧
        angles[1]? = some 300) ∧
      AgreeAtBest (twoBest 0) (twoOffsets 0) (twoBest Binary32.nan) (twoOffsets Binary32.infinity) ∧
      mixedPrediction (twoBest Binary32.nan) (twoOffsets Binary32.infinity) 360 =
        mixedPrediction (twoBest 0) (twoOffsets 0) 360 := by
  have finite : (360 : Float32).isFinite = true := by decide
  have positive : (0 : Float32) < 360 := by decide
  have mixable : Mixable (twoBest 0) (twoOffsets 0) 360 :=
    ⟨⟨rfl, rfl, rfl⟩, by decide, finite, positive⟩
  have angle : clampOffset (360 / ofNat 4) 30 + ofNat (4 - 1) * (360 / ofNat 4) =
      .ofBits 0x43960000 := by decide
  have threeHundred : .ofBits 0x43960000 = (300 : Float32) := by decide
  have alone : mixedPrediction (certain 4) (.ofFn 1 4 fun _ _ => 30) 360 = .ok [300] := by
    rw [mixedPrediction_certain finite positive (by decide), angle, threeHundred]
  have same : SameMix ((twoBest 0).row 1) ((certain 4).row 0) ((twoOffsets 0).get 1)
      ((Table.ofFn 1 4 fun _ _ => 30).get 0) :=
    ⟨3, argmax_getD_eq_iff.mp (by decide), argmax_getD_eq_iff.mp (by decide), by decide⟩
  obtain ⟨_, _, rows, tables⟩ := mixedPrediction_rows (twoBest 0) (twoOffsets 0) 360
  have second := rows (certain 4) (.ofFn 1 4 fun _ _ => 30) _ [300] 1 0 rfl
    mixable.mixedPrediction_eq alone (by decide) (by decide) same
  exact ⟨alone, ⟨_, mixable.mixedPrediction_eq, second⟩, agreeAtBest_twoBest,
    tables _ _ agreeAtBest_twoBest⟩

end ViewClassifier
