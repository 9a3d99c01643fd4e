import ViewClassifier.Proofs.Ranking.Slices
import ViewClassifier.Proofs.Result
import ViewClassifier.Proofs.View.Circle
import ViewClassifier.View.Decoding

/-!
# The share of views that are found

Scoring is a run over all rows that counts the rows of object classes and those of them whose azimuth
is found. Whether a row is refused depends on its label alone, so that the run is a check of all labels
and a count. Nothing but the bins of the labelled classes is looked at.
-/

set_option autoImplicit false

namespace ViewClassifier

open Binary32 (ofInt32 ofNat)

theorem ofNat_positive_iff {count : ℕ} (small : count < 2 ^ 31) :
    0 < Int32.ofNat count ↔ count ≠ 0 := by
  rw [Int32.lt_iff_toInt_lt, Int32.toInt_ofNat_of_lt small, Int32.toInt_zero]
  omega

/-- Where no word has wrapped around, the accuracy is the share of the rows. -/
theorem Score.accuracy_of_lt {counted hits : ℕ} (small : counted < 2 ^ 31) (le : hits ≤ counted) :
    Score.accuracy ⟨.ofNat counted, .ofNat hits⟩ =
      if counted = 0 then none else some (ofNat hits / ofNat counted) := by
  have countedValue := Int32.toInt_ofNat_of_lt small
  have hitsValue := Int32.toInt_ofNat_of_lt (Nat.lt_of_le_of_lt le small)
  unfold Score.accuracy
  rw [Binary32.ofInt32_of_toInt_eq countedValue, Binary32.ofInt32_of_toInt_eq hitsValue]
  simp only [ofNat_positive_iff small, ne_eq, ite_not]

/-- The labels of the background are as many as those of an object class. -/
def IsBackground (label : UInt32) : Prop :=
  4320 ≤ label.toNat ∧ label.toNat < 4680

instance (label : UInt32) : Decidable (IsBackground label) :=
  inferInstanceAs (Decidable (4320 ≤ label.toNat ∧ label.toNat < 4680))

/-- The greatest probability of the labelled class stands within a tolerance of the labelled azimuth, in
whichever direction around the circle. -/
def Found (tolerance : ℕ) (row : List Float32) (label : UInt32) : Prop :=
  ∃ azimuth turns, BestPlace (classBins row (label.toNat / 360)) azimuth ∧
    distanceAfter azimuth (label.toNat % 360) turns ≤ tolerance

section Rows

variable {row : List Float32} {label : UInt32} {tolerance : ℕ} {score : Score}

theorem found_iff :
    Found tolerance row label ↔
      angularError ((argmax (classBins row (ViewLabel.decode label.toNat).index)).getD 0)
        (ViewLabel.decode label.toNat).azimuth ≤ tolerance := by
  rw [angularError_le_iff]
  constructor
  · intro found
    obtain ⟨azimuth, turns, best, near⟩ := found
    exact ⟨turns, (argmax_getD_eq_iff.mpr best).symm ▸ near⟩
  · intro near
    obtain ⟨turns, near⟩ := near
    exact ⟨_, turns, argmax_getD_eq_iff.mp rfl, near⟩

instance (tolerance : ℕ) (row : List Float32) (label : UInt32) :
    Decidable (Found tolerance row label) :=
  decidable_of_iff _ found_iff.symm

theorem isBackground_iff :
    (ViewLabel.decode label.toNat).isBackground = true ↔ IsBackground label := by
  unfold IsBackground ViewLabel.isBackground ViewLabel.decode azimuthBins backgroundClass
    objectClasses
  dsimp only
  rw [beq_iff_eq]
  omega

theorem objectClasses_le_iff (object : ¬ IsBackground label) :
    objectClasses ≤ (ViewLabel.decode label.toNat).index ↔ ¬ label.toNat < 4680 := by
  unfold IsBackground at object
  unfold ViewLabel.decode azimuthBins objectClasses
  dsimp only
  omega

/-- Refuses the labels beyond the background. -/
def checkLabel (label : UInt32) : Result Unit :=
  if label.toNat < 4680 then .ok ()
  else .error (.invalidConfig (.classWithoutBins (label.toNat / azimuthBins)))

/-- The score after one more row whose label is not refused. -/
def Score.after (tolerance : ℕ) (score : Score) (entry : List Float32 × UInt32) : Score where
  counted := score.counted + if IsBackground entry.2 then 0 else 1
  hits := score.hits + if ¬ IsBackground entry.2 ∧ Found tolerance entry.1 entry.2 then 1 else 0

theorem Score.add_eq (full : row.length = viewVectorLength) :
    score.add tolerance row label =
      checkLabel label >>= fun _ => pure (score.after tolerance (row, label)) := by
  unfold Score.add checkLabel Score.after
  dsimp only
  by_cases background : IsBackground label
  · rw [if_pos (isBackground_iff.mpr background), if_pos background.2, Result.ok_bind,
      if_pos background, if_neg (fun both => both.1 background), Int32.add_zero, Int32.add_zero]
    rfl
  · have beyond := objectClasses_le_iff background
    unfold predictAzimuth
    rw [if_neg (mt isBackground_iff.mp background), if_neg (not_not_intro full), if_neg background]
    by_cases named : label.toNat < 4680
    · rw [if_neg (fun outside => beyond.mp outside named), if_pos named, Result.ok_bind,
        Result.ok_bind]
      by_cases found : Found tolerance row label
      · rw [if_pos (found_iff.mp found), if_pos ⟨background, found⟩]
      · rw [if_neg (mt found_iff.mpr found), if_neg (fun both => found both.2), Int32.add_zero]
    · rw [if_pos (beyond.mpr named), if_neg named]
      rfl

theorem foldl_after (entries : List (List Float32 × UInt32)) :
    entries.foldl (Score.after tolerance) score =
      ⟨score.counted + .ofNat (entries.countP fun entry => ¬ IsBackground entry.2),
        score.hits + .ofNat (entries.countP fun entry =>
          ¬ IsBackground entry.2 ∧ Found tolerance entry.1 entry.2)⟩ := by
  induction entries generalizing score with
  | nil => simp
  | cons entry rest ih =>
      rw [List.foldl_cons, ih, List.countP_cons, List.countP_cons]
      unfold Score.after
      simp only [decide_eq_true_eq, ite_not, Score.mk.injEq]
      -- The word of a sum is the sum of the words, whether or not they wrap around.
      constructor
      · rw [Nat.add_comm, Int32.ofNat_add, ← Int32.add_assoc]
        split <;> rfl
      · rw [Nat.add_comm, Int32.ofNat_add, ← Int32.add_assoc]
        split <;> rfl

end Rows

/-- The rows that count: those with another label than the background. -/
def countedRows (labels : List UInt32) : ℕ :=
  labels.countP fun label => ¬ IsBackground label

/-- The rows that count and whose azimuth is found. -/
def foundRows (tolerance : ℕ) (table : Table) (labels : List UInt32) : ℕ :=
  labels.zipIdx.countP fun entry =>
    ¬ IsBackground entry.1 ∧ Found tolerance (table.row entry.2) entry.1

section Tables

variable {table other : Table} {labels : List UInt32} {tolerance : ℕ}

theorem zip_rowList (paired : table.rows = labels.length) :
    table.rowList.zip labels = labels.zipIdx.map fun entry => (table.row entry.2, entry.1) := by
  apply List.ext_getElem
  · rw [List.length_zip, List.length_map, List.length_zipIdx, Table.rowList, List.length_ofFn,
      paired, Nat.min_self]
  · intro i inside _
    simp [Table.rowList]

theorem map_snd_rows (paired : table.rows = labels.length) :
    (table.rowList.zip labels).map Prod.snd = labels := by
  rw [List.map_snd_zip]
  rw [Table.rowList, List.length_ofFn, paired]

theorem countP_rows (paired : table.rows = labels.length) :
    ((table.rowList.zip labels).countP fun entry => ¬ IsBackground entry.2) =
      countedRows labels := by
  have counted := List.countP_map (p := fun label => decide ¬ IsBackground label) (f := Prod.snd)
    (l := table.rowList.zip labels)
  rw [map_snd_rows paired] at counted
  exact counted.symm

theorem countP_foundRows (paired : table.rows = labels.length) :
    ((table.rowList.zip labels).countP fun entry =>
      ¬ IsBackground entry.2 ∧ Found tolerance entry.1 entry.2) =
      foundRows tolerance table labels := by
  rw [zip_rowList paired, List.countP_map]
  rfl

/-- Scoring checks all labels before anything depends on the rows. -/
theorem viewAccuracy_eq (paired : table.rows = labels.length)
    (wide : table.cols = viewVectorLength) :
    viewAccuracy table labels tolerance = labels.mapM checkLabel >>= fun _ =>
      pure (Score.accuracy ⟨.ofNat (countedRows labels),
        .ofNat (foundRows tolerance table labels)⟩) := by
  have checks : (table.rowList.zip labels).mapM (checkLabel ∘ Prod.snd) =
      labels.mapM checkLabel := by
    rw [← List.mapM_map, map_snd_rows paired]
  have steps : ∀ entry ∈ table.rowList.zip labels, ∀ score : Score,
      score.add tolerance entry.1 entry.2 =
        (checkLabel ∘ Prod.snd) entry >>= fun _ => pure (score.after tolerance entry) := by
    intro entry member score
    obtain ⟨i, made⟩ := List.mem_ofFn.mp (List.of_mem_zip member).1
    exact Score.add_eq (by rw [← made, Table.length_row, wide])
  unfold viewAccuracy
  rw [if_neg (not_not_intro paired), if_neg (not_not_intro wide),
    Result.foldlM_of_checked steps, checks, foldl_after, countP_rows paired,
    countP_foundRows paired, Int32.zero_add, Int32.zero_add]
  cases labels.mapM checkLabel with
  | error error => rfl
  | ok checked => rfl

theorem mapM_checkLabel_eq_ok_iff {checked : List Unit} :
    labels.mapM checkLabel = .ok checked ↔
      (∀ label ∈ labels, label.toNat < 4680) ∧ checked = labels.map fun _ => () := by
  refine Result.mapM_eq_ok_iff fun label checked => ?_
  unfold checkLabel
  rw [Result.else_error_eq_ok_iff, Except.ok.injEq, eq_comm (a := ())]

theorem viewAccuracy_eq_ok_iff {share : Option Float32} :
    viewAccuracy table labels tolerance = .ok share ↔
      table.rows = labels.length ∧ table.cols = viewVectorLength ∧
        (∀ label ∈ labels, label.toNat < 4680) ∧
        share = Score.accuracy ⟨.ofNat (countedRows labels),
          .ofNat (foundRows tolerance table labels)⟩ := by
  by_cases paired : table.rows = labels.length
  · by_cases wide : table.cols = viewVectorLength
    · rw [viewAccuracy_eq paired wide, Result.bind_pure_eq_ok_iff]
      simp only [mapM_checkLabel_eq_ok_iff, paired, wide, true_and]
      constructor
      · intro passed
        obtain ⟨_, ⟨named, _⟩, shares⟩ := passed
        exact ⟨named, shares⟩
      · intro passed
        exact ⟨_, ⟨passed.1, rfl⟩, passed.2⟩
    · unfold viewAccuracy
      rw [if_neg (not_not_intro paired), if_pos wide]
      exact iff_of_false (fun accepted => by cases accepted) (fun both => wide both.2.1)
  · unfold viewAccuracy
    rw [if_pos paired]
    exact iff_of_false (fun accepted => by cases accepted) (fun both => paired both.1)

/-- Tables of one size with the same probabilities in the bins of the labelled classes. A row of the
background has no such bins. -/
structure AgreeInBins (labels : List UInt32) (table other : Table) : Prop where
  rows : table.rows = other.rows
  cols : table.cols = other.cols
  bins : ∀ (i : ℕ) (label : UInt32), labels[i]? = some label → ¬ IsBackground label →
    ∀ k < 360, table.get i (label.toNat / 360 * 360 + k) = other.get i (label.toNat / 360 * 360 + k)

theorem length_classBins_le (row : List Float32) (index : ℕ) :
    (classBins row index).length ≤ 360 :=
  List.length_take_le _ _

theorem getElem_classBins {i index k : ℕ}
    (inside : k < (classBins (table.row i) index).length) :
    (classBins (table.row i) index)[k] = table.get i (index * 360 + k) := by
  simp only [classBins, azimuthBins, List.getElem_take, List.getElem_drop, Table.getElem_row]

theorem classBins_congr {i index : ℕ} (cols : table.cols = other.cols)
    (bins : ∀ k < 360, table.get i (index * 360 + k) = other.get i (index * 360 + k)) :
    classBins (table.row i) index = classBins (other.row i) index := by
  apply List.ext_getElem
  · simp [classBins, cols]
  · intro k inside _
    rw [getElem_classBins, getElem_classBins,
      bins k (inside.trans_le (length_classBins_le _ _))]

theorem foundRows_le_countedRows (table : Table) (labels : List UInt32) (tolerance : ℕ) :
    foundRows tolerance table labels ≤ countedRows labels := by
  have counted := List.countP_map (p := fun label => decide ¬ IsBackground label) (f := Prod.fst)
    (l := labels.zipIdx)
  rw [List.zipIdx_map_fst] at counted
  rw [countedRows, counted]
  refine List.countP_mono_left fun entry _ found => ?_
  exact decide_eq_true (of_decide_eq_true found).1

theorem foundRows_congr (agree : AgreeInBins labels table other) :
    foundRows tolerance table labels = foundRows tolerance other labels := by
  refine List.countP_congr fun entry member => ?_
  have place := List.mem_zipIdx_iff_getElem?.mp member
  simp only [decide_eq_true_eq]
  refine and_congr_right fun object => ?_
  unfold Found
  rw [classBins_congr agree.cols (agree.bins entry.2 entry.1 place object)]

theorem viewAccuracy_congr (agree : AgreeInBins labels table other) :
    viewAccuracy table labels tolerance = viewAccuracy other labels tolerance := by
  by_cases paired : table.rows = labels.length
  · by_cases wide : table.cols = viewVectorLength
    · rw [viewAccuracy_eq paired wide, viewAccuracy_eq (agree.rows ▸ paired) (agree.cols ▸ wide),
        foundRows_congr agree]
    · unfold viewAccuracy
      rw [if_neg (not_not_intro paired), if_pos wide, if_neg (not_not_intro (agree.rows ▸ paired)),
        if_pos (agree.cols ▸ wide), agree.cols]
  · unfold viewAccuracy
    rw [if_pos paired, if_pos (agree.rows ▸ paired), agree.rows]

end Tables

/-- A row without a number in the bins of its class, and a row of the background. All other
probabilities are the same. -/
def twoRows (filling : Float32) : Table :=
  .ofFn 2 viewVectorLength fun i k => if i = 0 ∧ k < 360 then Binary32.nan else filling

theorem agreeInBins_twoRows (first second : Float32) :
    AgreeInBins [350, 4320] (twoRows first) (twoRows second) := by
  refine ⟨rfl, rfl, fun i label place object k bin => ?_⟩
  match i with
  | 0 =>
      obtain rfl : 350 = label := Option.some.inj place
      have index : (350 : UInt32).toNat / 360 * 360 + k = k := by
        rw [show (350 : UInt32).toNat / 360 * 360 = 0 by decide, Nat.zero_add]
      have inside : k < viewVectorLength := bin.trans (by decide)
      rw [index, twoRows, twoRows, Table.get_ofFn _ Nat.two_pos inside,
        Table.get_ofFn _ Nat.two_pos inside, if_pos ⟨rfl, bin⟩, if_pos ⟨rfl, bin⟩]
  | 1 =>
      obtain rfl : 4320 = label := Option.some.inj place
      exact absurd (by decide) object
  | i + 2 => cases place

theorem found_twoRows (filling : Float32) : Found 10 ((twoRows filling).row 0) 350 := by
  refine ⟨0, 1, .inr ⟨rfl, fun x member => ?_⟩, by decide⟩
  obtain ⟨k, inside, rfl⟩ := List.mem_iff_getElem.mp member
  have bin : k < 360 := inside.trans_le (length_classBins_le _ _)
  rw [getElem_classBins, show (350 : UInt32).toNat / 360 * 360 = 0 by decide, Nat.zero_add, twoRows,
    Table.get_ofFn _ Nat.two_pos (bin.trans (by decide)), if_pos ⟨rfl, bin⟩]
  decide

end ViewClassifier
