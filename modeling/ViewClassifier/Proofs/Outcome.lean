import ViewClassifier.Classifier
import ViewClassifier.Proofs.Places
import ViewClassifier.Proofs.Result

/-!
# Outcomes

When the raw output of a network stands for an outcome, and the table of the outcome. Whether it does
is settled by counts alone, and averaging the crops never fails after them.
-/

set_option autoImplicit false

namespace ViewClassifier

open Binary32 (ofNat)

/-- The value for an image from the values of its crops, where a single crop stands for itself. -/
def cropMean (group : Nat) (values : Nat → Float32) : Float32 :=
  if group = 1 then values 0 else runningSum group values / ofNat group

theorem runningSum_congr {count : Nat} {f g : Nat → Float32} (same : ∀ i < count, f i = g i) :
    runningSum count f = runningSum count g := by
  have listed : (List.range count).map f = (List.range count).map g :=
    List.map_congr_left fun i member => same i (List.mem_range.mp member)
  have folded := congrArg (List.foldl (· + ·) 0) listed
  rwa [List.foldl_map, List.foldl_map] at folded

theorem cropMean_congr {group : Nat} {f g : Nat → Float32} (same : ∀ r < group, f r = g r) :
    cropMean group f = cropMean group g := by
  unfold cropMean
  split
  · next single => exact same 0 (by omega)
  · rw [runningSum_congr same]

theorem averageCrops_eq_ok {perCrop : Table} {images group : Nat}
    (rows : perCrop.rows = images * group) (some : images * group ≠ 0) :
    ∃ table, averageCrops perCrop group = .ok table ∧
      table.rows = images ∧ table.cols = perCrop.cols ∧
      (group = 1 → table.data = perCrop.data) ∧
      ∀ i k, i < images → k < perCrop.cols →
        table.get i k = cropMean group fun r => perCrop.get (i * group + r) k := by
  have groupPos : group ≠ 0 := fun zero => some (by simp [zero])
  unfold averageCrops cropMean
  rw [if_neg (by rw [rows]; omega)]
  by_cases single : group = 1
  · subst single
    exact ⟨perCrop, by simp, by simpa using rows, rfl, fun _ => rfl, fun i k _ _ => by simp⟩
  · have count : perCrop.rows / group = images := by
      rw [rows, Nat.mul_div_cancel _ (Nat.pos_of_ne_zero groupPos)]
    rw [if_neg single, if_neg (by simp [rows]), count]
    refine ⟨_, rfl, rfl, rfl, fun equal => absurd equal single, fun i k hi hk => ?_⟩
    rw [Table.get_ofFn _ hi hk, if_neg single]

theorem toTable?_eq_some {raw : Tensor} {rows cols : Nat} (size : raw.data.size = rows * cols) :
    ∃ table, raw.toTable? rows cols = some table ∧ table.rows = rows ∧ table.cols = cols ∧
      table.data = raw.data := by
  unfold Tensor.toTable?
  rw [dif_pos size]
  exact ⟨_, rfl, rfl, rfl, rfl⟩

theorem toTable?_congr {raw other : Tensor} (same : other.data = raw.data) (rows cols : Nat) :
    other.toTable? rows cols = raw.toTable? rows cols := by
  obtain ⟨shape, data, size⟩ := raw
  obtain ⟨otherShape, otherData, otherSize⟩ := other
  cases same
  rfl

section Postprocess

variable {raw : Tensor} {images group : Nat} {declared : Option Nat}

/-- Once the counts are right, only the averaging is left. -/
theorem postprocess_of_table {perCrop : Table} (rowsPos : images * group ≠ 0)
    (filled : raw.data.size ≠ 0)
    (reshaped : raw.toTable? (images * group) (raw.data.size / (images * group)) = some perCrop)
    (agreed : ∀ expected, declared = some expected →
      expected = raw.data.size / (images * group)) :
    postprocess raw images group declared =
      (averageCrops perCrop group >>= fun table => .ok (.of table)) := by
  unfold postprocess
  cases declared with
  | none => simp [rowsPos, filled, reshaped]
  | some expected => simp [rowsPos, filled, reshaped, agreed expected rfl]

theorem postprocess_eq_emptyBatch (none : images * group = 0) :
    postprocess raw images group declared = .error .emptyBatch := by
  simp [postprocess, none]

theorem postprocess_eq_outputRows (rowsPos : images * group ≠ 0)
    (uneven : raw.data.size = 0 ∨ ¬ images * group ∣ raw.data.size) :
    postprocess raw images group declared =
      .error (.shapeMismatch (.outputRows (images * group) raw.shape)) := by
  by_cases empty : raw.data.size = 0
  · simp [postprocess, rowsPos, empty]
  · have different : ¬ raw.data.size = images * group * (raw.data.size / (images * group)) :=
      fun even => uneven.resolve_left empty ⟨_, even⟩
    simp [postprocess, rowsPos, empty, Tensor.toTable?, different]

theorem postprocess_eq_classes {expected : Nat} (rowsPos : images * group ≠ 0)
    (filled : raw.data.size ≠ 0) (even : images * group ∣ raw.data.size)
    (disagreed : expected ≠ raw.data.size / (images * group)) :
    postprocess raw images group (some expected) =
      .error (.shapeMismatch (.classes expected (raw.data.size / (images * group)))) := by
  have size := (Nat.mul_div_cancel' even).symm
  obtain ⟨perCrop, reshaped, _⟩ := toTable?_eq_some size
  simp [postprocess, rowsPos, filled, reshaped, disagreed]

/-- The configuration has no part in what is wrong with an output. -/
theorem postprocess_ne_invalidConfig {fault : ConfigFault} :
    postprocess raw images group declared ≠ .error (.invalidConfig fault) := by
  intro refused
  by_cases rowsPos : images * group = 0
  · simp [postprocess_eq_emptyBatch rowsPos] at refused
  by_cases uneven : raw.data.size = 0 ∨ ¬ images * group ∣ raw.data.size
  · simp [postprocess_eq_outputRows rowsPos uneven] at refused
  obtain ⟨filled, even⟩ := not_or.mp uneven
  have even := Decidable.not_not.mp even
  have size := (Nat.mul_div_cancel' even).symm
  obtain ⟨perCrop, reshaped, rows, _⟩ := toTable?_eq_some size
  obtain ⟨table, averaged, _⟩ := averageCrops_eq_ok rows rowsPos
  by_cases agreed : ∀ expected, declared = some expected →
      expected = raw.data.size / (images * group)
  · rw [postprocess_of_table rowsPos filled reshaped agreed, averaged] at refused
    cases refused
  · obtain ⟨expected, rfl, disagreed⟩ : ∃ expected, declared = some expected ∧
        expected ≠ raw.data.size / (images * group) := by
      simpa using agreed
    simp [postprocess_eq_classes rowsPos filled even disagreed] at refused

/-- The counts under which an output has an outcome, with the number of classes they leave. -/
structure Fills (raw : Tensor) (images group : Nat) (declared : Option Nat) (classes : Nat) :
    Prop where
  rows_ne_zero : images * group ≠ 0
  classes_ne_zero : classes ≠ 0
  size_eq : raw.data.size = images * group * classes
  declared_eq : ∀ expected, declared = some expected → expected = classes

theorem Fills.size_div {classes : Nat} (fills : Fills raw images group declared classes) :
    raw.data.size / (images * group) = classes := by
  rw [fills.size_eq, Nat.mul_div_cancel_left _ (Nat.pos_of_ne_zero fills.rows_ne_zero)]

theorem fills_iff {classes : Nat} :
    Fills raw images group declared classes ↔
      (images * group ≠ 0 ∧ raw.data.size ≠ 0 ∧ images * group ∣ raw.data.size ∧
        ∀ expected, declared = some expected → expected = raw.data.size / (images * group)) ∧
        raw.data.size / (images * group) = classes := by
  constructor
  · intro fills
    rw [fills.size_div]
    refine ⟨⟨fills.rows_ne_zero, ?_, ⟨classes, fills.size_eq⟩, fills.declared_eq⟩, rfl⟩
    rw [fills.size_eq]
    exact Nat.mul_ne_zero fills.rows_ne_zero fills.classes_ne_zero
  · intro counts
    obtain ⟨⟨rowsPos, filled, even, agreed⟩, columns⟩ := counts
    have size := (Nat.mul_div_cancel' even).symm
    rw [columns] at size agreed
    refine ⟨rowsPos, fun none => filled ?_, size, agreed⟩
    rw [size, none, Nat.mul_zero]

/-- An output with one row of classes for each crop is accepted, and its numbers are combined image
by image. -/
theorem Fills.postprocess_eq_ok {classes : Nat}
    (fills : Fills raw images group declared classes) :
    ∃ table, (∀ other : Tensor, other.data = raw.data →
        postprocess other images group declared = .ok (.of table)) ∧
      table.rows = images ∧ table.cols = classes ∧ (group = 1 → table.data = raw.data) ∧
      ∀ i k, i < images → k < classes →
        table.get i k =
          cropMean group fun r => raw.data.getD ((i * group + r) * classes + k) 0 := by
  have columns := fills.size_div
  obtain ⟨⟨rowsPos, filled, _, agreed⟩, _⟩ := fills_iff.mp fills
  obtain ⟨perCrop, reshaped, rows, cols, data⟩ := toTable?_eq_some fills.size_eq
  obtain ⟨table, averaged, tableRows, tableCols, single, entries⟩ :=
    averageCrops_eq_ok rows rowsPos
  refine ⟨table, ?_, tableRows, tableCols.trans cols, fun one => (single one).trans data, ?_⟩
  · intro other same
    have otherReshaped : other.toTable? (images * group) (other.data.size / (images * group)) =
        some perCrop := by
      rw [toTable?_congr same, same, columns, reshaped]
    rw [postprocess_of_table rowsPos (same ▸ filled) otherReshaped (same ▸ agreed), averaged,
      Result.ok_bind]
  · intro i k hi hk
    rw [entries i k hi (cols ▸ hk)]
    apply cropMean_congr
    intro r hr
    have inside : i * group + r < images * group := Table.offset_lt hi hr
    rw [Table.get_eq_getD (rows ▸ inside) (cols ▸ hk), data, cols]

theorem fills_of_ok {outcome : Outcome}
    (accepted : postprocess raw images group declared = .ok outcome) :
    Fills raw images group declared (raw.data.size / (images * group)) := by
  rw [fills_iff]
  by_cases rowsPos : images * group = 0
  · simp [postprocess_eq_emptyBatch rowsPos] at accepted
  by_cases uneven : raw.data.size = 0 ∨ ¬ images * group ∣ raw.data.size
  · simp [postprocess_eq_outputRows rowsPos uneven] at accepted
  obtain ⟨filled, even⟩ := not_or.mp uneven
  have even := Decidable.not_not.mp even
  refine ⟨⟨rowsPos, filled, even, fun expected chosen => ?_⟩, rfl⟩
  by_cases agreed : expected = raw.data.size / (images * group)
  · exact agreed
  · subst chosen
    simp [postprocess_eq_classes rowsPos filled even agreed] at accepted

theorem Fills.getElem?_eq {classes : Nat} (fills : Fills raw images group declared classes)
    {i r k : Nat} (hi : i < images) (hr : r < group) (hk : k < classes) :
    raw.data[(i * group + r) * classes + k]? =
      some (raw.data.getD ((i * group + r) * classes + k) 0) := by
  have inside : (i * group + r) * classes + k < raw.data.size := by
    rw [fills.size_eq]
    exact Table.offset_lt (Table.offset_lt hi hr) hk
  simp [inside]

end Postprocess

end ViewClassifier
