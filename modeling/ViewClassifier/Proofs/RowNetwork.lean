import ViewClassifier.Proofs.Addressable
import ViewClassifier.Proofs.Batch
import ViewClassifier.Proofs.Outcome

/-!
# Networks that work row by row

A network may map each tensor of a batch to a row of its own, without a look at the others. Then the
row of an image is a function of that image, whatever list it is predicted in.
-/

set_option autoImplicit false

namespace ViewClassifier

/-- A function from the tensors of a batch to rows of one length. -/
structure RowNetwork where
  classes : Nat
  classes_pos : 0 < classes
  row : NetworkInput → List Float32
  length_row : ∀ input, (row input).length = classes

/-- The rows of a prediction. There are none after an error. -/
def predictedRows (result : Result Outcome) : List (List Float32) :=
  match result with
  | .ok outcome => outcome.predictions.rowList
  | .error _ => []

namespace RowNetwork

/-- The output holds the rows of the batch in their order. Its shape is left open. -/
def RunBy (g : RowNetwork) (network : Tensor → Tensor) : Prop :=
  ∀ batch, batch.shape.length = 4 → (network batch).data.toList = batch.items.flatMap g.row

/-- The output as a vector. -/
def flat (g : RowNetwork) (batch : Tensor) : Tensor :=
  .ofList (batch.items.flatMap g.row)

theorem runBy_flat (g : RowNetwork) : g.RunBy g.flat :=
  fun _ _ => rfl

/-- The rows of all crops of an image, one after another. -/
def cropRows (g : RowNetwork) (config : Preprocessing) (image : Image) : List Float32 :=
  (config.inputs image).flatMap g.row

/-- The row of an image, in which no other image takes part. -/
def imageRow (g : RowNetwork) (config : Preprocessing) (image : Image) : List Float32 :=
  List.ofFn fun k : Fin g.classes =>
    cropMean config.cropsPerImage fun r =>
      (g.cropRows config image)[r * g.classes + k.val]?.getD 0

theorem length_cropRows (g : RowNetwork) (config : Preprocessing) (image : Image) :
    (g.cropRows config image).length = config.cropsPerImage * g.classes := by
  rw [cropRows, length_flatMap_groups fun input _ => g.length_row input, config.length_inputs]

section Reached

variable {c : Classifier} {images : List Image} {batch : Tensor}

theorem flat_data (g : RowNetwork) (reached : c.config.batch images = .ok batch) :
    (g.flat batch).data = (images.flatMap (g.cropRows c.config)).toArray := by
  simp only [flat, Tensor.ofList, Preprocessing.items_of_batch reached, List.flatMap_assoc]
  rfl

theorem getD_flat_data (g : RowNetwork) (reached : c.config.batch images = .ok batch)
    {i r k : Nat} (hi : i < images.length) (hr : r < c.config.cropsPerImage)
    (hk : k < g.classes) :
    (g.flat batch).data.getD ((i * c.config.cropsPerImage + r) * g.classes + k) 0 =
      (g.cropRows c.config images[i])[r * g.classes + k]?.getD 0 := by
  have place : (i * c.config.cropsPerImage + r) * g.classes + k =
      i * (c.config.cropsPerImage * g.classes) + (r * g.classes + k) := by
    rw [Nat.add_mul, Nat.mul_assoc, Nat.add_assoc]
  have found := getElem?_flatMap_groups (fun image _ => g.length_cropRows c.config image) hi
    (Table.offset_lt hr hk)
  rw [g.flat_data reached, place, Array.getD_eq_getD_getElem?, List.getElem?_toArray, found]

theorem fills (g : RowNetwork) (reached : c.config.batch images = .ok batch)
    (agreed : c.classCount = none ∨ c.classCount = some g.classes) :
    Fills (g.flat batch) images.length c.config.cropsPerImage c.classCount g.classes := by
  obtain ⟨⟨_, admits⟩, _⟩ := Preprocessing.batch_eq_ok_iff.mp reached
  refine ⟨Nat.mul_ne_zero ?_ ?_, Nat.ne_of_gt g.classes_pos, ?_, ?_⟩
  · exact fun none => admits.nonempty (List.eq_nil_of_length_eq_zero none)
  · exact Nat.ne_of_gt c.config.cropsPerImage_pos
  · rw [g.flat_data reached, List.size_toArray,
      length_flatMap_groups fun image _ => g.length_cropRows c.config image, Nat.mul_assoc]
  · intro expected chosen
    rcases agreed with none | some
    · cases none.symm.trans chosen
    · exact Option.some.inj (chosen.symm.trans some)

/-- The outcome holds the row of each image, one below the other. -/
theorem exists_outcome (g : RowNetwork) (reached : c.config.batch images = .ok batch)
    (agreed : c.classCount = none ∨ c.classCount = some g.classes) :
    ∃ outcome, (∀ network, g.RunBy network → c.predict network images = .ok outcome) ∧
      outcome.predictions.rows = images.length ∧ outcome.predictions.cols = g.classes ∧
      outcome.predictions.rowList = images.map (g.imageRow c.config) := by
  obtain ⟨⟨_, admits⟩, _⟩ := Preprocessing.batch_eq_ok_iff.mp reached
  obtain ⟨table, accepted, rows, cols, _, entries⟩ := (g.fills reached agreed).postprocess_eq_ok
  refine ⟨.of table, fun network runs => ?_, rows, cols, ?_⟩
  · have rank : batch.shape.length = 4 := by
      rw [Preprocessing.shape_of_batch admits reached]
      rfl
    have data : (network batch).data = (g.flat batch).data := by
      exact Array.toList_inj.mp (runs batch rank)
    rw [Classifier.predict, reached, Result.ok_bind, accepted _ data]
  · apply List.ext_getElem
    · simpa [Outcome.of, Table.rowList] using rows
    · intro i _ inside
      have hi : i < images.length := by simpa using inside
      simp only [Outcome.of, Table.rowList, List.getElem_ofFn, List.getElem_map]
      apply List.ext_getElem
      · simpa [imageRow] using cols
      · intro k _ inRow
        have hk : k < g.classes := by simpa [imageRow] using inRow
        simp only [Table.getElem_row, imageRow, List.getElem_ofFn]
        rw [entries i k hi hk]
        exact cropMean_congr fun r hr => g.getD_flat_data reached hi hr hk

end Reached

/-- Any images of a list that reaches the network reach it without the others. -/
theorem reaches_part {config : Preprocessing} {images part : List Image} {batch : Tensor}
    (reached : config.batch images = .ok batch) (some : part ≠ [])
    (within : part.Sublist images) : ∃ smaller, config.batch part = .ok smaller := by
  obtain ⟨⟨channels, admits⟩, _⟩ := Preprocessing.batch_eq_ok_iff.mp reached
  have partAdmits : config.Admits part channels := {
    nonempty := some
    channels_eq := fun image member => admits.channels_eq image (within.subset member)
    valid := admits.valid
    sized := admits.sized.imp id fun all image member => all image (within.subset member)
    addressable := admits.addressable.of_le
      (Nat.mul_pos (List.length_pos_iff.mpr some) config.cropsPerImage_pos)
      (Nat.mul_le_mul_right _ within.length_le) }
  exact partAdmits.exists_batch

theorem predict_part (g : RowNetwork) {c : Classifier} {network : Tensor → Tensor}
    {images part : List Image} {batch : Tensor} (reached : c.config.batch images = .ok batch)
    (agreed : c.classCount = none ∨ c.classCount = some g.classes) (runs : g.RunBy network)
    (within : part.Sublist images) :
    predictedRows (c.predict network part) = part.map (g.imageRow c.config) ∧
      (part ≠ [] → ∃ outcome, c.predict network part = .ok outcome) := by
  by_cases some : part = []
  · subst some
    exact ⟨rfl, fun some => absurd rfl some⟩
  · obtain ⟨smaller, partReached⟩ := reaches_part reached some within
    obtain ⟨outcome, predicted, _, _, rowList⟩ := g.exists_outcome partReached agreed
    rw [predicted network runs]
    exact ⟨rowList, fun _ => ⟨outcome, rfl⟩⟩

end RowNetwork

theorem Table.row_of_rowList {table : Table} {rows : List (List Float32)}
    (rowList : table.rowList = rows) {i : Nat} (hi : i < rows.length) : table.row i = rows[i] := by
  subst rowList
  simp [Table.rowList]

/-- Images do not influence each other. Each has the row that it has on its own, and the rows of a
list are those of its first part and those of the rest. -/
theorem Classifier.predict_rows_independent {c : Classifier} {images : List Image} {batch : Tensor}
    {g : RowNetwork} (reached : c.config.batch images = .ok batch)
    (agreed : c.classCount = none ∨ c.classCount = some g.classes) :
    ∃ outcome, (∀ network, g.RunBy network → c.predict network images = .ok outcome) ∧
      outcome.predictions.rows = images.length ∧ outcome.predictions.cols = g.classes ∧
      (∀ i (hi : i < images.length), ∃ alone,
        (∀ network, g.RunBy network → c.predict network [images[i]] = .ok alone) ∧
          alone.predictions.rows = 1 ∧
          outcome.predictions.row i = alone.predictions.row 0) ∧
      ∀ left right, left ++ right = images → ∀ network, g.RunBy network →
        (left ≠ [] → ∃ first, c.predict network left = .ok first) ∧
        (right ≠ [] → ∃ second, c.predict network right = .ok second) ∧
        outcome.predictions.rowList =
          predictedRows (c.predict network left) ++ predictedRows (c.predict network right) := by
  obtain ⟨outcome, predicted, rows, cols, rowList⟩ := g.exists_outcome reached agreed
  refine ⟨outcome, predicted, rows, cols, ?_, ?_⟩
  · intro i hi
    obtain ⟨single, singleReached⟩ :=
      RowNetwork.reaches_part reached (List.cons_ne_nil images[i] [])
        (List.singleton_sublist.mpr (List.getElem_mem hi))
    obtain ⟨alone, alonePredicted, aloneRows, _, aloneRowList⟩ :=
      g.exists_outcome singleReached agreed
    refine ⟨alone, alonePredicted, aloneRows, ?_⟩
    rw [Table.row_of_rowList rowList (by simpa using hi), List.getElem_map]
    exact (Table.row_of_rowList aloneRowList Nat.one_pos).symm
  · intro left right joined network runs
    have leftWithin : left.Sublist images := joined ▸ List.sublist_append_left left right
    have rightWithin : right.Sublist images := joined ▸ List.sublist_append_right left right
    obtain ⟨leftRows, leftOk⟩ := g.predict_part reached agreed runs leftWithin
    obtain ⟨rightRows, rightOk⟩ := g.predict_part reached agreed runs rightWithin
    refine ⟨leftOk, rightOk, ?_⟩
    rw [rowList, leftRows, rightRows, ← List.map_append, joined]

theorem Classifier.predict_rows_independent_two_images :
    let c : Classifier := ⟨"data", some 2, 1, { imageDims := ⟨2, 2⟩, cropDims := ⟨1, 1⟩ }⟩
    let g : RowNetwork := ⟨2, by decide, fun input => [input.get 0 0 0, 1], fun _ => rfl⟩
    let dark : Image := .ofFn 1 1 1 fun _ _ _ => 0
    let light : Image := .ofFn 3 2 1 fun y _ _ => Binary32.ofNat y
    ∃ outcome alone, c.predict g.flat [dark, light] = .ok outcome ∧
      c.predict g.flat [light] = .ok alone ∧ outcome.predictions.rows = 2 ∧
      outcome.predictions.row 1 = alone.predictions.row 0 := by
  intro c g dark light
  have admits : c.config.Admits [dark, light] 1 := {
    nonempty := by simp
    channels_eq := by simp [dark, light]
    valid := rfl
    sized := .inl (by decide)
    addressable := by decide }
  obtain ⟨batch, reached⟩ := admits.exists_batch
  obtain ⟨outcome, predicted, rows, _, single, _⟩ :=
    Classifier.predict_rows_independent (g := g) reached (.inr rfl)
  obtain ⟨alone, alonePredicted, _, same⟩ := single 1 (by simp)
  exact ⟨outcome, alone, predicted _ g.runBy_flat, alonePredicted _ g.runBy_flat, rows, same⟩

end ViewClassifier
