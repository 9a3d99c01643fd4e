import ViewClassifier.Proofs.Binary32.Arithmetic
import ViewClassifier.Proofs.View.Scoring

/-!
# Decoding and scoring of views

Decoding a vector looks for the best of all its views, and scoring looks for the best azimuth of one
class. A best view is the best one of its class too, so that the views that are decoded get the full
score.
-/

set_option autoImplicit false

namespace ViewClassifier

open Binary32 (ofNat level UpTo)

namespace ViewLabel

variable {v : ViewLabel}

structure IsObject (v : ViewLabel) : Prop where
  index_lt : v.index < objectClasses
  azimuth_lt : v.azimuth < azimuthBins

theorem toNat_encode (object : v.IsObject) :
    v.encode.toNat = v.index * azimuthBins + v.azimuth := by
  have small : v.index * azimuthBins + v.azimuth < UInt32.size :=
    calc v.index * azimuthBins + v.azimuth < objectClasses * azimuthBins :=
          Table.offset_lt object.index_lt object.azimuth_lt
      _ < UInt32.size := by decide
  exact UInt32.toNat_ofNat_of_lt' small

theorem decode_toNat_encode (object : v.IsObject) : decode v.encode.toNat = v := by
  rw [toNat_encode object, decode, Nat.mul_comm, Nat.mul_add_div (by decide),
    Nat.div_eq_of_lt object.azimuth_lt, Nat.mul_add_mod, Nat.mod_eq_of_lt object.azimuth_lt,
    Nat.add_zero]

theorem isObject_decode {number : ℕ} (small : number < viewVectorLength) :
    (decode number).IsObject :=
  ⟨Nat.div_lt_of_lt_mul (Nat.mul_comm _ _ ▸ small), Nat.mod_lt _ (by decide)⟩

theorem encode_decode {number : ℕ} (small : number < viewVectorLength) :
    (decode number).encode.toNat = number := by
  rw [toNat_encode (isObject_decode small)]
  exact Nat.div_add_mod' number azimuthBins

theorem not_isBackground (object : v.IsObject) : v.isBackground = false :=
  beq_false_of_ne (Nat.ne_of_lt object.index_lt)

end ViewLabel

section Decoding

variable {probabilities : List Float32} {v : ViewLabel} {tolerance : ℕ} {score : Score}

/-- The most probable view, with the first one for want of a number. -/
def bestView (probabilities : List Float32) : ViewLabel :=
  .decode ((argmax probabilities).getD 0)

theorem decodeView_eq_ok_iff :
    decodeView probabilities = .ok v ↔
      probabilities.length = viewVectorLength ∧ v = bestView probabilities := by
  unfold decodeView
  by_cases full : probabilities.length = viewVectorLength
  · rw [if_neg (not_not_intro full), and_iff_right full, Except.ok.injEq, eq_comm]
    rfl
  · rw [if_pos full]
    exact iff_of_false (fun accepted => by cases accepted) (fun other => full other.1)

theorem argmax_getD_lt (full : probabilities.length = viewVectorLength) :
    (argmax probabilities).getD 0 < viewVectorLength :=
  full ▸ argmax_getD_lt_length (full.symm ▸ by decide)

theorem isObject_bestView (full : probabilities.length = viewVectorLength) :
    (bestView probabilities).IsObject :=
  ViewLabel.isObject_decode (argmax_getD_lt full)

theorem encode_bestView {best : ℕ} (full : probabilities.length = viewVectorLength)
    (found : argmax probabilities = some best) : (bestView probabilities).encode.toNat = best := by
  rw [bestView, found, Option.getD_some, ViewLabel.encode_decode (full ▸ argmax_lt found)]

/-- The best bin of all is the best one of its class. Bin zero stands for both if there is none. -/
theorem argmax_classBins (probabilities : List Float32) :
    (argmax (classBins probabilities (bestView probabilities).index)).getD 0 =
      (bestView probabilities).azimuth := by
  unfold bestView classBins
  cases found : argmax probabilities with
  | none => rw [argmax_slice_of_none found]; rfl
  | some best =>
      have split : best / azimuthBins * azimuthBins + best % azimuthBins = best :=
        Nat.div_add_mod' best azimuthBins
      have inside : best % azimuthBins < azimuthBins := Nat.mod_lt _ (by decide)
      have slice := argmax_slice found (show best / azimuthBins * azimuthBins ≤ best by omega)
        (show best < best / azimuthBins * azimuthBins + azimuthBins by omega)
      simp only [Option.getD_some, ViewLabel.decode, slice]
      omega

theorem predictAzimuth_bestView (full : probabilities.length = viewVectorLength) :
    predictAzimuth probabilities (bestView probabilities).index =
      .ok (bestView probabilities).azimuth := by
  have object := isObject_bestView full
  unfold predictAzimuth
  rw [if_neg (not_not_intro full), if_neg (Nat.not_le.mpr object.index_lt), argmax_classBins]

theorem angularError_self (a : ℕ) : angularError a a = 0 := by
  simp [angularError]

/-- A row that is labelled with its own best view is a hit. -/
theorem Score.add_bestView (full : probabilities.length = viewVectorLength) :
    score.add tolerance probabilities (bestView probabilities).encode =
      .ok ⟨score.counted + 1, score.hits + 1⟩ := by
  have object := isObject_bestView full
  unfold Score.add
  simp only [ViewLabel.decode_toNat_encode object, ViewLabel.not_isBackground object,
    predictAzimuth_bestView full, angularError_self, Nat.zero_le, if_true, Bool.false_eq_true,
    if_false, Result.ok_bind, Result.pure_eq]

theorem foldlM_add_bestView {rows : List (List Float32)}
    (full : ∀ row ∈ rows, row.length = viewVectorLength) :
    (rows.zip ((rows.map bestView).map ViewLabel.encode)).foldlM
        (fun (score : Score) (row, label) => score.add tolerance row label) score =
      .ok ⟨score.counted + .ofNat rows.length, score.hits + .ofNat rows.length⟩ := by
  induction rows generalizing score with
  | nil => simp
  | cons row rest ih =>
      simp only [List.map_cons, List.zip_cons_cons, List.foldlM_cons]
      rw [Score.add_bestView (full row (.head _)), Result.ok_bind,
        ih fun other member => full other (.tail _ member), List.length_cons, Nat.add_comm,
        Int32.ofNat_add, ← Int32.add_assoc, ← Int32.add_assoc]
      rfl

theorem ofNat_div_self {count : ℕ} (positive : 0 < count) (small : count ≤ 2 ^ 64) :
    ofNat count / ofNat count = 1 := by
  have amount := (UpTo.ofNat small (by decide)).amount
  have one := (Binary32.rounds_ofNat 1).le_of_le (Binary32.rounds_ofNat count)
    (by exact_mod_cast positive)
  have levels := (Binary32.le_iff_level_le (by decide) amount.number).mp one
  have first : 0 < level (ofNat 1) := by decide
  exact amount.div_eq_one (first.trans_le levels)

/-- Rows that are all hits have an accuracy exactly where the word that counts them is positive. -/
theorem accuracy_full (count : Int32) :
    Score.accuracy ⟨count, count⟩ = if 0 < count then some 1 else none := by
  unfold Score.accuracy
  by_cases positive : 0 < count
  · rw [if_pos positive, if_pos positive]
    have valuePos : 0 < count.toInt := Int32.lt_iff_toInt_lt.mp positive
    obtain ⟨n, value⟩ := Int.eq_ofNat_of_zero_le valuePos.le
    have below := count.toInt_lt
    rw [Binary32.ofInt32_of_toInt_eq value, ofNat_div_self (by omega) (by omega)]
  · rw [if_neg positive, if_neg positive]

/-- A row without a number, and a row in which two views share the greatest probability. -/
def tiedRows : Table :=
  .ofFn 2 viewVectorLength fun i k =>
    if i = 0 then Binary32.nan else if k = 725 ∨ k = 4000 then 1 else 0

end Decoding

namespace Prediction

/-- The summary of a prediction names the label that its first row is decoded to, and a greatest
value of the row stands there. It names none exactly when the row has no number, where the first
view is decoded. -/
theorem decodeView_summary (p : Prediction) (wide : p.table.cols = viewVectorLength) :
    ∃ row v, p.row? 0 = some row ∧ decodeView row = .ok v ∧
      (∀ c, p.summary.best = some c → v.encode.toNat = c ∧
        ∃ x, row[c]? = some x ∧ x.isNaN = false ∧ ∀ y ∈ row, y.isNaN = false → y ≤ x) ∧
      (p.summary.best = none ↔ ∀ y ∈ row, y.isNaN = true) ∧
      (p.summary.best = none → v = ⟨0, 0⟩) := by
  have first : p.row? 0 = some (p.table.row 0) := if_pos p.rows_pos
  have best : p.summary.best = ViewClassifier.argmax (p.table.row 0) := by
    rw [summary, argmax, first, Option.bind_some]
  have full : (p.table.row 0).length = viewVectorLength := (Table.length_row _ _).trans wide
  refine ⟨p.table.row 0, bestView (p.table.row 0), first, decodeView_eq_ok_iff.mpr ⟨full, rfl⟩, ?_⟩
  rw [best]
  refine ⟨fun c found => ⟨encode_bestView full found, greatest_of_argmax found⟩, ?_, ?_⟩
  · rw [argmax_eq_none_iff, candidates_eq_nil_iff]
  · intro missing
    rw [bestView, missing]
    rfl

/-- The first value is NaN and two views share the greatest one. -/
def tied : Prediction :=
  ⟨.ofFn 1 viewVectorLength fun _ k =>
    if k = 0 then Binary32.nan else if k = 725 ∨ k = 4000 then 1 else 0, by decide, by decide⟩

theorem decodeView_summary_tied :
    tied.table.cols = viewVectorLength ∧ ∃ row v c, tied.row? 0 = some row ∧
      decodeView row = .ok v ∧ tied.summary.best = some c ∧ v.encode.toNat = c := by
  obtain ⟨row, v, first, decoded, named, missing, _⟩ := decodeView_summary tied rfl
  obtain rfl : tied.table.row 0 = row := Option.some.inj ((if_pos tied.rows_pos).symm.trans first)
  have entry : tied.table.get 0 725 = 1 := by
    unfold tied
    rw [Table.get_ofFn _ (by decide) (by decide), if_neg (by decide), if_pos (.inl rfl)]
  have present : 1 ∈ tied.table.row 0 := List.mem_ofFn.mpr ⟨⟨725, by decide⟩, entry⟩
  cases best : tied.summary.best with
  | none => exact absurd (missing.mp best 1 present) (by decide)
  | some c => exact ⟨rfl, _, v, c, first, decoded, rfl, (named c best).1⟩

def nanRow : Prediction :=
  ⟨.ofFn 1 viewVectorLength fun _ _ => Binary32.nan, by decide, by decide⟩

theorem nanRow_decodes :
    nanRow.table.cols = viewVectorLength ∧ nanRow.summary.best = none ∧
      ∃ row, nanRow.row? 0 = some row ∧ decodeView row = .ok ⟨0, 0⟩ := by
  have first : nanRow.row? 0 = some (nanRow.table.row 0) := if_pos nanRow.rows_pos
  have missing : ViewClassifier.argmax (nanRow.table.row 0) = none := by
    rw [argmax_eq_none_iff, candidates_eq_nil_iff]
    intro x member
    obtain ⟨k, rfl⟩ := List.mem_ofFn.mp member
    have inside : k.val < viewVectorLength := k.isLt
    have entry : nanRow.table.get 0 k.val = Binary32.nan :=
      Table.get_ofFn (fun _ _ => Binary32.nan) Nat.one_pos inside
    rw [entry]
    decide
  refine ⟨rfl, ?_, nanRow.table.row 0, first, ?_⟩
  · rw [summary, argmax, first, Option.bind_some, missing]
  · rw [decodeView_eq_ok_iff, bestView, missing]
    exact ⟨Table.length_row _ _, rfl⟩

end Prediction

end ViewClassifier
