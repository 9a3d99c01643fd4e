import ViewClassifier.Proofs.Chart.Pixels
import ViewClassifier.Proofs.Chart.Top
import ViewClassifier.Proofs.Files.Writing
import ViewClassifier.Proofs.Ranking.Slices

/-!
# The curve of a chart

A chart has one line with one vertex for each class, from left to right, and a disc at the vertex of the
best class. No other probability is drawn above the disc, whatever is lost by rounding. The disc is
missing where no probability is a number.
-/

set_option autoImplicit false

namespace ViewClassifier.Chart

open Binary32 (UpTo exact signed)

/-- A line with one vertex for each class, in the order of the classes and never to the left. -/
structure Runs (probabilities : List Float32) (vertices : List Pixel) : Prop where
  length_eq : vertices.length = probabilities.length
  ofClass : ∀ (i : ℕ) (p : Float32), probabilities[i]? = some p →
    vertices[i]? = some ((Axes.of probabilities).vertex i p)
  rightward : vertices.Pairwise fun a b => a.x ≤ b.x

/-- The vertex of the best class. Larger numbers of rows are farther down. -/
structure Marks (probabilities : List Float32) (vertices : List Pixel) (centre : Pixel) : Prop where
  centred : ∃ best, argmax probabilities = some best ∧ vertices[best]? = some centre
  topmost : ∀ (i : ℕ) (p : Float32) (vertex : Pixel), probabilities[i]? = some p →
    p.isNaN = false → vertices[i]? = some vertex → centre.y ≤ vertex.y

/-- The lines of a chart. -/
def lines (chart : Chart) : List (List Pixel) :=
  chart.shapes.filterMap fun
    | .line vertices _ => some vertices
    | .disc .. => none

/-- The centres of the discs of a chart. -/
def centres (chart : Chart) : List Pixel :=
  chart.shapes.filterMap fun
    | .line .. => none
    | .disc centre _ _ => some centre

variable {probabilities : List Float32}

section Lines

theorem getElem?_vertices {i : ℕ} :
    ((Axes.of probabilities).vertices probabilities)[i]? =
      probabilities[i]?.map ((Axes.of probabilities).vertex i) := by
  simp [Axes.vertices, Option.map_map, Function.comp_def]

theorem runs_vertices (size : probabilities.length < UInt64.size) :
    Runs probabilities ((Axes.of probabilities).vertices probabilities) where
  length_eq := by simp [Axes.vertices]
  ofClass := by
    intro i p inside
    rw [getElem?_vertices, inside]
    rfl
  rightward := by
    have many : 0 < (Axes.of probabilities).lastClass ∧
        probabilities.length ≤ (Axes.of probabilities).lastClass + 1 ∧
        (Axes.of probabilities).lastClass < UInt64.size := by
      simp only [Axes.of]
      have room : 2 < UInt64.size := by decide
      omega
    refine List.pairwise_map.mpr ((pairwise_zipIdx probabilities).imp_of_mem ?_)
    rintro ⟨p, i⟩ ⟨q, j⟩ - member before
    have last := (List.getElem?_eq_some_iff.mp (List.mem_zipIdx_iff_getElem?.mp member)).1
    have within : j ≤ (Axes.of probabilities).lastClass := by
      dsimp only at last
      omega
    exact column_mono many.1 many.2.2 before.le within

end Lines

section Marker

variable {best : ℕ}

/-- No number is drawn above the greatest one. -/
theorem row_best (drawable : ∀ p ∈ probabilities, Drawable p) {p x : Float32}
    (member : p ∈ probabilities) (number : p.isNaN = false) (bestMember : x ∈ probabilities)
    (bestNumber : x.isNaN = false) (le : p ≤ x) :
    row (valueAtTop probabilities) x ≤ row (valueAtTop probabilities) p := by
  have upper := upTo_valueAtTop drawable bestMember bestNumber
  have lower : UpTo x p := ⟨(upTo_valueAtTop drawable member number).amount, upper.amount, le⟩
  obtain ⟨top, positive, -⟩ := valueAtTop_spec drawable
  rw [top.amount.signed_eq] at positive
  have small : exact (valueAtTop probabilities) ≤ Binary64.limit := by
    rw [← top.amount.signed_eq]
    exact top.greatest.trans (by norm_num [Binary64.limit])
  exact row_antitone lower upper positive small

theorem marks_best (drawable : ∀ p ∈ probabilities, Drawable p)
    (found : argmax probabilities = some best) :
    Marks probabilities ((Axes.of probabilities).vertices probabilities)
      ((Axes.of probabilities).vertex best (probabilities.getD best 0)) := by
  obtain ⟨x, inside, number, greatest⟩ := greatest_of_argmax found
  have value : probabilities.getD best 0 = x := by
    rw [List.getD_eq_getElem?_getD, inside, Option.getD_some]
  rw [value]
  refine ⟨⟨best, found, ?_⟩, fun i p vertex listed pNumber drawn => ?_⟩
  · rw [getElem?_vertices, inside]
    rfl
  · rw [getElem?_vertices, listed] at drawn
    obtain rfl := Option.some.inj drawn
    have member := List.mem_of_getElem? listed
    exact row_best drawable member pNumber (List.mem_of_getElem? inside) number
      (greatest p member pNumber)

end Marker

theorem read_save {encode : Chart → Files.Bytes} {tree written : Files.Tree} {path : String}
    {chart : Chart} (saved : save encode tree path chart = .ok written) :
    written.read path = .ok (encode chart) := by
  unfold save at saved
  split at saved
  · rename_i filed put
    exact Except.ok.inj saved ▸ Files.Tree.read_write put
  · cases saved

/-- The shapes of a chart are one line and a disc where there is a best class. -/
theorem draw_spec (nonempty : probabilities ≠ []) (caption : String) :
    ∃ chart, draw probabilities caption = .ok chart ∧ chart.caption = caption ∧
      chart.lines = [(Axes.of probabilities).vertices probabilities] ∧
      chart.centres = ((argmax probabilities).map fun best =>
        (Axes.of probabilities).vertex best (probabilities.getD best 0)).toList := by
  refine ⟨_, if_neg nonempty, rfl, ?_, ?_⟩
  · cases argmax probabilities <;> rfl
  · cases argmax probabilities <;> rfl

/-- A chart of as many probabilities as a machine word counts has one line through the vertices of all
classes, and one disc exactly where some probability is a number. Whatever a writer makes of the chart
is what its file holds. -/
theorem draw_marks_best (nonempty : probabilities ≠ []) (size : probabilities.length < UInt64.size)
    (drawable : ∀ p ∈ probabilities, Drawable p) (caption : String) :
    ∃ chart line, draw probabilities caption = .ok chart ∧ chart.caption = caption ∧
      chart.lines = [line] ∧ Runs probabilities line ∧
      (chart.centres = [] ↔ ∀ p ∈ probabilities, p.isNaN = true) ∧
      ((∃ p ∈ probabilities, p.isNaN = false) →
        ∃ centre, chart.centres = [centre] ∧ Marks probabilities line centre) ∧
      ∀ (encode : Chart → Files.Bytes) (tree written : Files.Tree) (path : String),
        save encode tree path chart = .ok written → written.read path = .ok (encode chart) := by
  obtain ⟨chart, drawn, named, lines, centres⟩ := draw_spec nonempty caption
  refine ⟨chart, _, drawn, named, lines, runs_vertices size, ?_, fun someNumber => ?_,
    fun encode tree written path => read_save⟩
  · rw [centres, Option.toList_eq_nil_iff, Option.map_eq_none_iff, argmax_eq_none_iff,
      candidates_eq_nil_iff]
  · obtain ⟨best, found⟩ := Option.isSome_iff_exists.mp (argmax_isSome_iff.mpr someNumber)
    rw [centres, found]
    exact ⟨_, rfl, marks_best drawable found⟩

/-- What is no number, zero, and the greatest probability at two classes. -/
def mixedProbabilities : List Float32 :=
  [Binary32.nan, 0, 0.25, 0.25]

theorem draw_marks_best_mixed :
    ∃ chart line, draw mixedProbabilities "a < b" = .ok chart ∧ chart.lines = [line] ∧
      line = [⟨70, 429⟩, ⟨363, 429⟩, ⟨656, 55⟩, ⟨949, 55⟩] ∧ chart.centres = [⟨656, 55⟩] ∧
      Marks mixedProbabilities line ⟨656, 55⟩ := by
  have drawable : ∀ p ∈ mixedProbabilities, Drawable p := by
    unfold Drawable
    decide
  obtain ⟨chart, line, drawn, -, lines, -, -, marked, -⟩ :=
    draw_marks_best (by decide) (by decide) drawable "a < b"
  obtain ⟨centre, centres, marks⟩ := marked ⟨0.25, by simp [mixedProbabilities], by decide⟩
  have points : chart.lines = [[⟨70, 429⟩, ⟨363, 429⟩, ⟨656, 55⟩, ⟨949, 55⟩]] := by
    cases drawn
    decide +kernel
  have marker : chart.centres = [⟨656, 55⟩] := by
    cases drawn
    decide +kernel
  obtain rfl : line = _ := List.singleton_inj.mp (lines.symm.trans points)
  obtain rfl : centre = _ := List.singleton_inj.mp (centres.symm.trans marker)
  exact ⟨chart, _, drawn, points, rfl, marker, marks⟩

end ViewClassifier.Chart
