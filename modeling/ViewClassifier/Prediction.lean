import ViewClassifier.Error
import ViewClassifier.Ranking
import ViewClassifier.Table

/-!
# Predictions

A table of probabilities with one row for each image, and what is reported about it.
-/

set_option autoImplicit false

namespace ViewClassifier

structure Prediction where
  table : Table
  rows_pos : 0 < table.rows
  cols_pos : 0 < table.cols

namespace Prediction

def ofTable (table : Table) : Result Prediction :=
  if h : 0 < table.rows ∧ 0 < table.cols then .ok ⟨table, h.1, h.2⟩ else .error .emptyBatch

def row? (p : Prediction) (index : Nat) : Option (List Float32) :=
  if index < p.table.rows then some (p.table.row index) else none

def argmax (p : Prediction) (index : Nat) : Option Nat :=
  (p.row? index).bind ViewClassifier.argmax

/-- The `k` most probable classes of an image with their probabilities. -/
def topK (p : Prediction) (index k : Nat) : List (Nat × Float32) :=
  match p.row? index with
  | some row => (ViewClassifier.topK row k).map fun i => (i, row.getD i 0)
  | none => []

structure Summary where
  classes : Nat
  best : Option Nat
  deriving DecidableEq, Repr

def summary (p : Prediction) : Summary :=
  ⟨p.table.cols, p.argmax 0⟩

def Summary.text (s : Summary) : String :=
  "prediction shape: (" ++ toString s.classes ++ ",)\npredicted class: " ++
    match s.best with
    | some index => toString index
    | none => "none"

end Prediction

end ViewClassifier
