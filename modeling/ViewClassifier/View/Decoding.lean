import ViewClassifier.Error
import ViewClassifier.Ranking
import ViewClassifier.Table
import ViewClassifier.View.Label

/-!
# Decoding of view probabilities

The most probable view of a vector with one probability for each view, and the share of views that
are found within a tolerance.
-/

set_option autoImplicit false

namespace ViewClassifier

def classBins (probabilities : List Float32) (index : Nat) : List Float32 :=
  (probabilities.drop (index * azimuthBins)).take azimuthBins

/-- The most probable azimuth of a class, and zero when no probability of the class is a number. -/
def predictAzimuth (probabilities : List Float32) (index : Nat) : Result Nat :=
  if probabilities.length ≠ viewVectorLength then
    .error (.shapeMismatch (.probabilities viewVectorLength probabilities.length))
  else if objectClasses ≤ index then
    .error (.invalidConfig (.classWithoutBins index))
  else
    .ok ((argmax (classBins probabilities index)).getD 0)

/-- The most probable view, and the first one when no probability is a number. -/
def decodeView (probabilities : List Float32) : Result ViewLabel :=
  if probabilities.length ≠ viewVectorLength then
    .error (.shapeMismatch (.probabilities viewVectorLength probabilities.length))
  else
    .ok (ViewLabel.decode ((argmax probabilities).getD 0))

/-- Counts of rows. They are signed words, which wrap around from the greatest to the least one. -/
structure Score where
  counted : Int32
  hits : Int32
  deriving DecidableEq, Repr

/-- The score after one more row. A row labelled as background does not count. -/
def Score.add (tolerance : Nat) (score : Score) (probabilities : List Float32) (label : UInt32) :
    Result Score :=
  let view := ViewLabel.decode label.toNat
  if view.isBackground then .ok score
  else do
    let azimuth ← predictAzimuth probabilities view.index
    let hit := angularError azimuth view.azimuth ≤ tolerance
    return ⟨score.counted + 1, if hit then score.hits + 1 else score.hits⟩

def Score.accuracy (score : Score) : Option Float32 :=
  if 0 < score.counted then
    some (Binary32.ofInt32 score.hits / Binary32.ofInt32 score.counted)
  else none

/-- The share of rows whose azimuth is found within a tolerance. The azimuth is looked for in the
bins of the labelled class only. -/
def viewAccuracy (probabilities : Table) (labels : List UInt32) (tolerance : Nat) :
    Result (Option Float32) :=
  if probabilities.rows ≠ labels.length then
    .error (.shapeMismatch (.rows labels.length probabilities.rows))
  else if probabilities.cols ≠ viewVectorLength then
    .error (.shapeMismatch (.columns viewVectorLength probabilities.cols))
  else do
    let score ← (probabilities.rowList.zip labels).foldlM
      (fun (score : Score) (row, label) => score.add tolerance row label) ⟨0, 0⟩
    return score.accuracy

end ViewClassifier
