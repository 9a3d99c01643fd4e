import ViewClassifier.Error
import ViewClassifier.Ranking
import ViewClassifier.Table

/-!
# Bins of a circle

A period is cut into equal bins. Labels are split into a bin and an offset, predictions are compared
bin by bin, and a classifier of bins is combined with an offset for each bin.
-/

set_option autoImplicit false

namespace ViewClassifier

open Binary32 (ofNat)

/-- The bin of a label and the offset inside it. The label counts up to `labelMax` and is brought to
the period first. -/
def labelSplit (label period : Float32) (bins : UInt32) (labelMax : Float32) :
    UInt32 × Float32 :=
  let unit := period / bins.toFloat32
  let scaled := label / (labelMax / period)
  ((Binary32.floor (scaled / unit)).toUInt32, Binary32.remainder scaled unit)

def centredBin (period width angle : Float32) : Int :=
  Binary32.toInteger (Binary32.floor (Binary32.modulo (angle + width / 2) period / width))

structure BinPair where
  predicted : Int
  labelled : Int
  deriving DecidableEq, Repr

def BinPair.text (pair : BinPair) : String :=
  "quantized pred " ++ toString pair.predicted ++ ", label " ++ toString pair.labelled

structure BinScore where
  accuracy : Float32
  pairs : List BinPair

/-- Compares predictions with labels bin by bin. The labels count up to `labelMax` and are brought
to the period first. -/
def quantizedAccuracy (predictions labels : List Float32) (period : Float32) (bins : UInt32)
    (labelMax : Float32) : Result BinScore :=
  if predictions.length ≠ labels.length then
    .error (.shapeMismatch (.predictions labels.length predictions.length))
  else if predictions = [] then
    .error .emptyBatch
  else
    let width := period / bins.toFloat32
    let bin := centredBin period width
    let pairs := predictions.zipWith
      (fun prediction label => BinPair.mk (bin prediction) (bin (label / (labelMax / period)))) labels
    let hits := pairs.countP fun pair => pair.predicted == pair.labelled
    .ok ⟨ofNat hits / ofNat predictions.length, pairs⟩

/-- An offset moved into a bin of a given width. NaN becomes zero. -/
def clampOffset (unit offset : Float32) : Float32 :=
  if offset.isNaN then 0 else Binary32.max (Binary32.min offset unit) 0

/-- The angle of the most probable bin with the offset that belongs to it. -/
def mixedAngle (unit : Float32) (probabilities : List Float32) (offset : Nat → Float32) : Float32 :=
  let best := (argmax probabilities).getD 0
  clampOffset unit (offset best) + ofNat best * unit

/-- One angle for each row: the start of its most probable bin plus the offset for that bin, which
is kept inside the bin. -/
def mixedPrediction (probabilities offsets : Table) (period : Float32) : Result (List Float32) :=
  if (probabilities.rows, probabilities.cols) ≠ (offsets.rows, offsets.cols) then
    .error (.shapeMismatch
      (.tables (probabilities.rows, probabilities.cols) (offsets.rows, offsets.cols)))
  else if probabilities.cols = 0 then
    .error .emptyBatch
  else if !(period.isFinite && 0 < period) then
    .error (.invalidConfig (.period period))
  else
    let unit := period / ofNat probabilities.cols
    .ok (List.ofFn fun i : Fin probabilities.rows =>
      mixedAngle unit (probabilities.row i.val) (offsets.get i.val))

end ViewClassifier
