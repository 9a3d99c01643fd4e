import ViewClassifier.Averaging
import ViewClassifier.Image.Cropping
import ViewClassifier.Prediction
import ViewClassifier.Preprocessing

/-!
# Classifiers

A classifier turns images into one batch, hands the batch to a network, and turns the output of the
network into one row of probabilities for each image. The network is a function on tensors.
-/

set_option autoImplicit false

namespace ViewClassifier

/-- The volumes of a list along a new axis, which is the slowest one. -/
def stack (volumes : List Volume) : Result Tensor :=
  match volumes with
  | [] => .error (.join .nothing)
  | first :: _ =>
      let length := first.outer * first.middle * first.inner
      if volumes.all fun v =>
          v.outer == first.outer && v.middle == first.middle && v.inner == first.inner then
        if Addressable [volumes.length, first.outer, first.middle, first.inner] then
          let t := Table.ofFn volumes.length length fun i place =>
            match volumes[i]? with
            | some v => v.data.getD place 0
            | none => 0
          .ok {
            shape := [volumes.length, first.outer, first.middle, first.inner]
            data := t.data
            size_data := by rw [t.size_data]; simp [t, length, positions, Nat.mul_assoc] }
        else .error (.join .tooLarge)
      else .error (.join .different)

namespace Preprocessing

/-- The crops of all images that go to the network, image after image. -/
def crops (config : Preprocessing) (images : List Image) : Result (List Image) :=
  if config.oversample then Image.oversample images config.cropDims
  else images.mapM fun image => image.centerCrop config.cropDims

def cropsPerImage (config : Preprocessing) : Nat :=
  if config.oversample then Image.cropsPerImage else 1

/-- The batch that images become. Each step is taken for all images before the next one is taken for
any of them. -/
def batch (config : Preprocessing) (images : List Image) : Result Tensor := do
  if images = [] then throw .emptyBatch
  let resized ← images.mapM fun image => image.resize config.imageDims
  let crops ← config.crops resized
  let inputs ← crops.mapM config.preprocess
  stack inputs

end Preprocessing

structure Warning where
  row : Nat
  sum : Float32

def Warning.text (w : Warning) : String :=
  "prediction " ++ toString w.row ++ " sums to " ++ Decimal.Layout.plain.text w.sum ++
    "; the model output may not be a softmax"

def sumTolerance : Float32 := 1e-3

/-- Warns about a row whose sum is farther from one than the tolerance. -/
def sumWarning (table : Table) (row : Nat) : Option Warning :=
  let sum := laneSum (table.row row)
  if sumTolerance < (sum - 1).abs then some ⟨row, sum⟩ else none

/-- One row of probabilities for each image, and the warnings about them in row order. -/
structure Outcome where
  predictions : Table
  warnings : List Warning

def Outcome.of (predictions : Table) : Outcome :=
  ⟨predictions, (List.range predictions.rows).filterMap (sumWarning predictions)⟩

/-- The outcome that the raw output of a network stands for. The output has one row for each crop,
whatever its shape, and the rows of the crops of an image are averaged. -/
def postprocess (raw : Tensor) (images cropsPerImage : Nat) (declared : Option Nat) :
    Result Outcome := do
  let rows := images * cropsPerImage
  if rows = 0 then throw .emptyBatch
  let mismatch := Error.shapeMismatch (.outputRows rows raw.shape)
  if raw.data.size = 0 then throw mismatch
  let classes := raw.data.size / rows
  let some perCrop := raw.toTable? rows classes | throw mismatch
  if let some expected := declared then
    if expected ≠ classes then throw (.shapeMismatch (.classes expected classes))
  return .of (← averageCrops perCrop cropsPerImage)

structure Classifier where
  /-- The network input that the batch is bound to. -/
  inputName : String
  /-- The number of classes that the model declares, if it declares one. -/
  classCount : Option Nat
  channels : Nat
  config : Preprocessing

namespace Classifier

def predict (c : Classifier) (network : Tensor → Tensor) (images : List Image) :
    Result Outcome := do
  let batch ← c.config.batch images
  postprocess (network batch) images.length c.config.cropsPerImage c.classCount

def regionBatch (c : Classifier) (image : Image) (regions : List Region) : Result Tensor := do
  c.config.batch (← regions.mapM image.cropRegion)

def predictRegions (c : Classifier) (network : Tensor → Tensor) (image : Image)
    (regions : List Region) : Result Outcome := do
  c.predict network (← regions.mapM image.cropRegion)

end Classifier

end ViewClassifier
