import ViewClassifier.MeanFile
import ViewClassifier.ModelFiles
import ViewClassifier.Preprocessing
import ViewClassifier.Settings.Basic

/-!
# What settings set up

The model files that settings name, and the preprocessing that they describe.
-/

set_option autoImplicit false

namespace ViewClassifier.Settings

def modelFiles (settings : Settings) : ModelFiles where
  definition := settings.model
  weights := settings.weights

/-- The preprocessing. The mean file is read if there is one. -/
def preprocessing (tree : Files.Tree) (settings : Settings) : Result Preprocessing := do
  let mean ← settings.mean.mapM (loadMean tree)
  return {
    mean
    channelSwap := settings.channelSwap
    rawScale := settings.rawScale
    inputScale := settings.inputScale
    imageDims := settings.imageDims
    cropDims := settings.cropDims
    oversample := settings.oversample }

end ViewClassifier.Settings
