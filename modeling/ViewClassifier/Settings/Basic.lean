import ViewClassifier.Volume

/-!
# Settings of a run

Everything that one classification run needs to know. Settings are given in layers: a layer sets some
of the values and leaves the others to what is below it.
-/

set_option autoImplicit false

namespace ViewClassifier

/-- Everything that one classification run needs to know. The defaults stand where nothing else is
given. -/
structure Settings where
  model : String := "models/rcnn_view/deploy.onnx"
  weights : Option String := none
  image : String := "images/demo.jpg"
  mean : Option String := some "models/ilsvrc_2012_mean.npy"
  channelSwap : Option (List Nat) := some [2, 1, 0]
  rawScale : Option Float32 := some 255
  inputScale : Option Float32 := none
  imageDims : Dims := ⟨256, 256⟩
  cropDims : Dims := ⟨227, 227⟩
  oversample : Bool := true
  colour : Bool := true
  outDir : String := "plots"

namespace Settings

/-- Values for some of the settings. A value that may be absent can be set to absent. -/
structure Layer where
  model : Option String := none
  weights : Option (Option String) := none
  image : Option String := none
  mean : Option (Option String) := none
  channelSwap : Option (Option (List Nat)) := none
  rawScale : Option (Option Float32) := none
  inputScale : Option (Option Float32) := none
  imageDims : Option Dims := none
  cropDims : Option Dims := none
  oversample : Option Bool := none
  colour : Option Bool := none
  outDir : Option String := none

def Layer.over (layer : Layer) (below : Settings) : Settings where
  model := layer.model.getD below.model
  weights := layer.weights.getD below.weights
  image := layer.image.getD below.image
  mean := layer.mean.getD below.mean
  channelSwap := layer.channelSwap.getD below.channelSwap
  rawScale := layer.rawScale.getD below.rawScale
  inputScale := layer.inputScale.getD below.inputScale
  imageDims := layer.imageDims.getD below.imageDims
  cropDims := layer.cropDims.getD below.cropDims
  oversample := layer.oversample.getD below.oversample
  colour := layer.colour.getD below.colour
  outDir := layer.outDir.getD below.outDir

end Settings

end ViewClassifier
