import ViewClassifier.Classifier
import ViewClassifier.View.Decoding

/-!
# Sessions

Work on images step by step: a preprocessing, the images as they are after the last step, and the last
prediction. A step that fails has no session after it, so that the one before it stays.
-/

set_option autoImplicit false

namespace ViewClassifier

structure Session where
  config : Preprocessing := {}
  /-- Images or network inputs, whichever the last step made. -/
  images : List Volume := []
  prediction : Option Prediction := none

namespace Session

def withImages (session : Session) (images : Result (List Volume)) : Result Session := do
  return { session with images := ← images }

/-- The session after every image has been changed. The first error in the order of the images is
the error of the step. -/
def mapImages (session : Session) (f : Volume → Result Volume) : Result Session :=
  session.withImages (session.images.mapM f)

def resize (session : Session) (dims : Dims) : Result Session :=
  session.mapImages fun image => Image.resize image dims

def centerCrop (session : Session) (crop : Dims) : Result Session :=
  session.mapImages fun image => Image.centerCrop image crop

def oversample (session : Session) (crop : Dims) : Result Session :=
  session.withImages (Image.oversample session.images crop)

def cropRegion (session : Session) (region : Region) : Result Session :=
  session.mapImages fun image => Image.cropRegion image region

def preprocess (session : Session) : Result Session :=
  session.mapImages session.config.preprocess

def deprocess (session : Session) : Result Session :=
  session.mapImages session.config.deprocess

def postprocess (session : Session) (raw : Tensor) (images cropsPerImage : Nat)
    (declared : Option Nat) : Result (Outcome × Session) := do
  let outcome ← ViewClassifier.postprocess raw images cropsPerImage declared
  let prediction ← Prediction.ofTable outcome.predictions
  return (outcome, { session with prediction := some prediction })

end Session

namespace Prediction

/-- The most probable view of an image, unless the index is out of range. -/
def decodeView (p : Prediction) (index : Nat) : Result (Option ViewLabel) :=
  (p.row? index).mapM ViewClassifier.decodeView

/-- The most probable azimuth of a class of an image, unless the index is out of range. -/
def predictAzimuth (p : Prediction) (index classIndex : Nat) : Result (Option Nat) :=
  (p.row? index).mapM fun row => ViewClassifier.predictAzimuth row classIndex

end Prediction

end ViewClassifier
