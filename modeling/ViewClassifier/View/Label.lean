/-!
# View labels

A view is an object class and an azimuth in whole degrees. A label numbers the views of the twelve
object classes one after another, 360 for each class, and goes on with the background. Two other
labellings are split here: joint labels of rendered and of real images, and labels that carry
elevation and tilt as well.
-/

set_option autoImplicit false

namespace ViewClassifier

def azimuthBins : Nat := 360

def objectClasses : Nat := 12

def backgroundClass : Nat := objectClasses

def viewVectorLength : Nat := objectClasses * azimuthBins

def realImageOffset : UInt32 := 10000

def detectionClasses : List UInt32 :=
  [1, 2, 4, 5, 6, 7, 9, 11, 14, 18, 19, 20, 0]

structure ViewLabel where
  index : Nat
  azimuth : Nat
  deriving DecidableEq, Repr

namespace ViewLabel

def decode (number : Nat) : ViewLabel :=
  ⟨number / azimuthBins, number % azimuthBins⟩

def encode (v : ViewLabel) : UInt32 :=
  (v.index * azimuthBins + v.azimuth).toUInt32

def isBackground (v : ViewLabel) : Bool :=
  v.index == backgroundClass

end ViewLabel

def angularError (a b : Nat) : Nat :=
  let d := (max a b - min a b) % azimuthBins
  min d (azimuthBins - d)

/-- The detection class of the object class, or of the background for any greater index. -/
def detectionClass (index : Nat) : UInt32 :=
  detectionClasses.getD (min index backgroundClass) 0

/-- The detection label and the view label of a joint label. Zero is background, the labels below
ten thousand are rendered views counted from one, and the others are real views. The detection
label of a real view keeps the offset. -/
def detectionViewSplit (label : UInt32) : UInt32 × UInt32 :=
  if label = 0 then
    (0, realImageOffset + viewVectorLength.toUInt32)
  else if label < realImageOffset then
    let view := label - 1
    (detectionClass (view.toNat / azimuthBins), view)
  else
    (detectionClass ((label - realImageOffset).toNat / azimuthBins) + realImageOffset, label)

structure TripleView where
  index : UInt32
  azimuth : UInt32
  elevation : UInt32
  tilt : UInt32
  deriving DecidableEq, Repr

/-- Splits a label that counts 180 tilts in each of 180 elevations in each of 360 azimuths in each
class. The angles are multiplied by the class index, so that the first class has none. -/
def tripleViewSplit (label : UInt32) : TripleView :=
  let elevationTilt : UInt32 := 180 * 180
  let perClass := azimuthBins.toUInt32 * elevationTilt
  let index := label / perClass
  let rest := label % perClass
  let inAzimuth := rest % elevationTilt
  { index
    azimuth := rest / elevationTilt * index
    elevation := inAzimuth / 180 * index
    tilt := inAzimuth % 180 * index }

end ViewClassifier
