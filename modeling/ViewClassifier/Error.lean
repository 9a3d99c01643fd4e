import ViewClassifier.Files.Fault
import ViewClassifier.Json.Fault
import ViewClassifier.Npy.Fault
import ViewClassifier.Region
import ViewClassifier.Volume

/-!
# Errors

Why an operation has no result. A constructor names a cause and carries what the message about it
shows. The wording is in the functions called `message`.
-/

set_option autoImplicit false

namespace ViewClassifier

def listText (values : List Nat) : String :=
  "[" ++ ", ".intercalate (values.map toString) ++ "]"

def Dims.text (d : Dims) : String :=
  toString d.height ++ "x" ++ toString d.width

inductive ConfigFault where
  | channelSwap (order : List Nat) (channels : Nat)
  | meanLength (values channels : Nat)
  | zeroDims
  | cropTooLarge (crop image : Dims)
  | resizeToNothing (dims : Dims)
  | regionOutside (region : Region) (image : Dims)
  | emptyMean
  | classWithoutBins (index : Nat)
  | period (value : Float32)
  | misplacedWeights (weights directory : String)

def ConfigFault.message : ConfigFault → String
  | .channelSwap order channels =>
      "channel swap " ++ listText order ++ " is not a permutation of " ++ toString channels ++
        " channels"
  | .meanLength values channels =>
      "mean has " ++ toString values ++ " values for " ++ toString channels ++ " channels"
  | .zeroDims => "zero-sized dimensions"
  | .cropTooLarge crop image => "crop " ++ crop.text ++ " is larger than image dims " ++ image.text
  | .resizeToNothing dims => "cannot resize to " ++ dims.text
  | .regionOutside region image =>
      "region " ++ region.text ++ " does not overlap the " ++ toString image.width ++ "x" ++
        toString image.height ++ " image"
  | .emptyMean => "empty mean image"
  | .classWithoutBins index => "no azimuth bins for class " ++ toString index
  | .period value => "period must be positive, got " ++ Decimal.Layout.plain.text value
  | .misplacedWeights weights directory =>
      "weights " ++ weights ++ " must sit next to the model definition in " ++ directory

inductive ShapeFault where
  | probabilities (expected found : Nat)
  | rows (expected found : Nat)
  | columns (expected found : Nat)
  | predictions (expected found : Nat)
  /-- Rows and columns of two tables. -/
  | tables (expected found : Nat × Nat)
  | imageChannels (found : Nat)
  | crop (image found : Dims)
  | cropGroups (group found : Nat)
  | meanRank (found : Nat)
  | outputRows (expected : Nat) (shape : List Nat)
  | classes (expected found : Nat)

def ShapeFault.expected : ShapeFault → String
  | .probabilities n _ => toString n ++ " probabilities"
  | .rows n _ => toString n ++ " rows"
  | .columns n _ => toString n ++ " columns"
  | .predictions n _ => toString n ++ " predictions"
  | .tables dims _ => pair dims
  | .imageChannels _ => "1 or 3 channels"
  | .crop image _ => "crop within " ++ image.text
  | .cropGroups n _ => "a multiple of " ++ toString n ++ " rows"
  | .meanRank _ => "1-D or 3-D mean array"
  | .outputRows n _ => toString n ++ " output rows"
  | .classes n _ => toString n ++ " classes"
where
  pair (dims : Nat × Nat) : String :=
    "(" ++ toString dims.1 ++ ", " ++ toString dims.2 ++ ")"

def ShapeFault.found : ShapeFault → String
  | .probabilities _ n | .rows _ n | .columns _ n | .predictions _ n | .cropGroups _ n =>
      toString n
  | .tables _ dims => ShapeFault.expected.pair dims
  | .imageChannels n => toString n ++ " channels"
  | .crop _ dims => dims.text
  | .meanRank n => toString n ++ "-D"
  | .outputRows _ shape => listText shape
  | .classes _ n => toString n ++ " classes"

inductive JoinFault where
  | nothing
  | different
  /-- There are more positions than can be addressed. -/
  | tooLarge
  /-- There are fewer numbers than positions. -/
  | tooShort
  deriving DecidableEq, Repr

def JoinFault.message : JoinFault → String
  | .nothing => "ShapeError/Unsupported: unsupported operation"
  | .different => "ShapeError/IncompatibleShape: incompatible shapes"
  | .tooLarge => "ShapeError/Overflow: arithmetic overflow"
  | .tooShort => "ShapeError/OutOfBounds: out of bounds indexing"

inductive PictureFault where
  | unsupported
  | malformed
  /-- The file ends early, or it cannot be read or written. -/
  | interrupted
  deriving DecidableEq, Repr

def PictureFault.message : PictureFault → String
  | .unsupported => "the picture format is not supported"
  | .malformed => "the picture is malformed"
  | .interrupted => "the picture ends early or its file cannot be used"

inductive Error where
  | missingFile (path : String)
  | emptyBatch
  | invalidConfig (fault : ConfigFault)
  | shapeMismatch (fault : ShapeFault)
  | join (fault : JoinFault)
  | file (fault : Files.Fault)
  | json (fault : Json.Fault)
  | npy (fault : Npy.Fault)
  | picture (fault : PictureFault)
  | chart (fault : Files.Fault)

namespace Error

def message : Error → String
  | .missingFile path => "file not found: " ++ path
  | .emptyBatch => "no images to classify"
  | .invalidConfig fault => "invalid configuration: " ++ fault.message
  | .shapeMismatch fault =>
      "shape mismatch: expected " ++ fault.expected ++ ", found " ++ fault.found
  | .join fault => "ndarray shape error: " ++ fault.message
  | .file fault => "io: " ++ fault.message
  | .json fault => "json: " ++ fault.message
  | .npy fault => "npy: " ++ fault.message
  | .picture fault => "image: " ++ fault.message
  | .chart fault => "plot: " ++ fault.message

/-- The words of the error and of everything it stems from, the error itself first. -/
def chain (error : Error) : List String :=
  error.message ::
    match error with
    | .join fault => [fault.message]
    | .file fault => [fault.message]
    | .json fault => [fault.message]
    | .npy fault => fault.chain
    | .picture fault => [fault.message]
    | _ => []

end Error

abbrev Result (α : Type) := Except Error α

end ViewClassifier
