import ViewClassifier.Averaging
import ViewClassifier.Files.Tree
import ViewClassifier.Npy.Decoding

/-!
# Mean files

The mean that is subtracted from every image is kept in an array file, as one value for each channel
or as a whole image.
-/

set_option autoImplicit false

namespace ViewClassifier

open Files (Tree)

def requireFile (tree : Tree) (path : String) : Result Files.Bytes :=
  match tree.read path with
  | .ok content => .ok content
  | .error _ => .error (.missingFile path)

def loadMean (tree : Tree) (path : String) : Result (List Float32) := do
  let content ← requireFile tree path
  match Npy.decode content with
  | .ok raw => channelMean raw
  | .error fault => throw (.npy fault)

end ViewClassifier
