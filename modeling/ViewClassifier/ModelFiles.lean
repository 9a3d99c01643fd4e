import ViewClassifier.Error
import ViewClassifier.Files.Tree

/-!
# Model files

A model is a definition and, if the weights are not part of it, a file of weights in the same
directory.
-/

set_option autoImplicit false

namespace ViewClassifier

open Files (Tree)

structure ModelFiles where
  definition : String
  weights : Option String := none
  deriving DecidableEq, Repr

def parentDirectory (tree : Tree) (path : String) : Result Files.Location :=
  match tree.resolve path with
  | .ok location => .ok location.dropLast
  | .error fault => .error (.file fault)

/-- Fails unless the files of the model are there and in one directory. -/
def ModelFiles.check (tree : Tree) (files : ModelFiles) : Result Unit := do
  if !tree.isFile files.definition then throw (.missingFile files.definition)
  if let some weights := files.weights then
    if !tree.isFile weights then throw (.missingFile weights)
    let expected ← parentDirectory tree files.definition
    let found ← parentDirectory tree weights
    if expected ≠ found then
      throw (.invalidConfig (.misplacedWeights weights (Files.Location.text expected)))

end ViewClassifier
