import ViewClassifier.CommandLine.Program

/-!
# Command line

Looks at the files that the arguments and the settings name, and runs the program over them.
-/

set_option autoImplicit false

namespace ViewClassifier.CommandLine

open Files (Tree Location Node)

def observePlace (tree : Tree) (location : Location) : IO Tree := do
  try
    let path ← IO.FS.realPath location.text
    if ← path.isDir then return tree.set location .directory
    return tree.set location (.file (← IO.FS.readBinFile path).toList)
  catch _ => return tree

def observeNames (tree : Tree) (location : Location) : List String → IO Tree
  | [] => return tree
  | "." :: more => observeNames tree location more
  | ".." :: more => observeNames tree location.dropLast more
  | name :: more => do
      let next := location ++ [name]
      observeNames (← observePlace tree next) next more

def observe (tree : Tree) (path : String) : IO Tree :=
  let path := Files.Path.ofText path
  observeNames tree (tree.start path) path.names

def currentTree : IO Tree := do
  let here := (Files.Path.ofText (← IO.currentDir).toString).names
  observeNames ⟨here, []⟩ [] here

def observeRun (arguments : Arguments) : IO Tree := do
  let tree ← arguments.config.toList.foldlM observe (← currentTree)
  match loadSettings tree arguments with
  | .error _ => return tree
  | .ok settings =>
      let paths := settings.model :: settings.weights.toList ++ settings.mean.toList
      paths.foldlM observe tree

end ViewClassifier.CommandLine

open ViewClassifier.CommandLine

def main (arguments : List String) : IO UInt32 := do
  let tree ←
    match Arguments.read arguments with
    | .ok arguments => observeRun arguments
    | .error _ => pure ⟨[], []⟩
  let report := run tree arguments
  IO.print report.stdout
  IO.eprint report.stderr
  return report.exit
