import ViewClassifier.CommandLine.Help
import ViewClassifier.CommandLine.Reading
import ViewClassifier.Settings.Reading
import ViewClassifier.Settings.Setup

/-!
# The program

What a command line does over a tree of files, up to the model: what is printed, and the code that the
program ends with. Nothing runs a network, so that a program with all its files ends there as well.
-/

set_option autoImplicit false

namespace ViewClassifier.CommandLine

open Files (Tree)

structure Failure where
  context : String
  error : Error

def during {α : Type} (context : String) : Result α → Except Failure α
  | .ok value => .ok value
  | .error error => .error ⟨context, error⟩

/-- The settings of a run: those of the arguments over those of the settings file, if one is named,
over the defaults. -/
def loadSettings (tree : Tree) (arguments : Arguments) : Except Failure Settings := do
  let file ←
    match arguments.config with
    | some path => during ("reading config " ++ path) (Settings.Layer.load tree path)
    | none => pure {}
  return arguments.layer.over (file.over {})

def loadingModel (settings : Settings) : String :=
  "loading model " ++ settings.model

/-- The settings of a run and its preprocessing, after the model files are found. -/
def prepare (tree : Tree) (arguments : Arguments) : Except Failure (Settings × Preprocessing) := do
  let settings ← loadSettings tree arguments
  let preprocessing ← during "building preprocessing" (settings.preprocessing tree)
  during (loadingModel settings) (settings.modelFiles.check tree)
  return (settings, preprocessing)

def indentLines (indent text : String) : String :=
  let lines := (Text.pieces '\n' text.toList).map String.ofList
  ("\n" ++ indent).intercalate lines

/-- The causes of a failure, one below the other, with numbers if there are several. -/
def causesText : List String → String
  | [] => ""
  | [cause] => "\n    " ++ indentLines "    " cause
  | causes =>
      String.join (causes.zipIdx.map fun (cause, i) =>
        let number := toString i
        "\n" ++ String.ofList (List.replicate (5 - number.length) ' ') ++ number ++ ": " ++
          indentLines "       " cause)

def failureText (context : String) (causes : List String) : String :=
  "Error: " ++ context ++ "\n\nCaused by:" ++ causesText causes ++ "\n"

structure Report where
  exit : UInt32
  stdout : String
  stderr : String
  deriving DecidableEq, Repr

def Notice.report : Notice → Report
  | .help => ⟨0, helpText, ""⟩
  | .version => ⟨0, versionText, ""⟩
  | notice =>
      ⟨2, "", "error: " ++ notice.message ++ "\n\nFor more information, try '--help'.\n"⟩

def run (tree : Tree) (arguments : List String) : Report :=
  match Arguments.read arguments with
  | .error notice => notice.report
  | .ok arguments =>
      match prepare tree arguments with
      | .error failure => ⟨1, "", failureText failure.context failure.error.chain⟩
      | .ok (settings, _) =>
          ⟨1, "", failureText (loadingModel settings) ["no network can be run here"]⟩

end ViewClassifier.CommandLine
