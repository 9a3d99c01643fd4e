import ViewClassifier.CommandLine.Arguments

/-!
# Reading a command line

Goes through the arguments from left to right. An option without an equals sign waits for its value,
and takes effect when the next argument with a dash, or the end, is reached. So a fault of such an
option comes after the fault of an unknown argument that follows it.
-/

set_option autoImplicit false

namespace ViewClassifier.CommandLine

/-- The arguments so far, and an option that waits, with its value once it is there. -/
structure Progress where
  arguments : Arguments := {}
  waiting : Option (Valued × Option String) := none

namespace Progress

def settle (progress : Progress) : Except Notice Arguments :=
  match progress.waiting with
  | some (option, value) => progress.arguments.give option value
  | none => .ok progress.arguments

def long (progress : Progress) (name : String) (value : Option String) :
    Except Notice Progress := do
  match longNames.lookup name, value with
  | none, _ => throw .unknownArgument
  | some (.valued option), some value =>
      return { arguments := ← (← progress.settle).give option (some value) }
  | some (.valued option), none =>
      return { arguments := ← progress.settle, waiting := some (option, none) }
  | some _, some _ => throw .unneededValue
  | some (.flag flag), none => return { arguments := ← (← progress.settle).raise flag }
  | some .help, none =>
      let _ ← progress.settle
      throw .help
  | some .version, none =>
      let _ ← progress.settle
      throw .version

/-- One more argument with one dash, of which the first letter decides. -/
def short (progress : Progress) (letter : Char) : Except Notice Progress :=
  match letter with
  | 'h' => progress.long "help" none
  | 'V' => progress.long "version" none
  | _ => .error .unknownArgument

/-- One more argument without a dash. It is the value of an option that waits for one. -/
def plain (progress : Progress) (argument : String) : Except Notice Progress :=
  match progress.waiting with
  | some (option, none) => .ok { progress with waiting := some (option, some argument) }
  | _ => .error .unknownArgument

/-- One more argument. A single dash counts as an argument without a dash. -/
def step (progress : Progress) (argument : String) : Except Notice Progress :=
  match argument.toList with
  | '-' :: '-' :: text =>
      match text.span (· != '=') with
      | (name, []) => progress.long (String.ofList name) none
      | (name, _ :: value) => progress.long (String.ofList name) (some (String.ofList value))
  | '-' :: letter :: _ => progress.short letter
  | _ => progress.plain argument

/-- All arguments that are left. After two dashes alone there must be none. -/
def run (progress : Progress) : List String → Except Notice Arguments
  | [] => progress.settle
  | argument :: rest => do
      if argument = "--" then
        if rest = [] then progress.settle else throw .unknownArgument
      else (← progress.step argument).run rest

end Progress

def Arguments.read (arguments : List String) : Except Notice Arguments :=
  Progress.run {} arguments

end ViewClassifier.CommandLine
