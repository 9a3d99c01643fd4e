import ViewClassifier.Decimal.Literal
import ViewClassifier.Region.Reading
import ViewClassifier.Settings.Basic

/-!
# Arguments

What the arguments of a command line say. An option takes a value, which follows after an equals sign
or as the next argument. A flag takes none. Nothing may be given twice.
-/

set_option autoImplicit false

namespace ViewClassifier.CommandLine

inductive Notice where
  | help
  | version
  | unknownArgument
  | missingValue
  | invalidValue
  | repeatedArgument
  /-- A flag has a value. -/
  | unneededValue
  deriving DecidableEq, Repr

def Notice.message : Notice → String
  | .help => "help is asked for"
  | .version => "the version is asked for"
  | .unknownArgument => "unexpected argument"
  | .missingValue => "a value is required"
  | .invalidValue => "invalid value"
  | .repeatedArgument => "an argument cannot be used multiple times"
  | .unneededValue => "unexpected value for a flag"

inductive Valued where
  | config
  | model
  | weights
  | image
  | mean
  | outDir
  | region
  | topK
  deriving DecidableEq, Repr

inductive Flag where
  | noOversample
  | view
  | saveCsv
  deriving DecidableEq, Repr

inductive Long where
  | valued (option : Valued)
  | flag (flag : Flag)
  | help
  | version
  deriving DecidableEq, Repr

def longNames : List (String × Long) :=
  [("config", .valued .config), ("model", .valued .model), ("weights", .valued .weights),
    ("image", .valued .image), ("mean", .valued .mean), ("out-dir", .valued .outDir),
    ("region", .valued .region), ("top-k", .valued .topK), ("no-oversample", .flag .noOversample),
    ("view", .flag .view), ("save-csv", .flag .saveCsv), ("help", .help), ("version", .version)]

structure Arguments where
  config : Option String := none
  model : Option String := none
  weights : Option String := none
  image : Option String := none
  mean : Option String := none
  outDir : Option String := none
  region : Option Region := none
  topK : Option Nat := none
  noOversample : Bool := false
  view : Bool := false
  saveCsv : Bool := false

/-- The path that a value is. It is not empty. -/
def readPath (value : String) : Except Notice String :=
  if value = "" then .error .missingValue else .ok value

/-- The count that a value is. It has decimal digits, a plus may come before them, and 64 bits hold
it. -/
def readCount (value : String) : Except Notice Nat :=
  let digits :=
    match value.toList with
    | '+' :: rest => rest
    | chars => chars
  let count := Decimal.digitsValue digits
  if digits ≠ [] ∧ digits.all Char.isDigit ∧ count < UInt64.size then .ok count
  else .error .invalidValue

def readRegion (value : String) : Except Notice Region :=
  match Region.ofText value with
  | .ok region => .ok region
  | .error _ => .error .invalidValue

namespace Arguments

def reportedClasses (arguments : Arguments) : Nat :=
  arguments.topK.getD 5

def has (arguments : Arguments) : Valued → Bool
  | .config => arguments.config.isSome
  | .model => arguments.model.isSome
  | .weights => arguments.weights.isSome
  | .image => arguments.image.isSome
  | .mean => arguments.mean.isSome
  | .outDir => arguments.outDir.isSome
  | .region => arguments.region.isSome
  | .topK => arguments.topK.isSome

/-- The arguments with one more option. A missing value comes before a repeated option, and that
before an invalid value. -/
def give (arguments : Arguments) (option : Valued) (value : Option String) :
    Except Notice Arguments := do
  let some value := value | throw .missingValue
  if arguments.has option then throw .repeatedArgument
  match option with
  | .config => return { arguments with config := some (← readPath value) }
  | .model => return { arguments with model := some (← readPath value) }
  | .weights => return { arguments with weights := some (← readPath value) }
  | .image => return { arguments with image := some (← readPath value) }
  | .mean => return { arguments with mean := some (← readPath value) }
  | .outDir => return { arguments with outDir := some (← readPath value) }
  | .region => return { arguments with region := some (← readRegion value) }
  | .topK => return { arguments with topK := some (← readCount value) }

def raise (arguments : Arguments) (flag : Flag) : Except Notice Arguments :=
  match flag with
  | .noOversample =>
      if arguments.noOversample then .error .repeatedArgument
      else .ok { arguments with noOversample := true }
  | .view =>
      if arguments.view then .error .repeatedArgument else .ok { arguments with view := true }
  | .saveCsv =>
      if arguments.saveCsv then .error .repeatedArgument
      else .ok { arguments with saveCsv := true }

/-- The settings that the arguments set. No argument turns the ten crops on. -/
def layer (arguments : Arguments) : Settings.Layer where
  model := arguments.model
  weights := arguments.weights.map some
  image := arguments.image
  mean := arguments.mean.map some
  outDir := arguments.outDir
  oversample := if arguments.noOversample then some false else none

end Arguments

end ViewClassifier.CommandLine
