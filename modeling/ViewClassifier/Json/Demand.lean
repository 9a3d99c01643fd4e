import ViewClassifier.Decimal.Layout
import ViewClassifier.Error
import ViewClassifier.Json.Number
import ViewClassifier.Text.Quoted

/-!
# Values of a wanted kind

Reads a value of a wanted kind off the front of a JSON text. A value of another kind is a fault that
names both kinds.
-/

set_option autoImplicit false

namespace ViewClassifier.Json

open Files (Bytes)

def Number.found : Number → String
  | .unsigned n => "integer `" ++ toString n ++ "`"
  | .negative n => "integer `-" ++ toString n ++ "`"
  | .real x => "floating point `" ++ Decimal.Layout.reported.text64 x ++ "`"

def scanSigned (s : Bytes) : Except Stop (Number × Bytes) :=
  match s with
  | b :: rest => if b = byte '-' then scanNumber true rest else scanNumber false s
  | [] => scanNumber false []

def startsNumber (b : UInt8) : Bool :=
  b == byte '-' || isDigit b

/-- The fault of a value that is not of the wanted kind. Words, numbers and strings are read to their
end first, and a fault inside them comes before. -/
def wrongKind {α : Type} (expected : String) (s : Bytes) : Except Stop α :=
  match s with
  | [] => stopAt .expectedValue []
  | b :: rest =>
      if b = byte 'n' then do
        stopAfter (.wrongType "null" expected) (← word ['u', 'l', 'l'] rest)
      else if b = byte 't' then do
        stopAfter (.wrongType "boolean `true`" expected) (← word ['r', 'u', 'e'] rest)
      else if b = byte 'f' then do
        stopAfter (.wrongType "boolean `false`" expected) (← word ['a', 'l', 's', 'e'] rest)
      else if startsNumber b then do
        let (n, rest) ← scanSigned s
        stopAt (.wrongType n.found expected) rest
      else if b = 0x22 then do
        let (text, rest) ← scanString rest
        stopAfter (.wrongType ("string " ++ String.ofList (Text.quote text.toList)) expected) rest
      else if b = byte '[' then stopAt (.wrongType "sequence" expected) s
      else if b = 0x7b then stopAt (.wrongType "map" expected) s
      else stopAt .expectedValue s

/-- A kind of value: what it is called, and how it is read after the blanks before it. -/
structure Demand (α : Type) where
  read : Bytes → Except Stop (α × Bytes)

namespace Demand

def scan {α : Type} (d : Demand α) (s : Bytes) : Except Stop (α × Bytes) :=
  match skipSpace s with
  | [] => stopAt .endInValue []
  | s => d.read s

def text (expected : String) : Demand String where
  read s :=
    match s with
    | b :: rest => if b = 0x22 then scanString rest else wrongKind expected s
    | [] => wrongKind expected []

def bool : Demand Bool where
  read s :=
    match s with
    | b :: rest =>
        if b = byte 't' then do return (true, ← word ['r', 'u', 'e'] rest)
        else if b = byte 'f' then do return (false, ← word ['a', 'l', 's', 'e'] rest)
        else wrongKind "a boolean" s
    | [] => wrongKind "a boolean" []

def number {α : Type} (expected : String) (accept : Number → Except Cause α) : Demand α where
  read s :=
    match s with
    | b :: _ =>
        if startsNumber b then do
          let (n, rest) ← scanSigned s
          match accept n with
          | .ok value => return (value, rest)
          | .error cause => stopAt cause rest
        else wrongKind expected s
    | [] => wrongKind expected []

/-- A whole number of 64 bits. It is never written with a point or an exponent. -/
def count : Demand Nat :=
  number "usize" fun
    | .unsigned n => .ok n
    | n@(.negative _) => .error (.wrongValue n.found "usize")
    | n@(.real _) => .error (.wrongType n.found "usize")

/-- A 32-bit real number. A real number of the text is rounded a second time. -/
def real : Demand Float32 :=
  number "f32" fun
    | .unsigned n => .ok (Binary32.ofNat n)
    | .negative n => .ok (-Binary32.ofNat n)
    | .real x => .ok (Binary32.narrow x)

/-- A value of a kind, or `null`. The end of the text is left to the kind. -/
def orNull {α : Type} (d : Demand α) : Demand (Option α) where
  read s :=
    match s with
    | b :: rest =>
        if b = byte 'n' then do return (none, ← word ['u', 'l', 'l'] rest)
        else do
          let (value, rest) ← d.scan s
          return (some value, rest)
    | [] => wrongKind "" []

/-- Looks for the next item of a list whose bracket has been read. The flag says whether it is the
first one. Nothing comes back at the closing bracket, which is left alone. -/
def nextItem (first : Bool) (s : Bytes) : Except Stop (Option Bytes) :=
  match skipSpace s with
  | [] => stopAt .endInList []
  | b :: rest =>
      if b = byte ']' then .ok none
      else if first then .ok (some (b :: rest))
      else if b = byte ',' then
        match skipSpace rest with
        | [] => stopAt .endInValue []
        | c :: more => if c = byte ']' then stopAt .trailingComma (c :: more) else .ok (some (c :: more))
      else stopAt .expectedListCommaOrEnd (b :: rest)

def closeList (s : Bytes) : Except Stop Bytes :=
  match skipSpace s with
  | [] => stopAt .endInList []
  | b :: rest =>
      if b = byte ']' then .ok rest
      else if b = byte ',' then
        match skipSpace rest with
        | c :: more =>
            if c = byte ']' then stopAt .trailingComma (c :: more)
            else stopAt .trailingCharacters (c :: more)
        | [] => stopAt .trailingCharacters []
      else stopAt .trailingCharacters (b :: rest)

/-- The fault of a list with too few items, found after its closing bracket was read. -/
def tooFew {α : Type} (found : Nat) (expected : String) (s : Bytes) : Except Stop α :=
  stopAt (.wrongLength found expected) (skipSpace s)

/-- Reads items up to the closing bracket, with fuel for each of them. -/
def items {α : Type} (d : Demand α) (fuel : Nat) (first : Bool) (s : Bytes) :
    Except Stop (List α × Bytes) :=
  match fuel with
  | 0 => .ok ([], s)
  | fuel + 1 => do
      match ← nextItem first s with
      | none => return ([], s)
      | some s =>
          let (value, s) ← d.scan s
          let (values, s) ← d.items fuel false s
          return (value :: values, s)

def listOf {α : Type} (d : Demand α) : Demand (List α) where
  read s :=
    match s with
    | b :: rest =>
        if b = byte '[' then do
          let (values, rest) ← d.items s.length true rest
          return (values, ← closeList rest)
        else wrongKind "a sequence" s
    | [] => wrongKind "a sequence" []

def pairOf {α : Type} (d : Demand α) : Demand (α × α) where
  read s :=
    let expected := "an array of length 2"
    match s with
    | b :: rest =>
        if b = byte '[' then do
          let some s ← nextItem true rest | tooFew 0 expected rest
          let (first, s) ← d.scan s
          let some s ← nextItem false s | tooFew 1 expected s
          let (second, s) ← d.scan s
          return ((first, second), ← closeList s)
        else wrongKind expected s
    | [] => wrongKind expected []

end Demand

end ViewClassifier.Json
