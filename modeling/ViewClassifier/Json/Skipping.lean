import ViewClassifier.Json.Number
import ViewClassifier.Json.Object

/-!
# Values that nobody wants

Passes over a value of a JSON text. The value has to be well formed, but its strings need not be
texts, its numbers may have any size, and its brackets may be open to any depth.
-/

set_option autoImplicit false

namespace ViewClassifier.Json

open Files (Bytes)

inductive Bracket where
  | list
  | object
  deriving DecidableEq, Repr

def Bracket.atEnd : Bracket → Cause
  | .list => .endInList
  | .object => .endInObject

/-- The fault of a value inside a bracket that is followed by neither a comma nor the end. -/
def Bracket.atMore : Bracket → Cause
  | .list => .expectedListCommaOrEnd
  | .object => .expectedObjectCommaOrEnd

def Bracket.closing : Bracket → UInt8
  | .list => byte ']'
  | .object => 0x7d

def skipScalar (b : UInt8) (rest : Bytes) : Except Stop Bytes :=
  if b = byte 'n' then word ['u', 'l', 'l'] rest
  else if b = byte 't' then word ['r', 'u', 'e'] rest
  else if b = byte 'f' then word ['a', 'l', 's', 'e'] rest
  else if b = byte '-' then skipNumber rest
  else if isDigit b then skipNumber (b :: rest)
  else if b = 0x22 then skipString .plain rest
  else stopAt .expectedValue (b :: rest)

/-- Passes over closing brackets and a comma after a value, or over nothing after an opening bracket.
The brackets that stay open come back, and none of them when the outermost value has ended. -/
def skipClosings (afterValue : Bool) (brackets : List Bracket) (s : Bytes) :
    Except Stop (List Bracket × Bytes) :=
  match brackets with
  | [] => .ok ([], s)
  | bracket :: outer =>
      match skipSpace s with
      | [] => stopAt bracket.atEnd []
      | b :: rest =>
          if b = byte ',' ∧ afterValue then .ok (bracket :: outer, rest)
          else if b = bracket.closing then skipClosings true outer rest
          else if afterValue then stopAt bracket.atMore (b :: rest)
          else .ok (bracket :: outer, b :: rest)

def skipKey (s : Bytes) : Except Stop Bytes := do
  match skipSpace s with
  | [] => stopAt .endInObject []
  | b :: rest =>
      if b = 0x22 then colon (← skipString .plain rest) else stopAt .keyNotString (b :: rest)

/-- Passes over a value inside open brackets and over all that follows up to the last of their ends.
Brackets may be open to any depth. -/
def skipInside (fuel : Nat) (brackets : List Bracket) (s : Bytes) : Except Stop Bytes :=
  match fuel with
  | 0 => .ok s
  | fuel + 1 => do
      let (brackets, s) ←
        match skipSpace s with
        | [] => stopAt .endInValue []
        | b :: rest =>
            if b = byte '[' then skipClosings false (.list :: brackets) rest
            else if b = 0x7b then skipClosings false (.object :: brackets) rest
            else do skipClosings true brackets (← skipScalar b rest)
      match brackets with
      | [] => return s
      | .object :: _ => skipInside fuel brackets (← skipKey s)
      | .list :: _ => skipInside fuel brackets s

def skipValue (s : Bytes) : Except Stop Bytes :=
  skipInside (s.length + 1) [] s

end ViewClassifier.Json
