import ViewClassifier.Binary32.Basic

/-!
# Number literals

The texts that denote a binary32 number: an optional sign, then one of the words `inf`, `infinity`
and `nan` in any case, or decimal digits with at most one point and an optional exponent. A
literal denotes the nearest number, a half going to the even neighbour.
-/

set_option autoImplicit false

namespace ViewClassifier.Decimal

open Float.Model (UnpackedFloat Format)
open Float.Model.UnpackedFloat (Sign)

inductive Literal where
  | infinite (negative : Bool)
  | notANumber
  | decimal (negative : Bool) (digits : Nat) (exponent : Int)
  deriving DecidableEq, Repr

def digitsValue (digits : List Char) : Nat :=
  digits.foldl (fun value c => 10 * value + (c.toNat - '0'.toNat)) 0

/-- A sign, if there is one, and the rest. The flag is true for a minus. -/
def splitSign : List Char → Bool × List Char
  | '-' :: rest => (true, rest)
  | '+' :: rest => (false, rest)
  | rest => (false, rest)

/-- The value of an exponent: nothing, or the letter `e` with an optional sign and digits. -/
def exponentValue? : List Char → Option Int
  | [] => some 0
  | c :: rest =>
      if c = 'e' ∨ c = 'E' then
        let (negative, digits) := splitSign rest
        if digits ≠ [] ∧ digits.all Char.isDigit then
          some (if negative then -(digitsValue digits : Int) else digitsValue digits)
        else none
      else none

def splitFraction : List Char → List Char × List Char
  | '.' :: rest => rest.span Char.isDigit
  | rest => ([], rest)

def Literal.ofUnsigned? (negative : Bool) (chars : List Char) : Option Literal :=
  let word := chars.map Char.toLower
  if word = "inf".toList ∨ word = "infinity".toList then some (.infinite negative)
  else if word = "nan".toList then some .notANumber
  else
    let (whole, rest) := chars.span Char.isDigit
    let (fraction, rest) := splitFraction rest
    if whole = [] ∧ fraction = [] then none
    else
      (exponentValue? rest).map fun exponent =>
        .decimal negative (digitsValue (whole ++ fraction)) (exponent - fraction.length)

def Literal.ofChars? (chars : List Char) : Option Literal :=
  let (negative, rest) := splitSign chars
  Literal.ofUnsigned? negative rest

def nearestDecimal (negative : Bool) (digits : Nat) (exponent : Int) : Float32 :=
  let magnitude := UnpackedFloat.ofScientific .binary32 digits exponent
  Binary32.pack (if negative then magnitude.neg else magnitude)

def Literal.value : Literal → Float32
  | .infinite negative => Binary32.pack (.infinity (if negative then .negative else .positive))
  | .notANumber => Binary32.nan
  | .decimal negative digits exponent => nearestDecimal negative digits exponent

def read? (chars : List Char) : Option Float32 :=
  (Literal.ofChars? chars).map Literal.value

end ViewClassifier.Decimal
