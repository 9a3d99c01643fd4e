import ViewClassifier.Binary32.Basic
import ViewClassifier.Decimal.Shortest

/-!
# Layouts of numbers

How a shortest decimal is written: with a decimal point or with an exponent, and whether whole
numbers show a fraction. A layout fixes these choices for one kind of output.
-/

set_option autoImplicit false

namespace ViewClassifier.Decimal

open Float.Model (UnpackedFloat Format)
open Float.Model.UnpackedFloat (Sign)

structure Layout where
  /-- Whether a number is written without an exponent, by the power of ten of its leading digit. -/
  positional : Int → Bool
  /-- What follows a whole number that is written without an exponent. -/
  wholeMark : String
  /-- Which of two equally near shortest decimals is written. -/
  tie : Tie

/-- Numbers inside a sentence: never an exponent, and no fraction for whole numbers. -/
def Layout.plain : Layout where
  positional := fun _ => true
  wholeMark := ""
  tie := .upper

/-- Numbers of a structured value: a fraction always shows, and an exponent is used below a
ten-thousandth and from ten to the sixteenth on. -/
def Layout.structured : Layout where
  positional := fun decade => -4 ≤ decade && decade ≤ 15
  wholeMark := ".0"
  tie := .upper

/-- Fields of a comma-separated file: a fraction always shows, and an exponent is used below a
millionth and from ten to the thirteenth on. -/
def Layout.field : Layout where
  positional := fun decade => -6 ≤ decade && decade ≤ 12
  wholeMark := ".0"
  tie := .even

def Layout.reported : Layout where
  positional := fun decade => -5 ≤ decade && decade ≤ 15
  wholeMark := ".0"
  tie := .even

def countChars (n : Nat) : List Char :=
  Nat.toDigits 10 n

/-- Digits with a point after the first `point` of them, filled up with zeros on either side. -/
def withPoint (wholeMark : String) (digits : List Char) (point : Int) : List Char :=
  if point ≤ 0 then
    ['0', '.'] ++ List.replicate (-point).toNat '0' ++ digits
  else if digits.length ≤ point.toNat then
    digits ++ List.replicate (point.toNat - digits.length) '0' ++ wholeMark.toList
  else
    digits.take point.toNat ++ ['.'] ++ digits.drop point.toNat

/-- Digits with a point after the first one, where more follow, and an exponent. -/
def withExponent (digits : List Char) (decade : Int) : List Char :=
  let mantissa :=
    match digits with
    | first :: second :: more => first :: '.' :: second :: more
    | short => short
  let sign := if decade < 0 then ['-'] else []
  mantissa ++ ['e'] ++ sign ++ countChars decade.natAbs

def Layout.decimal (layout : Layout) (d : Digits) : List Char :=
  let digits := countChars d.digits
  let point := digits.length + d.exponent
  if layout.positional (point - 1) then withPoint layout.wholeMark digits point
  else withExponent digits (point - 1)

def Layout.unpacked (layout : Layout) (format : Format) : UnpackedFloat → List Char
  | .notANumber => ['N', 'a', 'N']
  | .infinity sign => minus sign ++ ['i', 'n', 'f']
  | .zero sign => minus sign ++ '0' :: layout.wholeMark.toList
  | .finite sign mantissa exponent _ =>
      minus sign ++ layout.decimal (shortest format layout.tie mantissa exponent)
where
  minus : Sign → List Char
    | .negative => ['-']
    | .positive => []

def Layout.text (layout : Layout) (x : Float32) : String :=
  String.ofList (layout.unpacked .binary32 (Binary32.unpack x))

def Layout.text64 (layout : Layout) (x : Float) : String :=
  String.ofList (layout.unpacked .binary64 x.toModel.unpack)

end ViewClassifier.Decimal
