import ViewClassifier.Binary32.Basic
import ViewClassifier.Json.Scan

/-!
# Numbers of a JSON text

A number without a point and an exponent is a whole number as long as 64 bits hold it. Every other
number is real. Its digits are kept as far as 64 bits hold them, and the number they form is
multiplied or divided once by a power of ten, so that the result may be off the nearest real number
by a little.
-/

set_option autoImplicit false

namespace ViewClassifier.Json

open Files (Bytes)

inductive Number where
  | unsigned (value : Nat)
  | negative (magnitude : Nat)
  | real (value : Float)

def significandLimit : Nat := UInt64.size

/-- Appends digits to a significand until the next one would pass the limit, and counts them. -/
def appendDigits (significand taken : Nat) : List Nat → Nat × Nat
  | [] => (significand, taken)
  | d :: more =>
      let next := 10 * significand + d
      if significandLimit ≤ next then (significand, taken) else appendDigits next (taken + 1) more

def digitValues (digits : Bytes) : List Nat :=
  digits.map fun b => b.toNat - 48

def powerOfTen (n : Nat) : Float :=
  Float.ofScientific 1 false n

def greatestPower : Nat := 308

/-- Multiplies by a power of ten, or divides by one, in steps of the greatest power. The result is
missing when it is out of range. -/
def scaleByTen? (fuel : Nat) (x : Float) (exponent : Int) : Option Float :=
  if exponent.natAbs ≤ greatestPower then
    if 0 ≤ exponent then
      let scaled := x * powerOfTen exponent.natAbs
      if scaled.isInf then none else some scaled
    else some (x / powerOfTen exponent.natAbs)
  else if x == 0 then some x
  else if 0 ≤ exponent then none
  else
    match fuel with
    | 0 => some 0
    | fuel + 1 => scaleByTen? fuel (x / powerOfTen greatestPower) (exponent + greatestPower)

/-- The real number with a significand and an exponent, after everything before the rest was read and
its first byte was looked at. -/
def realNumber (negative : Bool) (significand : Nat) (exponent : Int) (rest : Bytes) :
    Scan Number :=
  match scaleByTen? 8 significand.toUInt64.toFloat exponent with
  | some x => .ok (.real (if negative then -x else x), rest)
  | none => stopAt .numberOutOfRange rest

def exponentLimit : Nat := UInt32.size / 2

/-- Reads the digits of an exponent after the first one. The result is missing when the exponent
passes the limit, and the rest is then what follows the digit that passed it. -/
def exponentDigits (value : Nat) : Bytes → Option Nat × Bytes
  | [] => (some value, [])
  | b :: rest =>
      if isDigit b then
        let next := 10 * value + (b.toNat - 48)
        if exponentLimit ≤ next then (none, rest) else exponentDigits next rest
      else (some value, b :: rest)

def scanExponent (negative : Bool) (significand : Nat) (start : Int) (s : Bytes) : Scan Number :=
  let (down, s) :=
    match s with
    | b :: rest =>
        if b = byte '+' then (false, rest)
        else if b = byte '-' then (true, rest)
        else (false, s)
    | [] => (false, [])
  match s with
  | [] => stopAfter .endInValue []
  | b :: rest =>
      if isDigit b then
        match exponentDigits (b.toNat - 48) rest with
        | (some value, rest) =>
            realNumber negative significand (if down then start - value else start + value) rest
        | (none, rest) =>
            if significand ≠ 0 ∧ !down then stopAfter .numberOutOfRange rest
            else
              let zero : Float := 0
              .ok (.real (if negative then -zero else zero), rest.dropWhile isDigit)
      else stopAfter .invalidNumber rest

def isExponentLetter (b : UInt8) : Bool :=
  b == byte 'e' || b == byte 'E'

def scanFraction (negative : Bool) (significand : Nat) (exponent : Int) (s : Bytes) : Scan Number :=
  let (digits, rest) := s.span isDigit
  if digits = [] then
    match rest with
    | [] => stopAfter .endInValue []
    | _ => stopAt .invalidNumber rest
  else
    let (significand, taken) := appendDigits significand 0 (digitValues digits)
    let exponent := exponent - taken
    match rest with
    | b :: more =>
        if isExponentLetter b then scanExponent negative significand exponent more
        else realNumber negative significand exponent rest
    | [] => realNumber negative significand exponent []

/-- The whole number with a sign and a significand. Zero below zero, and what 64 bits with a sign do
not hold, is real. -/
def wholeNumber (negative : Bool) (significand : Nat) : Number :=
  if !negative then .unsigned significand
  else if significand = 0 ∨ UInt64.size / 2 < significand then .real (-significand.toUInt64.toFloat)
  else .negative significand

def scanTail (negative : Bool) (digits rest : Bytes) : Scan Number :=
  let (significand, taken) := appendDigits 0 0 (digitValues digits)
  let dropped := digits.length - taken
  match rest with
  | b :: more =>
      if b = byte '.' then scanFraction negative significand dropped more
      else if isExponentLetter b then scanExponent negative significand dropped more
      else whole significand dropped
  | [] => whole significand dropped
where
  whole (significand dropped : Nat) : Scan Number :=
    if dropped = 0 then .ok (wholeNumber negative significand, rest)
    else realNumber negative significand dropped rest

def scanNumber (negative : Bool) (s : Bytes) : Scan Number :=
  match s with
  | [] => stopAfter .endInValue []
  | b :: rest =>
      if b = byte '0' then
        match rest with
        | d :: _ =>
            if isDigit d then stopAt .invalidNumber rest else scanTail negative [b] rest
        | [] => scanTail negative [b] []
      else if isDigit b then
        let (digits, rest) := s.span isDigit
        scanTail negative digits rest
      else stopAfter .invalidNumber rest

def skipExponent (s : Bytes) : Except Stop Bytes :=
  let s :=
    match s with
    | b :: rest => if b = byte '+' ∨ b = byte '-' then rest else s
    | [] => []
  match s with
  | [] => stopAfter .invalidNumber []
  | b :: rest => if isDigit b then .ok (rest.dropWhile isDigit) else stopAfter .invalidNumber rest

def skipTail (s : Bytes) : Except Stop Bytes :=
  match s with
  | [] => .ok []
  | b :: rest =>
      if b = byte '.' then
        let (digits, rest) := rest.span isDigit
        if digits = [] then stopAt .invalidNumber rest
        else
          match rest with
          | c :: more => if isExponentLetter c then skipExponent more else .ok rest
          | [] => .ok []
      else if isExponentLetter b then skipExponent rest
      else .ok s

/-- Passes over a number after its sign. Its size does not matter. -/
def skipNumber (s : Bytes) : Except Stop Bytes :=
  match s with
  | [] => stopAfter .invalidNumber []
  | b :: rest =>
      if b = byte '0' then
        match rest with
        | d :: _ => if isDigit d then stopAt .invalidNumber rest else skipTail rest
        | [] => .ok []
      else if isDigit b then skipTail (s.dropWhile isDigit)
      else stopAfter .invalidNumber rest

end ViewClassifier.Json
