import ViewClassifier.Files.Tree
import ViewClassifier.Json.Fault

/-!
# Scanning JSON

Reads blanks, words and strings off the front of a JSON text. A scanner returns what it has read and
the bytes that are left. When it fails it says how many bytes it has left alone, from which the place
of the fault follows.
-/

set_option autoImplicit false

namespace ViewClassifier.Json

open Files (Bytes)

/-- A fault with the number of bytes that were not read before it was found. -/
structure Stop where
  cause : Cause
  unread : Nat
  deriving DecidableEq, Repr

abbrev Scan (α : Type) := Except Stop (α × Bytes)

def stopAfter {α : Type} (cause : Cause) (rest : Bytes) : Except Stop α :=
  .error ⟨cause, rest.length⟩

def stopAt {α : Type} (cause : Cause) (rest : Bytes) : Except Stop α :=
  .error ⟨cause, rest.length - 1⟩

def place (text : Bytes) (read : Nat) : Nat × Nat :=
  (text.take read).foldl
    (fun spot byte => if byte = 10 then (spot.1 + 1, 0) else (spot.1, spot.2 + 1)) (1, 0)

def Stop.fault (stop : Stop) (text : Bytes) : Fault :=
  let (line, column) := place text (text.length - stop.unread)
  .at stop.cause line column

/-- Blanks between the parts of a JSON text: space, tab, line feed and carriage return. -/
def isSpace (byte : UInt8) : Bool :=
  byte == 0x20 || byte == 0x09 || byte == 0x0a || byte == 0x0d

def skipSpace (s : Bytes) : Bytes :=
  s.dropWhile isSpace

def byte (c : Char) : UInt8 := c.toNat.toUInt8

def isDigit (b : UInt8) : Bool :=
  byte '0' ≤ b && b ≤ byte '9'

def word (letters : List Char) (s : Bytes) : Except Stop Bytes :=
  match letters, s with
  | [], rest => .ok rest
  | _ :: _, [] => stopAfter .endInValue []
  | c :: more, b :: rest => if b = byte c then word more rest else stopAfter .expectedIdent rest

def hexValue? (b : UInt8) : Option Nat :=
  let n := b.toNat
  if 48 ≤ n ∧ n ≤ 57 then some (n - 48)
  else if 65 ≤ n ∧ n ≤ 70 then some (n - 55)
  else if 97 ≤ n ∧ n ≤ 102 then some (n - 87)
  else none

def hexNumber? (digits : Bytes) : Option Nat :=
  digits.foldlM (fun value b => (hexValue? b).map (16 * value + ·)) 0

def escapedByte? (b : UInt8) : Option UInt8 :=
  if b = 0x22 ∨ b = 0x5c ∨ b = 0x2f then some b
  else if b = byte 'b' then some 0x08
  else if b = byte 'f' then some 0x0c
  else if b = byte 'n' then some 0x0a
  else if b = byte 'r' then some 0x0d
  else if b = byte 't' then some 0x09
  else none

def codePointBytes (n : Nat) : Bytes :=
  (String.singleton (Char.ofNat n)).toUTF8.toList

def isHighSurrogate (n : Nat) : Bool := 0xd800 ≤ n && n ≤ 0xdbff

def isLowSurrogate (n : Nat) : Bool := 0xdc00 ≤ n && n ≤ 0xdfff

def pairCodePoint (high low : Nat) : Nat :=
  0x10000 + (high - 0xd800) * 0x400 + (low - 0xdc00)

inductive StringState where
  | plain
  | escape
  /-- Inside the four digits of an escape, which come in reverse. The first half of a pair may have
  been read before. -/
  | digits (high : Option Nat) (reversed : Bytes)
  /-- Before the backslash of the second half of a pair. -/
  | pairEscape (high : Nat)
  /-- Before the letter of the second half of a pair. -/
  | pairLetter (high : Nat)

/-- What follows the four digits of an escape: more of the string with the bytes of a code point, or
the second half of a pair. -/
def finishDigits (high : Option Nat) (n : Nat) : Except Cause (Sum Bytes Nat) :=
  match high with
  | some first =>
      if isLowSurrogate n then .ok (.inl (codePointBytes (pairCodePoint first n)))
      else .error .loneSurrogate
  | none =>
      if isLowSurrogate n then .error .loneSurrogate
      else if isHighSurrogate n then .ok (.inr n)
      else .ok (.inl (codePointBytes n))

/-- Reads a string after its opening quote. The bytes before come in reverse. -/
def stringBytes (state : StringState) (reversed : Bytes) : Bytes → Scan Bytes
  | [] => stopAfter .endInString []
  | b :: rest =>
      match state with
      | .plain =>
          if b = 0x22 then .ok (reversed.reverse, rest)
          else if b = 0x5c then stringBytes .escape reversed rest
          else if b < 0x20 then stopAfter .controlCharacter rest
          else stringBytes .plain (b :: reversed) rest
      | .escape =>
          if b = byte 'u' then stringBytes (.digits none []) reversed rest
          else
            match escapedByte? b with
            | some c => stringBytes .plain (c :: reversed) rest
            | none => stopAfter .invalidEscape rest
      | .digits high before =>
          let digits := b :: before
          if digits.length < 4 then stringBytes (.digits high digits) reversed rest
          else
            match hexNumber? digits.reverse with
            | none => stopAfter .invalidEscape rest
            | some n =>
                match finishDigits high n with
                | .error cause => stopAfter cause rest
                | .ok (.inl bytes) => stringBytes .plain (bytes.reverse ++ reversed) rest
                | .ok (.inr first) => stringBytes (.pairEscape first) reversed rest
      | .pairEscape high =>
          if b = 0x5c then stringBytes (.pairLetter high) reversed rest
          else stopAfter .unfinishedHexEscape rest
      | .pairLetter high =>
          if b = byte 'u' then stringBytes (.digits (some high) []) reversed rest
          else stopAfter .unfinishedHexEscape rest

def scanString (s : Bytes) : Scan String :=
  match stringBytes .plain [] s with
  | .error stop => .error stop
  | .ok (bytes, rest) =>
      match String.fromUTF8? ⟨bytes.toArray⟩ with
      | some text => .ok (text, rest)
      | none => stopAfter .invalidCodePoint rest

inductive SkipState where
  | plain
  | escape
  | digits (reversed : Bytes)

/-- Passes over a string after its opening quote. Its bytes need not form characters, and surrogates
need not form pairs. -/
def skipString (state : SkipState) : Bytes → Except Stop Bytes
  | [] => stopAfter .endInString []
  | b :: rest =>
      match state with
      | .plain =>
          if b = 0x22 then .ok rest
          else if b = 0x5c then skipString .escape rest
          else if b < 0x20 then stopAfter .controlCharacter rest
          else skipString .plain rest
      | .escape =>
          if b = byte 'u' then skipString (.digits []) rest
          else if (escapedByte? b).isSome then skipString .plain rest
          else stopAfter .invalidEscape rest
      | .digits before =>
          let digits := b :: before
          if digits.length < 4 then skipString (.digits digits) rest
          else if (hexNumber? digits.reverse).isSome then skipString .plain rest
          else stopAfter .invalidEscape rest

end ViewClassifier.Json
