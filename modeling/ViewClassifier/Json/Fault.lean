import ViewClassifier.Files.Fault

/-!
# Faults of a JSON text

What is wrong with a JSON text, and where. A text can end too early, break the grammar, or hold a
value of another kind than the one that is asked for.
-/

set_option autoImplicit false

namespace ViewClassifier.Json

inductive Cause where
  | endInList
  | endInObject
  | endInString
  | endInValue
  | expectedColon
  | expectedListCommaOrEnd
  | expectedObjectCommaOrEnd
  | expectedIdent
  | expectedValue
  | invalidEscape
  | invalidNumber
  | numberOutOfRange
  | invalidCodePoint
  | controlCharacter
  | keyNotString
  | loneSurrogate
  | trailingComma
  | trailingCharacters
  | unfinishedHexEscape
  /-- A value of another kind than the one that is asked for. -/
  | wrongType (found expected : String)
  /-- A value of the right kind that is out of range. -/
  | wrongValue (found expected : String)
  | wrongLength (found : Nat) (expected : String)
  | duplicateField (name : String)
  deriving DecidableEq, Repr

inductive Category where
  | input
  /-- The text is no JSON. -/
  | grammar
  /-- The text is JSON, but not of the kind that is asked for. -/
  | data
  /-- The text ends too early. -/
  | ending
  deriving DecidableEq, Repr

def Cause.category : Cause → Category
  | .endInList | .endInObject | .endInString | .endInValue => .ending
  | .wrongType .. | .wrongValue .. | .wrongLength .. | .duplicateField .. => .data
  | _ => .grammar

def Cause.message : Cause → String
  | .endInList => "EOF while parsing a list"
  | .endInObject => "EOF while parsing an object"
  | .endInString => "EOF while parsing a string"
  | .endInValue => "EOF while parsing a value"
  | .expectedColon => "expected `:`"
  | .expectedListCommaOrEnd => "expected `,` or `]`"
  | .expectedObjectCommaOrEnd => "expected `,` or `\x7d`"
  | .expectedIdent => "expected ident"
  | .expectedValue => "expected value"
  | .invalidEscape => "invalid escape"
  | .invalidNumber => "invalid number"
  | .numberOutOfRange => "number out of range"
  | .invalidCodePoint => "invalid unicode code point"
  | .controlCharacter =>
      "control character (\\u0000-\\u001F) found while parsing a string"
  | .keyNotString => "key must be a string"
  | .loneSurrogate => "lone leading surrogate in hex escape"
  | .trailingComma => "trailing comma"
  | .trailingCharacters => "trailing characters"
  | .unfinishedHexEscape => "unexpected end of hex escape"
  | .wrongType found expected => "invalid type: " ++ found ++ ", expected " ++ expected
  | .wrongValue found expected => "invalid value: " ++ found ++ ", expected " ++ expected
  | .wrongLength found expected =>
      "invalid length " ++ toString found ++ ", expected " ++ expected
  | .duplicateField name => "duplicate field `" ++ name ++ "`"

inductive Fault where
  | unreadable (fault : Files.Fault)
  /-- Lines count from one. The column is the number of bytes of the line that have been read. -/
  | at (cause : Cause) (line column : Nat)
  deriving DecidableEq, Repr

def Fault.category : Fault → Category
  | .unreadable _ => .input
  | .at cause _ _ => cause.category

def Fault.message : Fault → String
  | .unreadable fault => fault.message
  | .at cause line column =>
      cause.message ++ " at line " ++ toString line ++ " column " ++ toString column

end ViewClassifier.Json
