import ViewClassifier.Json.Scan

/-!
# Objects of a JSON text

Finds the keys of an object and its end, one member after the other.
-/

set_option autoImplicit false

namespace ViewClassifier.Json

open Files (Bytes)

def colon (s : Bytes) : Except Stop Bytes :=
  match skipSpace s with
  | [] => stopAt .endInObject []
  | b :: rest => if b = byte ':' then .ok rest else stopAt .expectedColon (b :: rest)

/-- Looks for the next key of an object whose brace has been read, and reads its opening quote. The
flag says whether it is the first one. Nothing comes back at the closing brace, which is left alone. -/
def nextKey (first : Bool) (s : Bytes) : Except Stop (Option Bytes) :=
  match skipSpace s with
  | [] => stopAt .endInObject []
  | b :: rest =>
      if b = 0x7d then .ok none
      else if first then quoted (b :: rest)
      else if b = byte ',' then
        match skipSpace rest with
        | [] => stopAt .endInValue []
        | c :: more =>
            if c = 0x7d then stopAt .trailingComma (c :: more) else quoted (c :: more)
      else stopAt .expectedObjectCommaOrEnd (b :: rest)
where
  quoted (s : Bytes) : Except Stop (Option Bytes) :=
    match s with
    | b :: rest => if b = 0x22 then .ok (some rest) else stopAt .keyNotString s
    | [] => stopAt .keyNotString []

def closeObject (s : Bytes) : Except Stop Bytes :=
  match skipSpace s with
  | [] => stopAt .endInObject []
  | b :: rest =>
      if b = 0x7d then .ok rest
      else if b = byte ',' then stopAt .trailingComma (b :: rest)
      else stopAt .trailingCharacters (b :: rest)

end ViewClassifier.Json
