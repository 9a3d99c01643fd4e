/-!
# Faults of an array file

What can be wrong with an array file: it ends inside the header, the header says nothing usable, the
numbers have another encoding, or their count does not match the shape.
-/

set_option autoImplicit false

namespace ViewClassifier.Npy

inductive HeaderFault where
  | wrongMagic
  | unknownVersion (major minor : Nat)
  | missingNewline
  | notAscii
  | notUnicode
  | notLiteral
  | notDictionary (value : String)
  | unknownKey (key : String)
  | illegalValue (key value : String)
  | missingKey (key : String)
  deriving DecidableEq, Repr

def HeaderFault.message : HeaderFault → String
  | .wrongMagic => "start does not match magic string"
  | .unknownVersion major minor =>
      "unknown version number: " ++ toString major ++ "." ++ toString minor
  | .missingNewline => "newline missing at end of header"
  | .notAscii =>
      "non-ascii in array format string; this is not supported in .npy format versions 1.0 and 2.0"
  | .notUnicode => "error parsing array format string as UTF-8"
  | .notLiteral => "error parsing metadata dict"
  | .notDictionary value => "metadata is not a dict: " ++ value
  | .unknownKey key => "unknown key: " ++ key
  | .illegalValue key value => "illegal value for key " ++ key ++ ": " ++ value
  | .missingKey key => "missing key: " ++ key

inductive Fault where
  | cutHeader
  | header (fault : HeaderFault)
  | lengthOverflow
  | wrongDescriptor (descriptor : String)
  | missingData
  | extraBytes (count : Nat)
  deriving DecidableEq, Repr

def shortRead : String :=
  "failed to fill whole buffer"

def Fault.message : Fault → String
  | .cutHeader => "I/O error: " ++ shortRead
  | .header fault => "error parsing header: " ++ fault.message
  | .lengthOverflow => "overflow computing length from shape"
  | .wrongDescriptor descriptor => "incorrect descriptor (" ++ descriptor ++ ") for this type"
  | .missingData => "reached EOF before reading all data"
  | .extraBytes count => "file had " ++ toString count ++ " extra bytes before EOF"

def Fault.chain (fault : Fault) : List String :=
  match fault with
  | .cutHeader => [fault.message, shortRead]
  | .header cause => [fault.message, cause.message]
  | _ => [fault.message]

end ViewClassifier.Npy
