/-!
# File faults

Why a file cannot be opened or written, with the text that the operating system gives.
-/

set_option autoImplicit false

namespace ViewClassifier.Files

inductive Fault where
  | notFound
  | isDirectory
  | notDirectory
  | invalidName
  deriving DecidableEq, Repr

def Fault.message : Fault → String
  | .notFound => "No such file or directory (os error 2)"
  | .isDirectory => "Is a directory (os error 21)"
  | .notDirectory => "Not a directory (os error 20)"
  | .invalidName => "file name contained an unexpected NUL byte"

end ViewClassifier.Files
