import ViewClassifier.Decimal.Literal
import ViewClassifier.Region
import ViewClassifier.Text.Blank
import ViewClassifier.Text.Quoted

/-!
# Regions in words

A region is given as four numbers with commas between them, the coordinates of two opposite corners.
Blanks around a number do not count.
-/

set_option autoImplicit false

namespace ViewClassifier.Region

inductive ReadingFault where
  | noNumber (piece : List Char)
  | notNumber (piece : List Char)
  | wrongCount (found : Nat)
  deriving DecidableEq, Repr

def ReadingFault.message : ReadingFault → String
  | .noNumber piece =>
      String.ofList (Text.quote piece) ++ ": cannot parse float from empty string"
  | .notNumber piece => String.ofList (Text.quote piece) ++ ": invalid float literal"
  | .wrongCount found => "expected x1,y1,x2,y2, got " ++ toString found ++ " values"

def readNumber (piece : List Char) : Except ReadingFault Float32 :=
  match Decimal.read? (Text.trim piece) with
  | some value => .ok value
  | none => .error (if Text.trim piece = [] then .noNumber piece else .notNumber piece)

/-- The region that a text gives. A piece that is no number comes before a wrong count of them. -/
def ofText (text : String) : Except ReadingFault Region := do
  let values ← (Text.pieces ',' text.toList).mapM readNumber
  match values with
  | [x₁, y₁, x₂, y₂] => return ofCorners x₁ y₁ x₂ y₂
  | values => throw (.wrongCount values.length)

end ViewClassifier.Region
