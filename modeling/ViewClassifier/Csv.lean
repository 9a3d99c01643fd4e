import ViewClassifier.Decimal.Layout
import ViewClassifier.Error
import ViewClassifier.Files.Tree
import ViewClassifier.Table

/-!
# Comma-separated tables

The text of a table with one line for each row and one field for each number.
-/

set_option autoImplicit false

namespace ViewClassifier.Csv

/-- A row as a line. A row without fields is an empty quoted field, so that its line is not lost. -/
def line (row : List Float32) : String :=
  match row with
  | [] => "\x22\x22\n"
  | row => ",".intercalate (row.map Decimal.Layout.field.text) ++ "\n"

def text (table : Table) : String :=
  String.join (table.rowList.map line)

def save (tree : Files.Tree) (path : String) (table : Table) : Result Files.Tree :=
  match tree.write path (text table).toUTF8.toList with
  | .ok written => .ok written
  | .error fault => .error (.file fault)

end ViewClassifier.Csv
