import ViewClassifier.Csv
import ViewClassifier.Proofs.Decimal.ReadingBack
import ViewClassifier.Proofs.Files.Writing

/-!
# Tables read back

The text of a table has one line for each row, ended by a newline, and one field for each number, with
commas between them. Every field is read back as its number, bit for bit.
-/

set_option autoImplicit false

namespace ViewClassifier.Csv

open Decimal (Layout)

/-- A text of lines, each ended by a newline, that hold the numbers of a table in their fields. -/
structure Tabulates (text : List Char) (table : Table) (lines : List (List Char)) : Prop where
  ended : text.splitOn '\n' = lines ++ [[]]
  length_lines : lines.length = table.rows
  length_fields : ∀ line ∈ lines, (line.splitOn ',').length = table.cols
  read : ∀ (i j : ℕ) (line field : List Char), lines[i]? = some line →
    (line.splitOn ',')[j]? = some field → Decimal.read? field = some (table.get i j)

section Lines

/-- Lines that end with a newline are parted at these newlines only. -/
theorem splitOn_lines {lines : List (List Char)} (closed : ∀ line ∈ lines, '\n' ∉ line) :
    (lines.flatMap fun line => line ++ ['\n']).splitOn '\n' = lines ++ [[]] := by
  induction lines with
  | nil => rfl
  | cons line more ih =>
      obtain ⟨first, others⟩ := List.forall_mem_cons.mp closed
      rw [List.flatMap_cons, List.append_assoc, List.singleton_append,
        List.splitOn_append_cons_self_of_not_mem first, ih others, List.cons_append]

variable {row : List Float32}

/-- The fields of a row, without the newline. -/
def fields (row : List Float32) : List Char :=
  [','].intercalate (row.map fun x => (Layout.field.text x).toList)

theorem toList_line (some : row ≠ []) : (line row).toList = fields row ++ ['\n'] := by
  unfold line
  split
  · exact absurd rfl some
  · rw [String.toList_append, String.toList_intercalate, List.map_map]
    rfl

theorem splitOn_fields (some : row ≠ []) :
    (fields row).splitOn ',' = row.map fun x => (Layout.field.text x).toList := by
  refine List.splitOn_intercalate ',' ?_ (by simpa using some)
  intro piece member
  obtain ⟨x, -, rfl⟩ := List.mem_map.mp member
  exact (Layout.field_marked.isNumeral_text x).not_mem_comma

theorem not_mem_fields (row : List Float32) : '\n' ∉ fields row := by
  refine Text.not_mem_intercalate (by decide) fun piece member => ?_
  obtain ⟨x, -, rfl⟩ := List.mem_map.mp member
  intro inside
  have visible := (Layout.field_marked.isNumeral_text x).solid '\n' inside
  cases visible

end Lines

section Rows

variable {table : Table} {row : List Float32} {i : ℕ}

theorem getElem?_rowList (found : table.rowList[i]? = some row) : row = table.row i := by
  unfold Table.rowList at found
  rw [List.getElem?_ofFn] at found
  split at found
  · exact (Option.some.inj found).symm
  · cases found

theorem length_of_mem_rowList (member : row ∈ table.rowList) : row.length = table.cols := by
  obtain ⟨i, found⟩ := List.mem_iff_getElem?.mp member
  rw [getElem?_rowList found, Table.length_row]

theorem ne_nil_of_mem_rowList (columns : 1 ≤ table.cols) (member : row ∈ table.rowList) :
    row ≠ [] := by
  rw [← List.length_pos_iff, length_of_mem_rowList member]
  exact columns

end Rows

variable {table : Table}

theorem toList_text (columns : 1 ≤ table.cols) :
    (text table).toList = (table.rowList.map fields).flatMap fun line => line ++ ['\n'] := by
  unfold text
  rw [String.toList_join, List.flatMap_map, List.flatMap_map]
  exact List.flatMap_congr fun row member => toList_line (ne_nil_of_mem_rowList columns member)

theorem tabulates_text (columns : 1 ≤ table.cols) :
    Tabulates (text table).toList table (table.rowList.map fields) where
  ended := by
    rw [toList_text columns, splitOn_lines]
    intro line member
    obtain ⟨row, -, rfl⟩ := List.mem_map.mp member
    exact not_mem_fields row
  length_lines := by simp [Table.rowList]
  length_fields := by
    intro line member
    obtain ⟨row, listed, rfl⟩ := List.mem_map.mp member
    rw [splitOn_fields (ne_nil_of_mem_rowList columns listed), List.length_map,
      length_of_mem_rowList listed]
  read := by
    intro i j line field found inside
    rw [List.getElem?_map] at found
    obtain ⟨row, here, rfl⟩ := Option.map_eq_some_iff.mp found
    have some := ne_nil_of_mem_rowList columns (List.mem_of_getElem? here)
    rw [splitOn_fields some, List.getElem?_map] at inside
    obtain ⟨x, there, rfl⟩ := Option.map_eq_some_iff.mp inside
    obtain rfl := getElem?_rowList here
    obtain ⟨bound, rfl⟩ := List.getElem?_eq_some_iff.mp there
    rw [Layout.field_marked.read?_text, Table.getElem_row]

/-- The text of a table with columns gives all its numbers back, and so does the file that it is saved
to. -/
theorem save_spec (columns : 1 ≤ table.cols) :
    (∃ lines, Tabulates (text table).toList table lines) ∧
      ∀ (tree written : Files.Tree) (path : String), save tree path table = .ok written →
        written.read path = .ok (text table).toUTF8.toList := by
  refine ⟨⟨_, tabulates_text columns⟩, fun tree written path saved => ?_⟩
  unfold save at saved
  cases put : tree.write path (text table).toUTF8.toList with
  | error fault =>
      rw [put] at saved
      cases saved
  | ok filed =>
      rw [put] at saved
      exact Except.ok.inj saved ▸ Files.Tree.read_write put

/-- Two rows with numbers of every kind. -/
def mixedTable : Table where
  rows := 2
  cols := 3
  data := #[-0, Binary32.nan, Float32.ofBits 1, Binary32.infinity, 0.1, -16777216]
  size_data := rfl

theorem save_spec_mixedTable :
    text mixedTable = "-0.0,NaN,1e-45\ninf,0.1,-16777216.0\n" ∧
      ∃ written, save ⟨[], []⟩ "out.csv" mixedTable = .ok written ∧
        written.read "out.csv" = .ok (text mixedTable).toUTF8.toList := by
  have saved : save ⟨[], []⟩ "out.csv" mixedTable =
      .ok ⟨[], [(["out.csv"], .file (text mixedTable).toUTF8.toList)]⟩ := by
    rfl
  exact ⟨by decide, _, saved, (save_spec (by decide)).2 _ _ _ saved⟩

end ViewClassifier.Csv
