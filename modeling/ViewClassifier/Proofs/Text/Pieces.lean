import ViewClassifier.Text.Blank

/-!
# Pieces and blanks

Cutting a text at a separator is undone by putting the separator between the pieces. Blanks at the
ends of a text are all that is taken off it.
-/

set_option autoImplicit false

namespace ViewClassifier.Text

theorem pieces_eq_splitOn (separator : Char) (chars : List Char) :
    pieces separator chars = chars.splitOn separator := by
  induction chars with
  | nil => simp [pieces]
  | cons c rest ih =>
      rw [pieces, List.splitOn_cons_eq_if_modifyHead, ih]
      by_cases same : c = separator
      · simp [same]
      · rw [if_neg same, if_neg (by simpa using same)]
        cases split : rest.splitOn separator with
        | nil => exact absurd split (List.splitOn_ne_nil separator rest)
        | cons piece more => rfl

theorem length_splitOn (separator : Char) (chars : List Char) :
    (chars.splitOn separator).length = chars.count separator + 1 := by
  induction chars with
  | nil => simp
  | cons c rest ih =>
      rw [List.splitOn_cons_eq_if_modifyHead, List.count_cons]
      split
      · rw [List.length_cons, ih]
      · rw [List.length_modifyHead, ih, Nat.add_zero]

theorem not_mem_of_mem_splitOn {separator : Char} {chars piece : List Char}
    (member : piece ∈ chars.splitOn separator) : separator ∉ piece := by
  induction chars generalizing piece with
  | nil =>
      obtain rfl : piece = [] := by simpa using member
      exact List.not_mem_nil
  | cons c rest ih =>
      rw [List.splitOn_cons_eq_if_modifyHead] at member
      split at member
      · rcases List.mem_cons.mp member with rfl | member
        · exact List.not_mem_nil
        · exact ih member
      · rename_i other
        cases split : rest.splitOn separator with
        | nil => exact absurd split (List.splitOn_ne_nil separator rest)
        | cons first more =>
            rw [split] at member ih
            rcases List.mem_cons.mp member with rfl | member
            · have same : separator ≠ c := fun same => other (beq_iff_eq.mpr same.symm)
              exact List.not_mem_cons_of_ne_of_not_mem same (ih (.head _))
            · exact ih (.tail _ member)

theorem not_mem_intercalate {c separator : Char} {pieces : List (List Char)} (apart : c ≠ separator)
    (absent : ∀ piece ∈ pieces, c ∉ piece) : c ∉ [separator].intercalate pieces := by
  induction pieces with
  | nil => exact List.not_mem_nil
  | cons piece more ih =>
      obtain ⟨first, others⟩ := List.forall_mem_cons.mp absent
      cases more with
      | nil => simpa [List.intercalate] using first
      | cons next more =>
          have later := ih others
          simp only [List.intercalate, List.intersperse_cons_cons, List.flatten_cons] at later ⊢
          simp only [List.mem_append, List.mem_singleton, not_or]
          exact ⟨first, apart, later⟩

/-- Nothing but blanks. -/
def Blanks (s : List Char) : Prop := ∀ c ∈ s, isBlank c = true

instance (s : List Char) : Decidable (Blanks s) :=
  decidable_of_iff (s.all isBlank = true) List.all_eq_true

/-- No blank at all. -/
def Solid (s : List Char) : Prop := ∀ c ∈ s, isBlank c = false

theorem dropWhile_solid {s : List Char} (solid : Solid s) (some : s ≠ []) (after : List Char) :
    (s ++ after).dropWhile isBlank = s ++ after := by
  cases s with
  | nil => exact absurd rfl some
  | cons c rest => simp [solid c (.head _)]

theorem Solid.reverse {s : List Char} (solid : Solid s) : Solid s.reverse :=
  fun c member => solid c (List.mem_reverse.mp member)

theorem Blanks.reverse {s : List Char} (blanks : Blanks s) : Blanks s.reverse :=
  fun c member => blanks c (List.mem_reverse.mp member)

theorem trim_blanks {before body after : List Char} (first : Blanks before) (last : Blanks after)
    (solid : Solid body) (some : body ≠ []) : trim (before ++ body ++ after) = body := by
  have front : (before ++ body ++ after).dropWhile isBlank = body ++ after := by
    rw [List.append_assoc, List.dropWhile_append_of_pos first, dropWhile_solid solid some]
  have back : (after.reverse ++ body.reverse).dropWhile isBlank = body.reverse := by
    have kept := dropWhile_solid solid.reverse (List.reverse_ne_nil_iff.mpr some) []
    rw [List.append_nil] at kept
    rw [List.dropWhile_append_of_pos last.reverse, kept]
  rw [trim, front, List.reverse_append, back, List.reverse_reverse]

theorem exists_blanks (s : List Char) :
    ∃ before after, Blanks before ∧ Blanks after ∧ s = before ++ trim s ++ after := by
  have blanks : ∀ t : List Char, Blanks (t.takeWhile isBlank) := fun t _ member =>
    List.all_eq_true.mp List.all_takeWhile _ member
  refine ⟨s.takeWhile isBlank, ((s.dropWhile isBlank).reverse.takeWhile isBlank).reverse,
    blanks s, (blanks _).reverse, ?_⟩
  rw [trim, List.append_assoc, ← List.reverse_append, List.takeWhile_append_dropWhile,
    List.reverse_reverse, List.takeWhile_append_dropWhile]

end ViewClassifier.Text
