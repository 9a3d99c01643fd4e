import ViewClassifier.Json.Number

/-!
# What a scanner has read

A scanner that succeeds depends on the text that it has read, and not on what comes after it. A
number is the one thing that could go on, so that nothing that a number goes on with may follow.
-/

set_option autoImplicit false

namespace ViewClassifier.Json

open Files (Bytes)

section Blanks

def Blank (s : Bytes) : Prop := ∀ b ∈ s, isSpace b = true

theorem blank_nil : Blank [] := fun _ member => absurd member List.not_mem_nil

theorem exists_blank (s : Bytes) : ∃ blanks, Blank blanks ∧ s = blanks ++ skipSpace s :=
  ⟨s.takeWhile isSpace, fun _ member => List.all_eq_true.mp List.all_takeWhile _ member,
    List.takeWhile_append_dropWhile.symm⟩

theorem skipSpace_append {blanks : Bytes} (blank : Blank blanks) (s : Bytes) :
    skipSpace (blanks ++ s) = skipSpace s :=
  List.dropWhile_append_of_pos blank

theorem skipSpace_cons {b : UInt8} (solid : isSpace b = false) (rest : Bytes) :
    skipSpace (b :: rest) = b :: rest := by
  simp [skipSpace, solid]

theorem isSpace_of_skipSpace {s rest : Bytes} {b : UInt8} (found : skipSpace s = b :: rest) :
    isSpace b = false := by
  have := List.head?_dropWhile_not isSpace s
  rw [← skipSpace, found] at this
  simpa using this

/-- The same blanks stand before another rest. -/
theorem exists_front {s rest : Bytes} {b : UInt8} (found : skipSpace s = b :: rest) :
    ∃ front, s = front ++ b :: rest ∧
      ∀ other, skipSpace (front ++ b :: other) = b :: other := by
  obtain ⟨blanks, blank, same⟩ := exists_blank s
  refine ⟨blanks, found ▸ same, fun other => ?_⟩
  rw [skipSpace_append blank, skipSpace_cons (isSpace_of_skipSpace found)]

theorem skipSpace_eq_nil_iff {s : Bytes} : skipSpace s = [] ↔ Blank s := by
  unfold skipSpace Blank
  induction s with
  | nil => simp
  | cons b tail ih => by_cases space : isSpace b = true <;> simp [space, ih]

end Blanks

/-- Nothing that a number goes on with. -/
def Clear (s : Bytes) : Prop :=
  ∀ b, s.head? = some b → isDigit b = false ∧ b ≠ byte '.' ∧ isExponentLetter b = false

theorem clear_nil : Clear [] := fun _ impossible => nomatch impossible

theorem clear_cons {b : UInt8} {rest : Bytes} :
    Clear (b :: rest) ↔ isDigit b = false ∧ b ≠ byte '.' ∧ isExponentLetter b = false := by
  simp [Clear]

theorem clear_of_isSpace {b : UInt8} {rest : Bytes} (space : isSpace b = true) :
    Clear (b :: rest) := by
  rw [clear_cons]
  simp only [isSpace, Bool.or_eq_true, beq_iff_eq, or_assoc] at space
  rcases space with rfl | rfl | rfl | rfl
  · decide
  · decide
  · decide
  · decide

/-- Only the first byte counts, which blanks leave clear. -/
theorem clear_of_skipSpace {s rest : Bytes} {b : UInt8} (found : skipSpace s = b :: rest)
    (clear : Clear (b :: rest)) : Clear s := by
  cases s with
  | nil => exact clear_nil
  | cons first more =>
      by_cases space : isSpace first = true
      · exact clear_of_isSpace space
      · rw [skipSpace_cons (by simpa using space)] at found
        exact found ▸ clear

theorem Clear.append {text rest other : Bytes} (clear : Clear (text ++ rest))
    (otherClear : Clear other) : Clear (text ++ other) := by
  cases text with
  | nil => exact otherClear
  | cons b more => exact clear_cons.mpr (clear_cons.mp clear)

theorem bind_eq_ok_iff {α β : Type} {step : Except Stop α} {next : α → Except Stop β} {result : β} :
    (step >>= next) = .ok result ↔ ∃ value, step = .ok value ∧ next value = .ok result := by
  cases step with
  | error stop => simp [bind, Except.bind]
  | ok value => simp [bind, Except.bind]

/-- A step that uses the front of a text, up to the rest, and does the same before another rest. -/
def Uses {γ : Type} (step : Bytes → Except Stop γ) (s rest : Bytes) (result : Bytes → γ) : Prop :=
  ∃ text, s = text ++ rest ∧ ∀ other, Clear other → step (text ++ other) = .ok (result other)

/-- A scanner whose success depends on the text that it has read alone. -/
def Framed {α : Type} (scan : Bytes → Scan α) : Prop :=
  ∀ ⦃s value rest⦄, scan s = .ok (value, rest) → Uses scan s rest fun rest => (value, rest)

/-- The same where nothing comes back but what is left. -/
def Passes (skip : Bytes → Except Stop Bytes) : Prop :=
  ∀ ⦃s rest⦄, skip s = .ok rest → Uses skip s rest id

namespace Uses

variable {γ δ : Type} {step next : Bytes → Except Stop γ} {s rest : Bytes} {result : Bytes → γ}

theorem nothing (reads : ∀ other, Clear other → step other = .ok (result other)) :
    Uses step rest rest result :=
  ⟨[], rfl, reads⟩

theorem cons {b : UInt8} (moves : ∀ tail, step (b :: tail) = next tail)
    (uses : Uses next s rest result) : Uses step (b :: s) rest result := by
  obtain ⟨text, rfl, reads⟩ := uses
  refine ⟨b :: text, rfl, fun other clear => ?_⟩
  rw [List.cons_append, moves, reads other clear]

theorem bind {next : γ → Except Stop δ} {middle : Bytes} {final : Bytes → δ}
    (first : Uses step s middle result) (clear : Clear middle)
    (second : Uses (fun s => next (result s)) middle rest final) :
    Uses (fun s => step s >>= next) s rest final := by
  obtain ⟨front, rfl, reads⟩ := first
  obtain ⟨back, rfl, continues⟩ := second
  refine ⟨front ++ back, (List.append_assoc ..).symm, fun other otherClear => ?_⟩
  show step (front ++ back ++ other) >>= next = _
  rw [List.append_assoc, reads _ (clear.append otherClear)]
  exact continues other otherClear

theorem past {skip : Bytes → Except Stop Bytes} {middle : Bytes} (first : Uses skip s middle id)
    (clear : Clear middle) (second : Uses next middle rest result) :
    Uses (fun s => skip s >>= next) s rest result :=
  first.bind clear second

theorem spaced {s tail : Bytes} {b : UInt8} (found : skipSpace s = b :: tail)
    (moves : ∀ other tail, skipSpace other = b :: tail → step other = next tail)
    (uses : Uses next tail rest result) : Uses step s rest result := by
  obtain ⟨text, rfl, reads⟩ := uses
  obtain ⟨front, rfl, behind⟩ := exists_front found
  refine ⟨front ++ b :: text, by simp, fun other clear => ?_⟩
  have spaced := behind (text ++ other)
  rw [List.append_assoc, List.cons_append, moves _ _ spaced, reads other clear]

theorem uncons {b : UInt8} (uses : Uses step (b :: s) rest result)
    (fails : ∀ value, step [] ≠ .ok value) : Uses (fun s => step (b :: s)) s rest result := by
  obtain ⟨text, same, reads⟩ := uses
  cases text with
  | nil => exact absurd (reads [] clear_nil) (fails _)
  | cons first more =>
      obtain ⟨rfl, rfl⟩ := List.cons.inj same
      exact ⟨more, rfl, reads⟩

/-- A step that begins as another one does, where that one looks at the byte as well. -/
theorem as {b : UInt8} (moves : ∀ tail, step (b :: tail) = next (b :: tail))
    (uses : Uses next (b :: s) rest result) (fails : ∀ value, next [] ≠ .ok value) :
    Uses step (b :: s) rest result :=
  .cons moves (uses.uncons fails)

theorem map {f : γ → δ} (uses : Uses step s rest result) :
    Uses (fun s => step s >>= fun value => pure (f value)) s rest fun rest => f (result rest) := by
  obtain ⟨text, rfl, reads⟩ := uses
  refine ⟨text, rfl, fun other clear => ?_⟩
  show step (text ++ other) >>= _ = _
  rw [reads other clear]
  rfl

theorem length_lt (uses : Uses step s rest result) (fails : ∀ value, step [] ≠ .ok value) :
    rest.length < s.length := by
  obtain ⟨text, rfl, reads⟩ := uses
  cases text with
  | nil => exact absurd (reads [] clear_nil) (fails _)
  | cons b more =>
      rw [List.length_append, List.length_cons]
      omega

end Uses

section Strings

theorem word_eq_ok_iff {letters : List Char} {s rest : Bytes} :
    word letters s = .ok rest ↔ s = letters.map byte ++ rest := by
  induction letters generalizing s with
  | nil => simp [word]
  | cons c more ih =>
      cases s with
      | nil => simp [word, stopAfter]
      | cons b tail =>
          unfold word
          split
          · next same =>
              rw [ih]
              simp [same]
          · next other => simp [stopAfter, other]

theorem passes_word (letters : List Char) : Passes (word letters) := by
  intro s rest read
  obtain rfl := word_eq_ok_iff.mp read
  exact ⟨_, rfl, fun other _ => word_eq_ok_iff.mpr rfl⟩

theorem framed_stringBytes (state : StringState) (reversed : Bytes) :
    Framed (stringBytes state reversed) := by
  intro s bytes rest read
  fun_induction stringBytes state reversed s with
  | case2 reversed tail =>
      obtain ⟨rfl, rfl⟩ := Prod.mk.inj (Except.ok.inj read)
      exact .cons (fun tail => by simp [stringBytes]) (.nothing fun _ _ => rfl)
  | case3 reversed tail _ ih => exact .cons (fun tail => by simp [stringBytes]) (ih read)
  | case5 reversed b tail quote escape control ih =>
      exact .cons (fun tail => by simp [stringBytes, quote, escape, control]) (ih read)
  | case6 reversed tail ih => exact .cons (fun tail => by simp [stringBytes]) (ih read)
  | case7 reversed b tail letter c escaped ih =>
      exact .cons (fun tail => by simp [stringBytes, letter, escaped]) (ih read)
  | case9 reversed b tail high before digits few ih =>
      have few : (b :: before).length < 4 := few
      exact .cons (fun tail => by simp only [stringBytes, few, ↓reduceIte]; rfl) (ih read)
  | case12 reversed b tail high before digits full n value bytes finished ih =>
      have full : ¬ (b :: before).length < 4 := full
      have value : hexNumber? (b :: before).reverse = some n := value
      exact .cons (fun tail => by simp only [stringBytes, full, value, finished, ↓reduceIte])
        (ih read)
  | case13 reversed b tail high before digits full n value first finished ih =>
      have full : ¬ (b :: before).length < 4 := full
      have value : hexNumber? (b :: before).reverse = some n := value
      exact .cons (fun tail => by simp only [stringBytes, full, value, finished, ↓reduceIte])
        (ih read)
  | case14 reversed tail high ih => exact .cons (fun tail => by simp [stringBytes]) (ih read)
  | case16 reversed tail high ih => exact .cons (fun tail => by simp [stringBytes]) (ih read)
  | _ => cases read

theorem framed_scanString : Framed scanString := by
  intro s text rest read
  unfold scanString at read
  cases scanned : stringBytes .plain [] s with
  | error stop => simp [scanned] at read
  | ok found =>
      obtain ⟨bytes, left⟩ := found
      cases decoded : String.fromUTF8? ⟨bytes.toArray⟩ with
      | none => simp [scanned, decoded, stopAfter] at read
      | some string =>
          simp only [scanned, decoded, Except.ok.injEq, Prod.mk.injEq] at read
          obtain ⟨rfl, rfl⟩ := read
          obtain ⟨front, rfl, reads⟩ := framed_stringBytes _ _ scanned
          refine ⟨front, rfl, fun other clear => ?_⟩
          simp only [scanString, reads other clear, decoded]

theorem passes_skipString (state : SkipState) : Passes (skipString state) := by
  intro s rest read
  fun_induction skipString state s with
  | case2 tail =>
      obtain rfl := Except.ok.inj read
      exact .cons (fun tail => by simp [skipString]) (.nothing fun _ _ => rfl)
  | case3 tail _ ih => exact .cons (fun tail => by simp [skipString]) (ih read)
  | case5 b tail quote escape control ih =>
      exact .cons (fun tail => by simp [skipString, quote, escape, control]) (ih read)
  | case6 tail ih => exact .cons (fun tail => by simp [skipString]) (ih read)
  | case7 b tail letter escaped ih =>
      exact .cons (fun tail => by simp [skipString, letter, escaped]) (ih read)
  | case9 b tail before digits few ih =>
      have few : (b :: before).length < 4 := few
      exact .cons (fun tail => by simp only [skipString, few, ↓reduceIte]; rfl) (ih read)
  | case10 b tail before digits full value ih =>
      have full : ¬ (b :: before).length < 4 := full
      have value : (hexNumber? (b :: before).reverse).isSome = true := value
      exact .cons (fun tail => by simp only [skipString, full, value, ↓reduceIte]) (ih read)
  | _ => cases read

end Strings

end ViewClassifier.Json
