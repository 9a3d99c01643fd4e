import ViewClassifier.Proofs.Binary32.ValueOrder
import ViewClassifier.Proofs.Decimal.ReadingBack
import ViewClassifier.Region.Reading

/-!
# What a region in words says

A text gives a region when it has three commas and a numeral, with blanks around it, in each of its
four pieces. Of numbers in words the region has the lesser and the greater one on each axis.
-/

set_option autoImplicit false

namespace ViewClassifier.Region

open Binary32 (value)
open Decimal (IsNumeral)
open Text (Blanks)

section Fields

/-- A numeral with blanks around it. -/
inductive IsField : List Char → Prop where
  | padded {before numeral after : List Char} (first : Blanks before) (isNumeral : IsNumeral numeral)
      (last : Blanks after) : IsField (before ++ numeral ++ after)

/-- A number in words with blanks around it. -/
inductive Shows (x : Float32) : List Char → Prop where
  | padded {before after : List Char} (first : Blanks before) (last : Blanks after) :
      Shows x (before ++ (Decimal.Layout.plain.text x).toList ++ after)

variable {piece : List Char} {x : Float32}

theorem readNumber_eq_ok_iff : readNumber piece = .ok x ↔ Decimal.read? (Text.trim piece) = some x := by
  unfold readNumber
  cases Decimal.read? (Text.trim piece) <;> simp

theorem readNumber_padded {before numeral after : List Char} (first : Blanks before)
    (isNumeral : IsNumeral numeral) (last : Blanks after) :
    readNumber (before ++ numeral ++ after) = .ok x ↔ Decimal.read? numeral = some x := by
  rw [readNumber_eq_ok_iff, Text.trim_blanks first last isNumeral.solid isNumeral.ne_nil]

theorem exists_readNumber_iff : (∃ x, readNumber piece = .ok x) ↔ IsField piece := by
  constructor
  · rintro ⟨x, read⟩
    rw [readNumber_eq_ok_iff] at read
    obtain ⟨before, after, first, last, parts⟩ := Text.exists_blanks piece
    rw [parts]
    exact .padded first (Decimal.read?_isSome_iff.mp (read ▸ rfl)) last
  · rintro ⟨first, isNumeral, last⟩
    obtain ⟨x, read⟩ := Option.isSome_iff_exists.mp (Decimal.read?_isSome_iff.mpr isNumeral)
    exact ⟨x, (readNumber_padded first isNumeral last).mpr read⟩

theorem Shows.readNumber_eq (shows : Shows x piece) : readNumber piece = .ok x := by
  obtain ⟨first, last⟩ := shows
  have isNumeral := Decimal.Layout.plain_marked.isNumeral_text x
  exact (readNumber_padded first isNumeral last).mpr (Decimal.Layout.plain_marked.read?_text x)

theorem Shows.not_mem_comma (shows : Shows x piece) : ',' ∉ piece := by
  obtain ⟨first, last⟩ := shows
  have blanks : ∀ {s : List Char}, Blanks s → ',' ∉ s := by
    intro s blanks member
    exact absurd (blanks ',' member) (by decide)
  simp only [List.mem_append, not_or]
  have isNumeral := Decimal.Layout.plain_marked.isNumeral_text x
  exact ⟨⟨blanks first, isNumeral.not_mem_comma⟩, blanks last⟩

end Fields

section Texts

variable {text : String} {r : Region}

/-- A run over a list has results when every step has one. -/
theorem mapM_eq_ok_iff_map {ε α β : Type} {step : α → Except ε β} {items : List α}
    {results : List β} : items.mapM step = .ok results ↔ items.map step = results.map .ok := by
  induction items generalizing results with
  | nil => cases results <;> simp [pure, Except.pure]
  | cons item rest ih =>
      rw [List.mapM_cons]
      cases first : step item with
      | error fault => cases results <;> simp [bind, Except.bind, first]
      | ok value =>
          cases later : rest.mapM step with
          | error fault => cases results <;> simp [bind, Except.bind, first, ← ih, later]
          | ok values =>
              cases results <;> simp [bind, Except.bind, pure, Except.pure, first, ← ih, later]

theorem ofText_eq_ok_iff :
    ofText text = .ok r ↔ ∃ x₁ y₁ x₂ y₂,
      (text.toList.splitOn ',').map readNumber = [.ok x₁, .ok y₁, .ok x₂, .ok y₂] ∧
        r = ofCorners x₁ y₁ x₂ y₂ := by
  have four : ∀ x₁ y₁ x₂ y₂, (text.toList.splitOn ',').map readNumber =
      [.ok x₁, .ok y₁, .ok x₂, .ok y₂] ↔
        (text.toList.splitOn ',').mapM readNumber = .ok [x₁, y₁, x₂, y₂] :=
    fun x₁ y₁ x₂ y₂ => (@mapM_eq_ok_iff_map _ _ _ readNumber _ [x₁, y₁, x₂, y₂]).symm
  unfold ofText
  simp only [Text.pieces_eq_splitOn, four]
  cases (text.toList.splitOn ',').mapM readNumber with
  | error fault => simp [bind, Except.bind]
  | ok values =>
      match values with
      | [x₁, y₁, x₂, y₂] =>
          constructor
          · intro made
            exact ⟨x₁, y₁, x₂, y₂, rfl, (Except.ok.inj made).symm⟩
          · rintro ⟨a, b, c, d, same, rfl⟩
            cases same
            rfl
      | [] | [_] | [_, _] | [_, _, _] | _ :: _ :: _ :: _ :: _ :: _ =>
          simp [bind, Except.bind, throw, throwThe, MonadExceptOf.throw]

/-- A text gives a region when three commas part four fields. -/
theorem exists_ofText_iff :
    (∃ r, ofText text = .ok r) ↔
      text.toList.count ',' = 3 ∧ ∀ piece ∈ text.toList.splitOn ',', IsField piece := by
  have counted := Text.length_splitOn ',' text.toList
  simp only [ofText_eq_ok_iff, ← exists_readNumber_iff]
  constructor
  · rintro ⟨r, x₁, y₁, x₂, y₂, values, -⟩
    have four := congrArg List.length values
    rw [List.length_map, counted] at four
    refine ⟨Nat.succ.inj four, fun piece member => ?_⟩
    have read : readNumber piece ∈ [.ok x₁, .ok y₁, .ok x₂, .ok y₂] :=
      values ▸ List.mem_map_of_mem member
    simp only [List.mem_cons, List.not_mem_nil, or_false] at read
    rcases read with read | read | read | read <;> exact ⟨_, read⟩
  · rintro ⟨commas, fields⟩
    rw [commas] at counted
    match pieces : text.toList.splitOn ',', counted with
    | [a, b, c, d], _ =>
        rw [pieces] at fields
        simp only [List.forall_mem_cons, List.not_mem_nil, false_implies, implies_true,
          and_true] at fields
        obtain ⟨⟨x₁, first⟩, ⟨y₁, second⟩, ⟨x₂, third⟩, ⟨y₂, fourth⟩⟩ := fields
        refine ⟨ofCorners x₁ y₁ x₂ y₂, x₁, y₁, x₂, y₂, ?_, rfl⟩
        rw [List.map_cons, first, List.map_cons, second, List.map_cons, third, List.map_cons, fourth,
          List.map_nil]

end Texts

section Corners

/-- The ends of an axis are two numbers, the lesser one first. -/
structure Ends (low high a b : Float32) : Prop where
  held : low = a ∧ high = b ∨ low = b ∧ high = a
  least : value low = min (value a) (value b)
  greatest : value high = max (value a) (value b)

theorem ends_ordered {a b : Float32} (aNumber : a.isNaN = false) (bNumber : b.isNaN = false) :
    Ends (ordered a b).1 (ordered a b).2 a b := by
  unfold ordered
  by_cases less : a < b
  · have le : value a ≤ value b :=
      (Binary32.value_le_iff aNumber bNumber).mpr
        ((Binary32.lt_iff_level_lt aNumber bNumber).mp less).le
    rw [if_pos less]
    exact ⟨.inl ⟨rfl, rfl⟩, (min_eq_left le).symm, (max_eq_right le).symm⟩
  · have le : value b ≤ value a :=
      (Binary32.le_iff_value_le bNumber aNumber).mp
        ((Binary32.not_lt_iff aNumber bNumber).mp less)
    rw [if_neg less]
    exact ⟨.inr ⟨rfl, rfl⟩, (min_eq_right le).symm, (max_eq_left le).symm⟩

/-- Four numbers in words give the region between two corners, and no other texts than four fields
give a region. -/
theorem ofText_spec :
    (∀ (x₁ y₁ x₂ y₂ : Float32) (p₁ q₁ p₂ q₂ : List Char),
      x₁.isNaN = false → y₁.isNaN = false → x₂.isNaN = false → y₂.isNaN = false →
      Shows x₁ p₁ → Shows y₁ q₁ → Shows x₂ p₂ → Shows y₂ q₂ →
      ∃ r, ofText (String.ofList ([','].intercalate [p₁, q₁, p₂, q₂])) = .ok r ∧
        Ends r.minX r.maxX x₁ x₂ ∧ Ends r.minY r.maxY y₁ y₂) ∧
    ∀ text : String, (∃ r, ofText text = .ok r) ↔
      text.toList.count ',' = 3 ∧ ∀ piece ∈ text.toList.splitOn ',', IsField piece := by
  refine ⟨?_, fun text => exists_ofText_iff⟩
  intro x₁ y₁ x₂ y₂ p₁ q₁ p₂ q₂ x₁Number y₁Number x₂Number y₂Number first second third fourth
  refine ⟨ofCorners x₁ y₁ x₂ y₂, ofText_eq_ok_iff.mpr ⟨x₁, y₁, x₂, y₂, ?_, rfl⟩,
    ends_ordered x₁Number x₂Number, ends_ordered y₁Number y₂Number⟩
  have parted : ∀ piece ∈ [p₁, q₁, p₂, q₂], ',' ∉ piece := by
    simp only [List.forall_mem_cons, List.not_mem_nil, false_implies, implies_true, and_true]
    exact ⟨first.not_mem_comma, second.not_mem_comma, third.not_mem_comma, fourth.not_mem_comma⟩
  rw [String.toList_ofList, List.splitOn_intercalate ',' parted (List.cons_ne_nil _ _),
    List.map_cons, first.readNumber_eq, List.map_cons, second.readNumber_eq, List.map_cons,
    third.readNumber_eq, List.map_cons, fourth.readNumber_eq, List.map_nil]

/-- An infinity, a fraction and two zeros, with blanks of several kinds. -/
theorem ofText_spec_mixed :
    ∃ r, ofText "\tinf,1.5,-0 \n,\u3000\u00a00" = .ok r ∧
      Ends r.minX r.maxX Binary32.infinity (-0) ∧ Ends r.minY r.maxY 1.5 0 := by
  have first : Shows Binary32.infinity "\tinf".toList :=
    @Shows.padded Binary32.infinity ['\t'] [] (by decide) (by decide)
  have second : Shows 1.5 "1.5".toList := @Shows.padded 1.5 [] [] (by decide) (by decide)
  have third : Shows (-0) "-0 \n".toList := @Shows.padded (-0) [] [' ', '\n'] (by decide) (by decide)
  have fourth : Shows 0 "\u3000\u00a00".toList :=
    @Shows.padded 0 ['\u3000', '\u00a0'] [] (by decide) (by decide)
  have text : String.ofList ([','].intercalate ["\tinf".toList, "1.5".toList, "-0 \n".toList,
      "\u3000\u00a00".toList]) = "\tinf,1.5,-0 \n,\u3000\u00a00" := by decide
  have read := ofText_spec.1 Binary32.infinity 1.5 (-0) 0 _ _ _ _ (by decide) (by decide)
    (by decide) (by decide) first second third fourth
  rwa [text] at read

end Corners

end ViewClassifier.Region
