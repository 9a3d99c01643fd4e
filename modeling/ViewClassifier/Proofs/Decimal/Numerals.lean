import Mathlib.Data.Int.Notation
import ViewClassifier.Decimal.Literal
import ViewClassifier.Proofs.Text.Digits
import ViewClassifier.Proofs.Text.Pieces

/-!
# Numerals

The texts that denote a number, as a grammar. A text is read exactly when it is one of them. Words are
told from digits by their first character, and the parts of a decimal by the characters between them.
-/

set_option autoImplicit false

namespace ViewClassifier.Decimal

open Text (IsDigits NoDigit)

section Grammar

inductive IsSign : List Char → Prop where
  | none : IsSign []
  | plus : IsSign ['+']
  | minus : IsSign ['-']

/-- Digits with at most one point. There is at least one digit on one side of it. -/
inductive IsMantissa : List Char → Prop where
  | whole {digits : List Char} (all : IsDigits digits) (some : digits ≠ []) : IsMantissa digits
  | pointed {whole fraction : List Char} (wholeDigits : IsDigits whole)
      (fractionDigits : IsDigits fraction) (some : ¬ (whole = [] ∧ fraction = [])) :
      IsMantissa (whole ++ '.' :: fraction)

inductive IsExponent : List Char → Prop where
  | none : IsExponent []
  | power {letter : Char} {sign digits : List Char} (isLetter : letter = 'e' ∨ letter = 'E')
      (signed : IsSign sign) (all : IsDigits digits) (some : digits ≠ []) :
      IsExponent (letter :: (sign ++ digits))

/-- What follows the sign of a numeral. The case of the letters of a word does not count. -/
inductive IsMagnitude : List Char → Prop where
  | word {letters : List Char}
      (listed : letters.map Char.toLower ∈ ["inf".toList, "infinity".toList, "nan".toList]) :
      IsMagnitude letters
  | decimal {mantissa exponent : List Char} (isMantissa : IsMantissa mantissa)
      (isExponent : IsExponent exponent) : IsMagnitude (mantissa ++ exponent)

inductive IsNumeral : List Char → Prop where
  | signed {sign magnitude : List Char} (isSign : IsSign sign) (isMagnitude : IsMagnitude magnitude) :
      IsNumeral (sign ++ magnitude)

end Grammar

section Signs

/-- Nothing that is taken for a sign. -/
def Unsigned (s : List Char) : Prop := ∀ c, s.head? = some c → c ≠ '-' ∧ c ≠ '+'

theorem splitSign_unsigned {s : List Char} (unsigned : Unsigned s) : splitSign s = (false, s) := by
  unfold splitSign
  split
  · exact absurd rfl (unsigned '-' rfl).1
  · exact absurd rfl (unsigned '+' rfl).2
  · rfl

theorem splitSign_spec (s : List Char) :
    ∃ sign, IsSign sign ∧ s = sign ++ (splitSign s).2 := by
  unfold splitSign
  split
  · exact ⟨_, .minus, rfl⟩
  · exact ⟨_, .plus, rfl⟩
  · exact ⟨_, .none, rfl⟩

theorem IsSign.splitSign {sign rest : List Char} (isSign : IsSign sign) (unsigned : Unsigned rest) :
    (splitSign (sign ++ rest)).2 = rest := by
  cases isSign with
  | none => exact congrArg Prod.snd (splitSign_unsigned unsigned)
  | plus => rfl
  | minus => rfl

theorem unsigned_of_isDigits {digits : List Char} (all : IsDigits digits) (some : digits ≠ [])
    (rest : List Char) : Unsigned (digits ++ rest) := by
  obtain ⟨first, more, rfl⟩ := List.exists_cons_of_ne_nil some
  intro c head
  obtain rfl : first = c := Option.some.inj head
  have digit := all first (.head _)
  constructor
  · rintro rfl
    cases digit
  · rintro rfl
    cases digit

end Signs

section Exponents

theorem exponentValue?_power {letter : Char} {rest : List Char}
    (isLetter : letter = 'e' ∨ letter = 'E') (some : (splitSign rest).2 ≠ [])
    (all : IsDigits (splitSign rest).2) :
    exponentValue? (letter :: rest) = Option.some
      (if (splitSign rest).1 then -(digitsValue (splitSign rest).2 : ℤ)
        else digitsValue (splitSign rest).2) := by
  have digits : (splitSign rest).2 ≠ [] ∧ (splitSign rest).2.all Char.isDigit = true :=
    ⟨some, List.all_eq_true.mpr all⟩
  unfold exponentValue?
  dsimp only
  rw [if_pos isLetter, if_pos digits]

theorem exponentValue?_isSome_iff {s : List Char} :
    (exponentValue? s).isSome = true ↔ IsExponent s := by
  constructor
  · intro found
    cases s with
    | nil => exact .none
    | cons letter rest =>
        unfold exponentValue? at found
        dsimp only at found
        by_cases isLetter : letter = 'e' ∨ letter = 'E'
        · rw [if_pos isLetter] at found
          obtain ⟨sign, isSign, parts⟩ := splitSign_spec rest
          by_cases digits : (splitSign rest).2 ≠ [] ∧ (splitSign rest).2.all Char.isDigit = true
          · rw [parts]
            exact .power isLetter isSign (List.all_eq_true.mp digits.2) digits.1
          · rw [if_neg digits] at found
            cases found
        · rw [if_neg isLetter] at found
          cases found
  · intro isExponent
    cases isExponent with
    | none => rfl
    | @power letter sign digits isLetter signed all some =>
        have unsigned : Unsigned digits := by
          simpa using unsigned_of_isDigits all some []
        have rest := signed.splitSign unsigned
        rw [exponentValue?_power isLetter (rest.symm ▸ some) (rest.symm ▸ all)]
        rfl

theorem IsExponent.noDigit {s : List Char} (isExponent : IsExponent s) : NoDigit s := by
  cases isExponent with
  | none => exact Text.noDigit_nil
  | power isLetter =>
      refine Text.noDigit_cons ?_
      rcases isLetter with rfl | rfl <;> rfl

/-- No point stands before an exponent that is read after the digits of a whole number. -/
def NoPoint (s : List Char) : Prop := s.head? ≠ some '.'

theorem IsExponent.noPoint {s : List Char} (isExponent : IsExponent s) : NoPoint s := by
  cases isExponent with
  | none => exact fun impossible => nomatch impossible
  | power isLetter =>
      intro point
      obtain rfl := Option.some.inj point
      rcases isLetter with impossible | impossible <;> cases impossible

end Exponents

section Decimals

/-- What is read where no word stands. -/
def decimal? (negative : Bool) (chars : List Char) : Option Literal :=
  let (whole, rest) := chars.span Char.isDigit
  let (fraction, rest) := splitFraction rest
  if whole = [] ∧ fraction = [] then none
  else
    (exponentValue? rest).map fun exponent =>
      .decimal negative (digitsValue (whole ++ fraction)) (exponent - fraction.length)

variable {whole fraction exponent rest chars : List Char} (negative : Bool)

theorem decimal?_eq (before : chars.span Char.isDigit = (whole, rest))
    (after : splitFraction rest = (fraction, exponent)) :
    decimal? negative chars =
      if whole = [] ∧ fraction = [] then none
      else
        (exponentValue? exponent).map fun power =>
          .decimal negative (digitsValue (whole ++ fraction)) (power - fraction.length) := by
  simp only [decimal?, before, after]

theorem splitFraction_point (digits : IsDigits fraction) (stop : NoDigit exponent) :
    splitFraction ('.' :: (fraction ++ exponent)) = (fraction, exponent) :=
  Text.span_digits digits stop

theorem splitFraction_of_noPoint (noPoint : NoPoint rest) : splitFraction rest = ([], rest) := by
  unfold splitFraction
  split
  · exact absurd rfl noPoint
  · rfl

theorem decimal?_pointed (wholeDigits : IsDigits whole) (fractionDigits : IsDigits fraction)
    (some : ¬ (whole = [] ∧ fraction = [])) (stop : NoDigit exponent) :
    decimal? negative (whole ++ '.' :: (fraction ++ exponent)) =
      (exponentValue? exponent).map fun power =>
        .decimal negative (digitsValue (whole ++ fraction)) (power - fraction.length) := by
  have point : NoDigit ('.' :: (fraction ++ exponent)) := Text.noDigit_cons rfl
  rw [decimal?_eq negative (Text.span_digits wholeDigits point)
    (splitFraction_point fractionDigits stop), if_neg some]

theorem decimal?_whole (wholeDigits : IsDigits whole) (some : whole ≠ []) (stop : NoDigit exponent)
    (noPoint : NoPoint exponent) :
    decimal? negative (whole ++ exponent) =
      (exponentValue? exponent).map fun power =>
        .decimal negative (digitsValue whole) power := by
  rw [decimal?_eq negative (Text.span_digits wholeDigits stop) (splitFraction_of_noPoint noPoint),
    if_neg fun none => some none.1]
  simp

/-- A text without any digit before or after its point is nothing. -/
theorem decimal?_isSome_iff :
    (decimal? negative chars).isSome = true ↔
      ∃ mantissa exponent, IsMantissa mantissa ∧ IsExponent exponent ∧
        chars = mantissa ++ exponent := by
  constructor
  · intro found
    obtain ⟨whole, rest, wholeDigits, stop, rfl⟩ := Text.exists_digits chars
    by_cases point : ∃ after, rest = '.' :: after
    · obtain ⟨after, rfl⟩ := point
      obtain ⟨fraction, exponent, fractionDigits, later, rfl⟩ := Text.exists_digits after
      by_cases none : whole = [] ∧ fraction = []
      · rw [decimal?_eq negative (Text.span_digits wholeDigits stop)
          (splitFraction_point fractionDigits later), if_pos none] at found
        cases found
      · rw [decimal?_pointed negative wholeDigits fractionDigits none later, Option.isSome_map,
          exponentValue?_isSome_iff] at found
        exact ⟨_, _, .pointed wholeDigits fractionDigits none, found, by simp⟩
    · have noPoint : NoPoint rest := fun head => point (List.head?_eq_some_iff.mp head)
      by_cases none : whole = []
      · rw [decimal?_eq negative (Text.span_digits wholeDigits stop)
          (splitFraction_of_noPoint noPoint), if_pos ⟨none, rfl⟩] at found
        cases found
      · rw [decimal?_whole negative wholeDigits none stop noPoint, Option.isSome_map,
          exponentValue?_isSome_iff] at found
        exact ⟨_, _, .whole wholeDigits none, found, rfl⟩
  · rintro ⟨mantissa, exponent, isMantissa, isExponent, rfl⟩
    have stop := isExponent.noDigit
    have read := exponentValue?_isSome_iff.mpr isExponent
    cases isMantissa with
    | whole all some =>
        rw [decimal?_whole negative all some stop isExponent.noPoint, Option.isSome_map]
        exact read
    | pointed wholeDigits fractionDigits some =>
        rw [List.append_assoc, List.cons_append,
          decimal?_pointed negative wholeDigits fractionDigits some stop, Option.isSome_map]
        exact read

end Decimals

section Numerals

/-- The first character of a decimal. -/
def Starts (c : Char) : Prop := c.isDigit = true ∨ c = '.'

theorem IsMantissa.starts {mantissa : List Char} (isMantissa : IsMantissa mantissa) :
    ∃ c rest, mantissa = c :: rest ∧ Starts c := by
  have digits : ∀ {s : List Char}, IsDigits s → s ≠ [] → ∀ after,
      ∃ c rest, s ++ after = c :: rest ∧ Starts c := by
    intro s all some after
    obtain ⟨c, rest, rfl⟩ := List.exists_cons_of_ne_nil some
    exact ⟨c, rest ++ after, rfl, .inl (all c (.head _))⟩
  cases isMantissa with
  | whole all some =>
      have first := digits all some []
      rwa [List.append_nil] at first
  | @pointed whole fraction wholeDigits _ _ =>
      by_cases none : whole = []
      · subst none
        exact ⟨'.', fraction, rfl, .inr rfl⟩
      · exact digits wholeDigits none _

theorem Starts.not_isAlpha {c : Char} (starts : Starts c) : c.isAlpha = false := by
  rcases starts with digit | rfl
  · exact Text.isAlpha_of_isDigit digit
  · rfl

theorem Starts.unsigned {c : Char} {rest : List Char} (starts : Starts c) :
    Unsigned (c :: rest) := by
  intro first head
  obtain rfl : c = first := Option.some.inj head
  constructor
  · rintro rfl
    rcases starts with impossible | impossible <;> cases impossible
  · rintro rfl
    rcases starts with impossible | impossible <;> cases impossible

/-- A word has letters only. -/
theorem isAlpha_of_word {letters : List Char}
    (listed : letters.map Char.toLower ∈ ["inf".toList, "infinity".toList, "nan".toList]) :
    ∀ c ∈ letters, c.isAlpha = true := by
  have words : ["inf".toList, "infinity".toList, "nan".toList].all (·.all Char.isAlpha) = true := by
    decide
  intro c member
  by_contra other
  have lower := Text.toLower_of_not_isAlpha (Bool.eq_false_iff.mpr other)
  have word := List.all_eq_true.mp words _ listed
  have among := List.all_eq_true.mp word c.toLower (List.mem_map_of_mem member)
  rw [lower] at among
  exact other among

theorem ofUnsigned?_of_no_word (negative : Bool) {chars : List Char}
    (noWord : chars.map Char.toLower ∉ ["inf".toList, "infinity".toList, "nan".toList]) :
    Literal.ofUnsigned? negative chars = decimal? negative chars := by
  simp only [List.mem_cons, List.not_mem_nil, or_false, not_or] at noWord
  obtain ⟨inf, infinity, nan⟩ := noWord
  have finite := not_or.mpr ⟨inf, infinity⟩
  simp only [Literal.ofUnsigned?, if_neg finite, if_neg nan]
  rfl

theorem ofUnsigned?_of_starts (negative : Bool) {c : Char} {rest : List Char} (starts : Starts c) :
    Literal.ofUnsigned? negative (c :: rest) = decimal? negative (c :: rest) := by
  refine ofUnsigned?_of_no_word negative fun listed => ?_
  have letter := isAlpha_of_word listed c (.head _)
  rw [starts.not_isAlpha] at letter
  cases letter

theorem ofUnsigned?_isSome_iff (negative : Bool) {chars : List Char} :
    (Literal.ofUnsigned? negative chars).isSome = true ↔ IsMagnitude chars := by
  by_cases word : chars.map Char.toLower ∈ ["inf".toList, "infinity".toList, "nan".toList]
  · refine iff_of_true ?_ (.word word)
    simp only [Literal.ofUnsigned?]
    split
    · rfl
    · rename_i finite
      simp only [List.mem_cons, List.not_mem_nil, or_false, ← or_assoc] at word
      rw [if_pos (word.resolve_left finite)]
      rfl
  · rw [ofUnsigned?_of_no_word negative word, decimal?_isSome_iff]
    constructor
    · rintro ⟨mantissa, exponent, isMantissa, isExponent, rfl⟩
      exact .decimal isMantissa isExponent
    · intro isMagnitude
      cases isMagnitude with
      | word listed => exact absurd listed word
      | decimal isMantissa isExponent => exact ⟨_, _, isMantissa, isExponent, rfl⟩

theorem IsMagnitude.unsigned {magnitude : List Char} (isMagnitude : IsMagnitude magnitude) :
    Unsigned magnitude := by
  cases isMagnitude with
  | word listed =>
      intro c head
      have letter := isAlpha_of_word listed c (List.mem_of_head? head)
      constructor
      · rintro rfl
        cases letter
      · rintro rfl
        cases letter
  | decimal isMantissa _ =>
      obtain ⟨c, rest, rfl, starts⟩ := isMantissa.starts
      exact starts.unsigned

/-- A text is read exactly when it is a numeral. -/
theorem read?_isSome_iff {chars : List Char} : (read? chars).isSome = true ↔ IsNumeral chars := by
  have unfolded : (read? chars).isSome =
      (Literal.ofUnsigned? (splitSign chars).1 (splitSign chars).2).isSome := by
    simp only [read?, Literal.ofChars?, Option.isSome_map]
  rw [unfolded, ofUnsigned?_isSome_iff]
  constructor
  · intro isMagnitude
    obtain ⟨sign, isSign, parts⟩ := splitSign_spec chars
    rw [parts]
    exact .signed isSign isMagnitude
  · rintro ⟨isSign, isMagnitude⟩
    rw [isSign.splitSign isMagnitude.unsigned]
    exact isMagnitude

end Numerals

section Characters

/-- A character that numerals are made of. -/
def Printed (c : Char) : Prop := c.isAlpha = true ∨ c.isDigit = true ∨ c ∈ ['.', '+', '-']

theorem Printed.not_isBlank {c : Char} (printed : Printed c) : Text.isBlank c = false := by
  rcases printed with letter | digit | sign
  · exact Text.isBlank_of_isAlpha letter
  · exact Text.isBlank_of_isDigit digit
  · simp only [List.mem_cons, List.not_mem_nil, or_false] at sign
    rcases sign with rfl | rfl | rfl <;> rfl

variable {s : List Char}

theorem IsSign.printed (isSign : IsSign s) : ∀ c ∈ s, Printed c := by
  cases isSign with
  | none => exact fun _ member => nomatch member
  | plus => exact List.forall_mem_singleton.mpr (.inr (.inr (by decide)))
  | minus => exact List.forall_mem_singleton.mpr (.inr (.inr (by decide)))

theorem printed_of_isDigits (all : IsDigits s) : ∀ c ∈ s, Printed c :=
  fun c member => .inr (.inl (all c member))

theorem IsMantissa.printed (isMantissa : IsMantissa s) : ∀ c ∈ s, Printed c := by
  cases isMantissa with
  | whole all => exact printed_of_isDigits all
  | pointed wholeDigits fractionDigits =>
      exact List.forall_mem_append.mpr ⟨printed_of_isDigits wholeDigits,
        List.forall_mem_cons.mpr ⟨.inr (.inr (by decide)), printed_of_isDigits fractionDigits⟩⟩

theorem IsExponent.printed (isExponent : IsExponent s) : ∀ c ∈ s, Printed c := by
  cases isExponent with
  | none => exact fun _ member => nomatch member
  | @power letter _ _ isLetter signed all =>
      have alphabetic : letter.isAlpha = true := by
        rcases isLetter with rfl | rfl <;> rfl
      exact List.forall_mem_cons.mpr ⟨.inl alphabetic,
        List.forall_mem_append.mpr ⟨signed.printed, printed_of_isDigits all⟩⟩

theorem IsNumeral.printed (isNumeral : IsNumeral s) : ∀ c ∈ s, Printed c := by
  obtain ⟨isSign, isMagnitude⟩ := isNumeral
  refine List.forall_mem_append.mpr ⟨isSign.printed, ?_⟩
  cases isMagnitude with
  | word listed => exact fun c member => .inl (isAlpha_of_word listed c member)
  | decimal isMantissa isExponent =>
      exact List.forall_mem_append.mpr ⟨isMantissa.printed, isExponent.printed⟩

theorem IsNumeral.solid (isNumeral : IsNumeral s) : Text.Solid s :=
  fun c member => (isNumeral.printed c member).not_isBlank

theorem IsNumeral.not_mem_comma (isNumeral : IsNumeral s) : ',' ∉ s := by
  intro member
  rcases isNumeral.printed ',' member with letter | digit | sign
  · cases letter
  · cases digit
  · exact absurd sign (by decide)

theorem IsNumeral.ne_nil (isNumeral : IsNumeral s) : s ≠ [] := by
  rintro rfl
  have read := read?_isSome_iff.mpr isNumeral
  cases read

end Characters

end ViewClassifier.Decimal
