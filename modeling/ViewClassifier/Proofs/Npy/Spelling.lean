import ViewClassifier.Decimal.Layout
import ViewClassifier.Npy.Literal
import ViewClassifier.Proofs.Text.Digits

/-!
# Spellings of header literals

A dictionary of texts, counts, truth values and tuples of these has many spellings: any blanks may
stand between the parts, either quote may stand around a text, and a comma may follow the last item.
Every one of them is read back as the dictionary. The length of a text is fuel enough for it.
-/

set_option autoImplicit false

namespace ViewClassifier.Npy.Literal

open Decimal (countChars)

section Gaps

def Gap (s : List Char) : Prop := ∀ c ∈ s, isBlank c = true

instance (s : List Char) : Decidable (Gap s) :=
  decidable_of_iff (s.all isBlank = true) List.all_eq_true

/-- A character that comes after a part and belongs to what is around it. -/
def IsMark (c : Char) : Prop := c ∈ [',', ':', ')', '\x7d']

/-- What cannot go on with a number. -/
def Stops (s : List Char) : Prop :=
  ∀ c, s.head? = some c → c.isDigit = false ∧ c ≠ '.' ∧ c ≠ 'e'

/-- What is not a mark after its blanks. -/
def Opens (s : List Char) : Prop :=
  ∃ gap c more, Gap gap ∧ isBlank c = false ∧ ¬IsMark c ∧ s = gap ++ c :: more

variable {gap rest : List Char} {c mark : Char}

theorem isBlank_iff : isBlank c = true ↔ c ∈ [' ', '\t', '\n', '\r', '\x0c'] := by
  simp [isBlank, or_assoc]

theorem not_isBlank_of_isMark (isMark : IsMark c) : isBlank c = false := by
  simp only [IsMark, List.mem_cons, List.not_mem_nil, or_false] at isMark
  rcases isMark with rfl | rfl | rfl | rfl <;> rfl

theorem ne_of_all {kind : Char → Bool} {c : Char} {others : List Char} (holds : kind c = true)
    (none : others.all (fun other => !kind other) = true) : ∀ other ∈ others, c ≠ other := by
  rintro other member rfl
  simpa [holds] using List.all_eq_true.mp none c member

theorem solid_of_isAlphanum (alphanumeric : c.isAlphanum = true) :
    isBlank c = false ∧ ¬IsMark c := by
  have apart : ∀ other ∈ [' ', '\t', '\n', '\r', '\x0c', ',', ':', ')', '\x7d'], c ≠ other :=
    ne_of_all alphanumeric (by decide)
  simp only [List.forall_mem_cons] at apart
  constructor
  · simp [isBlank, apart]
  · simp [IsMark, apart]

theorem skipBlanks_gap (blank : Gap gap) (solid : isBlank c = false) :
    skipBlanks (gap ++ c :: rest) = c :: rest := by
  rw [skipBlanks, List.dropWhile_append_of_pos blank, List.dropWhile_cons_of_neg (by simp [solid])]

theorem skipBlanks_of_gap (blank : Gap gap) : skipBlanks gap = [] :=
  by
  rw [skipBlanks, ← List.append_nil gap, List.dropWhile_append_of_pos blank]
  rfl

theorem afterBracket?_gap (blank : Gap gap) (isMark : IsMark mark) :
    afterBracket? mark (gap ++ mark :: rest) = some rest := by
  rw [afterBracket?, skipBlanks_gap blank (not_isBlank_of_isMark isMark)]
  exact if_pos rfl

theorem afterBracket?_gap_of_ne (blank : Gap gap) (isMark : IsMark c) (other : c ≠ mark) :
    afterBracket? mark (gap ++ c :: rest) = none := by
  rw [afterBracket?, skipBlanks_gap blank (not_isBlank_of_isMark isMark)]
  exact if_neg other

theorem Opens.afterBracket? {s : List Char} (opens : Opens s) (isMark : IsMark mark) :
    Literal.afterBracket? mark (s ++ rest) = none := by
  obtain ⟨gap, c, more, blank, solid, noMark, rfl⟩ := opens
  rw [List.append_assoc, Literal.afterBracket?, List.cons_append, skipBlanks_gap blank solid]
  exact if_neg fun same : c = mark => noMark (same ▸ isMark)

theorem stops_gap (blank : Gap gap) (isMark : IsMark mark) : Stops (gap ++ mark :: rest) := by
  intro c first
  cases gap with
  | nil =>
      obtain rfl : mark = c := Option.some.inj first
      simp only [IsMark, List.mem_cons, List.not_mem_nil, or_false] at isMark
      rcases isMark with rfl | rfl | rfl | rfl <;> decide
  | cons b gap =>
      obtain rfl : b = c := Option.some.inj first
      have among := isBlank_iff.mp (blank b List.mem_cons_self)
      simp only [List.mem_cons, List.not_mem_nil, or_false] at among
      rcases among with rfl | rfl | rfl | rfl | rfl <;> decide

end Gaps

section Atoms

/-- A character that stands for itself in a text. -/
def IsPlain (c : Char) : Prop :=
  c.toNat < 128 ∧ c ≠ '\x27' ∧ c ≠ '\x22' ∧ c ≠ '\\' ∧ c ≠ '\n'

instance : DecidablePred IsPlain := fun _ => inferInstanceAs (Decidable (_ ∧ _))

def Plain (s : List Char) : Prop := ∀ c ∈ s, IsPlain c

instance (s : List Char) : Decidable (Plain s) :=
  decidable_of_iff (s.all (decide <| IsPlain ·) = true) (by simp [Plain])

def IsQuote (c : Char) : Prop := c = '\x27' ∨ c = '\x22'

def truthChars (flag : Bool) : List Char :=
  if flag then "True".toList else "False".toList

/-- The spellings of a literal without parts. -/
inductive Atom : Literal → List Char → Prop where
  | text {gap : List Char} {quote : Char} {value : String} (blank : Gap gap)
      (isQuote : IsQuote quote) (plain : Plain value.toList) :
      Atom (.text value) (gap ++ quote :: (value.toList ++ [quote]))
  | whole {gap : List Char} {count : ℕ} (blank : Gap gap) :
      Atom (.whole count) (gap ++ countChars count)
  | truth {gap : List Char} {flag : Bool} (blank : Gap gap) :
      Atom (.truth flag) (gap ++ truthChars flag)

variable {rest : List Char}

theorem readText?_plain {quote : Char} (isQuote : IsQuote quote) {value : List Char}
    (plain : Plain value) :
    readText? quote (value ++ quote :: rest) = some (value, rest) := by
  induction value with
  | nil =>
      rcases isQuote with rfl | rfl <;> rfl
  | cons c value ih =>
      obtain ⟨⟨-, noSingle, noDouble, noEscape, noNewline⟩, others⟩ := List.forall_mem_cons.mp plain
      have noQuote : c ≠ quote := by
        rcases isQuote with rfl | rfl <;> assumption
      rw [List.cons_append, readText?, if_neg noQuote, if_neg (by simp [noEscape, noNewline]),
        ih others]
      · rfl
      · intro _ _ escape
        exact absurd escape noEscape

/-- A count of more than one digit does not start with zero. -/
theorem countChars_cases (n : ℕ) :
    ∃ c more, countChars n = c :: more ∧ c.isDigit = true ∧ (c = '0' → more = []) := by
  induction n using Nat.strongRecOn with
  | ind n ih =>
      rw [countChars, Nat.toDigits_eq_if (by decide)]
      split
      · rename_i short
        exact ⟨n.digitChar, [], rfl, Text.isDigits_toDigits n _ (by
          rw [Nat.toDigits_of_lt_base short]
          exact List.mem_singleton_self _), fun _ => rfl⟩
      · rename_i long
        obtain ⟨c, more, spelled, digit, single⟩ := ih (n / 10) (by omega)
        refine ⟨c, more ++ [(n % 10).digitChar], by rw [← countChars, spelled]; rfl, digit, ?_⟩
        intro zero
        have value := Nat.ofDigitChars_ten_toDigits (n := n / 10)
        rw [← countChars, spelled, zero, single zero] at value
        have : n / 10 = 0 := value.symm
        omega

theorem readFraction_stops (stops : Stops rest) : readFraction rest = ([], rest) := by
  cases rest with
  | nil => rfl
  | cons c more =>
      obtain ⟨-, noPoint, noPower⟩ := stops c rfl
      simp [readFraction, noPoint, noPower]

theorem readNumber?_countChars (n : ℕ) (stops : Stops rest) :
    readNumber? false (countChars n ++ rest) = some (.whole n, rest) := by
  have value : digitsValue (countChars n) = n := Nat.ofDigitChars_ten_toDigits
  have span := Text.span_digits (Text.isDigits_toDigits n) fun c first => (stops c first).1
  have digits : readDigits? (countChars n ++ rest) = some (countChars n, rest) := by
    obtain ⟨c, more, spelled, -, single⟩ := countChars_cases n
    rw [readDigits?, countChars, span, ← countChars, spelled]
    split
    · rename_i same
      exact absurd (Prod.mk.inj same).1 (List.cons_ne_nil _ _)
    · rename_i same
      obtain ⟨rfl, rfl⟩ := List.cons.inj (Prod.mk.inj same).1
      exact absurd (single rfl) (List.cons_ne_nil _ _)
    · rfl
  rw [readNumber?, digits, Option.bind_eq_bind, Option.bind_some]
  simp only [readFraction_stops stops, value]
  rfl

/-- A literal that is read back from a text whatever comes after it. -/
def Reads (literal : Literal) (s : List Char) : Prop :=
  ∀ {fuel : ℕ} {rest : List Char}, s.length ≤ fuel → Stops rest →
    readValue? fuel (s ++ rest) = some (literal, rest)

theorem reads_text {gap : List Char} {quote : Char} {value : String} (blank : Gap gap)
    (isQuote : IsQuote quote) (plain : Plain value.toList) :
    Reads (.text value) (gap ++ quote :: (value.toList ++ [quote])) := by
  intro fuel rest enough _
  obtain ⟨fuel, rfl⟩ : ∃ less, fuel = less + 1 := ⟨fuel - 1, by simp at enough; omega⟩
  have found : readText? quote (value.toList ++ quote :: rest) = some (value.toList, rest) :=
    readText?_plain isQuote plain
  have shape : gap ++ quote :: (value.toList ++ [quote]) ++ rest =
      gap ++ quote :: (value.toList ++ quote :: rest) := by simp
  rw [shape, readValue?, skipBlanks_gap blank (by rcases isQuote with rfl | rfl <;> rfl)]
  rcases isQuote with rfl | rfl <;>
    simp only [found, Option.bind_eq_bind, Option.bind_some, String.ofList_toList, Option.pure_def]

/-- A value that starts with a letter or a digit has no parts. -/
theorem readValue?_plain {gap more : List Char} {c : Char} {fuel : ℕ} (blank : Gap gap)
    (alphanumeric : c.isAlphanum = true) :
    readValue? (fuel + 1) (gap ++ c :: more) = readPlain? (c :: more) := by
  have apart : ∀ opening ∈ ['\x27', '\x22', '(', '[', '\x7b'], c ≠ opening :=
    ne_of_all alphanumeric (by decide)
  simp only [List.forall_mem_cons] at apart
  rw [readValue?, skipBlanks_gap blank (solid_of_isAlphanum alphanumeric).1]
  simp [apart]

theorem readPlain?_digit {c : Char} {more : List Char} (digit : c.isDigit = true) :
    readPlain? (c :: more) = readNumber? false (c :: more) := by
  have apart : ∀ other ∈ ['-', '+', 'T', 'F', 'N'], c ≠ other := ne_of_all digit (by decide)
  simp only [List.forall_mem_cons] at apart
  simp [readPlain?, afterWord?, apart, apart.2.2.1.symm, apart.2.2.2.1.symm, apart.2.2.2.2.1.symm]

theorem reads_whole {gap : List Char} (blank : Gap gap) (count : ℕ) :
    Reads (.whole count) (gap ++ countChars count) := by
  intro fuel rest enough stops
  obtain ⟨c, more, spelled, digit, -⟩ := countChars_cases count
  obtain ⟨fuel, rfl⟩ : ∃ less, fuel = less + 1 := ⟨fuel - 1, by simp [spelled] at enough; omega⟩
  have number := readNumber?_countChars count stops
  rw [spelled] at number ⊢
  rw [List.append_assoc, List.cons_append, readValue?_plain blank (by simp [Char.isAlphanum, digit]),
    readPlain?_digit digit]
  exact number

theorem reads_truth {gap : List Char} (blank : Gap gap) (flag : Bool) :
    Reads (.truth flag) (gap ++ truthChars flag) := by
  intro fuel rest enough _
  obtain ⟨fuel, rfl⟩ : ∃ less, fuel = less + 1 :=
    ⟨fuel - 1, by cases flag <;> simp [truthChars] at enough <;> omega⟩
  rw [List.append_assoc]
  cases flag with
  | false => exact readValue?_plain blank rfl
  | true => exact readValue?_plain blank rfl

theorem Atom.reads {literal : Literal} {s : List Char} (atom : Atom literal s) :
    Reads literal s := by
  cases atom with
  | text blank isQuote plain => exact reads_text blank isQuote plain
  | whole blank => exact reads_whole blank _
  | truth blank => exact reads_truth blank _

theorem Atom.opens {literal : Literal} {s : List Char} (atom : Atom literal s) : Opens s := by
  cases atom with
  | text blank isQuote plain =>
      refine ⟨_, _, _, blank, ?_, ?_, rfl⟩ <;> rcases isQuote with rfl | rfl <;> simp [IsMark, isBlank]
  | @whole _ count blank =>
      obtain ⟨c, more, spelled, digit, -⟩ := countChars_cases count
      have solid := solid_of_isAlphanum (by simp [Char.isAlphanum, digit] : c.isAlphanum = true)
      exact ⟨_, c, more, blank, solid.1, solid.2, by rw [spelled]⟩
  | @truth _ flag blank =>
      cases flag with
      | false => exact ⟨_, 'F', _, blank, rfl, by simp [IsMark], rfl⟩
      | true => exact ⟨_, 'T', _, blank, rfl, by simp [IsMark], rfl⟩

end Atoms

section Lists

/-- The spellings of items with a comma after each. The flag says whether the last comma is there. -/
inductive Listed {Item : Type} (Spelled : Item → List Char → Prop) :
    List Item → Bool → List Char → Prop where
  | none {gap : List Char} (blank : Gap gap) : Listed Spelled [] true gap
  | last {item : Item} {s gap : List Char} (spelled : Spelled item s) (blank : Gap gap) :
      Listed Spelled [item] false (s ++ gap)
  | more {item : Item} {items : List Item} {closed : Bool} {s gap rest : List Char}
      (spelled : Spelled item s) (blank : Gap gap) (others : Listed Spelled items closed rest) :
      Listed Spelled (item :: items) closed (s ++ (gap ++ ',' :: rest))

/-- The spellings of a literal that has no parts or is a tuple of such literals. A tuple of one item
needs the comma. -/
inductive Value : Literal → List Char → Prop where
  | atom {literal : Literal} {s : List Char} (atom : Atom literal s) : Value literal s
  | tuple {gap s : List Char} {items : List Literal} {closed : Bool} (blank : Gap gap)
      (listed : Listed Atom items closed s) (comma : items.length = 1 → closed = true) :
      Value (.tuple items) (gap ++ '(' :: (s ++ [')']))

inductive Member : Literal × Literal → List Char → Prop where
  | intro {key value : Literal} {s gap t : List Char} (keyed : Atom key s) (blank : Gap gap)
      (valued : Value value t) : Member (key, value) (s ++ (gap ++ ':' :: t))

inductive Dictionary : List (Literal × Literal) → List Char → Prop where
  | intro {members : List (Literal × Literal)} {before s after : List Char} {closed : Bool}
      (blankBefore : Gap before) (listed : Listed Member members closed s)
      (blankAfter : Gap after) :
      Dictionary members (before ++ '\x7b' :: (s ++ '\x7d' :: after))

variable {rest s : List Char} {fuel : ℕ}

theorem readItems?_listed {items : List Literal} {closed : Bool} (listed : Listed Atom items closed s)
    (enough : s.length < fuel) :
    readItems? fuel ')' (s ++ ')' :: rest) = some (items, closed, rest) := by
  have isMark : IsMark ')' := by simp [IsMark]
  induction listed generalizing fuel with
  | none blank =>
      obtain ⟨fuel, rfl⟩ : ∃ less, fuel = less + 1 := ⟨fuel - 1, by omega⟩
      rw [readItems?, afterBracket?_gap blank isMark]
  | @last item s gap atom blank =>
      obtain ⟨fuel, rfl⟩ : ∃ less, fuel = less + 1 := ⟨fuel - 1, by omega⟩
      have read : readValue? fuel (s ++ (gap ++ ')' :: rest)) = some (item, gap ++ ')' :: rest) :=
        atom.reads (by simp at enough; omega) (stops_gap blank isMark)
      rw [List.append_assoc, readItems?, atom.opens.afterBracket? isMark, read]
      simp only [Option.bind_eq_bind, Option.bind_some, afterBracket?_gap blank isMark,
        Option.pure_def]
  | @more item items closed s gap others atom blank listed ih =>
      have comma : IsMark ',' := by simp [IsMark]
      obtain ⟨fuel, rfl⟩ : ∃ less, fuel = less + 1 := ⟨fuel - 1, by omega⟩
      have read : readValue? fuel (s ++ (gap ++ ',' :: (others ++ ')' :: rest))) =
          some (item, gap ++ ',' :: (others ++ ')' :: rest)) :=
        atom.reads (by simp at enough; omega) (stops_gap blank comma)
      have tail : readItems? fuel ')' (others ++ ')' :: rest) = some (items, closed, rest) :=
        ih (by simp at enough; omega)
      rw [List.append_assoc, List.append_assoc, List.cons_append, readItems?,
        atom.opens.afterBracket? isMark, read]
      simp only [Option.bind_eq_bind, Option.bind_some, afterBracket?_gap blank comma,
        afterBracket?_gap_of_ne blank comma (by decide : ',' ≠ ')'), tail, Option.pure_def]

theorem Value.reads {literal : Literal} (value : Value literal s) : Reads literal s := by
  cases value with
  | atom atom => exact atom.reads
  | @tuple gap s items closed blank listed comma =>
      intro fuel rest enough _
      obtain ⟨fuel, rfl⟩ : ∃ less, fuel = less + 1 := ⟨fuel - 1, by simp at enough; omega⟩
      have shape : gap ++ '(' :: (s ++ [')']) ++ rest = gap ++ '(' :: (s ++ ')' :: rest) := by simp
      have single : ¬(items.length = 1 ∧ (!closed) = true) := by
        rintro ⟨one, noComma⟩
        simp [comma one] at noComma
      rw [shape, readValue?, skipBlanks_gap blank rfl]
      simp only [readItems?_listed listed (by simp at enough; omega : s.length < fuel),
        Option.bind_eq_bind, Option.bind_some, if_neg single, Option.pure_def]

/-- A member gives its key up to the colon, and its value up to the mark that follows. -/
theorem Member.reads {key value : Literal} {gap : List Char} {mark : Char}
    (spelled : Member (key, value) s) (enough : s.length ≤ fuel) (blank : Gap gap)
    (isMark : IsMark mark) :
    afterBracket? '\x7d' (s ++ (gap ++ mark :: rest)) = none ∧
      ∃ afterKey afterColon, readValue? fuel (s ++ (gap ++ mark :: rest)) = some (key, afterKey) ∧
        afterBracket? ':' afterKey = some afterColon ∧
        readValue? fuel afterColon = some (value, gap ++ mark :: rest) := by
  cases spelled with
  | @intro _ _ s inner t keyed blankInner valued =>
      have colon : IsMark ':' := by simp [IsMark]
      rw [List.append_assoc, List.append_assoc, List.cons_append]
      exact ⟨keyed.opens.afterBracket? (by simp [IsMark]), _, _,
        keyed.reads (by simp at enough; omega) (stops_gap blankInner colon),
        afterBracket?_gap blankInner colon,
        valued.reads (by simp at enough; omega) (stops_gap blank isMark)⟩

theorem readMembers?_listed {members : List (Literal × Literal)} {closed : Bool}
    (listed : Listed Member members closed s) (enough : s.length < fuel) :
    readMembers? fuel (s ++ '\x7d' :: rest) = some (members, rest) := by
  have isMark : IsMark '\x7d' := by simp [IsMark]
  induction listed generalizing fuel with
  | none blank =>
      obtain ⟨fuel, rfl⟩ : ∃ less, fuel = less + 1 := ⟨fuel - 1, by omega⟩
      rw [readMembers?, afterBracket?_gap blank isMark]
  | @last member s gap spelled blank =>
      obtain ⟨fuel, rfl⟩ : ∃ less, fuel = less + 1 := ⟨fuel - 1, by omega⟩
      obtain ⟨opened, afterKey, afterColon, key, colon, value⟩ :=
        spelled.reads (by simp at enough; omega : s.length ≤ fuel) blank isMark
      rw [List.append_assoc, readMembers?, opened, key]
      simp only [Option.bind_eq_bind, Option.bind_some, colon, value,
        afterBracket?_gap blank isMark, Option.pure_def]
  | @more member members closed s gap others spelled blank listed ih =>
      have comma : IsMark ',' := by simp [IsMark]
      obtain ⟨fuel, rfl⟩ : ∃ less, fuel = less + 1 := ⟨fuel - 1, by omega⟩
      obtain ⟨opened, afterKey, afterColon, key, colon, value⟩ :=
        spelled.reads (by simp at enough; omega : s.length ≤ fuel) blank comma
      have tail : readMembers? fuel (others ++ '\x7d' :: rest) = some (members, rest) :=
        ih (by simp at enough; omega)
      rw [List.append_assoc, List.append_assoc, List.cons_append, readMembers?, opened, key]
      simp only [Option.bind_eq_bind, Option.bind_some, colon, value,
        afterBracket?_gap_of_ne blank comma (by decide : ',' ≠ '\x7d'),
        afterBracket?_gap blank comma, tail, Option.pure_def]

/-- Every spelling of a dictionary is read back as the dictionary. -/
theorem Dictionary.ofChars?_eq {members : List (Literal × Literal)}
    (spelled : Dictionary members s) : ofChars? s = some (.dictionary members) := by
  cases spelled with
  | @intro before s after closed blankBefore listed blankAfter =>
      have read : readMembers? (2 * (before ++ '\x7b' :: (s ++ '\x7d' :: after)).length + 1)
          (s ++ '\x7d' :: after) = some (members, after) :=
        readMembers?_listed listed (by simp; omega)
      rw [ofChars?, readValue?, skipBlanks_gap blankBefore rfl]
      simp only [read, Option.bind_eq_bind, Option.bind_some, skipBlanks_of_gap blankAfter, if_true,
        Option.pure_def]

end Lists

section Ascii

def IsAscii (s : List Char) : Prop := ∀ c ∈ s, c.toNat < 128

variable {s t : List Char} {c : Char}

theorem isAscii_append : IsAscii (s ++ t) ↔ IsAscii s ∧ IsAscii t :=
  List.forall_mem_append

theorem isAscii_cons : IsAscii (c :: s) ↔ c.toNat < 128 ∧ IsAscii s :=
  List.forall_mem_cons

theorem Gap.isAscii (blank : Gap s) : IsAscii s := by
  intro c member
  have among := isBlank_iff.mp (blank c member)
  simp only [List.mem_cons, List.not_mem_nil, or_false] at among
  rcases among with rfl | rfl | rfl | rfl | rfl <;> decide

theorem isAscii_countChars (n : ℕ) : IsAscii (countChars n) := by
  intro c member
  have digit := Text.isDigit_iff.mp (Text.isDigits_toDigits n c member)
  omega

theorem Atom.isAscii {literal : Literal} (atom : Atom literal s) : IsAscii s := by
  cases atom with
  | @text gap quote value blank isQuote plain =>
      have quoted : quote.toNat < 128 := by rcases isQuote with rfl | rfl <;> decide
      rw [isAscii_append, isAscii_cons, isAscii_append]
      exact ⟨blank.isAscii, quoted, fun c member => (plain c member).1,
        List.forall_mem_singleton.mpr quoted⟩
  | whole blank => exact isAscii_append.mpr ⟨blank.isAscii, isAscii_countChars _⟩
  | @truth _ flag blank =>
      refine isAscii_append.mpr ⟨blank.isAscii, ?_⟩
      cases flag <;> simp [IsAscii, truthChars]

theorem Listed.isAscii {Item : Type} {Spelled : Item → List Char → Prop} {items : List Item}
    {closed : Bool} (ascii : ∀ {item s}, Spelled item s → IsAscii s)
    (listed : Listed Spelled items closed s) : IsAscii s := by
  induction listed with
  | none blank => exact blank.isAscii
  | last spelled blank => exact isAscii_append.mpr ⟨ascii spelled, blank.isAscii⟩
  | more spelled blank _ ih =>
      rw [isAscii_append, isAscii_append, isAscii_cons]
      exact ⟨ascii spelled, blank.isAscii, by decide, ih⟩

theorem Value.isAscii {literal : Literal} (value : Value literal s) : IsAscii s := by
  cases value with
  | atom atom => exact atom.isAscii
  | tuple blank listed =>
      rw [isAscii_append, isAscii_cons, isAscii_append]
      exact ⟨blank.isAscii, by decide, listed.isAscii Atom.isAscii, by simp [IsAscii]⟩

theorem Member.isAscii {member : Literal × Literal} (spelled : Member member s) : IsAscii s := by
  obtain ⟨keyed, blank, valued⟩ := spelled
  rw [isAscii_append, isAscii_append, isAscii_cons]
  exact ⟨keyed.isAscii, blank.isAscii, by decide, valued.isAscii⟩

theorem Dictionary.isAscii {members : List (Literal × Literal)} (spelled : Dictionary members s) :
    IsAscii s := by
  obtain ⟨blankBefore, listed, blankAfter⟩ := spelled
  rw [isAscii_append, isAscii_cons, isAscii_append, isAscii_cons]
  exact ⟨blankBefore.isAscii, by decide, listed.isAscii Member.isAscii, by decide,
    blankAfter.isAscii⟩

end Ascii

end ViewClassifier.Npy.Literal
