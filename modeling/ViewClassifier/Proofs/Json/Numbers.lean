import Mathlib.Data.List.TakeDrop
import ViewClassifier.Proofs.Json.Framing

/-!
# What a number has read

The digits of a number end at the first byte that is none. So before bytes that no number goes on
with, a number is what it was.
-/

set_option autoImplicit false

namespace ViewClassifier.Json

open Files (Bytes)

section Digits

def NoDigit (s : Bytes) : Prop := ∀ b, s.head? = some b → isDigit b = false

theorem Clear.noDigit {s : Bytes} (clear : Clear s) : NoDigit s :=
  fun b first => (clear b first).1

theorem NoDigit.append {text rest other : Bytes} (noDigit : NoDigit (text ++ rest))
    (clear : Clear other) : NoDigit (text ++ other) := by
  cases text with
  | nil => exact clear.noDigit
  | cons b more =>
      intro c first
      exact noDigit c first

theorem noDigit_dropWhile (s : Bytes) : NoDigit (s.dropWhile isDigit) := by
  intro b first
  have := List.head?_dropWhile_not isDigit s
  rw [first] at this
  simpa using this

theorem dropWhile_digits {digits other : Bytes} (all : ∀ b ∈ digits, isDigit b = true)
    (noDigit : NoDigit other) : (digits ++ other).dropWhile isDigit = other := by
  rw [List.dropWhile_append_of_pos all]
  cases other with
  | nil => rfl
  | cons b more => simp [noDigit b rfl]

theorem span_digits {digits other : Bytes} (all : ∀ b ∈ digits, isDigit b = true)
    (noDigit : NoDigit other) : (digits ++ other).span isDigit = (digits, other) := by
  rw [List.span_eq_takeWhile_dropWhile, dropWhile_digits all noDigit,
    List.takeWhile_append_of_pos all]
  cases other with
  | nil => simp
  | cons b more => simp [noDigit b rfl]

theorem exists_digits (s : Bytes) :
    ∃ digits rest, (∀ b ∈ digits, isDigit b = true) ∧ NoDigit rest ∧ s = digits ++ rest :=
  ⟨s.takeWhile isDigit, s.dropWhile isDigit,
    fun _ member => List.all_eq_true.mp List.all_takeWhile _ member, noDigit_dropWhile s,
    List.takeWhile_append_dropWhile.symm⟩

theorem Uses.digits {γ : Type} {step next : Bytes → Except Stop γ} {digits s rest : Bytes}
    {result : Bytes → γ} (noDigit : NoDigit s)
    (moves : ∀ other, NoDigit other → step (digits ++ other) = next other)
    (uses : Uses next s rest result) : Uses step (digits ++ s) rest result := by
  obtain ⟨text, rfl, reads⟩ := uses
  refine ⟨digits ++ text, (List.append_assoc ..).symm, fun other clear => ?_⟩
  rw [List.append_assoc, moves _ (noDigit.append clear), reads other clear]

theorem passes_digits (s : Bytes) :
    Uses (fun s => .ok (s.dropWhile isDigit)) s (s.dropWhile isDigit) id := by
  obtain ⟨digits, rest, all, noDigit, rfl⟩ := exists_digits s
  rw [dropWhile_digits all noDigit]
  exact ⟨digits, rfl, fun other clear => congrArg _ (dropWhile_digits all clear.noDigit)⟩

end Digits

theorem realNumber_eq_ok {negative : Bool} {significand : Nat} {exponent : Int} {n : Number}
    {s rest : Bytes} (read : realNumber negative significand exponent s = .ok (n, rest)) :
    s = rest ∧ ∀ other, realNumber negative significand exponent other = .ok (n, other) := by
  unfold realNumber at read
  cases scaled : scaleByTen? 8 significand.toUInt64.toFloat exponent with
  | none => simp [scaled, stopAt] at read
  | some x =>
      simp only [scaled, Except.ok.injEq, Prod.mk.injEq] at read
      obtain ⟨rfl, rfl⟩ := read
      exact ⟨rfl, fun other => by simp only [realNumber, scaled]⟩

section Exponents

theorem exponentDigits_of_noDigit (value : Nat) {s : Bytes} (noDigit : NoDigit s) :
    exponentDigits value s = (some value, s) := by
  cases s with
  | nil => rfl
  | cons b more => simp [exponentDigits, noDigit b rfl]

theorem exponentDigits_some {value power : Nat} {s rest : Bytes}
    (read : exponentDigits value s = (some power, rest)) :
    ∃ text, s = text ++ rest ∧
      ∀ other, NoDigit other → exponentDigits value (text ++ other) = (some power, other) := by
  induction s generalizing value with
  | nil =>
      obtain ⟨same, rfl⟩ := Prod.mk.inj read
      obtain rfl := Option.some.inj same
      exact ⟨[], rfl, fun other noDigit => exponentDigits_of_noDigit value noDigit⟩
  | cons b tail ih =>
      unfold exponentDigits at read
      by_cases digit : isDigit b = true
      · by_cases large : exponentLimit ≤ 10 * value + (b.toNat - 48)
        · simp [digit, large] at read
        · simp only [digit, large, ↓reduceIte] at read
          obtain ⟨text, rfl, reads⟩ := ih read
          refine ⟨b :: text, rfl, fun other noDigit => ?_⟩
          simp only [List.cons_append, exponentDigits, digit, large, ↓reduceIte]
          exact reads other noDigit
      · rw [if_neg digit] at read
        obtain ⟨same, rfl⟩ := Prod.mk.inj read
        obtain rfl := Option.some.inj same
        exact ⟨[], rfl, fun other noDigit => exponentDigits_of_noDigit value noDigit⟩

theorem exponentDigits_none {value : Nat} {s rest : Bytes}
    (read : exponentDigits value s = (none, rest)) :
    ∃ text, s = text ++ rest ∧ ∀ other, exponentDigits value (text ++ other) = (none, other) := by
  induction s generalizing value with
  | nil => cases read
  | cons b tail ih =>
      unfold exponentDigits at read
      by_cases digit : isDigit b = true
      · by_cases large : exponentLimit ≤ 10 * value + (b.toNat - 48)
        · simp only [digit, large, ↓reduceIte, Prod.mk.injEq, true_and] at read
          subst read
          exact ⟨[b], rfl, fun other => by simp [exponentDigits, digit, large]⟩
        · simp only [digit, large, ↓reduceIte] at read
          obtain ⟨text, rfl, reads⟩ := ih read
          refine ⟨b :: text, rfl, fun other => ?_⟩
          simp only [List.cons_append, exponentDigits, digit, large, ↓reduceIte]
          exact reads other
      · simp [digit] at read

/-- An exponent after its sign. -/
def scanPower (negative : Bool) (significand : Nat) (start : Int) (down : Bool) (s : Bytes) :
    Scan Number :=
  match s with
  | [] => stopAfter .endInValue []
  | b :: rest =>
      if isDigit b then
        match exponentDigits (b.toNat - 48) rest with
        | (some value, rest) =>
            realNumber negative significand (if down then start - value else start + value) rest
        | (none, rest) =>
            if significand ≠ 0 ∧ !down then stopAfter .numberOutOfRange rest
            else
              let zero : Float := 0
              .ok (.real (if negative then -zero else zero), rest.dropWhile isDigit)
      else stopAfter .invalidNumber rest

theorem framed_scanPower (negative : Bool) (significand : Nat) (start : Int) (down : Bool) :
    Framed (scanPower negative significand start down) := by
  intro s n rest read
  cases s with
  | nil => cases read
  | cons b tail =>
      by_cases digit : isDigit b = true
      · cases digits : exponentDigits (b.toNat - 48) tail with
        | mk power left =>
            cases power with
            | some value =>
                simp only [scanPower, digit, digits, ↓reduceIte] at read
                obtain ⟨rfl, scaled⟩ := realNumber_eq_ok read
                obtain ⟨text, rfl, reads⟩ := exponentDigits_some digits
                refine ⟨b :: text, rfl, fun other clear => ?_⟩
                simp only [List.cons_append, scanPower, digit, reads other clear.noDigit,
                  ↓reduceIte]
                exact scaled other
            | none =>
                obtain ⟨text, rfl, reads⟩ := exponentDigits_none digits
                by_cases large : significand ≠ 0 ∧ !down
                · simp [scanPower, digit, digits, large, stopAfter] at read
                · simp only [scanPower, digit, digits, large, ↓reduceIte, Except.ok.injEq,
                    Prod.mk.injEq] at read
                  obtain ⟨rfl, rfl⟩ := read
                  obtain ⟨more, same, drops⟩ := passes_digits left
                  refine ⟨b :: (text ++ more), ?_, fun other clear => ?_⟩
                  · rw [List.cons_append, List.append_assoc, ← same]
                  · simp only [List.cons_append, List.append_assoc, scanPower, digit, reads,
                      large, ↓reduceIte, Except.ok.inj (drops other clear), id]
      · simp [scanPower, digit, stopAfter] at read

theorem scanExponent_signed (negative : Bool) (significand : Nat) (start : Int) (s : Bytes) :
    scanExponent negative significand start (byte '+' :: s) =
        scanPower negative significand start false s ∧
      scanExponent negative significand start (byte '-' :: s) =
        scanPower negative significand start true s :=
  ⟨rfl, rfl⟩

theorem scanExponent_unsigned (negative : Bool) (significand : Nat) (start : Int) {b : UInt8}
    (plus : b ≠ byte '+') (minus : b ≠ byte '-') (s : Bytes) :
    scanExponent negative significand start (b :: s) =
      scanPower negative significand start false (b :: s) := by
  unfold scanExponent
  dsimp only
  rewrite [if_neg plus, if_neg minus]
  rfl

theorem framed_scanExponent (negative : Bool) (significand : Nat) (start : Int) :
    Framed (scanExponent negative significand start) := by
  intro s n rest read
  cases s with
  | nil => cases read
  | cons b tail =>
      by_cases plus : b = byte '+'
      · subst plus
        exact .cons (fun s => (scanExponent_signed _ _ _ s).1) (framed_scanPower _ _ _ _ read)
      by_cases minus : b = byte '-'
      · subst minus
        exact .cons (fun s => (scanExponent_signed _ _ _ s).2) (framed_scanPower _ _ _ _ read)
      have unsigned := scanExponent_unsigned negative significand start plus minus
      rw [unsigned] at read
      exact .as unsigned (framed_scanPower _ _ _ _ read) fun _ impossible => nomatch impossible

end Exponents

theorem isDigit_of_letter {b : UInt8} (letter : isExponentLetter b = true) : isDigit b = false := by
  simp only [isExponentLetter, Bool.or_eq_true, beq_iff_eq] at letter
  rcases letter with rfl | rfl
  · decide
  · decide

/-- No digits, and no exponent. -/
def NoPower (s : Bytes) : Prop :=
  ∀ b, s.head? = some b → isDigit b = false ∧ isExponentLetter b = false

theorem Clear.noPower {s : Bytes} (clear : Clear s) : NoPower s :=
  fun b first => ⟨(clear b first).1, (clear b first).2.2⟩

theorem NoPower.noDigit {s : Bytes} (noPower : NoPower s) : NoDigit s :=
  fun b first => (noPower b first).1

/-- After digits there are an exponent, or nothing that the digits go on with. -/
theorem power_cases {s : Bytes} (noDigit : NoDigit s) :
    (∃ b more, isExponentLetter b = true ∧ s = b :: more) ∨ NoPower s := by
  cases s with
  | nil => exact .inr fun _ impossible => nomatch impossible
  | cons b more =>
      cases letter : isExponentLetter b with
      | true => exact .inl ⟨b, more, letter, rfl⟩
      | false => exact .inr fun c first => Option.some.inj first ▸ ⟨noDigit b rfl, letter⟩

section Fractions

variable (negative : Bool) (significand : Nat) (exponent : Int) {digits : Bytes}
  (all : ∀ b ∈ digits, isDigit b = true) (some : digits ≠ [])

include all some

theorem scanFraction_power {b : UInt8} (letter : isExponentLetter b = true) (more : Bytes) :
    scanFraction negative significand exponent (digits ++ b :: more) =
      scanExponent negative (appendDigits significand 0 (digitValues digits)).1
        (exponent - (appendDigits significand 0 (digitValues digits)).2) more := by
  have noDigit : NoDigit (b :: more) := fun c first =>
    Option.some.inj first ▸ isDigit_of_letter letter
  simp only [scanFraction, span_digits all noDigit, some, letter, ↓reduceIte]

theorem scanFraction_noPower {s : Bytes} (noPower : NoPower s) :
    scanFraction negative significand exponent (digits ++ s) =
      realNumber negative (appendDigits significand 0 (digitValues digits)).1
        (exponent - (appendDigits significand 0 (digitValues digits)).2) s := by
  cases s with
  | nil => simp only [scanFraction, span_digits all noPower.noDigit, some, ↓reduceIte]
  | cons b more =>
      simp only [scanFraction, span_digits all noPower.noDigit, some, (noPower b rfl).2,
        ↓reduceIte, Bool.false_eq_true]

end Fractions

theorem framed_scanFraction (negative : Bool) (significand : Nat) (exponent : Int) :
    Framed (scanFraction negative significand exponent) := by
  intro s n rest read
  obtain ⟨digits, after, all, noDigit, rfl⟩ := exists_digits s
  by_cases none : digits = []
  · subst none
    simp only [scanFraction, span_digits all noDigit, ↓reduceIte] at read
    cases after <;> cases read
  rcases power_cases noDigit with ⟨b, more, letter, rfl⟩ | noPower
  · rw [scanFraction_power _ _ _ all none letter] at read
    obtain ⟨text, rfl, reads⟩ := framed_scanExponent _ _ _ read
    refine ⟨digits ++ b :: text, by simp, fun other clear => ?_⟩
    rw [List.append_assoc, List.cons_append, scanFraction_power _ _ _ all none letter]
    exact reads other clear
  · rw [scanFraction_noPower _ _ _ all none noPower] at read
    obtain ⟨rfl, scaled⟩ := realNumber_eq_ok read
    refine ⟨digits, rfl, fun other clear => ?_⟩
    rw [scanFraction_noPower _ _ _ all none clear.noPower]
    exact scaled other

theorem scanTail_of_clear (negative : Bool) (digits : Bytes) {s : Bytes} (clear : Clear s) :
    scanTail negative digits s =
      scanTail.whole negative s (appendDigits 0 0 (digitValues digits)).1
        (digits.length - (appendDigits 0 0 (digitValues digits)).2) := by
  cases s with
  | nil => rfl
  | cons b more =>
      obtain ⟨_, point, letter⟩ := clear b rfl
      simp [scanTail, point, letter]

theorem whole_eq_ok {negative : Bool} {significand dropped : Nat} {n : Number} {s rest : Bytes}
    (read : scanTail.whole negative s significand dropped = .ok (n, rest)) :
    s = rest ∧ ∀ other, scanTail.whole negative other significand dropped = .ok (n, other) := by
  unfold scanTail.whole at read ⊢
  by_cases all : dropped = 0
  · simp only [all, ↓reduceIte] at read ⊢
    obtain ⟨rfl, rfl⟩ := Prod.mk.inj (Except.ok.inj read)
    exact ⟨rfl, fun other => rfl⟩
  · simp only [all, ↓reduceIte] at read ⊢
    exact realNumber_eq_ok read

/-- What follows the first digits of a number, where there may be nothing. -/
theorem framed_scanTail (negative : Bool) (digits : Bytes) : Framed (scanTail negative digits) := by
  intro s n rest read
  cases s with
  | nil =>
      obtain ⟨rfl, finishes⟩ := whole_eq_ok read
      refine .nothing fun other clear => ?_
      rw [scanTail_of_clear negative digits clear]
      exact finishes other
  | cons b more =>
      by_cases point : b = byte '.'
      · subst point
        exact .cons (fun _ => rfl) (framed_scanFraction _ _ _ read)
      cases letter : isExponentLetter b with
      | true =>
          have moves : ∀ tail, scanTail negative digits (b :: tail) =
              scanExponent negative (appendDigits 0 0 (digitValues digits)).1
                (digits.length - (appendDigits 0 0 (digitValues digits)).2 : Nat) tail :=
            fun tail => by simp [scanTail, point, letter]
          rw [moves] at read
          exact .cons moves (framed_scanExponent _ _ _ read)
      | false =>
          simp only [scanTail, point, letter, ↓reduceIte, Bool.false_eq_true] at read
          obtain ⟨rfl, finishes⟩ := whole_eq_ok read
          refine .nothing fun other clear => ?_
          rw [scanTail_of_clear negative digits clear]
          exact finishes other

theorem noDigit_of_fails {γ : Type} (step : Bytes → Except Stop γ) {s : Bytes} {value : γ}
    (read : step s = .ok value)
    (fails : ∀ d more, isDigit d = true → step (d :: more) ≠ .ok value) : NoDigit s := by
  intro d first
  cases s with
  | nil => cases first
  | cons c more =>
      obtain rfl := Option.some.inj first
      cases digit : isDigit c with
      | false => rfl
      | true => exact absurd read (fails c more digit)

theorem framed_scanNumber (negative : Bool) : Framed (scanNumber negative) := by
  intro s n rest read
  cases s with
  | nil => cases read
  | cons b tail =>
      by_cases zero : b = byte '0'
      · subst zero
        have moves : ∀ other, NoDigit other →
            scanNumber negative ([byte '0'] ++ other) = scanTail negative [byte '0'] other := by
          intro other noDigit
          cases other with
          | nil => rfl
          | cons d more => simp [scanNumber, noDigit d rfl]
        have noDigit : NoDigit tail :=
          noDigit_of_fails (fun tail => scanNumber negative (byte '0' :: tail)) read
            fun d more digit => by simp [scanNumber, digit, stopAt]
        rw [← List.singleton_append, moves tail noDigit] at read
        exact .digits noDigit moves (framed_scanTail _ _ read)
      · cases digit : isDigit b with
        | false => simp [scanNumber, zero, digit, stopAfter] at read
        | true =>
            obtain ⟨digits, after, all, noDigit, rfl⟩ := exists_digits tail
            have moves : ∀ other, NoDigit other →
                scanNumber negative (b :: digits ++ other) =
                  scanTail negative (b :: digits) other := by
              intro other noDigit
              have spans := span_digits (List.forall_mem_cons.mpr ⟨digit, all⟩) noDigit
              simp only [List.cons_append] at spans
              simp only [List.cons_append, scanNumber, zero, digit, spans, ↓reduceIte]
            rw [← List.cons_append] at read ⊢
            rw [moves after noDigit] at read
            exact .digits noDigit moves (framed_scanTail _ _ read)

/-- An exponent that is passed over, after its sign. -/
def skipPower (s : Bytes) : Except Stop Bytes :=
  match s with
  | [] => stopAfter .invalidNumber []
  | b :: rest => if isDigit b then .ok (rest.dropWhile isDigit) else stopAfter .invalidNumber rest

theorem passes_skipPower : Passes skipPower := by
  intro s rest read
  cases s with
  | nil => cases read
  | cons b tail =>
      cases digit : isDigit b with
      | false => simp [skipPower, digit, stopAfter] at read
      | true =>
          have moves : ∀ tail, skipPower (b :: tail) = .ok (tail.dropWhile isDigit) :=
            fun tail => by simp [skipPower, digit]
          rw [moves] at read
          obtain rfl := Except.ok.inj read
          exact .cons moves (passes_digits tail)

theorem passes_skipExponent : Passes skipExponent := by
  intro s rest read
  cases s with
  | nil => cases read
  | cons b tail =>
      by_cases sign : b = byte '+' ∨ b = byte '-'
      · have moves : ∀ tail, skipExponent (b :: tail) = skipPower tail :=
          fun tail => by simp only [skipExponent, sign, ↓reduceIte]; rfl
        rw [moves] at read
        exact .cons moves (passes_skipPower read)
      · have moves : ∀ tail, skipExponent (b :: tail) = skipPower (b :: tail) :=
          fun tail => by simp only [skipExponent, sign, ↓reduceIte]; rfl
        rw [moves] at read
        exact .as moves (passes_skipPower read) fun _ impossible => nomatch impossible

section Fractions

variable {digits : Bytes} (all : ∀ b ∈ digits, isDigit b = true) (some : digits ≠ [])

include all some

theorem skipTail_power {b : UInt8} (letter : isExponentLetter b = true) (more : Bytes) :
    skipTail (byte '.' :: (digits ++ b :: more)) = skipExponent more := by
  have noDigit : NoDigit (b :: more) := fun c first =>
    Option.some.inj first ▸ isDigit_of_letter letter
  simp only [skipTail, span_digits all noDigit, some, letter, ↓reduceIte]

theorem skipTail_noPower {s : Bytes} (noPower : NoPower s) :
    skipTail (byte '.' :: (digits ++ s)) = .ok s := by
  cases s with
  | nil => simp only [skipTail, span_digits all noPower.noDigit, some, ↓reduceIte]
  | cons b more =>
      simp only [skipTail, span_digits all noPower.noDigit, some, (noPower b rfl).2,
        ↓reduceIte, Bool.false_eq_true]

end Fractions

theorem skipTail_of_clear {s : Bytes} (clear : Clear s) : skipTail s = .ok s := by
  cases s with
  | nil => rfl
  | cons b more =>
      obtain ⟨_, point, letter⟩ := clear b rfl
      simp [skipTail, point, letter]

theorem passes_skipTail : Passes skipTail := by
  intro s rest read
  cases s with
  | nil =>
      obtain rfl := Except.ok.inj read
      exact .nothing fun other clear => skipTail_of_clear clear
  | cons b tail =>
      by_cases point : b = byte '.'
      · subst point
        refine .cons (fun _ => rfl) ?_
        obtain ⟨digits, after, all, noDigit, rfl⟩ := exists_digits tail
        by_cases none : digits = []
        · subst none
          simp only [skipTail, span_digits all noDigit, ↓reduceIte] at read
          cases read
        rcases power_cases noDigit with ⟨b, more, letter, rfl⟩ | noPower
        · rw [skipTail_power all none letter] at read
          refine .digits noDigit (fun other _ => rfl) ?_
          exact .cons (skipTail_power all none letter) (passes_skipExponent read)
        · rw [skipTail_noPower all none noPower] at read
          obtain rfl := Except.ok.inj read
          refine ⟨digits, rfl, fun other clear => ?_⟩
          exact skipTail_noPower all none clear.noPower
      cases letter : isExponentLetter b with
      | true =>
          have moves : ∀ tail, skipTail (b :: tail) = skipExponent tail :=
            fun tail => by simp [skipTail, point, letter]
          rw [moves] at read
          exact .cons moves (passes_skipExponent read)
      | false =>
          simp only [skipTail, point, letter, ↓reduceIte, Bool.false_eq_true] at read
          obtain rfl := Except.ok.inj read
          exact .nothing fun other clear => skipTail_of_clear clear

theorem passes_skipNumber : Passes skipNumber := by
  intro s rest read
  cases s with
  | nil => cases read
  | cons b tail =>
      by_cases zero : b = byte '0'
      · subst zero
        have moves : ∀ other, NoDigit other →
            skipNumber ([byte '0'] ++ other) = skipTail other := by
          intro other noDigit
          cases other with
          | nil => rfl
          | cons d more => simp [skipNumber, noDigit d rfl]
        have noDigit : NoDigit tail :=
          noDigit_of_fails (fun tail => skipNumber (byte '0' :: tail)) read
            fun d more digit => by simp [skipNumber, digit, stopAt]
        rw [← List.singleton_append, moves tail noDigit] at read
        exact .digits noDigit moves (passes_skipTail read)
      · cases digit : isDigit b with
        | false => simp [skipNumber, zero, digit, stopAfter] at read
        | true =>
            obtain ⟨digits, after, all, noDigit, rfl⟩ := exists_digits tail
            have moves : ∀ other, NoDigit other →
                skipNumber (b :: digits ++ other) = skipTail other := by
              intro other noDigit
              have drops := dropWhile_digits (List.forall_mem_cons.mpr ⟨digit, all⟩) noDigit
              simp only [List.cons_append] at drops
              simp only [List.cons_append, skipNumber, zero, digit, drops, ↓reduceIte]
            rw [← List.cons_append] at read ⊢
            rw [moves after noDigit] at read
            exact .digits noDigit moves (passes_skipTail read)

end ViewClassifier.Json
