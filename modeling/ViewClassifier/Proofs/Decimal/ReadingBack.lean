import Mathlib.Tactic.Ring
import ViewClassifier.Decimal.Layout
import ViewClassifier.Proofs.Binary32.Forms
import ViewClassifier.Proofs.Decimal.Numerals
import ViewClassifier.Proofs.Decimal.Rounded

/-!
# Reading numbers back

A number in words is read back as the number itself, bit for bit, in every layout that marks whole
numbers with a zero fraction or not at all. The digits keep their amount wherever the point and the
exponent go, and the amount lies in the interval that belongs to the number.
-/

set_option autoImplicit false

namespace ViewClassifier.Decimal

open Float.Model (UnpackedFloat)
open Float.Model.UnpackedFloat (Sign)
open Rounding Binary32
open Text (IsDigits NoDigit)

section Digits

theorem digitsValue_append (s t : List Char) :
    digitsValue (s ++ t) = digitsValue s * 10 ^ t.length + digitsValue t := by
  change Nat.ofDigitChars 10 (s ++ t) 0 = _
  rw [Nat.ofDigitChars_append, Nat.ofDigitChars_eq_ofDigitChars_zero, Nat.mul_comm]
  rfl

theorem digitsValue_zeros (count : ℕ) : digitsValue (List.replicate count '0') = 0 := by
  change Nat.ofDigitChars 10 (List.replicate count '0') 0 = 0
  rw [Nat.ofDigitChars_replicate_zero, Nat.mul_zero]

theorem digitsValue_countChars (n : ℕ) : digitsValue (countChars n) = n :=
  Nat.ofDigitChars_ten_toDigits

end Digits

section Amounts

/-- A text without a sign that is read as a decimal of a given amount. -/
def Denotes (text : List Char) (amount : ℚ) : Prop :=
  ∀ negative, ∃ (digits : ℕ) (exponent : ℤ),
    Literal.ofUnsigned? negative text = some (.decimal negative digits exponent) ∧
      (digits * 10 ^ exponent : ℚ) = amount

variable {whole fraction digits exponent : List Char} {power : ℤ}

theorem denotes_whole (all : IsDigits digits) (any : digits ≠ [])
    (value : exponentValue? exponent = some power) :
    Denotes (digits ++ exponent) (digitsValue digits * 10 ^ power) := by
  intro negative
  have isExponent : IsExponent exponent := exponentValue?_isSome_iff.mp (value ▸ rfl)
  obtain ⟨c, rest, begins, starts⟩ := (IsMantissa.whole all any).starts
  refine ⟨digitsValue digits, power, ?_, rfl⟩
  have decimal := decimal?_whole negative all any isExponent.noDigit isExponent.noPoint
  rw [value, begins, List.cons_append] at decimal
  rw [begins, List.cons_append, ofUnsigned?_of_starts negative starts, decimal, ← begins]
  rfl

theorem denotes_pointed (wholeDigits : IsDigits whole) (fractionDigits : IsDigits fraction)
    (any : ¬ (whole = [] ∧ fraction = [])) (value : exponentValue? exponent = some power) :
    Denotes (whole ++ '.' :: (fraction ++ exponent))
      (digitsValue (whole ++ fraction) * 10 ^ (power - fraction.length)) := by
  intro negative
  have isExponent : IsExponent exponent := exponentValue?_isSome_iff.mp (value ▸ rfl)
  obtain ⟨c, rest, begins, starts⟩ := (IsMantissa.pointed wholeDigits fractionDigits any).starts
  refine ⟨_, _, ?_, rfl⟩
  have text : whole ++ '.' :: (fraction ++ exponent) = c :: (rest ++ exponent) := by
    rw [← List.cons_append, ← List.cons_append, ← List.append_assoc, begins]
  have decimal := decimal?_pointed negative wholeDigits fractionDigits any isExponent.noDigit
  rw [value, text] at decimal
  rw [text, ofUnsigned?_of_starts negative starts, decimal]
  rfl

theorem exponentValue?_nil : exponentValue? [] = some 0 := rfl

/-- A number below one. -/
theorem denotes_below_one (all : IsDigits digits) (zeros : ℕ) :
    Denotes (['0', '.'] ++ List.replicate zeros '0' ++ digits)
      (digitsValue digits * 10 ^ (-(zeros + digits.length : ℕ) : ℤ)) := by
  have padded := Text.isDigits_append.mpr ⟨Text.isDigits_zeros zeros, all⟩
  have value : digitsValue (List.replicate 1 '0' ++ (List.replicate zeros '0' ++ digits)) =
      digitsValue digits := by
    rw [← List.append_assoc, List.replicate_append_replicate, digitsValue_append, digitsValue_zeros,
      Nat.zero_mul, Nat.zero_add]
  have denotes := denotes_pointed (Text.isDigits_zeros 1) padded (fun none => nomatch none.1)
    exponentValue?_nil
  rw [value, List.append_nil, zero_sub, List.length_append, List.length_replicate] at denotes
  exact denotes

/-- A whole number that is filled up with zeros. -/
theorem denotes_filled {mark : String} (marked : mark = "" ∨ mark = ".0") (all : IsDigits digits)
    (any : digits ≠ []) (zeros : ℕ) :
    Denotes (digits ++ List.replicate zeros '0' ++ mark.toList)
      (digitsValue digits * 10 ^ (zeros : ℤ)) := by
  have filled := Text.isDigits_append.mpr ⟨all, Text.isDigits_zeros zeros⟩
  have some : digits ++ List.replicate zeros '0' ≠ [] := List.append_ne_nil_of_left_ne_nil any _
  have value : ∀ count, digitsValue (digits ++ List.replicate count '0') =
      digitsValue digits * 10 ^ count := by
    intro count
    rw [digitsValue_append, digitsValue_zeros, List.length_replicate, Nat.add_zero]
  rcases marked with rfl | rfl
  · have denotes := denotes_whole filled some exponentValue?_nil
    rw [value, zpow_zero, mul_one] at denotes
    rw [zpow_natCast]
    exact_mod_cast denotes
  · have denotes := denotes_pointed filled (Text.isDigits_zeros 1) (fun none => some none.1)
      exponentValue?_nil
    have shifted : ((digitsValue digits * 10 ^ (zeros + 1) : ℕ) : ℚ) * 10 ^ (0 - (1 : ℕ) : ℤ) =
        digitsValue digits * 10 ^ (zeros : ℤ) := by
      rw [zero_sub, zpow_neg, zpow_natCast, zpow_natCast]
      push_cast
      field_simp
      ring
    have longer : digitsValue (digits ++ List.replicate zeros '0' ++ List.replicate 1 '0') =
        digitsValue digits * 10 ^ (zeros + 1) := by
      rw [List.append_assoc, List.replicate_append_replicate, value]
    rw [longer, List.length_replicate, shifted, List.append_nil] at denotes
    exact denotes

/-- A number with digits on both sides of the point. -/
theorem denotes_cut (all : IsDigits digits) (any : digits ≠ []) {count : ℕ}
    (inside : count ≤ digits.length) :
    Denotes (digits.take count ++ ['.'] ++ digits.drop count)
      (digitsValue digits * 10 ^ (count - digits.length : ℤ)) := by
  have wholeDigits : IsDigits (digits.take count) := fun c member => all c (List.mem_of_mem_take member)
  have fractionDigits : IsDigits (digits.drop count) :=
    fun c member => all c (List.mem_of_mem_drop member)
  have some : ¬ (digits.take count = [] ∧ digits.drop count = []) := by
    intro none
    rw [← List.take_append_drop count digits, none.1, none.2] at any
    exact any rfl
  have denotes := denotes_pointed wholeDigits fractionDigits some exponentValue?_nil
  have exponent : (0 : ℤ) - (digits.length - count : ℕ) = count - digits.length := by omega
  rw [List.take_append_drop, List.length_drop, exponent, List.append_nil] at denotes
  rwa [List.append_assoc]

/-- Moving the point and filling up with zeros keeps the amount. -/
theorem denotes_withPoint {mark : String} (marked : mark = "" ∨ mark = ".0") (all : IsDigits digits)
    (any : digits ≠ []) (point : ℤ) :
    Denotes (withPoint mark digits point) (digitsValue digits * 10 ^ (point - digits.length)) := by
  unfold withPoint
  split
  · have exponent : point - digits.length = -((-point).toNat + digits.length : ℕ) := by omega
    rw [exponent]
    exact denotes_below_one all _
  · split
    · have exponent : point - digits.length = (point.toNat - digits.length : ℕ) := by omega
      rw [exponent]
      exact denotes_filled marked all any _
    · have exponent : point - digits.length = (point.toNat : ℤ) - digits.length := by omega
      rw [exponent]
      exact denotes_cut all any (by omega)

theorem exponentValue?_written (decade : ℤ) :
    exponentValue? ('e' :: ((if decade < 0 then ['-'] else []) ++ countChars decade.natAbs)) =
      some decade := by
  have all : IsDigits (countChars decade.natAbs) := Text.isDigits_toDigits _
  have any : countChars decade.natAbs ≠ [] := Nat.toDigits_ne_nil
  have value := digitsValue_countChars decade.natAbs
  by_cases negative : decade < 0
  · have split : splitSign (['-'] ++ countChars decade.natAbs) =
        (true, countChars decade.natAbs) := rfl
    rw [if_pos negative, exponentValue?_power (.inl rfl) (split ▸ any) (split ▸ all), split]
    simp only [if_true, value]
    congr 1
    omega
  · have unsigned := unsigned_of_isDigits all any []
    rw [List.append_nil] at unsigned
    have split : splitSign ([] ++ countChars decade.natAbs) =
        (false, countChars decade.natAbs) := splitSign_unsigned unsigned
    rw [if_neg negative, exponentValue?_power (.inl rfl) (split ▸ any) (split ▸ all), split]
    simp only [Bool.false_eq_true, if_false, value]
    congr 1
    omega

theorem denotes_withExponent (all : IsDigits digits) (any : digits ≠ []) (decade : ℤ) :
    Denotes (withExponent digits decade)
      (digitsValue digits * 10 ^ (decade + 1 - digits.length)) := by
  have written := exponentValue?_written decade
  unfold withExponent
  match digits, any with
  | [digit], any =>
      have denotes := denotes_whole all any written
      simpa using denotes
  | first :: second :: more, any =>
      obtain ⟨one, others⟩ := Text.isDigits_cons.mp all
      have denotes := denotes_pointed (Text.isDigits_cons.mpr ⟨one, Text.isDigits_nil⟩) others
        (fun none => nomatch none.1) written
      have exponent : decade - (second :: more).length =
          decade + 1 - (first :: second :: more).length := by
        simp only [List.length_cons]
        push_cast
        ring
      rw [exponent] at denotes
      simpa using denotes

end Amounts

/-- Whole numbers are marked by a zero fraction or not at all. -/
def Layout.Marked (layout : Layout) : Prop :=
  layout.wholeMark = "" ∨ layout.wholeMark = ".0"

theorem Layout.plain_marked : plain.Marked := .inl rfl

theorem Layout.field_marked : field.Marked := .inr rfl

theorem Layout.Marked.denotes_decimal {layout : Layout} (marked : layout.Marked) (d : Digits) :
    Denotes (layout.decimal d) d.amount := by
  have all : IsDigits (countChars d.digits) := Text.isDigits_toDigits _
  have any : countChars d.digits ≠ [] := Nat.toDigits_ne_nil
  have value := digitsValue_countChars d.digits
  unfold Layout.decimal Digits.amount
  dsimp only
  split
  · have denotes := denotes_withPoint marked all any ((countChars d.digits).length + d.exponent)
    rwa [value, add_sub_cancel_left] at denotes
  · have denotes := denotes_withExponent all any ((countChars d.digits).length + d.exponent - 1)
    rwa [value, sub_add_cancel, add_sub_cancel_left] at denotes

section Numbers

variable {text : List Char} {amount : ℚ} {x y : Float32}

/-- The sign in front of digits is read, whatever the digits. -/
theorem Denotes.read?_minus (denotes : Denotes text amount) (sign : Sign) :
    ∃ (digits : ℕ) (exponent : ℤ), (digits * 10 ^ exponent : ℚ) = amount ∧
      read? (Layout.unpacked.minus sign ++ text) =
        some (nearestDecimal (sign == .negative) digits exponent) := by
  obtain ⟨digits, exponent, found, value⟩ := denotes (sign == .negative)
  have unsigned : Unsigned text :=
    ((ofUnsigned?_isSome_iff _).mp (by rw [found]; rfl)).unsigned
  refine ⟨digits, exponent, value, ?_⟩
  unfold read? Literal.ofChars?
  cases sign with
  | positive =>
      have split : splitSign (Layout.unpacked.minus .positive ++ text) = (false, text) :=
        splitSign_unsigned unsigned
      rw [split]
      exact congrArg (Option.map Literal.value) found
  | negative => exact congrArg (Option.map Literal.value) found

/-- An amount in the interval of a number is read as the number. -/
theorem nearestDecimal_of_holds {sign : Sign} {mantissa : ℕ} {exponent : ℤ}
    {positive : 0 < mantissa} (unpacked : Binary32.unpack x = .finite sign mantissa exponent positive)
    {digits : ℕ} {ten : ℤ}
    (holds : (Neighbourhood.of .binary32 mantissa exponent).Holds (digits * 10 ^ ten)) :
    nearestDecimal (sign == .negative) digits ten = x := by
  obtain ⟨octave, rfl, bounded, canonical, -⟩ := exists_octave_of_unpack unpacked
  have settles := settles_nearestDecimal (sign == .negative) digits ten
  have signed : signOf (sign == .negative) = sign := by
    cases sign <;> rfl
  rw [signed] at settles
  exact settles.eq_of_finite unpacked (by positivity) (nearest_of_holds bounded canonical holds)

theorem nearestDecimal_zero (sign : Sign) (exponent : ℤ) :
    nearestDecimal (sign == .negative) 0 exponent = pack (.zero sign) := by
  cases sign <;> rfl

/-- A number in words is read back bit for bit. -/
theorem Layout.Marked.read?_text {layout : Layout} (marked : layout.Marked) (x : Float32) :
    read? (layout.text x).toList = some x := by
  unfold Layout.text
  rw [String.toList_ofList]
  cases unpacked : Binary32.unpack x with
  | notANumber => exact congrArg some (pack_of_unpack_eq unpacked)
  | infinity sign =>
      rw [← pack_of_unpack_eq unpacked]
      cases sign <;> rfl
  | zero sign =>
      have denotes := denotes_withPoint marked (Text.isDigits_zeros 1) (by decide) 1
      have text : withPoint layout.wholeMark (List.replicate 1 '0') 1 =
          '0' :: layout.wholeMark.toList := rfl
      rw [text, digitsValue_zeros, Nat.cast_zero, zero_mul] at denotes
      obtain ⟨digits, exponent, value, read⟩ := denotes.read?_minus sign
      obtain rfl : digits = 0 := by
        have power : (10 : ℚ) ^ exponent ≠ 0 := zpow_ne_zero _ (by norm_num)
        exact_mod_cast (mul_eq_zero.mp value).resolve_right power
      rw [nearestDecimal_zero, pack_of_unpack_eq unpacked] at read
      exact read
  | finite sign mantissa exponent positive =>
      obtain ⟨digits, ten, value, read⟩ :=
        (marked.denotes_decimal (shortest .binary32 layout.tie mantissa exponent)).read?_minus sign
      obtain ⟨octave, exponents, bounded, -⟩ := exists_octave_of_unpack unpacked
      have holds := holds_shortest layout.tie positive bounded (show -149 ≤ exponent by omega)
      rw [← value] at holds
      rw [nearestDecimal_of_holds unpacked holds] at read
      exact read

theorem Layout.Marked.isNumeral_text {layout : Layout} (marked : layout.Marked) (x : Float32) :
    IsNumeral (layout.text x).toList :=
  read?_isSome_iff.mp (marked.read?_text x ▸ rfl)

end Numbers

end ViewClassifier.Decimal
