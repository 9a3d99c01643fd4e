import Mathlib.Data.List.TakeDrop
import ViewClassifier.Text.Blank

/-!
# Runs of digits

A reader takes digits up to the first character that is none. What it takes is a run of digits when
no digit follows it. Digits, letters and blanks are told apart by their codes.
-/

set_option autoImplicit false

namespace ViewClassifier.Text

def IsDigits (s : List Char) : Prop := ∀ c ∈ s, c.isDigit = true

/-- Nothing that goes on with a run of digits. -/
def NoDigit (s : List Char) : Prop := ∀ c, s.head? = some c → c.isDigit = false

theorem noDigit_nil : NoDigit [] := fun _ impossible => nomatch impossible

theorem noDigit_cons {c : Char} {rest : List Char} (other : c.isDigit = false) :
    NoDigit (c :: rest) :=
  fun _ first => Option.some.inj first ▸ other

theorem isDigits_nil : IsDigits [] := fun _ member => nomatch member

theorem isDigits_cons {c : Char} {rest : List Char} :
    IsDigits (c :: rest) ↔ c.isDigit = true ∧ IsDigits rest :=
  List.forall_mem_cons

theorem isDigits_append {s t : List Char} : IsDigits (s ++ t) ↔ IsDigits s ∧ IsDigits t :=
  List.forall_mem_append

theorem isDigits_zeros (count : ℕ) : IsDigits (List.replicate count '0') := by
  intro c member
  rw [List.eq_of_mem_replicate member]
  rfl

theorem isDigits_toDigits (n : ℕ) : IsDigits (Nat.toDigits 10 n) :=
  fun _ member => Nat.isDigit_of_mem_toDigits (by decide) (by decide) member

theorem span_digits {digits rest : List Char} (all : IsDigits digits) (stop : NoDigit rest) :
    (digits ++ rest).span Char.isDigit = (digits, rest) := by
  rw [List.span_eq_takeWhile_dropWhile, List.dropWhile_append_of_pos all,
    List.takeWhile_append_of_pos all]
  cases rest with
  | nil => simp
  | cons c more => simp [stop c rfl]

theorem exists_digits (s : List Char) :
    ∃ digits rest, IsDigits digits ∧ NoDigit rest ∧ s = digits ++ rest := by
  refine ⟨s.takeWhile Char.isDigit, s.dropWhile Char.isDigit, ?_, ?_,
    List.takeWhile_append_dropWhile.symm⟩
  · exact fun _ member => List.all_eq_true.mp List.all_takeWhile _ member
  · intro c first
    have := List.head?_dropWhile_not Char.isDigit s
    rw [first] at this
    simpa using this

section Kinds

variable {c : Char}

theorem isDigit_iff : c.isDigit = true ↔ 48 ≤ c.toNat ∧ c.toNat ≤ 57 := by
  simp [Char.isDigit, UInt32.le_iff_toNat_le]

theorem isUpper_iff : c.isUpper = true ↔ 65 ≤ c.toNat ∧ c.toNat ≤ 90 := by
  unfold Char.isUpper
  simp [UInt32.le_iff_toNat_le]

theorem isAlpha_iff :
    c.isAlpha = true ↔ 65 ≤ c.toNat ∧ c.toNat ≤ 90 ∨ 97 ≤ c.toNat ∧ c.toNat ≤ 122 := by
  unfold Char.isAlpha Char.isLower
  rw [Bool.or_eq_true, isUpper_iff]
  simp [UInt32.le_iff_toNat_le]

theorem isAlpha_of_isDigit (digit : c.isDigit = true) : c.isAlpha = false := by
  rw [isDigit_iff] at digit
  rw [Bool.eq_false_iff, ne_eq, isAlpha_iff]
  omega

theorem isBlank_of_isDigit (digit : c.isDigit = true) : isBlank c = false := by
  rw [isDigit_iff] at digit
  grind [isBlank]

theorem isBlank_of_isAlpha (letter : c.isAlpha = true) : isBlank c = false := by
  rw [isAlpha_iff] at letter
  grind [isBlank]

theorem toLower_of_not_isAlpha (other : c.isAlpha = false) : c.toLower = c := by
  refine dif_neg fun upper => ?_
  unfold Char.isAlpha at other
  rw [Bool.or_eq_false_iff] at other
  exact absurd (decide_eq_true upper) (Bool.eq_false_iff.mp other.1)

end Kinds

end ViewClassifier.Text
