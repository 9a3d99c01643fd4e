import ViewClassifier.Text.Faceless

/-!
# Quoted texts

A text between double quotes, in which the quote, the backslash and every character without a face
are written as escapes.
-/

set_option autoImplicit false

namespace ViewClassifier.Text

def escape (c : Char) : List Char :=
  match c with
  | '\x00' => ['\\', '0']
  | '\t' => ['\\', 't']
  | '\n' => ['\\', 'n']
  | '\r' => ['\\', 'r']
  | '\x22' => ['\\', '\x22']
  | '\\' => ['\\', '\\']
  | c =>
      if isFaceless c then
        ['\\', 'u', Char.ofNat 0x7b] ++ Nat.toDigits 16 c.toNat ++ [Char.ofNat 0x7d]
      else [c]

def quote (chars : List Char) : List Char :=
  '\x22' :: chars.flatMap escape ++ ['\x22']

end ViewClassifier.Text
