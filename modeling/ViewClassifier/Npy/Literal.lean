/-!
# Header literals

The header of an array file is one literal: a dictionary of texts, whole numbers, truth values,
tuples and the like. Blanks between the parts do not count, and a comma may follow the last item.
-/

set_option autoImplicit false

namespace ViewClassifier.Npy

inductive Literal where
  | text (value : String)
  | whole (value : Int)
  /-- A number with a point or an exponent, as it is spelled. -/
  | real (digits : String)
  | truth (value : Bool)
  | nothing
  | tuple (items : List Literal)
  | list (items : List Literal)
  | dictionary (members : List (Literal × Literal))

namespace Literal

def isBlank (c : Char) : Bool :=
  c == ' ' || c == '\t' || c == '\n' || c == '\r' || c == '\x0c'

def skipBlanks (s : List Char) : List Char :=
  s.dropWhile isBlank

def escaped? (c : Char) : Option Char :=
  match c with
  | '\\' | '\x27' | '\x22' => some c
  | 'a' => some '\x07'
  | 'b' => some '\x08'
  | 'f' => some '\x0c'
  | 'n' => some '\n'
  | 'r' => some '\r'
  | 't' => some '\t'
  | 'v' => some '\x0b'
  | _ => none

def readText? (quote : Char) : List Char → Option (List Char × List Char)
  | [] => none
  | '\\' :: c :: rest => do
      let (more, rest) ← readText? quote rest
      match escaped? c with
      | some d => return (d :: more, rest)
      | none => return ('\\' :: c :: more, rest)
  | c :: rest => do
      if c = quote then return ([], rest)
      if c = '\n' ∨ c = '\\' then failure
      let (more, rest) ← readText? quote rest
      return (c :: more, rest)

/-- Reads decimal digits. A number of more than one digit does not start with zero. -/
def readDigits? (s : List Char) : Option (List Char × List Char) :=
  match s.span Char.isDigit with
  | ([], _) => none
  | ('0' :: _ :: _, _) => none
  | found => some found

/-- Reads a point with digits after it and an exponent, either of which may be missing. -/
def readFraction (s : List Char) : List Char × List Char :=
  let (point, s) :=
    match s with
    | '.' :: rest => ('.' :: (rest.span Char.isDigit).1, (rest.span Char.isDigit).2)
    | s => ([], s)
  match s with
  | 'e' :: '-' :: d :: rest =>
      if d.isDigit then (point ++ ['e', '-'] ++ d :: (rest.span Char.isDigit).1,
        (rest.span Char.isDigit).2)
      else (point, s)
  | 'e' :: d :: rest =>
      if d.isDigit then (point ++ 'e' :: d :: (rest.span Char.isDigit).1,
        (rest.span Char.isDigit).2)
      else (point, s)
  | s => (point, s)

def digitsValue (digits : List Char) : Nat :=
  digits.foldl (fun value c => 10 * value + (c.toNat - '0'.toNat)) 0

def readNumber? (negative : Bool) (s : List Char) : Option (Literal × List Char) := do
  let (digits, rest) ← readDigits? s
  match readFraction rest with
  | ([], rest) =>
      let value : Int := digitsValue digits
      return (.whole (if negative then -value else value), rest)
  | (more, rest) =>
      return (.real (String.ofList ((if negative then ['-'] else []) ++ digits ++ more)), rest)

/-- Reads a word after the blanks before it, and what follows if the word is there. -/
def afterWord? (word : String) (s : List Char) : Option (List Char) :=
  if word.toList.isPrefixOf s then some (s.drop word.length) else none

def readPlain? (s : List Char) : Option (Literal × List Char) :=
  match s with
  | '-' :: rest => readNumber? true (skipBlanks rest)
  | '+' :: rest => readNumber? false (skipBlanks rest)
  | s =>
      match afterWord? "True" s, afterWord? "False" s, afterWord? "None" s with
      | some rest, _, _ => some (.truth true, rest)
      | none, some rest, _ => some (.truth false, rest)
      | none, none, some rest => some (.nothing, rest)
      | none, none, none => readNumber? false s

def afterBracket? (bracket : Char) (s : List Char) : Option (List Char) :=
  match skipBlanks s with
  | c :: rest => if c = bracket then some rest else none
  | [] => none

mutual

/-- Reads a literal after the blanks before it, with fuel for each of its parts. -/
def readValue? (fuel : Nat) (s : List Char) : Option (Literal × List Char) :=
  match fuel with
  | 0 => none
  | fuel + 1 =>
      match skipBlanks s with
      | '\x27' :: rest => do
          let (value, rest) ← readText? '\x27' rest
          return (.text (String.ofList value), rest)
      | '\x22' :: rest => do
          let (value, rest) ← readText? '\x22' rest
          return (.text (String.ofList value), rest)
      | '(' :: rest => do
          let (items, closed, rest) ← readItems? fuel ')' rest
          if items.length = 1 ∧ !closed then failure
          return (.tuple items, rest)
      | '[' :: rest => do
          let (items, _, rest) ← readItems? fuel ']' rest
          return (.list items, rest)
      | '\x7b' :: rest => do
          let (members, rest) ← readMembers? fuel rest
          return (.dictionary members, rest)
      | s => readPlain? s

/-- Reads items up to a bracket. The flag says whether a comma follows the last one. -/
def readItems? (fuel : Nat) (bracket : Char) (s : List Char) :
    Option (List Literal × Bool × List Char) :=
  match fuel with
  | 0 => none
  | fuel + 1 =>
      match afterBracket? bracket s with
      | some rest => some ([], true, rest)
      | none => do
          let (item, s) ← readValue? fuel s
          match afterBracket? bracket s with
          | some rest => return ([item], false, rest)
          | none =>
              let s ← afterBracket? ',' s
              let (items, closed, rest) ← readItems? fuel bracket s
              return (item :: items, closed, rest)

def readMembers? (fuel : Nat) (s : List Char) : Option (List (Literal × Literal) × List Char) :=
  match fuel with
  | 0 => none
  | fuel + 1 =>
      match afterBracket? '\x7d' s with
      | some rest => some ([], rest)
      | none => do
          let (key, s) ← readValue? fuel s
          let s ← afterBracket? ':' s
          let (value, s) ← readValue? fuel s
          match afterBracket? '\x7d' s with
          | some rest => return ([(key, value)], rest)
          | none =>
              let s ← afterBracket? ',' s
              let (members, rest) ← readMembers? fuel s
              return ((key, value) :: members, rest)

end

def ofChars? (chars : List Char) : Option Literal := do
  let (value, rest) ← readValue? (2 * chars.length + 2) chars
  if skipBlanks rest = [] then return value else failure

def escape (c : Char) : String :=
  match c with
  | '\\' => "\\\\"
  | '\x27' => "\\'"
  | '\n' => "\\n"
  | '\r' => "\\r"
  | '\t' => "\\t"
  | c => String.singleton c

mutual

def spelling : Literal → String
  | .text value => "'" ++ String.join (value.toList.map escape) ++ "'"
  | .whole value => toString value
  | .real digits => digits
  | .truth value => if value then "True" else "False"
  | .nothing => "None"
  | .tuple [] => "()"
  | .tuple [item] => "(" ++ item.spelling ++ ",)"
  | .tuple items => "(" ++ spellItems items ++ ")"
  | .list items => "[" ++ spellItems items ++ "]"
  | .dictionary members => "\x7b" ++ spellMembers members ++ "\x7d"

def spellItems : List Literal → String
  | [] => ""
  | [item] => item.spelling
  | item :: more => item.spelling ++ ", " ++ spellItems more

def spellMembers : List (Literal × Literal) → String
  | [] => ""
  | [(key, value)] => key.spelling ++ ": " ++ value.spelling
  | (key, value) :: more => key.spelling ++ ": " ++ value.spelling ++ ", " ++ spellMembers more

end

end Literal

end ViewClassifier.Npy
