/-!
# Shortest decimals

The decimal with the fewest digits that reads back as a given binary number. The numbers that read
back form an interval around the value. For one digit, two digits, and so on, the two neighbours of
the value on that decimal grid are tested against the interval, in whole numbers and without
rounding. The first grid with a hit decides the number of digits, and the nearer neighbour on it
decides the digits.
-/

set_option autoImplicit false

namespace ViewClassifier.Decimal

open Float.Model (Format)

structure Digits where
  digits : Nat
  exponent : Int
  deriving DecidableEq, Repr

def Digits.strip (fuel : Nat) (d : Digits) : Digits :=
  match fuel with
  | 0 => d
  | fuel + 1 =>
      if d.digits ≠ 0 ∧ d.digits % 10 = 0 then
        Digits.strip fuel ⟨d.digits / 10, d.exponent + 1⟩
      else d

inductive Tie where
  | upper
  | even
  deriving DecidableEq, Repr

/-- A positive binary number and the ends of the interval that reads back as it, all in units of
`2 ^ exponent`. The ends belong to the interval when it is closed. -/
structure Neighbourhood where
  low : Nat
  value : Nat
  high : Nat
  exponent : Int
  closed : Bool
  deriving Repr

/-- The neighbourhood of `mantissa * 2 ^ exponent`. Its ends are the midpoints to the adjacent
numbers of the format, of which the lower one is nearer below a power of two. A midpoint reads back
as the neighbour with the even mantissa. -/
def Neighbourhood.of (format : Format) (mantissa : Nat) (exponent : Int) : Neighbourhood where
  low :=
    if mantissa = 1 <<< format.mantissaBitsWithoutImplicit ∧ format.minExponent < exponent then
      4 * mantissa - 1
    else 4 * mantissa - 2
  value := 4 * mantissa
  high := 4 * mantissa + 2
  exponent := exponent - 2
  closed := mantissa % 2 == 0

/-- Numerator of `10 ^ ten / 2 ^ two`, a grid step counted in binary units. -/
def stepNumerator (ten two : Int) : Nat :=
  Nat.pow 10 ten.toNat <<< (-two).toNat

def stepDenominator (ten two : Int) : Nat :=
  Nat.pow 10 (-ten).toNat <<< two.toNat

/-- Whether `t` steps of the decimal grid `10 ^ ten` lie in the interval. -/
def Neighbourhood.contains (n : Neighbourhood) (ten : Int) (t : Nat) : Bool :=
  let point := t * stepNumerator ten n.exponent
  let scale := stepDenominator ten n.exponent
  if n.closed then n.low * scale ≤ point && point ≤ n.high * scale
  else n.low * scale < point && point < n.high * scale

/-- The number of steps from zero to the value on the decimal grid `10 ^ ten`, rounded down. -/
def Neighbourhood.below (n : Neighbourhood) (ten : Int) : Nat :=
  n.value * stepDenominator ten n.exponent / stepNumerator ten n.exponent

/-- How twice the distance of the value from the lower grid point compares with one step. -/
def Neighbourhood.half (n : Neighbourhood) (ten : Int) : Ordering :=
  let step := stepNumerator ten n.exponent
  compare (2 * (n.value * stepDenominator ten n.exponent % step)) step

/-- The nearest point of the decimal grid `10 ^ ten` in the interval, if there is one next to the
value. -/
def Neighbourhood.point? (n : Neighbourhood) (tie : Tie) (ten : Int) : Option Nat :=
  let t := n.below ten
  match n.contains ten t, n.contains ten (t + 1) with
  | false, false => none
  | true, false => some t
  | false, true => some (t + 1)
  | true, true =>
      match n.half ten, tie with
      | .lt, _ => some t
      | .gt, _ => some (t + 1)
      | .eq, .upper => some (t + 1)
      | .eq, .even => some (if t % 2 = 0 then t else t + 1)

/-- The least `k` from `start` on, within `fuel` steps, for which `10 ^ k` times the value is at
least one. -/
def Neighbourhood.leadingZeros (n : Neighbourhood) (fuel start : Nat) : Nat :=
  match fuel with
  | 0 => start
  | fuel + 1 =>
      if n.below (-(start : Int)) = 0 then n.leadingZeros fuel (start + 1) else start

def Neighbourhood.decade (n : Neighbourhood) : Int :=
  match n.below 0 with
  | 0 => -(n.leadingZeros 400 1 : Int)
  | whole => (Nat.toDigits 10 whole).length - 1

/-- The shortest decimal with at least `count` digits, looking at `fuel` grids. -/
def Neighbourhood.search (n : Neighbourhood) (tie : Tie) (decade : Int) (fuel count : Nat) : Digits :=
  let ten := decade + 1 - count
  match fuel with
  | 0 => ⟨n.below ten, ten⟩
  | fuel + 1 =>
      match n.point? tie ten with
      | some t => (Digits.mk t ten).strip 2
      | none => n.search tie decade fuel (count + 1)

/-- The shortest decimal that reads back as `mantissa * 2 ^ exponent` in a format, and the nearest
to it of those. Seventeen digits always suffice for both formats. -/
def shortest (format : Format) (tie : Tie) (mantissa : Nat) (exponent : Int) : Digits :=
  let n := Neighbourhood.of format mantissa exponent
  n.search tie n.decade 17 1

end ViewClassifier.Decimal
