/-!
# Binary32 numbers

Operations on `Float32` that core leaves without a logical model: rounding to a whole number, the
exact remainder of a division, and the conversions between the 32-bit and the 64-bit format. All
of them read the unpacked form (sign, mantissa, exponent) and round once, so that their values can
be computed inside a proof.
-/

set_option autoImplicit false

namespace ViewClassifier.Binary32

open Float.Model (UnpackedFloat Format)
open Float.Model.UnpackedFloat (Sign)

abbrev unpack (x : Float32) : UnpackedFloat :=
  x.toModel.unpack

/-- The number with an unpacked form that already fits the 32-bit format. -/
abbrev pack (u : UnpackedFloat) : Float32 :=
  .ofModel (.pack u)

/-- The number nearest to `mantissa * 2 ^ exponent` under a sign. A half goes to the even
neighbour, and what lies beyond the range becomes infinite. -/
def nearest (sign : Sign) (mantissa : Nat) (exponent : Int) : Float32 :=
  pack (.round .binary32 sign mantissa exponent)

def nan : Float32 :=
  pack .notANumber

def infinity : Float32 :=
  pack (.infinity .positive)

def ofNat (n : Nat) : Float32 :=
  if n < UInt64.size then n.toUInt64.toFloat32 else .ofModel (.ofNat n)

/-- Counts that fit a machine word take the same rounding as all others. -/
theorem ofNat_eq (n : Nat) : ofNat n = .ofModel (.ofNat n) := by
  unfold ofNat
  split
  · rename_i small
    simp only [UInt64.toFloat32, Float32.Model.ofUInt64, Float32.Model.ofNat,
      Float.Model.UnpackedFloat.ofUInt64]
    rw [Nat.toUInt64_eq, UInt64.toNat_ofNat_of_lt' small]
  · rfl

/-- The number nearest to a signed word. -/
def ofInt32 (n : Int32) : Float32 :=
  .ofModel (.ofInt32 n)

theorem ofInt32_of_toInt_eq {word : Int32} {n : Nat} (value : word.toInt = n) :
    ofInt32 word = ofNat n := by
  rw [ofNat_eq, ofInt32, Float32.Model.ofInt32, UnpackedFloat.ofInt32, value]
  rfl

inductive Direction where
  | down
  | up
  /-- The nearer one, and at a half the one farther from zero. -/
  | nearest
  deriving DecidableEq, Repr

/-- Whether the magnitude grows from its whole part to the next whole number when `fraction / scale`
is left over. -/
def Direction.grows (direction : Direction) (sign : Sign) (fraction scale : Nat) : Bool :=
  match direction, sign with
  | .down, .positive | .up, .negative => false
  | .down, .negative | .up, .positive => fraction != 0
  | .nearest, _ => decide (scale ≤ 2 * fraction)

/-- The whole number that stands for `x`. A number without a fraction, an infinity and NaN stay,
and a result of zero keeps the sign of `x`. -/
def toWhole (direction : Direction) (x : Float32) : Float32 :=
  match unpack x with
  | .finite sign mantissa exponent _ =>
      if 0 ≤ exponent then x
      else
        let scale := 1 <<< (-exponent).toNat
        let whole := mantissa / scale
        let step := if direction.grows sign (mantissa % scale) scale then 1 else 0
        nearest sign (whole + step) 0
  | _ => x

def floor (x : Float32) : Float32 :=
  toWhole .down x

def ceil (x : Float32) : Float32 :=
  toWhole .up x

def round (x : Float32) : Float32 :=
  toWhole .nearest x

/-- What is left of `x` after taking away `y` a whole number of times, rounded toward zero. It is
exact and has the sign of `x`. An infinite `x` or a zero `y` leaves NaN, and an infinite `y`
leaves `x`. -/
def remainder (x y : Float32) : Float32 :=
  match unpack x, unpack y with
  | .finite sign m e _, .finite _ n f _ =>
      let unit := min e f
      nearest sign ((m <<< (e - unit).toNat) % (n <<< (f - unit).toNat)) unit
  | .finite .., .infinity _ | .zero _, .infinity _ | .zero _, .finite .. => x
  | _, _ => nan

/-- The remainder, moved up by one modulus when it is negative. The sum is rounded, so that it may
reach the modulus itself. -/
def modulo (x y : Float32) : Float32 :=
  let r := remainder x y
  if r < 0 then r + y.abs else r

def narrow (x : Float) : Float32 :=
  match x.toModel.unpack with
  | .finite sign mantissa exponent _ => nearest sign mantissa exponent
  | special => pack special

def widen (x : Float32) : Float :=
  match unpack x with
  | .finite sign mantissa exponent _ =>
      .ofModel (.pack (.round .binary64 sign mantissa exponent))
  | special => .ofModel (.pack special)

/-- The nearest number of the unit interval. NaN stays. -/
def clampUnit (x : Float32) : Float32 :=
  if x < 0 then 0 else if 1 < x then 1 else x

/-- The whole part as a count, with zero for NaN and for what is negative, and the greatest 64-bit
count for what is beyond it. -/
def toCount (x : Float32) : Nat :=
  x.toUInt64.toNat

/-- The whole part as a signed 64-bit number, with zero for NaN and the nearest such number for what
is out of range. -/
def toInteger (x : Float32) : Int :=
  x.toModel.toInt64.toInt

def max (x y : Float32) : Float32 :=
  if x.isNaN then y else if y.isNaN then x else if x < y then y else x

def min (x y : Float32) : Float32 :=
  if x.isNaN then y else if y.isNaN then x else if y < x then y else x

end ViewClassifier.Binary32
