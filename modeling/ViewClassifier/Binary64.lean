import ViewClassifier.Binary32.Basic

/-!
# Whole parts of binary64 numbers

The whole numbers next to a 64-bit number, read off its unpacked form.
-/

set_option autoImplicit false

namespace ViewClassifier.Binary64

open Binary32 (Direction)
open Float.Model.UnpackedFloat (Sign)

/-- The whole number that stands for `x`. Zero stands for what is no number, and for infinities. -/
def toWhole (direction : Direction) (x : Float) : Int :=
  match x.toModel.unpack with
  | .finite sign mantissa exponent _ =>
      let scale := 1 <<< (-exponent).toNat
      let shifted := mantissa <<< exponent.toNat
      let step := if direction.grows sign (shifted % scale) scale then 1 else 0
      let magnitude : Int := shifted / scale + step
      match sign with
      | .positive => magnitude
      | .negative => -magnitude
  | _ => 0

/-- The greatest whole number that is not above `x`. -/
def floor (x : Float) : Int :=
  toWhole .down x

def ceil (x : Float) : Int :=
  toWhole .up x

end ViewClassifier.Binary64
