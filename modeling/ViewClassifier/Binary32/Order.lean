import ViewClassifier.Binary32.Basic

/-!
# The total order of binary32 numbers

The numeric order leaves NaN out and identifies the two zeros. The order of this module is total:
negative numbers, negative zero, zero, positive numbers, NaN. It compares integer keys that are
read off the bits.
-/

set_option autoImplicit false

namespace ViewClassifier.Binary32

/-- Position in the total order. The bits of a positive number count up from zero and those of a
negative one count down from minus one. -/
def rank (x : Float32) : Int :=
  let bits := x.toBits.toNat
  if bits < 0x80000000 then bits else 0x7fffffff - bits

/-- Comparison in the total order. -/
def totalCompare (x y : Float32) : Ordering :=
  compare (rank x) (rank y)

end ViewClassifier.Binary32
