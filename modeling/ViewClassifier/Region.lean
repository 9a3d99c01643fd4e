import ViewClassifier.Decimal.Layout

/-!
# Regions

Rectangles in pixel coordinates, with the origin at the top left corner of an image.
-/

set_option autoImplicit false

namespace ViewClassifier

structure Region where
  minX : Float32
  minY : Float32
  maxX : Float32
  maxY : Float32
  deriving DecidableEq

namespace Region

/-- Two numbers, the lesser one first. They change places unless the first is below the second, so
that NaN always changes places. -/
def ordered (a b : Float32) : Float32 × Float32 :=
  if a < b then (a, b) else (b, a)

def ofCorners (x₁ y₁ x₂ y₂ : Float32) : Region where
  minX := (ordered x₁ x₂).1
  minY := (ordered y₁ y₂).1
  maxX := (ordered x₁ x₂).2
  maxY := (ordered y₁ y₂).2

def text (r : Region) : String :=
  let number := Decimal.Layout.structured.text
  "RECT(" ++ number r.minX ++ " " ++ number r.minY ++ "," ++ number r.maxX ++ " " ++
    number r.maxY ++ ")"

end Region

end ViewClassifier
