import ViewClassifier.Binary64
import ViewClassifier.Error
import ViewClassifier.Files.Tree
import ViewClassifier.Ranking

/-!
# Charts

Draws probabilities as a line over the classes, with a marker at the best class. A chart is what is
drawn over its axes, on 960 by 480 pixels of which larger numbers are farther down. How a file spells a
chart is left to a writer, which also draws the axes themselves.
-/

set_option autoImplicit false

namespace ViewClassifier

structure Pixel where
  x : Int
  y : Int
  deriving DecidableEq, Repr

structure Colour where
  red : UInt8
  green : UInt8
  blue : UInt8
  deriving DecidableEq, Repr

inductive Shape where
  | line (vertices : List Pixel) (colour : Colour)
  | disc (centre : Pixel) (radius : Nat) (colour : Colour)
  deriving DecidableEq, Repr

structure Chart where
  caption : String
  /-- The shapes over the axes, the later ones above the earlier ones. -/
  shapes : List Shape

namespace Chart

def columns : Int × Int := (70, 949)

def rows : Int × Int := (36, 429)

def clamp (low high value : Int) : Int :=
  max low (min high value)

def saturate (value : Int) : Int :=
  clamp Int32.minValue.toInt Int32.maxValue.toInt value

def wrap (value : Int) : Int :=
  Int.bmod value UInt32.size

def slack : Float := 1e-3

def column (lastClass index : Nat) : Int :=
  let part := index.toUInt64.toFloat / lastClass.toUInt64.toFloat
  let width := (columns.2 - columns.1).toNat.toUInt64.toFloat
  let offset := saturate (Binary64.floor (width * part + slack))
  clamp columns.1 (columns.2 + 1) (wrap (columns.1 + offset))

/-- The row of a probability when the greatest one is in the first row. What is no number is in the
last row. -/
def row (greatest value : Float32) : Int :=
  let part := Binary32.widen value / Binary32.widen greatest
  let height := (rows.2 - rows.1).toNat.toUInt64.toFloat
  let place :=
    if part.isInf then if part < 0 then rows.2 else rows.1
    else wrap (rows.2 + saturate (Binary64.ceil (-height * part - slack)))
  clamp rows.1 (rows.2 + 1) place

def leastTop : Float32 := .ofBits 0x34000000

/-- The value at the top of a chart. It is a little above the greatest finite probability. -/
def valueAtTop (probabilities : List Float32) : Float32 :=
  let greatest := (probabilities.filter Float32.isFinite).foldl Binary32.max 0
  Binary32.max greatest leastTop * 1.05

structure Axes where
  lastClass : Nat
  top : Float32

/-- The axes for probabilities. There are at least two classes on them. -/
def Axes.of (probabilities : List Float32) : Axes where
  lastClass := max probabilities.length 2 - 1
  top := valueAtTop probabilities

def Axes.vertex (axes : Axes) (index : Nat) (value : Float32) : Pixel where
  x := column axes.lastClass index
  y := row axes.top value

/-- The vertices of all classes. -/
def Axes.vertices (axes : Axes) (probabilities : List Float32) : List Pixel :=
  probabilities.zipIdx.map fun (value, index) => axes.vertex index value

def lineColour : Colour := ⟨0, 0, 255⟩

def markerColour : Colour := ⟨255, 0, 0⟩

def markerRadius : Nat := 4

def draw (probabilities : List Float32) (caption : String) : Result Chart :=
  if probabilities = [] then .error .emptyBatch
  else
    let axes := Axes.of probabilities
    let marker := (argmax probabilities).map fun best =>
      Shape.disc (axes.vertex best (probabilities.getD best 0)) markerRadius markerColour
    .ok ⟨caption, .line (axes.vertices probabilities) lineColour :: marker.toList⟩

/-- The files after a chart is written as the bytes that a writer makes of it. -/
def save (encode : Chart → Files.Bytes) (tree : Files.Tree) (path : String) (chart : Chart) :
    Result Files.Tree :=
  match tree.write path (encode chart) with
  | .ok written => .ok written
  | .error fault => .error (.chart fault)

end Chart

end ViewClassifier
