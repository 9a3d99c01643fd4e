import ViewClassifier.Error
import ViewClassifier.Table

/-!
# Averaging

Means of numbers in the order in which they are added up. The rows of the crops of an image are added
one after another. The values of a mean image and the probabilities of a row are added in eight
lanes.
-/

set_option autoImplicit false

namespace ViewClassifier

open Binary32 (ofNat)

structure Lanes where
  a : Float32
  b : Float32
  c : Float32
  d : Float32
  e : Float32
  f : Float32
  g : Float32
  h : Float32

def Lanes.zero : Lanes := ⟨0, 0, 0, 0, 0, 0, 0, 0⟩

/-- The sum of all lanes. Each lane first meets the one that is four places on. -/
def Lanes.total (l : Lanes) : Float32 :=
  (((0 + (l.a + l.e)) + (l.b + l.f)) + (l.c + l.g)) + (l.d + l.h)

/-- Adds full groups of eight lane by lane, then the lanes, and then the values that are left. -/
def laneSumFrom (l : Lanes) : List Float32 → Float32
  | a :: b :: c :: d :: e :: f :: g :: h :: rest =>
      laneSumFrom ⟨l.a + a, l.b + b, l.c + c, l.d + d, l.e + e, l.f + f, l.g + g, l.h + h⟩ rest
  | rest => rest.foldl (· + ·) l.total

def laneSum (values : List Float32) : Float32 :=
  laneSumFrom .zero values

def laneMean (values : List Float32) : Float32 :=
  laneSum values / ofNat values.length

def runningSum (count : Nat) (f : Nat → Float32) : Float32 :=
  (List.range count).foldl (fun total i => total + f i) 0

/-- The mean of each column over consecutive groups of rows. A group of one row is left as it is. -/
def averageCrops (perCrop : Table) (group : Nat) : Result Table :=
  if group = 0 ∨ perCrop.rows = 0 then .error .emptyBatch
  else if group = 1 then .ok perCrop
  else if perCrop.rows % group ≠ 0 then
    .error (.shapeMismatch (.cropGroups group perCrop.rows))
  else
    .ok (Table.ofFn (perCrop.rows / group) perCrop.cols fun i k =>
      runningSum group (fun r => perCrop.get (i * group + r) k) / ofNat group)

/-- One value for each channel of a mean array: the values of a vector, or the mean of each plane of
a volume. A plane is averaged along its rows first. -/
def channelMean (raw : Tensor) : Result (List Float32) :=
  match raw.shape, raw.toVolume? with
  | [_], _ => .ok raw.data.toList
  | _, some v =>
      if v.inner = 0 ∨ v.middle = 0 then .error (.invalidConfig .emptyMean)
      else
        .ok ((List.range v.outer).map fun c =>
          laneMean ((List.range v.middle).map fun y =>
            laneMean ((List.range v.inner).map fun x => v.get c y x)))
  | shape, none => .error (.shapeMismatch (.meanRank shape.length))

end ViewClassifier
