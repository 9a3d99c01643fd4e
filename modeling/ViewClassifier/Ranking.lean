import ViewClassifier.Binary32.Order

/-!
# Ranking

The place of the greatest value of a list, and the places of its values from the greatest to the
least. NaN takes no part in either.
-/

set_option autoImplicit false

namespace ViewClassifier

/-- The better of the best entry so far and the next one. A later entry wins only when it is not at
most the best one. -/
def better (best : Option (Float32 × Nat)) (entry : Float32 × Nat) : Option (Float32 × Nat) :=
  match best with
  | some top => if entry.1 ≤ top.1 then some top else some entry
  | none => some entry

/-- The place of the first greatest value. It is missing when every value is NaN. -/
def argmax (values : List Float32) : Option Nat :=
  ((values.zipIdx.filter fun entry => !entry.1.isNaN).foldl better none).map Prod.snd

/-- The values with their places, in the order of a comparison. Values that compare equal keep the
order of their places. -/
def sortedEntries {α : Type} (compare : α → α → Ordering) (values : List α) : List (α × Nat) :=
  values.zipIdx.mergeSort fun a b => (compare a.1 b.1).isLE

def argsortBy {α : Type} (compare : α → α → Ordering) (values : List α) : List Nat :=
  (sortedEntries compare values).map Prod.snd

/-- The places of the `k` greatest values in the total order, the greatest one first. -/
def topK (values : List Float32) (k : Nat) : List Nat :=
  (((sortedEntries (fun a b => Binary32.totalCompare b a) values).filter
    fun entry => !entry.1.isNaN).take k).map Prod.snd

end ViewClassifier
