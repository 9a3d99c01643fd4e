import ViewClassifier.Proofs.Ranking.Sorting

/-!
# Sorting by an order of the members

A comparison has to order only the members of the list that is sorted. On the members as a type of
their own it orders everything, so that the sorted places are found there. They are the only list of
the places in their order.
-/

set_option autoImplicit false

namespace ViewClassifier

/-- A comparison that orders the members of a list. Comparing in the other direction gives the other
answer, and what is at most the second is at most the third if the second is. -/
structure OrdersMembers {α : Type} (compare : α → α → Ordering) (values : List α) : Prop where
  swap : ∀ x ∈ values, ∀ y ∈ values, compare y x = (compare x y).swap
  trans : ∀ x ∈ values, ∀ y ∈ values, ∀ z ∈ values, (compare x y).isLE = true →
    (compare y z).isLE = true → (compare x z).isLE = true

/-- One place may stand before another one: its value is at most the other one, and less if the place
is not the earlier one. -/
def StandsBefore {α : Type} (compare : α → α → Ordering) (values : List α) (i j : Nat) : Prop :=
  ∃ x y, values[i]? = some x ∧ values[j]? = some y ∧ (compare x y).isLE = true ∧
    (compare x y = .eq → i < j)

section Members

variable {α : Type} {compare : α → α → Ordering} {values : List α}

def compareMembers (compare : α → α → Ordering) (values : List α) (x y : { x // x ∈ values }) :
    Ordering :=
  compare x.val y.val

theorem OrdersMembers.transCmp (orders : OrdersMembers compare values) :
    Std.TransCmp (compareMembers compare values) where
  eq_swap {x y} := orders.swap y.val y.property x.val x.property
  isLE_trans {x y z} := orders.trans x.val x.property y.val y.property z.val z.property

/-- Sorting does not tell the members from the values that they are. -/
theorem map_sortedEntries_attach (compare : α → α → Ordering) (values : List α) :
    (sortedEntries (compareMembers compare values) values.attach).map (Prod.map Subtype.val id) =
      sortedEntries compare values := by
  have compared : ∀ a ∈ values.attach.zipIdx, ∀ b ∈ values.attach.zipIdx,
      (compareMembers compare values a.1 b.1).isLE =
        (compare (Prod.map Subtype.val id a).1 (Prod.map Subtype.val id b).1).isLE :=
    fun _ _ _ _ => rfl
  have moved := List.map_mergeSort (s := fun a b : α × Nat => (compare a.1 b.1).isLE) compared
  rwa [List.map_zipIdx, List.attach_map_subtype_val] at moved

variable (orders : OrdersMembers compare values)

include orders in
theorem OrdersMembers.pairwise_sortedEntries :
    (sortedEntries compare values).Pairwise fun a b =>
      compare a.1 b.1 = .lt ∨ compare a.1 b.1 = .eq ∧ a.2 < b.2 := by
  have := orders.transCmp
  rw [← map_sortedEntries_attach, List.pairwise_map]
  exact ViewClassifier.pairwise_sortedEntries (compareMembers compare values) values.attach

theorem getElem?_of_mem_sortedEntries {entry : α × Nat}
    (member : entry ∈ sortedEntries compare values) : values[entry.2]? = some entry.1 :=
  List.mem_zipIdx_iff_getElem?.mp ((sortedEntries_perm compare values).mem_iff.mp member)

theorem argsortBy_perm (compare : α → α → Ordering) (values : List α) :
    (argsortBy compare values).Perm (List.range values.length) := by
  have places := (sortedEntries_perm compare values).map Prod.snd
  rwa [List.zipIdx_map_snd, ← List.range_eq_range'] at places

include orders in
theorem OrdersMembers.pairwise_argsortBy :
    (argsortBy compare values).Pairwise (StandsBefore compare values) := by
  unfold argsortBy
  rw [List.pairwise_map]
  refine orders.pairwise_sortedEntries.imp_of_mem fun {a b} aMember bMember ordered => ?_
  refine ⟨a.1, b.1, getElem?_of_mem_sortedEntries aMember, getElem?_of_mem_sortedEntries bMember, ?_⟩
  rcases ordered with less | ⟨equal, earlier⟩
  · rw [less]
    exact ⟨rfl, fun equal => nomatch equal⟩
  · exact ⟨Ordering.isLE_of_eq_eq equal, fun _ => earlier⟩

include orders in
/-- Two places that may stand before each other hold values that compare equal, and neither of them is
the earlier one. -/
theorem OrdersMembers.eq_of_standsBefore {i j : Nat} (first : StandsBefore compare values i j)
    (second : StandsBefore compare values j i) : i = j := by
  obtain ⟨x, y, xPlace, yPlace, le, tie⟩ := first
  obtain ⟨y', x', yPlace', xPlace', ge, otherTie⟩ := second
  obtain rfl : y = y' := Option.some.inj (yPlace.symm.trans yPlace')
  obtain rfl : x = x' := Option.some.inj (xPlace.symm.trans xPlace')
  have swapped := orders.swap x (List.mem_of_getElem? xPlace) y (List.mem_of_getElem? yPlace)
  cases compared : compare x y with
  | lt =>
      rw [swapped, compared] at ge
      cases ge
  | gt =>
      rw [compared] at le
      cases le
  | eq =>
      have forward := tie compared
      have backward := otherTie (by rw [swapped, compared]; rfl)
      omega

include orders in
/-- The places in the order of a comparison are all places, in an order in which the values do not
decrease and places of values that compare equal do not change their order. No other list is like
that. -/
theorem argsortBy_stable :
    (argsortBy compare values).Perm (List.range values.length) ∧
      (argsortBy compare values).Pairwise (StandsBefore compare values) ∧
      ∀ places : List Nat, places.Perm (List.range values.length) →
        places.Pairwise (StandsBefore compare values) → places = argsortBy compare values := by
  refine ⟨argsortBy_perm compare values, orders.pairwise_argsortBy, fun places permuted ordered => ?_⟩
  exact (permuted.trans (argsortBy_perm compare values).symm).eq_of_pairwise
    (fun _ _ _ _ => orders.eq_of_standsBefore) ordered orders.pairwise_argsortBy

end Members

/-- The numeric comparison. It orders numbers, but NaN would compare equal to all of them. -/
def compareNumbers (x y : Float32) : Ordering :=
  if x < y then .lt else if y < x then .gt else .eq

theorem argsortBy_stable_zeros :
    let values : List Float32 := [1, 0, -0, -1, 0]
    OrdersMembers compareNumbers values ∧ argsortBy compareNumbers values = [3, 1, 2, 4, 0] := by
  intro values
  have orders : OrdersMembers compareNumbers values := ⟨by decide, by decide⟩
  have inside : ∀ i ∈ [3, 1, 2, 4, 0], values[i]? = some (values.getD i 0) := by decide
  have compared : [3, 1, 2, 4, 0].Pairwise fun i j =>
      (compareNumbers (values.getD i 0) (values.getD j 0)).isLE = true ∧
        (compareNumbers (values.getD i 0) (values.getD j 0) = .eq → i < j) := by
    decide
  have ordered : [3, 1, 2, 4, 0].Pairwise (StandsBefore compareNumbers values) :=
    compared.imp_of_mem fun {i j} left right both =>
      ⟨_, _, inside i left, inside j right, both⟩
  exact ⟨orders, ((argsortBy_stable orders).2.2 _ (by decide) ordered).symm⟩

end ViewClassifier
