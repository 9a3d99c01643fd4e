import ViewClassifier.Ranking

/-!
# Stable sorting

Sorting the entries of a list keeps the entries that compare equal in the order of their places. So
the places decide between equal entries, and the result is the only one in its order.
-/

set_option autoImplicit false

namespace ViewClassifier

theorem pairwise_zipIdx {α : Type} (values : List α) :
    values.zipIdx.Pairwise fun a b => a.2 < b.2 := by
  have places : (values.zipIdx.map Prod.snd).Pairwise (· < ·) := by
    rw [List.zipIdx_map_snd]
    exact List.pairwise_lt_range'
  exact List.pairwise_map.mp places

section SortedEntries

variable {α : Type} (compare : α → α → Ordering)

theorem sortedEntries_perm (values : List α) :
    (sortedEntries compare values).Perm values.zipIdx :=
  List.mergeSort_perm _ _

variable [Std.TransCmp compare] (values : List α)

private theorem isLE_trans (a b c : α × Nat) (first : (compare a.1 b.1).isLE = true)
    (second : (compare b.1 c.1).isLE = true) : (compare a.1 c.1).isLE = true :=
  Std.TransCmp.isLE_trans first second

private theorem isLE_total (a b : α × Nat) :
    ((compare a.1 b.1).isLE || (compare b.1 a.1).isLE) = true := by
  have swapped : compare b.1 a.1 = (compare a.1 b.1).swap := Std.OrientedCmp.eq_swap
  rw [swapped]
  cases compare a.1 b.1 <;> rfl

/-- The entries that compare equal to one value stand as they did before. -/
theorem filter_sortedEntries (x : α) :
    (sortedEntries compare values).filter (fun entry => compare x entry.1 == .eq) =
      values.zipIdx.filter fun entry => compare x entry.1 == .eq := by
  symm
  apply List.Sublist.eq_of_length
  · have tied : (values.zipIdx.filter fun entry => compare x entry.1 == .eq).Pairwise
        fun a b => (compare a.1 b.1).isLE = true := by
      refine List.pairwise_of_forall_mem_list fun a aMember b bMember => ?_
      have aTied : compare x a.1 = .eq := by simpa using (List.mem_filter.mp aMember).2
      have bTied : compare x b.1 = .eq := by simpa using (List.mem_filter.mp bMember).2
      exact Std.TransCmp.isLE_trans (Ordering.isLE_of_eq_eq (Std.OrientedCmp.eq_symm aTied))
        (Ordering.isLE_of_eq_eq bTied)
    have kept : (values.zipIdx.filter fun entry => compare x entry.1 == .eq).Sublist
        (sortedEntries compare values) :=
      List.sublist_mergeSort (isLE_trans compare) (isLE_total compare) tied List.filter_sublist
    simpa using kept.filter fun entry => compare x entry.1 == .eq
  · exact ((sortedEntries_perm compare values).filter _).length_eq.symm

theorem pairwise_sortedEntries :
    (sortedEntries compare values).Pairwise fun a b =>
      compare a.1 b.1 = .lt ∨ compare a.1 b.1 = .eq ∧ a.2 < b.2 := by
  have sorted : (sortedEntries compare values).Pairwise fun a b => (compare a.1 b.1).isLE = true :=
    List.pairwise_mergeSort (isLE_trans compare) (isLE_total compare) _
  rw [List.pairwise_iff_forall_sublist] at sorted ⊢
  intro a b ordered
  have least := sorted ordered
  cases compared : compare a.1 b.1 with
  | lt => exact .inl rfl
  | gt => simp [compared] at least
  | eq =>
      -- Among the entries that are equal to `a`, the pair stands as it stood before sorting.
      refine .inr ⟨rfl, ?_⟩
      have kept := ordered.filter fun entry => compare a.1 entry.1 == .eq
      simp only [filter_sortedEntries, Std.ReflCmp.compare_self, compared, BEq.rfl,
        List.filter_cons_of_pos, List.filter_nil] at kept
      have standing := (pairwise_zipIdx values).sublist (kept.trans List.filter_sublist)
      exact (List.pairwise_cons.mp standing).1 b (.head _)

end SortedEntries

end ViewClassifier
