import ViewClassifier.Proofs.Ranking.Slices

/-!
# The greatest values

Which places the two rankings name. The greatest value is named by the first place of a number that
no other number exceeds. The `k` greatest values are named by the places that come first in an order
of all places of numbers, so that fewer of them are the beginning of more.
-/

set_option autoImplicit false

namespace ViewClassifier

open Binary32 (rank)

section Places

variable {values : List Float32} {i j k : Nat}

def HoldsNumber (values : List Float32) (i : Nat) : Prop :=
  ∃ x, values[i]? = some x ∧ x.isNaN = false

/-- One place comes before another one: its number is above the other one, or it is the earlier place
of two numbers with the same bits. -/
def Precedes (values : List Float32) (i j : Nat) : Prop :=
  ∃ x y, values[i]? = some x ∧ values[j]? = some y ∧
    (Binary32.Above x y ∨ x.toBits = y.toBits ∧ i < j)

theorem precedes_of_behind {first second : Float32 × Nat} (left : first ∈ candidates values)
    (right : second ∈ candidates values) (behind : Behind rank second first) :
    Precedes values first.2 second.2 := by
  obtain ⟨inside, number⟩ := mem_candidates.mp left
  obtain ⟨secondInside, secondNumber⟩ := mem_candidates.mp right
  refine ⟨first.1, second.1, inside, secondInside, ?_⟩
  rcases behind with less | ⟨equal, later⟩
  · exact .inl ((Binary32.above_iff_rank_lt number secondNumber).mpr less)
  · exact .inr ⟨congrArg Float32.toBits (Binary32.rank_injective equal).symm, later⟩

theorem holdsNumber_iff : HoldsNumber values i ↔ ∃ x, (x, i) ∈ candidates values := by
  simp only [HoldsNumber, mem_candidates]

theorem length_candidates (values : List Float32) :
    (candidates values).length = values.countP fun x => !x.isNaN := by
  have counted : values.zipIdx.countP ((fun x => !x.isNaN) ∘ Prod.fst) =
      (values.zipIdx.map Prod.fst).countP fun x => !x.isNaN := List.countP_map.symm
  rw [List.zipIdx_map_fst] at counted
  rw [candidates, ← List.countP_eq_length_filter]
  exact counted

theorem nodup_places (values : List Float32) : ((candidates values).map Prod.snd).Nodup :=
  List.pairwise_map.mpr (((pairwise_zipIdx values).filter _).imp Nat.ne_of_lt)

theorem mem_topK (member : i ∈ topK values k) :
    ∃ x, (x, i) ∈ (ranked values).take k ∧ (x, i) ∈ candidates values := by
  rw [topK_eq] at member
  obtain ⟨entry, chosen, rfl⟩ := List.mem_map.mp member
  exact ⟨entry.1, chosen, (ranked_perm values).mem_iff.mp (List.mem_of_mem_take chosen)⟩

theorem nodup_topK (values : List Float32) (k : Nat) : (topK values k).Nodup := by
  have distinct := ((ranked_perm values).map Prod.snd).nodup_iff.mpr (nodup_places values)
  rw [topK_eq]
  exact distinct.sublist ((List.take_sublist k _).map Prod.snd)

theorem length_topK (values : List Float32) (k : Nat) :
    (topK values k).length = Nat.min k (values.countP fun x => !x.isNaN) := by
  rw [topK_eq, List.length_map, List.length_take, (ranked_perm values).length_eq,
    length_candidates]

theorem pairwise_topK (values : List Float32) (k : Nat) :
    (topK values k).Pairwise (Precedes values) := by
  have members : ∀ entry ∈ (ranked values).take k, entry ∈ candidates values :=
    fun _ chosen => (ranked_perm values).mem_iff.mp (List.mem_of_mem_take chosen)
  have ordered := (pairwise_ranked values).sublist (List.take_sublist k _)
  rw [topK_eq, List.pairwise_map]
  exact ordered.imp_of_mem fun left right behind =>
    precedes_of_behind (members _ left) (members _ right) behind

/-- Sorting puts the entries that are not chosen behind all that are. -/
theorem precedes_of_left_out (chosen : i ∈ topK values k) (number : HoldsNumber values j)
    (leftOut : j ∉ topK values k) : Precedes values i j := by
  obtain ⟨x, first, candidate⟩ := mem_topK chosen
  obtain ⟨y, other⟩ := holdsNumber_iff.mp number
  have last : (y, j) ∈ (ranked values).drop k := by
    have all := (ranked_perm values).mem_iff.mpr other
    rw [← List.take_append_drop k (ranked values)] at all
    rcases List.mem_append.mp all with taken | dropped
    · exact absurd (List.mem_map.mpr ⟨(y, j), taken, rfl⟩) leftOut
    · exact dropped
  have ordered := pairwise_ranked values
  rw [← List.take_append_drop k (ranked values)] at ordered
  have behind := (List.pairwise_append.mp ordered).2.2 _ first _ last
  exact precedes_of_behind candidate other behind

theorem topK_prefix {l : Nat} (fewer : k ≤ l) : topK values k <+: topK values l := by
  rw [topK_eq, topK_eq]
  exact (List.take_prefix_take_left fewer).map Prod.snd

end Places

/-- The places of the greatest values are distinct places of numbers, as many as are asked for or as
there are. Each of them comes before the later ones and before all places of numbers that are left
out, and fewer places are the beginning of more. -/
theorem topK_places (values : List Float32) (k : Nat) :
    (∀ i ∈ topK values k, HoldsNumber values i) ∧ (topK values k).Nodup ∧
      (topK values k).length = Nat.min k (values.countP fun x => !x.isNaN) ∧
      (topK values k).Pairwise (Precedes values) ∧
      (∀ i ∈ topK values k, ∀ j, HoldsNumber values j → j ∉ topK values k →
        Precedes values i j) ∧
      ∀ l, k ≤ l → topK values k <+: topK values l := by
  refine ⟨fun i member => ?_, nodup_topK values k, length_topK values k, pairwise_topK values k,
    fun i chosen j => precedes_of_left_out chosen, fun l => topK_prefix⟩
  obtain ⟨x, _, candidate⟩ := mem_topK member
  exact holdsNumber_iff.mpr ⟨x, candidate⟩

/-- The place of the greatest value is missing only where there are no numbers, and otherwise it is the
first place of a greatest number. -/
theorem argmax_firstGreatest (values : List Float32) :
    (argmax values = none ↔ ∀ x ∈ values, x.isNaN = true) ∧
      ∀ place, argmax values = some place ↔ ∃ x, FirstGreatest values place x := by
  refine ⟨argmax_eq_none_iff.trans candidates_eq_nil_iff, fun place => ?_⟩
  rw [argmax_eq_some_iff]
  exact exists_congr fun x => leads_level_iff

end ViewClassifier
