import ViewClassifier.Proofs.Ranking.Best

/-!
# The best place of a slice

What it means for a place to be the best one of a list. The best place of a list is the best one of
every slice around it, because a slice has the candidates of its places.
-/

set_option autoImplicit false

namespace ViewClassifier

open Binary32 (level)

variable {values : List Float32} {key : Float32 → Int} {best : Float32 × Nat} {start count place : Nat}

theorem argmax_eq_none_iff : argmax values = none ↔ candidates values = [] := by
  rcases argmax_spec values with ⟨missing, none⟩ | ⟨best, found, leads⟩
  · exact iff_of_true missing none
  · refine iff_of_false (fun missing => ?_) (fun none => not_leads_nil (none ▸ leads))
    cases found.symm.trans missing

theorem candidates_eq_nil_iff : candidates values = [] ↔ ∀ x ∈ values, x.isNaN = true := by
  rw [List.eq_nil_iff_forall_not_mem]
  constructor
  · intro none x member
    obtain ⟨i, inside⟩ := List.mem_iff_getElem?.mp member
    cases nan : x.isNaN with
    | true => rfl
    | false =>
        have candidate : (x, i) ∈ candidates values := mem_candidates.mpr ⟨inside, nan⟩
        exact absurd candidate (none (x, i))
  · intro all entry member
    obtain ⟨inside, number⟩ := mem_candidates.mp member
    exact absurd ((all entry.1 (List.mem_of_getElem? inside)).symm.trans number) (by decide)

theorem argmax_isSome_iff : (argmax values).isSome = true ↔ ∃ x ∈ values, x.isNaN = false := by
  rw [← Option.ne_none_iff_isSome, ne_eq, argmax_eq_none_iff, candidates_eq_nil_iff]
  simp only [Classical.not_forall, exists_prop, Bool.not_eq_true]

theorem argmax_eq_some_iff :
    argmax values = some place ↔ ∃ x, Leads level (candidates values) (x, place) := by
  rcases argmax_spec values with ⟨missing, none⟩ | ⟨best, found, leads⟩
  · rw [missing, none]
    refine iff_of_false (fun found => by cases found) (fun leading => ?_)
    obtain ⟨_, leads⟩ := leading
    exact not_leads_nil leads
  · rw [found, Option.some.injEq]
    constructor
    · intro same
      exact ⟨best.1, same ▸ leads⟩
    · intro leading
      obtain ⟨_, other⟩ := leading
      rw [leads.unique other]

/-- The first place of a number that no number of the list exceeds. -/
structure FirstGreatest (values : List Float32) (place : Nat) (x : Float32) : Prop where
  inside : values[place]? = some x
  number : x.isNaN = false
  greatest : ∀ y ∈ values, y.isNaN = false → y ≤ x
  first : ∀ j y, j < place → values[j]? = some y → y.isNaN = false → y < x

theorem leads_level_iff {x : Float32} :
    Leads level (candidates values) (x, place) ↔ FirstGreatest values place x := by
  constructor
  · intro leads
    obtain ⟨inside, number⟩ : values[place]? = some x ∧ x.isNaN = false :=
      mem_candidates.mp leads.member
    refine ⟨inside, number, fun y member yNumber => ?_, fun j y before yInside yNumber => ?_⟩
    · obtain ⟨i, yInside⟩ := List.mem_iff_getElem?.mp member
      have candidate : (y, i) ∈ candidates values := mem_candidates.mpr ⟨yInside, yNumber⟩
      have behind := leads.key_le candidate
      exact (Binary32.le_iff_level_le yNumber number).mpr behind
    · have candidate : (y, j) ∈ candidates values := mem_candidates.mpr ⟨yInside, yNumber⟩
      rcases leads.behind _ candidate with same | less | ⟨_, later⟩
      · exact absurd (congrArg Prod.snd same) (Nat.ne_of_lt before)
      · exact (Binary32.lt_iff_level_lt yNumber number).mpr less
      · exact absurd later (Nat.lt_asymm before)
  · intro greatest
    refine ⟨mem_candidates.mpr ⟨greatest.inside, greatest.number⟩, fun entry member => ?_⟩
    obtain ⟨inside, number⟩ := mem_candidates.mp member
    have le := greatest.greatest entry.1 (List.mem_of_getElem? inside) number
    have least := (Binary32.le_iff_level_le number greatest.number).mp le
    rcases Nat.lt_trichotomy entry.2 place with before | same | after
    · have less := greatest.first entry.2 entry.1 before inside number
      exact .inr (.inl ((Binary32.lt_iff_level_lt number greatest.number).mp less))
    · have value : entry.1 = x := Option.some.inj (inside.symm.trans (same ▸ greatest.inside))
      exact .inl (Prod.ext value same)
    · rcases Int.lt_or_eq_of_le least with less | equal
      · exact .inr (.inl less)
      · exact .inr (.inr ⟨equal, after⟩)

/-- The place of the greatest value has a number that no other number exceeds. -/
theorem greatest_of_argmax (found : argmax values = some place) :
    ∃ x, values[place]? = some x ∧ x.isNaN = false ∧ ∀ y ∈ values, y.isNaN = false → y ≤ x := by
  obtain ⟨x, leads⟩ := argmax_eq_some_iff.mp found
  obtain ⟨inside, number, greatest, _⟩ := leads_level_iff.mp leads
  exact ⟨x, inside, number, greatest⟩

theorem argmax_lt (found : argmax values = some place) : place < values.length := by
  obtain ⟨x, leads⟩ := argmax_eq_some_iff.mp found
  exact (List.getElem?_eq_some_iff.mp (mem_candidates.mp leads.member).1).1

theorem argmax_getD_lt_length {values : List Float32} (some : 0 < values.length) :
    (argmax values).getD 0 < values.length := by
  cases found : argmax values with
  | none => exact some
  | some best => exact argmax_lt found

/-- The place that is looked at for the greatest value: its first place, or zero where no value is a
number. -/
def BestPlace (values : List Float32) (place : Nat) : Prop :=
  (∃ x, FirstGreatest values place x) ∨ place = 0 ∧ ∀ x ∈ values, x.isNaN = true

theorem argmax_getD_eq_iff : (argmax values).getD 0 = place ↔ BestPlace values place := by
  have found : argmax values = some place ↔ ∃ x, FirstGreatest values place x :=
    argmax_eq_some_iff.trans (exists_congr fun _ => leads_level_iff)
  unfold BestPlace
  rw [← found, ← candidates_eq_nil_iff, ← argmax_eq_none_iff]
  cases argmax values with
  | none => simp [eq_comm]
  | some best => simp

/-- A slice has the candidates of its places, counted from its start. -/
theorem mem_candidates_slice {entry : Float32 × Nat} :
    entry ∈ candidates ((values.drop start).take count) ↔
      entry.2 < count ∧ (entry.1, start + entry.2) ∈ candidates values := by
  rw [mem_candidates, mem_candidates, List.getElem?_take, List.getElem?_drop]
  by_cases inside : entry.2 < count
  · rw [if_pos inside, and_iff_right inside]
  · rw [if_neg inside]
    exact iff_of_false (fun slice => by cases slice.1) (fun all => inside all.1)

theorem Leads.slice (leads : Leads key (candidates values) best) (after : start ≤ best.2)
    (before : best.2 < start + count) :
    Leads key (candidates ((values.drop start).take count)) (best.1, best.2 - start) where
  member := by
    rw [mem_candidates_slice, Nat.add_sub_of_le after]
    exact ⟨by omega, leads.member⟩
  behind := by
    intro entry member
    have whole := (mem_candidates_slice.mp member).2
    rcases leads.behind _ whole with same | less | ⟨equal, later⟩
    · rw [← same]
      exact .inl (Prod.ext rfl (Nat.add_sub_cancel_left _ _).symm)
    · exact .inr (.inl less)
    · exact .inr (.inr ⟨equal, show best.2 - start < entry.2 by omega⟩)

theorem argmax_slice (found : argmax values = some place) (after : start ≤ place)
    (before : place < start + count) :
    argmax ((values.drop start).take count) = some (place - start) := by
  obtain ⟨x, leads⟩ := argmax_eq_some_iff.mp found
  exact argmax_eq_some_iff.mpr ⟨x, leads.slice after before⟩

theorem argmax_slice_of_none (missing : argmax values = none) :
    argmax ((values.drop start).take count) = none := by
  rw [argmax_eq_none_iff] at missing ⊢
  refine List.eq_nil_iff_forall_not_mem.mpr fun entry member => ?_
  have whole := (mem_candidates_slice.mp member).2
  rw [missing] at whole
  cases whole

end ViewClassifier
