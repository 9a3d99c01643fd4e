import ViewClassifier.Prediction
import ViewClassifier.Proofs.Binary32.Order
import ViewClassifier.Proofs.Ranking.Sorting

/-!
# The best class

The best class can be named in two ways: by the greatest value in the numeric order, and by the first
value after sorting in the total order. They differ where both zeros are the greatest values.
-/

set_option autoImplicit false

namespace ViewClassifier

open Binary32 (level rank)

/-- The entries that take part in a ranking. -/
def candidates (values : List Float32) : List (Float32 × Nat) :=
  values.zipIdx.filter fun entry => !entry.1.isNaN

/-- An entry stands behind another one if it is less, or equal and in a later place. -/
def Behind (key : Float32 → Int) (entry other : Float32 × Nat) : Prop :=
  key entry.1 < key other.1 ∨ key entry.1 = key other.1 ∧ other.2 < entry.2

/-- The entry that all others stand behind. -/
structure Leads (key : Float32 → Int) (entries : List (Float32 × Nat)) (best : Float32 × Nat) :
    Prop where
  member : best ∈ entries
  behind : ∀ entry ∈ entries, entry = best ∨ Behind key entry best

section Leads

variable {key : Float32 → Int} {entries larger : List (Float32 × Nat)}
  {entry other best : Float32 × Nat}

theorem Behind.trans (first : Behind key entry other) (second : Behind key other best) :
    Behind key entry best := by
  unfold Behind at *
  omega

theorem Leads.key_le (leads : Leads key entries best) (member : entry ∈ entries) :
    key entry.1 ≤ key best.1 := by
  rcases leads.behind entry member with same | behind
  · exact same ▸ Int.le_refl _
  · unfold Behind at behind
    omega

theorem Leads.unique (left : Leads key entries entry) (right : Leads key entries other) :
    entry = other := by
  rcases right.behind entry left.member with same | first
  · exact same
  · rcases left.behind other right.member with same | second
    · exact same.symm
    · unfold Behind at first second
      omega

/-- Entries behind some of the others change nothing. -/
theorem Leads.of_subset (leads : Leads key entries best) (within : ∀ e ∈ entries, e ∈ larger)
    (rest : ∀ e ∈ larger, e ∈ entries ∨ ∃ other ∈ entries, Behind key e other) :
    Leads key larger best where
  member := within best leads.member
  behind := by
    intro e member
    rcases rest e member with kept | ⟨other, kept, behind⟩
    · exact leads.behind e kept
    · rcases leads.behind other kept with rfl | further
      · exact .inr behind
      · exact .inr (behind.trans further)

end Leads

theorem mem_candidates {values : List Float32} {entry : Float32 × Nat} :
    entry ∈ candidates values ↔ values[entry.2]? = some entry.1 ∧ entry.1.isNaN = false := by
  simp [candidates, List.mem_filter, List.mem_zipIdx_iff_getElem?]

/-- One more entry is behind the best one so far, or the best one so far is behind it. -/
theorem leads_foldl_better {entries : List (Float32 × Nat)} {top : Float32 × Nat}
    (ordered : (top :: entries).Pairwise fun a b => a.2 < b.2)
    (numbers : ∀ entry ∈ top :: entries, entry.1.isNaN = false) :
    ∃ best, entries.foldl better (some top) = some best ∧ Leads level (top :: entries) best := by
  induction entries generalizing top with
  | nil =>
      refine ⟨top, rfl, .head _, fun entry member => .inl ?_⟩
      exact List.mem_singleton.mp member
  | cons next rest ih =>
      have topNumber := numbers top (.head _)
      have nextNumber := numbers next (.tail _ (.head _))
      have later : top.2 < next.2 := (List.pairwise_cons.mp ordered).1 next (.head _)
      have compared := Binary32.le_iff_level_le nextNumber topNumber
      rw [List.foldl_cons, better]
      by_cases least : next.1 ≤ top.1
      · have behind : Behind level next top := by
          have := compared.mp least
          unfold Behind
          omega
        have skipped : (top :: rest).Sublist (top :: next :: rest) :=
          .cons_cons top (List.sublist_cons_self next rest)
        obtain ⟨best, folded, leads⟩ := ih (ordered.sublist skipped)
          (fun entry member => numbers entry (skipped.subset member))
        rw [if_pos least]
        refine ⟨best, folded, leads.of_subset (fun _ member => skipped.subset member) ?_⟩
        intro entry member
        cases member with
        | head => exact .inl (.head _)
        | tail _ member =>
            cases member with
            | head => exact .inr ⟨top, .head _, behind⟩
            | tail _ member => exact .inl (.tail _ member)
      · have behind : Behind level top next :=
          .inl (Int.not_le.mp fun le => least (compared.mpr le))
        obtain ⟨best, folded, leads⟩ := ih (List.pairwise_cons.mp ordered).2
          (fun entry member => numbers entry (.tail _ member))
        rw [if_neg least]
        refine ⟨best, folded, leads.of_subset (fun _ member => .tail _ member) ?_⟩
        intro entry member
        cases member with
        | head => exact .inr ⟨next, .head _, behind⟩
        | tail _ member => exact .inl member

theorem argmax_spec (values : List Float32) :
    (argmax values = none ∧ candidates values = []) ∨
      ∃ best, argmax values = some best.2 ∧ Leads level (candidates values) best := by
  have numbers : ∀ entry ∈ candidates values, entry.1.isNaN = false :=
    fun _ member => (mem_candidates.mp member).2
  have ordered : (candidates values).Pairwise fun a b => a.2 < b.2 :=
    (pairwise_zipIdx values).filter _
  have unfolded : argmax values = ((candidates values).foldl better none).map Prod.snd := rfl
  rw [unfolded]
  cases found : candidates values with
  | nil => exact .inl ⟨rfl, rfl⟩
  | cons first rest =>
      rw [found] at numbers ordered
      obtain ⟨best, folded, leads⟩ := leads_foldl_better ordered numbers
      refine .inr ⟨best, ?_, leads⟩
      rw [List.foldl_cons, better, folded, Option.map_some]

/-- The entries that take part, from the greatest one in the total order to the least one. -/
def ranked (values : List Float32) : List (Float32 × Nat) :=
  (sortedEntries (fun a b => Binary32.totalCompare b a) values).filter fun entry => !entry.1.isNaN

theorem topK_eq (values : List Float32) (k : Nat) :
    topK values k = ((ranked values).take k).map Prod.snd := rfl

theorem ranked_perm (values : List Float32) : (ranked values).Perm (candidates values) :=
  (sortedEntries_perm _ values).filter _

theorem pairwise_ranked (values : List Float32) :
    (ranked values).Pairwise fun a b => Behind rank b a := by
  refine ((pairwise_sortedEntries _ values).filter _).imp fun {a b} ordered => ?_
  rcases ordered with less | ⟨equal, later⟩
  · exact .inl (Int.compare_eq_lt.mp less)
  · exact .inr ⟨Int.compare_eq_eq.mp equal, later⟩

theorem topK_spec (values : List Float32) (k : Nat) :
    (topK values (k + 1) = [] ∧ candidates values = []) ∨
      ∃ best, (topK values (k + 1)).head? = some best.2 ∧ Leads rank (candidates values) best := by
  have members := ranked_perm values
  have ordered := pairwise_ranked values
  rw [topK_eq]
  cases found : ranked values with
  | nil =>
      rw [found] at members
      exact .inl ⟨rfl, members.nil_eq.symm⟩
  | cons first rest =>
      rw [found] at members ordered
      refine .inr ⟨first, rfl, members.mem_iff.mp (.head _), fun entry member => ?_⟩
      rcases List.mem_cons.mp (members.mem_iff.mpr member) with same | behind
      · exact .inl same
      · exact .inr ((List.pairwise_cons.mp ordered).1 entry behind)

theorem not_leads_nil {key : Float32 → Int} {best : Float32 × Nat} : ¬ Leads key [] best := by
  intro leads
  cases leads.member

/-- Both ways look at the same candidates, so that one finds a class when the other one does. -/
theorem argmax_topK_spec (values : List Float32) (k : Nat) :
    (argmax values = none ∧ topK values (k + 1) = []) ∨
      ∃ best first, argmax values = some best.2 ∧ Leads level (candidates values) best ∧
        (topK values (k + 1)).head? = some first.2 ∧ Leads rank (candidates values) first := by
  rcases argmax_spec values with ⟨missing, none⟩ | ⟨best, found, leads⟩
  · rcases topK_spec values k with ⟨empty, _⟩ | ⟨first, _, firstLeads⟩
    · exact .inl ⟨missing, empty⟩
    · exact absurd (none ▸ firstLeads) not_leads_nil
  · rcases topK_spec values k with ⟨_, none⟩ | ⟨first, head, firstLeads⟩
    · exact absurd (none ▸ leads) not_leads_nil
    · exact .inr ⟨best, first, found, leads, head, firstLeads⟩

/-- The entry that leads in the numeric order leads in the total order as well, unless it is a
negative zero beside a zero. -/
theorem leads_rank_iff {values : List Float32} {best : Float32 × Nat}
    (leads : Leads level (candidates values) best) :
    Leads rank (candidates values) best ↔ ¬ (best.1 = -0 ∧ 0 ∈ values) := by
  constructor
  · intro leading zeros
    obtain ⟨_, behind⟩ := leading
    obtain ⟨negative, present⟩ := zeros
    obtain ⟨j, place⟩ := List.mem_iff_getElem?.mp present
    have member : ((0 : Float32), j) ∈ candidates values :=
      mem_candidates.mpr ⟨place, (by decide : (0 : Float32).isNaN = false)⟩
    have above := Binary32.rank_lt_iff.mpr (.inr ⟨negative, rfl⟩)
    rcases behind _ member with same | behind
    · simp [← same] at above
    · unfold Behind at behind
      simp only at behind
      omega
  · intro unlessZeros
    refine ⟨leads.member, fun entry member => ?_⟩
    rcases leads.behind entry member with same | less | ⟨equal, later⟩
    · exact .inl same
    · exact .inr (.inl (Binary32.rank_lt_iff.mpr (.inl less)))
    · have least : rank entry.1 ≤ rank best.1 := by
        refine Int.not_lt.mp fun above => ?_
        rcases Binary32.rank_lt_iff.mp above with greater | ⟨negative, zero⟩
        · omega
        · refine unlessZeros ⟨negative, ?_⟩
          exact zero ▸ List.mem_of_getElem? (mem_candidates.mp member).1
      rcases Int.lt_or_eq_of_le least with less | same
      · exact .inr (.inl less)
      · exact .inr (.inr ⟨same, later⟩)

namespace Prediction

/-- Both ways of naming the best class find none, or classes with equal values. They name the same
one unless it has a negative zero and another class has a zero. -/
theorem head?_topK (p : Prediction) (index k : Nat) :
    (p.argmax index = none → p.topK index (k + 1) = []) ∧
      ∀ c, p.argmax index = some c → ∃ row x d y,
        p.row? index = some row ∧ row[c]? = some x ∧
          (p.topK index (k + 1)).head? = some (d, y) ∧ row[d]? = some y ∧ x ≤ y ∧ y ≤ x ∧
          ((d, y) = (c, x) ↔ ¬ (x = -0 ∧ 0 ∈ row)) := by
  unfold argmax topK
  cases p.row? index with
  | none => exact ⟨fun _ => rfl, fun _ found => by cases found⟩
  | some row =>
      simp only [Option.bind_some, List.map_eq_nil_iff, List.head?_map]
      rcases argmax_topK_spec row k with
        ⟨missing, empty⟩ | ⟨best, first, found, leads, head, firstLeads⟩
      · exact ⟨fun _ => empty, fun c chosen => by cases missing.symm.trans chosen⟩
      · refine ⟨fun missing => ?_, fun c chosen => ?_⟩
        · cases found.symm.trans missing
        · obtain rfl : best.2 = c := Option.some.inj (found.symm.trans chosen)
          obtain ⟨place, number⟩ := mem_candidates.mp leads.member
          obtain ⟨firstPlace, firstNumber⟩ := mem_candidates.mp firstLeads.member
          refine ⟨row, best.1, first.2, first.1, rfl, place, ?_, firstPlace, ?_, ?_, ?_⟩
          · rw [head, Option.map_some, List.getD_eq_getElem?_getD, firstPlace, Option.getD_some]
          · rw [Binary32.le_iff_level_le number firstNumber]
            refine Int.not_lt.mp fun less => ?_
            have := firstLeads.key_le leads.member
            have := Binary32.rank_lt_iff.mpr (.inl less)
            omega
          · rw [Binary32.le_iff_level_le firstNumber number]
            exact leads.key_le firstLeads.member
          · rw [← leads_rank_iff leads]
            constructor
            · intro same
              obtain ⟨places, values⟩ := Prod.mk.inj same
              exact Prod.ext values places ▸ firstLeads
            · intro bestLeads
              rw [bestLeads.unique firstLeads]

theorem head?_topK_zeros :
    let p : Prediction := ⟨⟨1, 2, #[-0, 0], rfl⟩, by decide, by decide⟩
    p.row? 0 = some [-0, 0] ∧ p.argmax 0 = some 0 ∧ p.topK 0 1 = [(1, 0)] ∧
      (p.topK 0 1).head? ≠ some (0, -0) := by
  intro p
  have row : p.row? 0 = some [-0, 0] := rfl
  have above : (Binary32.totalCompare 0 (-0)).isLE = false := by decide
  have sorted : sortedEntries (fun a b => Binary32.totalCompare b a) [-0, 0] =
      [(0, 1), (-0, 0)] := by
    simp [sortedEntries, List.mergeSort, above]
  have first : p.topK 0 1 = [(1, 0)] := by
    simp only [topK, row, ViewClassifier.topK, sorted]
    decide
  refine ⟨row, by decide, first, ?_⟩
  simp [first]

end Prediction

end ViewClassifier
