import ViewClassifier.Proofs.Preprocessing

/-!
# Orders of channels

A channel order is accepted exactly when it lists every channel once. Looking up the place of a
channel then undoes looking up the channel at a place.
-/

set_option autoImplicit false

namespace ViewClassifier

namespace Preprocessing

theorem isPermutation_iff {order : List Nat} {channels : Nat} :
    isPermutation order channels = true ↔ order.Perm (List.range channels) := by
  unfold isPermutation
  rw [Bool.and_eq_true, beq_iff_eq, beq_iff_eq]
  constructor
  · intro accepted
    obtain ⟨rfl, sorted⟩ := accepted
    rw [← sorted]
    exact (List.mergeSort_perm order _).symm
  · intro permuted
    have length : order.length = channels := by rw [permuted.length_eq, List.length_range]
    have transitive : ∀ i j k : Nat, decide (i ≤ j) → decide (j ≤ k) → decide (i ≤ k) := by
      simp only [decide_eq_true_eq]
      omega
    have total : ∀ i j : Nat, (decide (i ≤ j) || decide (j ≤ i)) = true := by
      simp only [Bool.or_eq_true, decide_eq_true_eq]
      omega
    have ascending : (order.mergeSort (· ≤ ·)).Pairwise (· ≤ ·) := by
      simpa only [decide_eq_true_eq] using List.pairwise_mergeSort transitive total order
    subst length
    exact ⟨rfl, ((List.mergeSort_perm order _).trans permuted).eq_of_pairwise
      (fun _ _ _ _ => Nat.le_antisymm) ascending List.pairwise_le_range⟩

theorem bounds_of_isPermutation {order : List Nat} {channels : Nat}
    (ordered : isPermutation order channels = true) :
    order.length = channels ∧ ∀ c ∈ order, c < channels := by
  have perm := isPermutation_iff.mp ordered
  refine ⟨by rw [perm.length_eq, List.length_range], fun c member => ?_⟩
  exact List.mem_range.mp (perm.mem_iff.mp member)

/-- Whether a channel of the network input holds a channel of the image. -/
def Places (config : Preprocessing) (source channel : Nat) : Prop :=
  match config.channelSwap with
  | some order => order[channel]? = some source
  | none => channel = source

theorem sourceChannel_eq_getElem {config : Preprocessing} {order : List Nat} {channel : Nat}
    (swap : config.channelSwap = some order) (inside : channel < order.length) :
    config.sourceChannel channel = order[channel] := by
  unfold sourceChannel
  rw [swap]
  change order.getD channel 0 = order[channel]
  rw [List.getD_eq_getElem?_getD, List.getElem?_eq_getElem inside, Option.getD_some]

section Valid

variable {config : Preprocessing} {channels source channel : Nat}
variable (valid : config.validate channels = .ok ())

include valid

theorem perm_of_validate {order : List Nat} (swap : config.channelSwap = some order) :
    order.Perm (List.range channels) :=
  isPermutation_iff.mp ((validate_eq_ok_iff.mp valid).1 order swap)

theorem length_of_validate {order : List Nat} (swap : config.channelSwap = some order) :
    order.length = channels :=
  (bounds_of_isPermutation ((validate_eq_ok_iff.mp valid).1 order swap)).1

theorem places_iff (inside : source < channels) :
    config.Places source channel ↔ channel = config.targetChannel source := by
  unfold Places targetChannel
  cases swap : config.channelSwap with
  | none => exact Iff.rfl
  | some order =>
      have perm := perm_of_validate valid swap
      have member : source ∈ order := perm.mem_iff.mpr (List.mem_range.mpr inside)
      have unique : order.Nodup := perm.nodup_iff.mpr List.nodup_range
      constructor
      · intro placed
        obtain ⟨bound, rfl⟩ := List.getElem?_eq_some_iff.mp placed
        exact (unique.idxOf_getElem channel bound).symm
      · rintro rfl
        have bound := List.idxOf_lt_length_of_mem member
        exact List.getElem?_eq_some_iff.mpr ⟨bound, List.getElem_idxOf bound⟩

theorem places_lt_iff (placed : config.Places source channel) :
    source < channels ↔ channel < channels := by
  unfold Places at placed
  cases swap : config.channelSwap with
  | none =>
      rw [swap] at placed
      rw [placed]
  | some order =>
      rw [swap] at placed
      have perm := perm_of_validate valid swap
      obtain ⟨bound, rfl⟩ := List.getElem?_eq_some_iff.mp placed
      exact iff_of_true (List.mem_range.mp (perm.mem_iff.mp (List.getElem_mem bound)))
        (length_of_validate valid swap ▸ bound)

theorem places_sourceChannel (inside : channel < channels) :
    config.Places (config.sourceChannel channel) channel := by
  unfold Places
  cases swap : config.channelSwap with
  | none =>
      unfold sourceChannel
      rw [swap]
  | some order =>
      have bound : channel < order.length := by rwa [length_of_validate valid swap]
      change order[channel]? = some (config.sourceChannel channel)
      rw [sourceChannel_eq_getElem swap bound, List.getElem?_eq_getElem bound]

theorem sourceChannel_lt (inside : channel < channels) : config.sourceChannel channel < channels :=
  (places_lt_iff valid (places_sourceChannel valid inside)).mpr inside

theorem targetChannel_lt (inside : source < channels) : config.targetChannel source < channels :=
  (places_lt_iff valid ((places_iff valid inside).mpr rfl)).mp inside

theorem targetChannel_sourceChannel (inside : channel < channels) :
    config.targetChannel (config.sourceChannel channel) = channel :=
  ((places_iff valid (sourceChannel_lt valid inside)).mp (places_sourceChannel valid inside)).symm

theorem sourceChannel_targetChannel (inside : source < channels) :
    config.sourceChannel (config.targetChannel source) = source := by
  have placed := (places_iff valid inside).mpr rfl
  unfold Places at placed
  unfold sourceChannel
  cases swap : config.channelSwap with
  | none =>
      rw [swap] at placed
      exact placed
  | some order =>
      rw [swap] at placed
      change order.getD (config.targetChannel source) 0 = source
      rw [List.getD_eq_getElem?_getD, placed]
      rfl

end Valid

end Preprocessing

end ViewClassifier
