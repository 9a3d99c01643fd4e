import Mathlib.Data.List.FinRange
import Mathlib.Data.Fintype.EquivFin
import ViewClassifier.Proofs.ChannelOrder

/-!
# Accepted configurations

A channel order is a permutation of the channels exactly when it lists each of them once and nothing
else. Sorting it and comparing with the channels in order tells this for every list.
-/

set_option autoImplicit false

namespace ViewClassifier

namespace Preprocessing

/-- A list in which every channel stands once, and nothing else does. -/
structure ListsChannels (order : List Nat) (channels : Nat) : Prop where
  once : ∀ c < channels, order.count c = 1
  only : ∀ c ∈ order, c < channels

variable {order : List Nat} {channels : Nat}

theorem perm_range_iff : order.Perm (List.range channels) ↔ ListsChannels order channels := by
  constructor
  · intro permuted
    refine ⟨fun c inside => ?_, fun c member => ?_⟩
    · rw [permuted.count_eq, List.count_range, if_pos inside]
    · exact List.mem_range.mp (permuted.mem_iff.mp member)
  · intro lists
    refine List.perm_iff_count.mpr fun c => ?_
    rw [List.count_range]
    split
    · rename_i inside
      exact lists.once c inside
    · rename_i outside
      exact List.count_eq_zero.mpr fun member => outside (lists.only c member)

/-- The channel at each place, as a map of the channels to themselves. -/
def listed (order : List Nat) (bounds : ∀ c ∈ order, c < order.length) (place : Fin order.length) :
    Fin order.length :=
  ⟨order[place], bounds _ (List.getElem_mem place.isLt)⟩

theorem listed_injective {bounds : ∀ c ∈ order, c < order.length} (unique : order.Nodup) :
    Function.Injective (listed order bounds) := by
  intro i j same
  exact Fin.ext (unique.getElem_inj_iff.mp (congrArg Fin.val same))

/-- A map of the channels to themselves that takes no channel twice reaches all of them. -/
theorem exists_bijection_of_perm (permuted : order.Perm (List.range channels)) :
    ∃ bijection : Equiv.Perm (Fin channels), order = List.ofFn fun i => (bijection i : Nat) := by
  obtain rfl : order.length = channels := by rw [permuted.length_eq, List.length_range]
  have bounds : ∀ c ∈ order, c < order.length :=
    fun c member => List.mem_range.mp (permuted.mem_iff.mp member)
  have injective : Function.Injective (listed order bounds) :=
    listed_injective (permuted.nodup_iff.mpr List.nodup_range)
  exact ⟨.ofBijective _ (Finite.injective_iff_bijective.mp injective), List.ofFn_getElem.symm⟩

theorem perm_of_bijection (bijection : Equiv.Perm (Fin channels)) :
    (List.ofFn fun i => (bijection i : Nat)).Perm (List.range channels) := by
  have inOrder : List.ofFn (Fin.val : Fin channels → Nat) = List.range channels := by
    rw [List.ofFn_eq_map, List.map_coe_finRange_eq_range]
  rw [← inOrder]
  exact bijection.ofFn_comp_perm Fin.val

theorem listsChannels_iff :
    ListsChannels order channels ↔
      ∃ bijection : Equiv.Perm (Fin channels), order = List.ofFn fun i => (bijection i : Nat) := by
  rw [← perm_range_iff]
  constructor
  · exact exists_bijection_of_perm
  · rintro ⟨bijection, rfl⟩
    exact perm_of_bijection bijection

/-- A configuration is accepted exactly when its channel order, if it has one, is a bijection of the
channels, its mean, if it has one, has a value for each channel, and the crop has pixels and is no
larger than the image on either axis. -/
theorem validate_accepts (config : Preprocessing) (channels : Nat) :
    (config.validate channels = .ok () ↔
      (∀ order, config.channelSwap = some order → ListsChannels order channels) ∧
        (∀ mean, config.mean = some mean → mean.length = channels) ∧
        (1 ≤ config.cropDims.height ∧ config.cropDims.height ≤ config.imageDims.height) ∧
        (1 ≤ config.cropDims.width ∧ config.cropDims.width ≤ config.imageDims.width)) ∧
      ∀ order, ListsChannels order channels ↔
        ∃ bijection : Equiv.Perm (Fin channels),
          order = List.ofFn fun i => (bijection i : Nat) := by
  refine ⟨?_, fun _ => listsChannels_iff⟩
  rw [validate_eq_ok_iff]
  have orders : (∀ order, config.channelSwap = some order → isPermutation order channels = true) ↔
      ∀ order, config.channelSwap = some order → ListsChannels order channels :=
    forall_congr' fun _ => imp_congr_right fun _ => isPermutation_iff.trans perm_range_iff
  have sizes : config.cropDims.FitsIn config.imageDims ↔
      (1 ≤ config.cropDims.height ∧ config.cropDims.height ≤ config.imageDims.height) ∧
        (1 ≤ config.cropDims.width ∧ config.cropDims.width ≤ config.imageDims.width) := by
    constructor
    · intro fits
      exact ⟨⟨fits.height_pos, fits.height_le⟩, fits.width_pos, fits.width_le⟩
    · intro bounds
      obtain ⟨⟨heightPos, heightLe⟩, widthPos, widthLe⟩ := bounds
      exact ⟨heightPos, widthPos, heightLe, widthLe⟩
  rw [orders, sizes]

end Preprocessing

end ViewClassifier
