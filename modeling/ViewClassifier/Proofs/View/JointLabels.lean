import ViewClassifier.View.Label

/-!
# Joint labels

A joint label is the background, a rendered view counted from one, or a real view counted from ten
thousand. Splitting it treats the two kinds of views alike and keeps labels apart. All sums and
differences on the way are words, and the table of classes is read inside its bounds.
-/

set_option autoImplicit false

namespace ViewClassifier

/-- The sum of two words, if it is a word. -/
def checkedAdd (a b : UInt32) : Option UInt32 :=
  if a.toNat + b.toNat < UInt32.size then some (a + b) else none

/-- The difference of two words, if it is not negative. -/
def checkedSub (a b : UInt32) : Option UInt32 :=
  if b.toNat ≤ a.toNat then some (a - b) else none

/-- The entry of the table of classes, if its place is inside the table. -/
def detectionClass? (index : Nat) : Option UInt32 :=
  detectionClasses[min index backgroundClass]?

/-- The split of a joint label with all sums, differences and look-ups checked. -/
def detectionViewSplit? (label : UInt32) : Option (UInt32 × UInt32) :=
  if label = 0 then do
    let view ← checkedAdd realImageOffset viewVectorLength.toUInt32
    return (0, view)
  else if label < realImageOffset then do
    let view ← checkedSub label 1
    let detection ← detectionClass? (view.toNat / azimuthBins)
    return (detection, view)
  else do
    let view ← checkedSub label realImageOffset
    let detection ← detectionClass? (view.toNat / azimuthBins)
    let kept ← checkedAdd detection realImageOffset
    return (kept, label)

/-- The joint label that has a detection label and a view label. -/
def joinedLabel (split : UInt32 × UInt32) : UInt32 :=
  if split.2 < realImageOffset then split.2 + 1 else if split.1 = 0 then 0 else split.2

/-- What a joint label stands for. -/
inductive JointLabel : UInt32 → Prop where
  | background : JointLabel 0
  | rendered {view} : view ≤ 9998 → JointLabel (view + 1)
  | real {label} : realImageOffset ≤ label → JointLabel label

theorem jointLabel (label : UInt32) : JointLabel label := by
  by_cases none : label = 0
  · rw [none]
    exact .background
  · by_cases small : label < realImageOffset
    · have view : JointLabel (label - 1 + 1) := .rendered (by grind [realImageOffset])
      rwa [UInt32.sub_add_cancel] at view
    · exact .real (UInt32.not_lt.mp small)

section Words

variable {a b : UInt32}

theorem checkedAdd_eq_some (fits : a.toNat + b.toNat < UInt32.size) :
    checkedAdd a b = some (a + b) :=
  if_pos fits

theorem checkedSub_eq_some (le : b ≤ a) : checkedSub a b = some (a - b) :=
  if_pos (UInt32.le_iff_toNat_le.mp le)

end Words

theorem detectionClass?_eq (index : Nat) : detectionClass? index = some (detectionClass index) := by
  have inside : min index backgroundClass < detectionClasses.length :=
    Nat.lt_succ_of_le (Nat.min_le_right _ _)
  unfold detectionClass? detectionClass
  rw [List.getD_eq_getElem?_getD, List.getElem?_eq_getElem inside, Option.getD_some]

theorem toNat_detectionClass_le (index : Nat) : (detectionClass index).toNat ≤ 20 := by
  have table : detectionClasses.all (·.toNat ≤ 20) = true := by decide
  have entry := List.mem_of_getElem? (detectionClass?_eq index)
  exact of_decide_eq_true (List.all_eq_true.mp table _ entry)

/-- The numbers of the classes leave room for the offset of real views. -/
theorem detectionClass_add_offset (index : Nat) :
    (detectionClass index).toNat + realImageOffset.toNat < UInt32.size := by
  have small := toNat_detectionClass_le index
  have room : 20 + realImageOffset.toNat < UInt32.size := by decide
  omega

section Labels

variable {label view : UInt32}

theorem rendered_ne_zero (small : view ≤ 9998) : view + 1 ≠ 0 := by
  grind

theorem rendered_lt_offset (small : view ≤ 9998) : view + 1 < realImageOffset := by
  grind [realImageOffset]

theorem real_ne_zero (real : realImageOffset ≤ label) : label ≠ 0 := by
  grind [realImageOffset]

theorem detectionViewSplit_rendered (small : view ≤ 9998) :
    detectionViewSplit (view + 1) = (detectionClass (view.toNat / azimuthBins), view) := by
  unfold detectionViewSplit
  rw [if_neg (rendered_ne_zero small), if_pos (rendered_lt_offset small), UInt32.add_sub_cancel]

theorem detectionViewSplit_real (real : realImageOffset ≤ label) :
    detectionViewSplit label =
      (detectionClass ((label - realImageOffset).toNat / azimuthBins) + realImageOffset, label) := by
  unfold detectionViewSplit
  rw [if_neg (real_ne_zero real), if_neg (UInt32.not_lt.mpr real)]

/-- No check of the split fails. -/
theorem detectionViewSplit?_eq (label : UInt32) :
    detectionViewSplit? label = some (detectionViewSplit label) := by
  unfold detectionViewSplit?
  cases jointLabel label with
  | background => rfl
  | @rendered view small =>
      have counted : 1 ≤ view + 1 := by grind
      rw [if_neg (rendered_ne_zero small), if_pos (rendered_lt_offset small),
        detectionViewSplit_rendered small, checkedSub_eq_some counted, UInt32.add_sub_cancel]
      simp [detectionClass?_eq]
  | real real =>
      rw [if_neg (real_ne_zero real), if_neg (UInt32.not_lt.mpr real),
        detectionViewSplit_real real, checkedSub_eq_some real]
      simp [detectionClass?_eq, checkedAdd_eq_some (detectionClass_add_offset _)]

/-- The offset keeps even the background of real images apart from the background label. -/
theorem detectionClass_add_ne_zero (index : Nat) : detectionClass index + realImageOffset ≠ 0 := by
  intro none
  have sum := UInt32.toNat_add (detectionClass index) realImageOffset
  rw [none, Nat.mod_eq_of_lt (detectionClass_add_offset index)] at sum
  have offset : 0 < realImageOffset.toNat := by decide
  exact absurd sum (Nat.ne_of_lt (Nat.lt_add_left _ offset))

theorem joinedLabel_detectionViewSplit :
    Function.LeftInverse joinedLabel detectionViewSplit := by
  intro label
  unfold joinedLabel
  cases jointLabel label with
  | background => rfl
  | @rendered view small =>
      have below : view < realImageOffset := by grind [realImageOffset]
      rw [detectionViewSplit_rendered small]
      dsimp only
      rw [if_pos below]
  | real real =>
      rw [detectionViewSplit_real real]
      dsimp only
      rw [if_neg (UInt32.not_lt.mpr real), if_neg (detectionClass_add_ne_zero _)]

/-- A rendered view and the real view with the same number have the same class. -/
theorem detectionViewSplit_offset (small : view ≤ 9998) :
    detectionViewSplit (realImageOffset + view) =
      (detectionClass (view.toNat / azimuthBins) + realImageOffset, view + realImageOffset) := by
  have real : realImageOffset ≤ view + realImageOffset := by grind [realImageOffset]
  rw [UInt32.add_comm, detectionViewSplit_real real, UInt32.add_sub_cancel]

/-- Different labels have different splits. A rendered view and the real view of the same number have
the same class, and their labels are ten thousand apart. No sum or difference leaves the words and no
place is outside the table. -/
theorem detectionViewSplit_faithful :
    Function.Injective detectionViewSplit ∧
      (∀ n : UInt32, n ≤ 9998 → ∃ detection,
        detectionClasses[min (n.toNat / 360) 12]? = some detection ∧
          detectionViewSplit (n + 1) = (detection, n) ∧
          detectionViewSplit (10000 + n) = (detection + 10000, n + 10000)) ∧
      ∀ label, detectionViewSplit? label = some (detectionViewSplit label) := by
  refine ⟨joinedLabel_detectionViewSplit.injective, fun n small => ?_, detectionViewSplit?_eq⟩
  exact ⟨_, detectionClass?_eq _, detectionViewSplit_rendered small, detectionViewSplit_offset small⟩

/-- The first view after those of the object classes belongs to the background. -/
theorem detectionViewSplit_faithful_background :
    (4320 : UInt32) ≤ 9998 ∧ detectionViewSplit 4321 = (0, 4320) ∧
      detectionViewSplit 14320 = (10000, 14320) := by
  have small : (4320 : UInt32) ≤ 9998 := by decide
  obtain ⟨detection, found, rendered, real⟩ := detectionViewSplit_faithful.2.1 4320 small
  obtain rfl : 0 = detection := Option.some.inj found
  exact ⟨small, rendered, real⟩

end Labels

end ViewClassifier
