import ViewClassifier.Proofs.View.JointLabels

/-!
# Background of joint labels

Both parts of the split of a joint label can say that there is no object. The detection label says so
for zero and for all labels beyond the views of the object classes, rendered or real. The view label
says so for zero and for the background view itself. All other labels with a background detection keep
a view label of their own.
-/

set_option autoImplicit false

namespace ViewClassifier

/-- The view label of the background. -/
def backgroundView : UInt32 :=
  realImageOffset + viewVectorLength.toUInt32

/-- The detection label of the background, of rendered or of real images. -/
def IsBackgroundDetection (detection : UInt32) : Prop :=
  detection = 0 ∨ detection = realImageOffset

instance (detection : UInt32) : Decidable (IsBackgroundDetection detection) :=
  inferInstanceAs (Decidable (_ ∨ _))

theorem backgroundView_eq : backgroundView = 14320 :=
  rfl

section Classes

variable {index : Nat} {view : UInt32}

/-- The class of the background is the last one of the table, and the only zero in it. -/
theorem detectionClass_eq_zero_iff : detectionClass index = 0 ↔ backgroundClass ≤ index := by
  have table : ∀ i : Fin 13, detectionClass i = 0 ↔ backgroundClass ≤ i := by decide
  have capped : detectionClass index = detectionClass (min index backgroundClass) := by
    unfold detectionClass
    rw [Nat.min_assoc, Nat.min_self]
  have inside : min index backgroundClass < 13 := Nat.lt_succ_of_le (Nat.min_le_right _ _)
  rw [capped, table ⟨min index backgroundClass, inside⟩]
  exact Nat.le_min.trans (and_iff_left (Nat.le_refl _))

theorem detectionClass_ne_offset (index : Nat) : detectionClass index ≠ realImageOffset := by
  intro same
  have small := toNat_detectionClass_le index
  rw [same] at small
  exact absurd small (by decide)

theorem detectionClass_div_eq_zero_iff :
    detectionClass (view.toNat / azimuthBins) = 0 ↔ 4320 ≤ view := by
  rw [detectionClass_eq_zero_iff, Nat.le_div_iff_mul_le (by decide), UInt32.le_iff_toNat_le]
  exact Iff.rfl

theorem isBackgroundDetection_detectionClass :
    IsBackgroundDetection (detectionClass index) ↔ detectionClass index = 0 :=
  or_iff_left (detectionClass_ne_offset index)

theorem isBackgroundDetection_add_offset :
    IsBackgroundDetection (detectionClass index + realImageOffset) ↔ detectionClass index = 0 := by
  unfold IsBackgroundDetection
  rw [or_iff_right (detectionClass_add_ne_zero index), UInt32.add_eq_right]

end Classes

variable {label : UInt32}

theorem isBackgroundDetection_iff :
    IsBackgroundDetection (detectionViewSplit label).1 ↔
      label = 0 ∨ 4320 < label ∧ label < realImageOffset ∨ backgroundView ≤ label := by
  cases jointLabel label with
  | background => decide
  | @rendered view small =>
      have beyond := @detectionClass_div_eq_zero_iff view
      rw [detectionViewSplit_rendered small, isBackgroundDetection_detectionClass, beyond]
      grind [backgroundView_eq, realImageOffset]
  | real real =>
      have beyond := @detectionClass_div_eq_zero_iff (label - realImageOffset)
      rw [detectionViewSplit_real real, isBackgroundDetection_add_offset, beyond]
      grind [backgroundView_eq, realImageOffset]

theorem view_eq_background_iff :
    (detectionViewSplit label).2 = backgroundView ↔ label = 0 ∨ label = backgroundView := by
  cases jointLabel label with
  | background => decide
  | rendered small =>
      rw [detectionViewSplit_rendered small]
      grind [backgroundView_eq]
  | real real =>
      rw [detectionViewSplit_real real, or_iff_right (real_ne_zero real)]

/-- The two parts of a split agree on the background for the views of the object classes, for zero and
for the first label beyond the real views. For all other labels the detection alone is background. -/
theorem detectionViewSplit_background (label : UInt32) :
    (IsBackgroundDetection (detectionViewSplit label).1 ↔
      label = 0 ∨ 4320 < label ∧ label < 10000 ∨ 14320 ≤ label) ∧
    ((detectionViewSplit label).2 = 14320 ↔ label = 0 ∨ label = 14320) ∧
    ((IsBackgroundDetection (detectionViewSplit label).1 ↔ (detectionViewSplit label).2 = 14320) ↔
      label ≤ 4320 ∨ 10000 ≤ label ∧ label ≤ 14320) := by
  have detection := @isBackgroundDetection_iff label
  have view := @view_eq_background_iff label
  rw [backgroundView_eq] at detection view
  refine ⟨detection, view, ?_⟩
  rw [detection, view]
  grind [realImageOffset]

/-- The first label beyond the rendered views. -/
theorem firstBeyond_disagrees :
    ¬ (IsBackgroundDetection (detectionViewSplit 4321).1 ↔ (detectionViewSplit 4321).2 = 14320) := by
  decide

end ViewClassifier
