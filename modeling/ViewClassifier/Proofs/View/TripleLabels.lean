import Mathlib.Data.Set.Function
import ViewClassifier.Proofs.View.JointLabels

/-!
# Labels with three angles

A label with three angles counts tilts in elevations in azimuths in classes. Its split multiplies the
angles by the class. All products are words, and a class above zero can be divided out again, so that
the label comes back from its split.
-/

set_option autoImplicit false

namespace ViewClassifier

/-- The product of two words, if it is a word. -/
def checkedMul (a b : UInt32) : Option UInt32 :=
  if a.toNat * b.toNat < UInt32.size then some (a * b) else none

/-- The split of a label with all products checked. -/
def tripleViewSplit? (label : UInt32) : Option TripleView := do
  let elevationTilt ← checkedMul 180 180
  let perClass ← checkedMul azimuthBins.toUInt32 elevationTilt
  let index := label / perClass
  let rest := label % perClass
  let inAzimuth := rest % elevationTilt
  let azimuth ← checkedMul (rest / elevationTilt) index
  let elevation ← checkedMul (inAzimuth / 180) index
  let tilt ← checkedMul (inAzimuth % 180) index
  return { index, azimuth, elevation, tilt }

/-- A class and three angles in their own ranges that count a label. -/
structure Counts (label index azimuth elevation tilt : ℕ) : Prop where
  azimuth_lt : azimuth < 360
  elevation_lt : elevation < 180
  tilt_lt : tilt < 180
  label_eq : label = ((index * 360 + azimuth) * 180 + elevation) * 180 + tilt

/-- A view from which a label can be read off, once its class is divided out of its angles. -/
structure TripleView.Restores (t : TripleView) (label : UInt32) : Prop where
  azimuth_dvd : t.index.toNat ∣ t.azimuth.toNat
  elevation_dvd : t.index.toNat ∣ t.elevation.toNat
  tilt_dvd : t.index.toNat ∣ t.tilt.toNat
  counts : Counts label.toNat t.index.toNat (t.azimuth.toNat / t.index.toNat)
    (t.elevation.toNat / t.index.toNat) (t.tilt.toNat / t.index.toNat)

theorem checkedMul_eq_some {a b : UInt32} (fits : a.toNat * b.toNat < UInt32.size) :
    checkedMul a b = some (a * b) :=
  if_pos fits

theorem toNat_mul_of_fits {a b : UInt32} (fits : a.toNat * b.toNat < UInt32.size) :
    (a * b).toNat = a.toNat * b.toNat := by
  rw [UInt32.toNat_mul]
  exact Nat.mod_eq_of_lt fits

section Digits

variable (label : UInt32)

/-- The class, which is the first digit of a label. -/
def tripleIndex : UInt32 :=
  label / 11664000

/-- The other digits of a label, which are its angles before they are multiplied by the class. -/
def azimuthDigit : UInt32 :=
  label % 11664000 / 32400

def elevationDigit : UInt32 :=
  label % 11664000 % 32400 / 180

def tiltDigit : UInt32 :=
  label % 11664000 % 32400 % 180

theorem tripleViewSplit_eq :
    tripleViewSplit label = ⟨tripleIndex label, azimuthDigit label * tripleIndex label,
      elevationDigit label * tripleIndex label, tiltDigit label * tripleIndex label⟩ :=
  rfl

theorem counts_digits :
    Counts label.toNat (tripleIndex label).toNat (azimuthDigit label).toNat
      (elevationDigit label).toNat (tiltDigit label).toNat := by
  unfold tripleIndex azimuthDigit elevationDigit tiltDigit
  simp only [UInt32.toNat_div, UInt32.toNat_mod, UInt32.reduceToNat]
  constructor <;> omega

theorem toNat_tripleIndex_le : (tripleIndex label).toNat ≤ 368 := by
  have word : label.toNat < 4294967296 := label.toNat_lt
  unfold tripleIndex
  simp only [UInt32.toNat_div, UInt32.reduceToNat]
  omega

/-- A word has so few classes that every angle can be multiplied by the class. -/
theorem products_fit :
    (azimuthDigit label).toNat * (tripleIndex label).toNat < UInt32.size ∧
      (elevationDigit label).toNat * (tripleIndex label).toNat < UInt32.size ∧
      (tiltDigit label).toNat * (tripleIndex label).toNat < UInt32.size := by
  have few := toNat_tripleIndex_le label
  have fits : ∀ angle < 360, angle * (tripleIndex label).toNat < UInt32.size := by
    intro angle small
    calc angle * (tripleIndex label).toNat ≤ 360 * 368 := Nat.mul_le_mul small.le few
      _ < UInt32.size := by decide
  have counts := counts_digits label
  exact ⟨fits _ counts.azimuth_lt, fits _ (counts.elevation_lt.trans (by decide)),
    fits _ (counts.tilt_lt.trans (by decide))⟩

theorem tripleViewSplit?_eq : tripleViewSplit? label = some (tripleViewSplit label) := by
  have elevationTilt : checkedMul 180 180 = some 32400 := rfl
  have perClass : checkedMul azimuthBins.toUInt32 32400 = some 11664000 := rfl
  obtain ⟨azimuth, elevation, tilt⟩ := products_fit label
  have azimuth := checkedMul_eq_some azimuth
  have elevation := checkedMul_eq_some elevation
  have tilt := checkedMul_eq_some tilt
  unfold azimuthDigit tripleIndex at azimuth
  unfold elevationDigit tripleIndex at elevation
  unfold tiltDigit tripleIndex at tilt
  unfold tripleViewSplit?
  simp only [elevationTilt, perClass, azimuth, elevation, tilt, Option.bind_eq_bind,
    Option.bind_some]
  rfl

variable {label}

theorem one_le_index_iff : 1 ≤ (tripleViewSplit label).index ↔ 360 * 180 * 180 ≤ label := by
  rw [tripleViewSplit_eq, UInt32.le_iff_toNat_le, UInt32.le_iff_toNat_le]
  change 1 ≤ (label / 11664000).toNat ↔ 11664000 ≤ label.toNat
  rw [UInt32.toNat_div]
  exact Nat.one_le_div_iff (by decide)

theorem restores_split (some : 1 ≤ (tripleViewSplit label).index) :
    (tripleViewSplit label).Restores label := by
  obtain ⟨azimuth, elevation, tilt⟩ := products_fit label
  have azimuth := toNat_mul_of_fits azimuth
  have elevation := toNat_mul_of_fits elevation
  have tilt := toNat_mul_of_fits tilt
  have positive : 0 < (tripleIndex label).toNat := UInt32.le_iff_toNat_le.mp some
  rw [tripleViewSplit_eq]
  refine ⟨azimuth ▸ Nat.dvd_mul_left _ _, elevation ▸ Nat.dvd_mul_left _ _,
    tilt ▸ Nat.dvd_mul_left _ _, ?_⟩
  dsimp only
  rw [azimuth, elevation, tilt, Nat.mul_div_cancel _ positive, Nat.mul_div_cancel _ positive,
    Nat.mul_div_cancel _ positive]
  exact counts_digits label

theorem angles_of_index_zero (none : (tripleViewSplit label).index = 0) :
    (tripleViewSplit label).azimuth = 0 ∧ (tripleViewSplit label).elevation = 0 ∧
      (tripleViewSplit label).tilt = 0 := by
  rw [tripleViewSplit_eq] at none ⊢
  dsimp only at none ⊢
  rw [none]
  exact ⟨UInt32.mul_zero, UInt32.mul_zero, UInt32.mul_zero⟩

end Digits

namespace TripleView.Restores

variable {t : TripleView} {label other : UInt32}

/-- A view restores one label at most. -/
theorem unique (first : t.Restores label) (second : t.Restores other) : label = other :=
  UInt32.toNat_inj.mp (first.counts.label_eq.trans second.counts.label_eq.symm)

end TripleView.Restores

/-- No product of a split leaves the words. A split with a class above zero restores its label, so that
the labels from the first one of the second class on have different splits. The first class leaves no
angles. -/
theorem tripleViewSplit_restores :
    (∀ label, tripleViewSplit? label = some (tripleViewSplit label)) ∧
      (∀ label, 1 ≤ (tripleViewSplit label).index → (tripleViewSplit label).Restores label) ∧
      (∀ label, 1 ≤ (tripleViewSplit label).index ↔ 360 * 180 * 180 ≤ label) ∧
      Set.InjOn tripleViewSplit {label | 360 * 180 * 180 ≤ label} ∧
      ∀ label, (tripleViewSplit label).index = 0 →
        (tripleViewSplit label).azimuth = 0 ∧ (tripleViewSplit label).elevation = 0 ∧
          (tripleViewSplit label).tilt = 0 := by
  refine ⟨tripleViewSplit?_eq, fun _ => restores_split, fun _ => one_le_index_iff, ?_,
    fun _ => angles_of_index_zero⟩
  intro label many other otherMany same
  have first := restores_split (one_le_index_iff.mpr many)
  have second := restores_split (one_le_index_iff.mpr otherMany)
  exact first.unique (same ▸ second)

/-- The greatest label has the class 368. -/
theorem tripleViewSplit_restores_greatest :
    1 ≤ (tripleViewSplit 4294967295).index ∧
      tripleViewSplit 4294967295 = ⟨368, 29440, 47472, 27600⟩ ∧
      (tripleViewSplit 4294967295).Restores 4294967295 := by
  have some : 1 ≤ (tripleViewSplit 4294967295).index := by decide
  exact ⟨some, by decide, tripleViewSplit_restores.2.1 4294967295 some⟩

end ViewClassifier
