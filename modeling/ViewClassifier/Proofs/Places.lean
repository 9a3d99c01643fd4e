import ViewClassifier.Table

/-!
# Places

Where an entry stands in row-major order. A list that is made of groups of one length, such as the
windows of images or the rows of a table, has place `j` of group `i` at `i * size + j`.
-/

set_option autoImplicit false

namespace ViewClassifier

theorem Table.get_eq_getD {t : Table} {i j : Nat} (hi : i < t.rows) (hj : j < t.cols) :
    t.get i j = t.data.getD (i * t.cols + j) 0 := by
  have inside : i * t.cols + j < t.data.size := by
    rw [t.size_data]
    exact offset_lt hi hj
  simp [get, hi, hj, inside]

/-- All numbers of a table are those at its positions. -/
theorem Table.mem_data_iff {t : Table} {x : Float32} :
    x ∈ t.data ↔ ∃ i j, i < t.rows ∧ j < t.cols ∧ t.get i j = x := by
  constructor
  · intro member
    obtain ⟨place, inside, rfl⟩ := Array.mem_iff_getElem.mp member
    rw [t.size_data] at inside
    have cols : 0 < t.cols := Nat.pos_of_ne_zero fun none => by simp [none] at inside
    have row : place / t.cols < t.rows := (Nat.div_lt_iff_lt_mul cols).mpr inside
    have col : place % t.cols < t.cols := Nat.mod_lt place cols
    have position : place / t.cols * t.cols + place % t.cols = place := by
      rw [Nat.mul_comm, Nat.div_add_mod]
    refine ⟨place / t.cols, place % t.cols, row, col, ?_⟩
    simp [get, row, col, position]
  · rintro ⟨i, j, hi, hj, rfl⟩
    unfold get
    rw [dif_pos ⟨hi, hj⟩]
    exact Array.getElem_mem _

/-- A volume with given lengths of its axes. -/
def Volume.HasLengths (v : Volume) (outer middle inner : Nat) : Prop :=
  v.outer = outer ∧ v.middle = middle ∧ v.inner = inner

theorem Volume.getD_data {v : Volume} {a b c i j k : Nat} (lengths : v.HasLengths a b c)
    (hi : i < a) (hj : j < b) (hk : k < c) : v.data.getD (offset b c i j k) 0 = v.get i j k := by
  obtain ⟨rfl, rfl, rfl⟩ := lengths
  have inside : offset v.middle v.inner i j k < v.data.size := by
    rw [v.size_data]
    exact offset_lt hi hj hk
  simp [get, hi, hj, hk, inside]

theorem Volume.getElem?_data {v : Volume} {a b c i j k : Nat} (lengths : v.HasLengths a b c)
    (hi : i < a) (hj : j < b) (hk : k < c) : v.data[offset b c i j k]? = some (v.get i j k) := by
  have inside : offset b c i j k < v.data.size := by
    rw [v.size_data, lengths.1, lengths.2.1, lengths.2.2]
    exact offset_lt hi hj hk
  rw [← getD_data lengths hi hj hk, Array.getElem?_eq_getElem inside]
  simp [Array.getD, inside]

/-- All numbers of a volume are those at its positions. -/
theorem Volume.mem_data_iff {v : Volume} {x : Float32} :
    x ∈ v.data ↔ ∃ i j k, i < v.outer ∧ j < v.middle ∧ k < v.inner ∧ v.get i j k = x := by
  constructor
  · intro member
    obtain ⟨t, inside, rfl⟩ := Array.mem_iff_getElem.mp member
    obtain ⟨i, j, k, hi, hj, hk, position⟩ := exists_offset (v.size_data ▸ inside)
    refine ⟨i, j, k, hi, hj, hk, ?_⟩
    simp [get, hi, hj, hk, position]
  · rintro ⟨i, j, k, hi, hj, hk, rfl⟩
    unfold get
    rw [dif_pos ⟨hi, hj, hk⟩]
    exact Array.getElem_mem _

/-- Beside a volume there are zeros only. -/
theorem Volume.forall_get {v : Volume} {P : Float32 → Prop} (zero : P 0)
    (each : ∀ i j k, i < v.outer → j < v.middle → k < v.inner → P (v.get i j k)) (i j k : Nat) :
    P (v.get i j k) := by
  by_cases inside : i < v.outer ∧ j < v.middle ∧ k < v.inner
  · exact each i j k inside.1 inside.2.1 inside.2.2
  · rw [get_of_outside inside]
    exact zero

theorem Volume.forall_get_of_data {v : Volume} {P : Float32 → Prop} (zero : P 0)
    (each : ∀ x ∈ v.data, P x) : ∀ i j k, P (v.get i j k) :=
  forall_get zero fun i j k hi hj hk => each _ (mem_data_iff.mpr ⟨i, j, k, hi, hj, hk, rfl⟩)

theorem Volume.ofFn_eq {v : Volume} {a b c : Nat} {f : Nat → Nat → Nat → Float32}
    (lengths : v.HasLengths a b c)
    (same : ∀ i j k, i < a → j < b → k < c → f i j k = v.get i j k) : ofFn a b c f = v := by
  obtain ⟨rfl, rfl, rfl⟩ := lengths
  refine ext_get rfl rfl rfl fun i j k hi hj hk => ?_
  exact (get_ofFn f hi hj hk).trans (same i j k hi hj hk)

section Groups

variable {α β : Type} {group : α → List β} {size : Nat} {items : List α}

theorem length_flatMap_groups (each : ∀ item ∈ items, (group item).length = size) :
    (items.flatMap group).length = items.length * size := by
  induction items with
  | nil => simp
  | cons head tail ih =>
      have rest := ih fun item member => each item (.tail _ member)
      rw [List.flatMap_cons, List.length_append, rest, each head (.head _), List.length_cons,
        Nat.succ_mul, Nat.add_comm]

theorem getElem?_flatMap_groups (each : ∀ item ∈ items, (group item).length = size) {i j : Nat}
    (hi : i < items.length) (hj : j < size) :
    (items.flatMap group)[i * size + j]? = (group items[i])[j]? := by
  induction items generalizing i with
  | nil => simp at hi
  | cons head tail ih =>
      have first : (group head).length = size := each head (.head _)
      rw [List.flatMap_cons]
      cases i with
      | zero => rw [Nat.zero_mul, Nat.zero_add, List.getElem?_append_left (by omega)]; rfl
      | succ i =>
          have later : (i + 1) * size + j = (group head).length + (i * size + j) := by
            rw [first, Nat.succ_mul]
            omega
          rw [later, List.getElem?_append_right (Nat.le_add_right _ _), Nat.add_sub_cancel_left]
          exact ih (fun item member => each item (.tail _ member)) (Nat.lt_of_succ_lt_succ hi)

end Groups

end ViewClassifier
