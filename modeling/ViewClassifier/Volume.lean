import ViewClassifier.Binary32.Basic

/-!
# Volumes

Numbers on a grid with three axes, stored row-major. An image is a volume with the axes height,
width and channel, and a network input is one with the axes channel, height and width. Every
operation on volumes is given by the value at each position, so that `get_ofFn` says what it does.
-/

set_option autoImplicit false

namespace ViewClassifier

structure Volume where
  /-- Length of the slowest axis. -/
  outer : Nat
  middle : Nat
  /-- Length of the fastest axis. -/
  inner : Nat
  /-- All numbers in row-major order. -/
  data : Array Float32
  size_data : data.size = outer * middle * inner

namespace Volume

def offset (b c i j k : Nat) : Nat :=
  (i * b + j) * c + k

theorem offset_lt {a b c i j k : Nat} (hi : i < a) (hj : j < b) (hk : k < c) :
    offset b c i j k < a * b * c := by
  have row : i * b + j + 1 ≤ a * b :=
    calc i * b + j + 1 ≤ i * b + b := by omega
      _ = (i + 1) * b := by rw [Nat.succ_mul]
      _ ≤ a * b := Nat.mul_le_mul_right b hi
  calc offset b c i j k < (i * b + j) * c + c := by unfold offset; omega
    _ = (i * b + j + 1) * c := by rw [Nat.succ_mul]
    _ ≤ a * b * c := Nat.mul_le_mul_right c row

theorem row_of_place {n i j : Nat} (hj : j < n) : (i * n + j) / n = i := by
  rw [Nat.mul_comm, Nat.mul_add_div (by omega), Nat.div_eq_of_lt hj, Nat.add_zero]

theorem column_of_place {n i j : Nat} (hj : j < n) : (i * n + j) % n = j := by
  rw [Nat.mul_add_mod_self_right, Nat.mod_eq_of_lt hj]

theorem offset_mod {b c i j k : Nat} (hk : k < c) : offset b c i j k % c = k :=
  column_of_place hk

theorem offset_div {b c i j k : Nat} (hk : k < c) : offset b c i j k / c = i * b + j :=
  row_of_place hk

theorem exists_offset {a b c t : Nat} (inside : t < a * b * c) :
    ∃ i j k, i < a ∧ j < b ∧ k < c ∧ offset b c i j k = t := by
  have hc : 0 < c := Nat.pos_of_ne_zero (by rintro rfl; simp at inside)
  have hb : 0 < b := Nat.pos_of_ne_zero (by rintro rfl; simp at inside)
  have hi : t / c / b < a := by
    rw [Nat.div_lt_iff_lt_mul hb, Nat.div_lt_iff_lt_mul hc]; exact inside
  refine ⟨t / c / b, t / c % b, t % c, hi, Nat.mod_lt _ hb, Nat.mod_lt _ hc, ?_⟩
  rw [offset, Nat.mul_comm (t / c / b), Nat.div_add_mod, Nat.mul_comm, Nat.div_add_mod]

def get (v : Volume) (i j k : Nat) : Float32 :=
  if h : i < v.outer ∧ j < v.middle ∧ k < v.inner then
    have bound : offset v.middle v.inner i j k < v.data.size := by
      rw [v.size_data]; exact offset_lt h.1 h.2.1 h.2.2
    v.data[offset v.middle v.inner i j k]
  else 0

theorem get_of_outside {v : Volume} {i j k : Nat}
    (outside : ¬ (i < v.outer ∧ j < v.middle ∧ k < v.inner)) : v.get i j k = 0 :=
  dif_neg outside

def ofFn (a b c : Nat) (f : Nat → Nat → Nat → Float32) : Volume where
  outer := a
  middle := b
  inner := c
  data := Array.ofFn (n := a * b * c) fun t => f (t.val / c / b) (t.val / c % b) (t.val % c)
  size_data := by simp

@[simp] theorem outer_ofFn (a b c : Nat) (f : Nat → Nat → Nat → Float32) :
    (ofFn a b c f).outer = a := rfl

@[simp] theorem middle_ofFn (a b c : Nat) (f : Nat → Nat → Nat → Float32) :
    (ofFn a b c f).middle = b := rfl

@[simp] theorem inner_ofFn (a b c : Nat) (f : Nat → Nat → Nat → Float32) :
    (ofFn a b c f).inner = c := rfl

theorem get_ofFn {a b c i j k : Nat} (f : Nat → Nat → Nat → Float32)
    (hi : i < a) (hj : j < b) (hk : k < c) : (ofFn a b c f).get i j k = f i j k := by
  have row : offset b c i j k / c = i * b + j := offset_div hk
  have outer : (i * b + j) / b = i := row_of_place hj
  have middle : (i * b + j) % b = j := column_of_place hj
  simp [get, ofFn, hi, hj, hk, row, outer, middle, offset_mod hk]

/-- Volumes of the same lengths that agree at every position are the same. -/
theorem ext_get {v w : Volume} (outer : v.outer = w.outer) (middle : v.middle = w.middle)
    (inner : v.inner = w.inner)
    (same : ∀ i j k, i < v.outer → j < v.middle → k < v.inner → v.get i j k = w.get i j k) :
    v = w := by
  obtain ⟨a, b, c, data, size⟩ := v
  obtain ⟨a', b', c', data', size'⟩ := w
  cases outer; cases middle; cases inner
  simp only [mk.injEq, true_and]
  apply Array.ext (by rw [size, size'])
  intro t ht _
  rw [size] at ht
  obtain ⟨i, j, k, hi, hj, hk, position⟩ := exists_offset ht
  have := same i j k hi hj hk
  simpa [get, hi, hj, hk, position] using this

def map (f : Float32 → Float32) (v : Volume) : Volume where
  outer := v.outer
  middle := v.middle
  inner := v.inner
  data := v.data.map f
  size_data := by simp [v.size_data]

@[simp] theorem outer_map (f : Float32 → Float32) (v : Volume) : (v.map f).outer = v.outer := rfl

@[simp] theorem middle_map (f : Float32 → Float32) (v : Volume) : (v.map f).middle = v.middle :=
  rfl

@[simp] theorem inner_map (f : Float32 → Float32) (v : Volume) : (v.map f).inner = v.inner := rfl

theorem get_map {v : Volume} {i j k : Nat} (f : Float32 → Float32)
    (hi : i < v.outer) (hj : j < v.middle) (hk : k < v.inner) :
    (v.map f).get i j k = f (v.get i j k) := by
  simp [get, map, hi, hj, hk]

end Volume

structure Dims where
  height : Nat
  width : Nat
  deriving DecidableEq, Repr

/-- Both sides are words of 32 bits. -/
def Dims.InWords (d : Dims) : Prop :=
  d.height < UInt32.size ∧ d.width < UInt32.size

instance : DecidablePred Dims.InWords := fun _ => inferInstanceAs (Decidable (_ ∧ _))

abbrev Image := Volume

namespace Image

abbrev height (image : Image) : Nat := image.outer

abbrev width (image : Image) : Nat := image.middle

abbrev channels (image : Image) : Nat := image.inner

def dims (image : Image) : Dims :=
  ⟨image.height, image.width⟩

end Image

abbrev NetworkInput := Volume

end ViewClassifier
