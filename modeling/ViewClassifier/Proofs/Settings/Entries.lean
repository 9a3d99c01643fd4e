import ViewClassifier.Proofs.Json.Skipping
import ViewClassifier.Proofs.Json.Values
import ViewClassifier.Settings.Reading

/-!
# Entries of a settings file

The layer of settings that keys with texts of values stand for. It is found key by key, so that it
depends neither on the order of the entries nor on entries whose keys name no setting.
-/

set_option autoImplicit false

namespace ViewClassifier

open Files (Bytes)

/-- The value that a text is. -/
def Json.Demand.value? {α : Type} (d : Demand α) (text : Bytes) : Option α :=
  match d.scan text with
  | .ok (value, []) => some value
  | _ => none

theorem Json.Demand.value?_eq_some_iff {α : Type} {d : Demand α} {text : Bytes} {value : α} :
    d.value? text = some value ↔ d.scan text = .ok (value, []) := by
  unfold value?
  split
  · next found read => simp [read]
  · next other =>
      constructor
      · intro impossible
        cases impossible
      · intro read
        exact absurd read (other value)

namespace Settings

open Json (Demand Framed Clear)

/-- A key with the text of its value. -/
abbrev Entry := String × Bytes

/-- The value that the entries give for a key. -/
def valueOf {α : Type} (d : Demand α) (key : String) (entries : List Entry) : Option α :=
  (entries.lookup key).bind d.value?

def Layer.ofEntries (entries : List Entry) : Layer where
  model := valueOf path "model" entries
  weights := valueOf (.orNull path) "weights" entries
  image := valueOf path "image" entries
  mean := valueOf (.orNull path) "mean" entries
  channelSwap := valueOf (.orNull (.listOf .count)) "channel_swap" entries
  rawScale := valueOf (.orNull .real) "raw_scale" entries
  inputScale := valueOf (.orNull .real) "input_scale" entries
  imageDims := valueOf dims "image_dims" entries
  cropDims := valueOf dims "crop_dims" entries
  oversample := valueOf .bool "oversample" entries
  colour := valueOf .bool "color" entries
  outDir := valueOf path "out_dir" entries

theorem sound_dims : dims.Sound where
  fails := fun _ impossible => nomatch impossible
  framed := by
    intro s value rest read
    obtain ⟨⟨⟨height, width⟩, left⟩, pair, same⟩ := Json.bind_eq_ok_iff.mp read
    cases same
    have soundCount : Demand.count.Sound := Demand.sound_number _ _
    exact ((Demand.sound_pairOf soundCount).framed pair).map
      (f := fun found => ((⟨found.1.1, found.1.2⟩ : Dims), found.2))

section Concat

variable {α : Type} {d : Demand α} {entries : List Entry} {key : String} {text : Bytes}

theorem valueOf_concat_self (absent : entries.lookup key = none) :
    valueOf d key (entries ++ [(key, text)]) = d.value? text := by
  simp [valueOf, List.lookup_append, absent]

theorem valueOf_concat_of_ne {other : String} (different : other ≠ key) :
    valueOf d other (entries ++ [(key, text)]) = valueOf d other entries := by
  have none : [(key, text)].lookup other = none := by
    simp [List.lookup_cons, beq_false_of_ne different]
  rw [valueOf, List.lookup_append, none, Option.or_none, valueOf]

end Concat

/-- A kind of value that the setting with a key has, and the place of it in a layer. -/
structure Places {α : Type} (key : String) (get : Layer → Option α) (set : Layer → α → Layer)
    (demand : Demand α) : Prop where
  sound : demand.Sound
  get_ofEntries : ∀ entries, get (.ofEntries entries) = valueOf demand key entries
  ofEntries_concat : ∀ entries text value, entries.lookup key = none →
    demand.value? text = some value →
      Layer.ofEntries (entries ++ [(key, text)]) = set (.ofEntries entries) value

theorem exists_places {field : Field} (member : field ∈ fields) :
    ∃ (α : Type) (get : Layer → Option α) (set : Layer → α → Layer) (demand : Demand α),
      field = .make field.key get set demand ∧ Places field.key get set demand := by
  have soundPath : path.Sound := Demand.sound_text _
  have soundCounts : (Demand.listOf .count).Sound := Demand.sound_listOf (Demand.sound_number _ _)
  have soundReal : Demand.real.Sound := Demand.sound_number _ _
  simp only [fields, List.mem_cons, List.not_mem_nil, or_false] at member
  -- the place of every setting is found in one way, and the kinds of value differ
  rcases member with rfl | rfl | rfl | rfl | rfl | rfl | rfl | rfl | rfl | rfl | rfl | rfl <;>
    (refine ⟨_, _, _, _, rfl, ?_⟩
     constructor
     case get_ofEntries => exact fun _ => rfl
     case ofEntries_concat =>
       intro entries text value absent found
       simp only [Field.make] at absent
       simp [Layer.ofEntries, Field.make, valueOf_concat_self absent, found, valueOf_concat_of_ne])
  · exact soundPath
  · exact Demand.sound_orNull soundPath
  · exact soundPath
  · exact Demand.sound_orNull soundPath
  · exact Demand.sound_orNull soundCounts
  · exact Demand.sound_orNull soundReal
  · exact Demand.sound_orNull soundReal
  · exact sound_dims
  · exact sound_dims
  · exact Demand.sound_bool
  · exact Demand.sound_bool
  · exact soundPath

theorem field?_eq_some {key : String} {field : Field} (known : field? key = some field) :
    field ∈ fields ∧ field.key = key :=
  ⟨List.mem_of_find?_eq_some known, by simpa using List.find?_some known⟩

theorem field?_key {field : Field} (member : field ∈ fields) :
    field? field.key = some field := by
  simp only [fields, List.mem_cons, List.not_mem_nil, or_false] at member
  rcases member with rfl | rfl | rfl | rfl | rfl | rfl | rfl | rfl | rfl | rfl | rfl | rfl <;> rfl

/-- A value that the setting of the key takes. Without such a setting, any value will do. -/
def Accepted (entry : Entry) : Prop :=
  match field? entry.1 with
  | some field => ∃ layer, field.read {} entry.2 = .ok (layer, [])
  | none => Json.skipValue entry.2 = .ok []

/-- Entries of a settings file. A key that names a setting stands in one of them at most. -/
structure Acceptable (entries : List Entry) : Prop where
  accepted : ∀ entry ∈ entries, Accepted entry
  distinct : entries.Pairwise fun left right => left.1 = right.1 → field? left.1 = none

section Fields

variable {α : Type} {key : String} {get : Layer → Option α} {set : Layer → α → Layer}
  {demand : Demand α}

theorem make_read_eq_ok_iff {layer changed : Layer} {s rest : Bytes} :
    (Field.make key get set demand).read layer s = .ok (changed, rest) ↔
      ∃ value, demand.scan s = .ok (value, rest) ∧ changed = set layer value := by
  constructor
  · intro read
    obtain ⟨⟨value, left⟩, scanned, same⟩ := Json.bind_eq_ok_iff.mp read
    cases same
    exact ⟨value, scanned, rfl⟩
  · intro given
    obtain ⟨value, scanned, rfl⟩ := given
    exact Json.bind_eq_ok_iff.mpr ⟨_, scanned, rfl⟩

theorem accepted_iff {text : Bytes} (known : field? key = some (.make key get set demand)) :
    Accepted (key, text) ↔ ∃ value, demand.value? text = some value := by
  simp only [Accepted, known, make_read_eq_ok_iff, Demand.value?_eq_some_iff]
  constructor
  · intro accepted
    obtain ⟨_, value, scanned, _⟩ := accepted
    exact ⟨value, scanned⟩
  · intro given
    obtain ⟨value, scanned⟩ := given
    exact ⟨_, value, scanned, rfl⟩

end Fields

section Acceptable

variable {entries others : List Entry} {key : String} {text : Bytes} {field : Field}

theorem mem_of_lookup (found : entries.lookup key = some text) : (key, text) ∈ entries := by
  obtain ⟨front, back, rfl, _⟩ := List.lookup_eq_some_iff.mp found
  exact List.mem_append_right _ (.head _)

theorem Acceptable.isSet_iff (acceptable : Acceptable entries) (known : field? key = some field) :
    field.isSet (.ofEntries entries) = true ↔ key ∈ entries.map Prod.fst := by
  obtain ⟨member, rfl⟩ := field?_eq_some known
  obtain ⟨α, get, set, demand, shape, places⟩ := exists_places member
  have known : field? field.key = some (.make field.key get set demand) :=
    known.trans (congrArg some shape)
  have isSet : field.isSet (.ofEntries entries) = (get (.ofEntries entries)).isSome := by
    rw [shape]
    rfl
  rw [isSet, places.get_ofEntries, valueOf]
  cases found : entries.lookup field.key with
  | none =>
      simp only [List.lookup_eq_none_iff, bne_iff_ne] at found
      simp only [Option.bind_none, Option.isSome_none, Bool.false_eq_true, false_iff]
      intro present
      obtain ⟨entry, inside, same⟩ := List.mem_map.mp present
      exact found entry inside same.symm
  | some text =>
      have inside := mem_of_lookup found
      obtain ⟨value, read⟩ := (accepted_iff known).mp (acceptable.accepted _ inside)
      simp only [Option.bind_some, read, Option.isSome_some, true_iff]
      exact List.mem_map_of_mem inside

/-- An entry that names a setting is the only one that does. -/
theorem Acceptable.lookup_eq_some_iff (acceptable : Acceptable entries)
    (known : field? key ≠ none) : entries.lookup key = some text ↔ (key, text) ∈ entries := by
  constructor
  · exact mem_of_lookup
  · intro member
    obtain ⟨front, back, rfl⟩ := List.append_of_mem member
    refine List.lookup_eq_some_iff.mpr ⟨front, back, rfl, fun entry inside => ?_⟩
    rw [bne_iff_ne]
    rintro rfl
    exact known ((List.pairwise_append.mp acceptable.distinct).2.2 entry inside _ (.head _) rfl)

theorem ofEntries_concat_unknown (unknown : field? key = none) :
    Layer.ofEntries (entries ++ [(key, text)]) = .ofEntries entries := by
  have other : ∀ field ∈ fields, field.key ≠ key := by
    intro field member same
    have := List.find?_eq_none.mp unknown field member
    simp [same] at this
  simp only [fields, Field.make, List.forall_mem_cons] at other
  obtain ⟨model, weights, image, mean, swap, raw, input, imageDims, cropDims, oversample, colour,
    outDir, _⟩ := other
  simp only [Layer.ofEntries, valueOf_concat_of_ne, model, weights, image, mean, swap, raw, input,
    imageDims, cropDims, oversample, colour, outDir, ne_eq, not_false_eq_true]

def known (entry : Entry) : Bool :=
  (field? entry.1).isSome

theorem accepted_of_unknown {entry : Entry} (unknown : known entry = false)
    (skipped : Json.skipValue entry.2 = .ok []) : Accepted entry := by
  have none : field? entry.1 = none := by simpa [known] using unknown
  simpa only [Accepted, none] using skipped

/-- Entries whose keys name no setting can be added, dropped and moved, and all others be moved. -/
theorem Acceptable.perm (acceptable : Acceptable entries)
    (same : (entries.filter known).Perm (others.filter known))
    (skipped : ∀ entry ∈ others, known entry = false → Accepted entry) : Acceptable others := by
  constructor
  · intro entry member
    cases names : known entry with
    | false => exact skipped entry member names
    | true =>
        have inside := same.mem_iff.mpr (List.mem_filter.mpr ⟨member, names⟩)
        exact acceptable.accepted entry (List.mem_filter.mp inside).1
  · have symmetric : ∀ {left right : Entry}, (left.1 = right.1 → field? left.1 = none) →
        right.1 = left.1 → field? right.1 = none :=
      fun apart equal => equal ▸ apart equal.symm
    have apart := (same.pairwise_iff symmetric).mp (acceptable.distinct.filter known)
    refine (List.pairwise_filter.mp apart).imp fun {left right} named equal => ?_
    cases names : field? left.1 with
    | none => rfl
    | some field =>
        have leftKnown : known left = true := by simp [known, names]
        have rightKnown : known right = true := by simp [known, ← equal, names]
        exact absurd (named leftKnown rightKnown equal) (by simp [names])

theorem Acceptable.lookup_perm (acceptable : Acceptable entries)
    (otherAcceptable : Acceptable others)
    (same : (entries.filter known).Perm (others.filter known)) (names : field? key ≠ none) :
    others.lookup key = entries.lookup key := by
  have isKnown : ∀ text, known (key, text) = true := fun text => Option.isSome_iff_ne_none.mpr names
  refine Option.ext fun text => ?_
  rw [otherAcceptable.lookup_eq_some_iff names, acceptable.lookup_eq_some_iff names]
  have moved := same.mem_iff (a := (key, text))
  simpa [List.mem_filter, isKnown] using moved.symm

theorem ofEntries_congr
    (same : ∀ key, field? key ≠ none → others.lookup key = entries.lookup key) :
    Layer.ofEntries others = .ofEntries entries := by
  have named : ∀ field ∈ fields, others.lookup field.key = entries.lookup field.key := by
    intro field member
    refine same field.key fun none => ?_
    simpa using List.find?_eq_none.mp none field member
  simp only [fields, Field.make, List.forall_mem_cons] at named
  obtain ⟨model, weights, image, mean, swap, raw, input, imageDims, cropDims, oversample, colour,
    outDir, _⟩ := named
  simp only [Layer.ofEntries, valueOf, model, weights, image, mean, swap, raw, input, imageDims,
    cropDims, oversample, colour, outDir]

end Acceptable

end Settings

end ViewClassifier
