import ViewClassifier.Proofs.Settings.Entries

/-!
# Objects of settings files

The texts of objects, put together from members with blanks between their parts. A text is read as
settings exactly when it is put together from acceptable entries.
-/

set_option autoImplicit false

namespace ViewClassifier

open Files (Bytes)

abbrev Blanks := { s : Bytes // Json.Blank s }

namespace Json

/-- The comma before a member that is not the first one. -/
def separator (first : Bool) : Bytes :=
  if first then [] else [byte ',']

theorem closeObject_eq_ok_iff {s rest : Bytes} :
    closeObject s = .ok rest ↔ skipSpace s = 0x7d :: rest := by
  unfold closeObject
  cases solid : skipSpace s with
  | nil => simp [stopAt]
  | cons b more =>
      by_cases closes : b = 0x7d
      · simp [closes]
      · simp only [closes, ↓reduceIte, List.cons.injEq, false_and, iff_false]
        intro read
        split at read
        · cases read
        · cases read

theorem quoted_eq_ok_iff {s : Bytes} {found : Option Bytes} :
    nextKey.quoted s = .ok found ↔ ∃ key, s = 0x22 :: key ∧ found = some key := by
  cases s with
  | nil => simp [nextKey.quoted, stopAt]
  | cons b rest =>
      by_cases quote : b = 0x22
      · simp [nextKey.quoted, quote, eq_comm]
      · simp [nextKey.quoted, quote, stopAt]

theorem nextKey_cons {first : Bool} {s rest : Bytes} {b : UInt8}
    (solid : skipSpace s = b :: rest) :
    nextKey first s =
      if b = 0x7d then .ok none
      else if first then nextKey.quoted (b :: rest)
      else if b = byte ',' then
        match skipSpace rest with
        | [] => stopAt .endInValue []
        | c :: more =>
            if c = 0x7d then stopAt .trailingComma (c :: more) else nextKey.quoted (c :: more)
      else stopAt .expectedObjectCommaOrEnd (b :: rest) := by
  unfold nextKey
  rewrite [solid]
  rfl

/-- Before a key there are blanks alone, or a comma with blanks around it. -/
theorem key_of_nextKey {first : Bool} {s : Bytes} {found : Option Bytes}
    (read : nextKey first s = .ok found) :
    (∃ rest, skipSpace s = 0x7d :: rest ∧ found = none) ∨
      ∃ (gap before : Blanks) (key : Bytes),
        s = gap.val ++ (separator first ++ (before.val ++ 0x22 :: key)) ∧ found = some key := by
  obtain ⟨gap, blank, same⟩ := exists_blank s
  cases solid : skipSpace s with
  | nil => simp [nextKey, solid, stopAt] at read
  | cons b rest =>
      rw [nextKey_cons solid] at read
      rw [solid] at same
      split at read
      · next closes =>
          subst closes
          exact .inl ⟨rest, rfl, (Except.ok.inj read).symm⟩
      cases first with
      | true =>
          obtain ⟨key, begins, rfl⟩ := quoted_eq_ok_iff.mp (if_pos rfl ▸ read)
          rw [begins] at same
          exact .inr ⟨⟨gap, blank⟩, ⟨[], blank_nil⟩, key, same, rfl⟩
      | false =>
          simp only [Bool.false_eq_true, ↓reduceIte] at read
          split at read
          · next comma =>
              subst comma
              obtain ⟨before, beforeBlank, sameRest⟩ := exists_blank rest
              cases solidRest : skipSpace rest with
              | nil => simp [solidRest, stopAt] at read
              | cons c more =>
                  simp only [solidRest] at read
                  split at read
                  · cases read
                  · obtain ⟨key, begins, rfl⟩ := quoted_eq_ok_iff.mp read
                    rw [solidRest, begins] at sameRest
                    rw [sameRest] at same
                    exact .inr ⟨⟨gap, blank⟩, ⟨before, beforeBlank⟩, key, same, rfl⟩
          · cases read

theorem nextKey_eq_none {first : Bool} {s rest : Bytes} (closes : skipSpace s = 0x7d :: rest) :
    nextKey first s = .ok none := by
  simp [nextKey_cons closes]

theorem nextKey_of_member (first : Bool) (gap before : Blanks) (key : Bytes) :
    nextKey first (gap.val ++ (separator first ++ (before.val ++ 0x22 :: key))) =
      .ok (some key) := by
  have opens : skipSpace (before.val ++ 0x22 :: key) = 0x22 :: key := by
    rw [skipSpace_append before.property, skipSpace_cons (by decide)]
  cases first with
  | true =>
      have solid : skipSpace (gap.val ++ (separator true ++ (before.val ++ 0x22 :: key))) =
          0x22 :: key := (skipSpace_append gap.property _).trans opens
      rw [nextKey_cons solid]
      rfl
  | false =>
      have solid : skipSpace (gap.val ++ (separator false ++ (before.val ++ 0x22 :: key))) =
          byte ',' :: (before.val ++ 0x22 :: key) := by
        rw [skipSpace_append gap.property]
        exact skipSpace_cons (by decide) _
      rw [nextKey_cons solid, opens]
      rfl

end Json

namespace Settings

open Json (Blank Clear byte)

/-- A member of an object. The value comes with the blanks before it. -/
structure Member where
  key : String
  value : Bytes
  before : Blanks
  /-- The key as it is spelled, with its closing quote. -/
  quoted : Bytes
  gap : Blanks
  after : Blanks
  spelled : Json.scanString quoted = .ok (key, [])

namespace Member

def entry (m : Member) : Entry :=
  (m.key, m.value)

/-- What follows the opening quote of the key, up to the end of the value. -/
def body (m : Member) : Bytes :=
  m.quoted ++ (m.gap.val ++ byte ':' :: m.value)

def text (m : Member) : Bytes :=
  m.before.val ++ 0x22 :: (m.body ++ m.after.val)

end Member

/-- Members with commas between them, and a comma before them unless they are the first ones. -/
def membersText (first : Bool) : List Member → Bytes
  | [] => []
  | m :: more => Json.separator first ++ (m.text ++ membersText false more)

structure ObjectText where
  before : Blanks
  inside : Blanks
  members : List Member
  after : Blanks

namespace ObjectText

def entries (object : ObjectText) : List Entry :=
  object.members.map Member.entry

def text (object : ObjectText) : Bytes :=
  object.before.val ++
    0x7b :: (object.inside.val ++ (membersText true object.members ++ 0x7d :: object.after.val))

end ObjectText

section Fields

variable {entries : List Entry} {key : String} {text : Bytes} {field : Field}

theorem lookup_eq_none_iff : entries.lookup key = none ↔ key ∉ entries.map Prod.fst := by
  simp only [List.lookup_eq_none_iff, bne_iff_ne, List.mem_map, not_exists, not_and]
  exact forall_congr' fun entry => imp_congr_right fun _ => ne_comm

theorem acceptable_concat_iff {entry : Entry} :
    Acceptable (entries ++ [entry]) ↔
      Acceptable entries ∧ Accepted entry ∧
        (field? entry.1 ≠ none → entry.1 ∉ entries.map Prod.fst) := by
  constructor
  · intro acceptable
    obtain ⟨accepted, distinct⟩ := acceptable
    obtain ⟨apart, _, across⟩ := List.pairwise_append.mp distinct
    refine ⟨⟨fun prior member => accepted prior (List.mem_append_left _ member), apart⟩,
      accepted entry (List.mem_append_right _ (.head _)), fun known present => ?_⟩
    obtain ⟨prior, member, same⟩ := List.mem_map.mp present
    exact known (same ▸ across prior member entry (.head _) same)
  · intro given
    obtain ⟨acceptable, accepted, absent⟩ := given
    constructor
    · intro prior member
      rcases List.mem_append.mp member with member | member
      · exact acceptable.accepted prior member
      · exact List.mem_singleton.mp member ▸ accepted
    · refine List.pairwise_append.mpr ⟨acceptable.distinct, List.pairwise_singleton _ _, ?_⟩
      intro prior priorMember last lastMember same
      obtain rfl := List.mem_singleton.mp lastMember
      cases names : field? prior.1 with
      | none => rfl
      | some field =>
          refine absurd (List.mem_map_of_mem priorMember) (same ▸ absent ?_)
          simp [← same, names]

theorem field_read (known : field? key = some field) (accepted : Accepted (key, text))
    (absent : entries.lookup key = none) {other : Bytes} (clear : Clear other) :
    field.read (.ofEntries entries) (text ++ other) =
      .ok (.ofEntries (entries ++ [(key, text)]), other) := by
  obtain ⟨member, rfl⟩ := field?_eq_some known
  obtain ⟨α, get, set, demand, shape, places⟩ := exists_places member
  have known := known.trans (congrArg some shape)
  obtain ⟨value, found⟩ := (accepted_iff known).mp accepted
  obtain ⟨front, same, reads⟩ :=
    places.sound.scan (Json.Demand.value?_eq_some_iff.mp found)
  rw [List.append_nil] at same
  subst same
  rw [shape]
  refine make_read_eq_ok_iff.mpr ⟨value, reads other clear, ?_⟩
  exact places.ofEntries_concat entries text value absent found

theorem entry_of_field_read (known : field? key = some field)
    (absent : entries.lookup key = none) {s rest : Bytes} {layer : Layer}
    (read : field.read (.ofEntries entries) s = .ok (layer, rest)) :
    ∃ text, s = text ++ rest ∧ Accepted (key, text) ∧
      layer = .ofEntries (entries ++ [(key, text)]) := by
  obtain ⟨member, rfl⟩ := field?_eq_some known
  obtain ⟨α, get, set, demand, shape, places⟩ := exists_places member
  have known := known.trans (congrArg some shape)
  rw [shape] at read
  obtain ⟨value, scanned, rfl⟩ := make_read_eq_ok_iff.mp read
  obtain ⟨text, rfl, reads⟩ := places.sound.scan scanned
  have found : demand.value? text = some value := by
    rw [Json.Demand.value?_eq_some_iff]
    simpa using reads [] Json.clear_nil
  refine ⟨text, rfl, (accepted_iff known).mpr ⟨value, found⟩, ?_⟩
  exact (places.ofEntries_concat entries text value absent found).symm

end Fields

section Members

variable {entries : List Entry} {layer : Layer} {s rest : Bytes}

theorem readMember_known {key : String} {field : Field}
    (spelled : Json.scanString s = .ok (key, rest)) (names : field? key = some field) :
    readMember layer s =
      if field.isSet layer then Json.stopAt (.duplicateField key) (Json.skipSpace rest)
      else Json.colon rest >>= field.read layer := by
  rw [readMember, spelled]
  simp only [bind, Except.bind, names]
  cases field.isSet layer with
  | true => rfl
  | false => rfl

theorem readMember_unknown {key : String} (spelled : Json.scanString s = .ok (key, rest))
    (names : field? key = none) :
    readMember layer s =
      Json.colon rest >>= fun s => Json.skipValue s >>= fun s => pure (layer, s) := by
  rw [readMember, spelled]
  simp only [bind, Except.bind, names]

theorem readMember_of_body {m : Member} (acceptable : Acceptable (entries ++ [m.entry]))
    (clear : Clear rest) :
    readMember (.ofEntries entries) (m.body ++ rest) =
      .ok (.ofEntries (entries ++ [m.entry]), rest) := by
  obtain ⟨prior, accepted, absent⟩ := acceptable_concat_iff.mp acceptable
  have colon : Json.colon (m.gap.val ++ byte ':' :: (m.value ++ rest)) = .ok (m.value ++ rest) := by
    rw [Json.colon_eq_ok_iff, Json.skipSpace_append m.gap.property]
    exact Json.skipSpace_cons (by decide) _
  have spelled : Json.scanString (m.body ++ rest) =
      .ok (m.key, m.gap.val ++ byte ':' :: (m.value ++ rest)) := by
    obtain ⟨quoted, same, reads⟩ := Json.framed_scanString m.spelled
    rw [List.append_nil] at same
    rw [Member.body, same, List.append_assoc, List.append_assoc, List.cons_append]
    exact reads _ (Json.clear_of_colon colon)
  cases names : field? m.key with
  | none =>
      have skipped : Json.skipValue m.value = .ok [] := by
        simpa only [Accepted, Member.entry, names] using accepted
      obtain ⟨value, same, reads⟩ := Json.passes_skipValue skipped
      rw [List.append_nil] at same
      rw [readMember_unknown spelled names, colon, same, Member.entry,
        ofEntries_concat_unknown names]
      show (Json.skipValue (value ++ rest) >>= _) = _
      rw [reads rest clear]
      rfl
  | some field =>
      have fresh : m.key ∉ entries.map Prod.fst := absent (by simp [Member.entry, names])
      have unset : ¬ field.isSet (.ofEntries entries) = true :=
        fun set => fresh ((prior.isSet_iff names).mp set)
      rw [readMember_known spelled names, if_neg unset, colon]
      exact field_read names accepted (lookup_eq_none_iff.mpr fresh) clear

theorem entry_of_readMember (acceptable : Acceptable entries)
    (read : readMember (.ofEntries entries) s = .ok (layer, rest)) :
    ∃ (key : String) (quoted : Bytes) (gap : Blanks) (value : Bytes),
      Json.scanString quoted = .ok (key, []) ∧
        s = quoted ++ (gap.val ++ byte ':' :: (value ++ rest)) ∧
        Acceptable (entries ++ [(key, value)]) ∧
        layer = .ofEntries (entries ++ [(key, value)]) := by
  obtain ⟨⟨key, left⟩, spelled, _⟩ := Json.bind_eq_ok_iff.mp read
  obtain ⟨quoted, rfl, reads⟩ := Json.framed_scanString spelled
  have alone : Json.scanString quoted = .ok (key, []) := by
    simpa using reads [] Json.clear_nil
  have separated : ∀ {after : Bytes}, Json.colon left = .ok after →
      ∃ gap : Blanks, left = gap.val ++ byte ':' :: after := by
    intro after colon
    obtain ⟨gap, blank, same⟩ := Json.exists_blank left
    exact ⟨⟨gap, blank⟩, Json.colon_eq_ok_iff.mp colon ▸ same⟩
  cases names : field? key with
  | none =>
      rw [readMember_unknown spelled names] at read
      obtain ⟨after, colon, read⟩ := Json.bind_eq_ok_iff.mp read
      obtain ⟨left, skipped, same⟩ := Json.bind_eq_ok_iff.mp read
      cases same
      obtain ⟨gap, rfl⟩ := separated colon
      obtain ⟨value, rfl, skips⟩ := Json.passes_skipValue skipped
      have accepted : Accepted (key, value) := by
        simp only [Accepted, names]
        simpa using skips [] Json.clear_nil
      refine ⟨key, quoted, gap, value, alone, rfl, ?_, (ofEntries_concat_unknown names).symm⟩
      exact acceptable_concat_iff.mpr ⟨acceptable, accepted, fun known => absurd names known⟩
  | some field =>
      rw [readMember_known spelled names] at read
      split at read
      · cases read
      · next unset =>
          obtain ⟨after, colon, further⟩ := Json.bind_eq_ok_iff.mp read
          obtain ⟨gap, rfl⟩ := separated colon
          have fresh : key ∉ entries.map Prod.fst :=
            fun present => unset ((acceptable.isSet_iff names).mpr present)
          obtain ⟨value, rfl, accepted, rfl⟩ :=
            entry_of_field_read names (lookup_eq_none_iff.mpr fresh) further
          refine ⟨key, quoted, gap, value, alone, rfl, ?_, rfl⟩
          exact acceptable_concat_iff.mpr ⟨acceptable, accepted, fun _ => fresh⟩

theorem Acceptable.left {others : List Entry} (acceptable : Acceptable (entries ++ others)) :
    Acceptable entries :=
  ⟨fun entry member => acceptable.accepted entry (List.mem_append_left _ member),
    (List.pairwise_append.mp acceptable.distinct).1⟩

theorem membersText_cons (first : Bool) (gap : Blanks) (m : Member) (more : List Member)
    (rest : Bytes) :
    gap.val ++ (membersText first (m :: more) ++ 0x7d :: rest) =
      gap.val ++ (Json.separator first ++ (m.before.val ++
        0x22 :: (m.body ++ (m.after.val ++ (membersText false more ++ 0x7d :: rest))))) := by
  simp [membersText, Member.text]

theorem skipSpace_closing (gap : Blanks) (rest : Bytes) :
    Json.skipSpace (gap.val ++ 0x7d :: rest) = 0x7d :: rest := by
  rw [Json.skipSpace_append gap.property]
  exact Json.skipSpace_cons (by decide) _

/-- After a value there is the closing brace or a comma, which no number goes on with. -/
theorem clear_membersText (gap : Blanks) (members : List Member) (rest : Bytes) :
    Clear (gap.val ++ (membersText false members ++ 0x7d :: rest)) := by
  cases members with
  | nil =>
      exact Json.clear_of_skipSpace (skipSpace_closing gap rest) (Json.clear_cons.mpr (by decide))
  | cons m more =>
      have comma : Json.skipSpace (gap.val ++ (membersText false (m :: more) ++ 0x7d :: rest)) =
          byte ',' :: (m.text ++ membersText false more ++ 0x7d :: rest) := by
        rw [Json.skipSpace_append gap.property]
        exact Json.skipSpace_cons (by decide) _
      exact Json.clear_of_skipSpace comma (Json.clear_cons.mpr (by decide))

/-- Members up to the closing brace, read after others that gave the entries before them. -/
theorem readMembers_of_members {fuel : Nat} {first : Bool} {gap : Blanks} {members : List Member}
    (acceptable : Acceptable (entries ++ members.map Member.entry))
    (enough : (gap.val ++ (membersText first members ++ 0x7d :: rest)).length < fuel) :
    ∃ left, Json.closeObject left = .ok rest ∧
      readMembers fuel first (.ofEntries entries)
          (gap.val ++ (membersText first members ++ 0x7d :: rest)) =
        .ok (.ofEntries (entries ++ members.map Member.entry), left) := by
  induction members generalizing entries fuel first gap with
  | nil =>
      obtain ⟨fuel, rfl⟩ : ∃ less, fuel = less + 1 := ⟨fuel - 1, by omega⟩
      have closes := skipSpace_closing gap rest
      refine ⟨gap.val ++ 0x7d :: rest, Json.closeObject_eq_ok_iff.mpr closes, ?_⟩
      rw [List.map_nil, List.append_nil]
      show readMembers (fuel + 1) first _ (gap.val ++ 0x7d :: rest) = _
      rw [readMembers, Json.nextKey_eq_none closes]
      rfl
  | cons m more ih =>
      obtain ⟨fuel, rfl⟩ : ∃ less, fuel = less + 1 := ⟨fuel - 1, by omega⟩
      rw [membersText_cons] at enough ⊢
      have shorter : (m.after.val ++ (membersText false more ++ 0x7d :: rest)).length < fuel := by
        simp only [List.length_append, List.length_cons] at enough ⊢
        omega
      rw [List.map_cons, List.append_cons entries] at acceptable ⊢
      obtain ⟨left, closed, reads⟩ := ih acceptable shorter
      refine ⟨left, closed, ?_⟩
      rw [readMembers, Json.nextKey_of_member]
      show (readMember _ _ >>= _) = _
      rw [readMember_of_body acceptable.left (clear_membersText m.after more rest)]
      exact reads

theorem members_of_readMembers {fuel : Nat} {first : Bool} {left : Bytes}
    (acceptable : Acceptable entries) (enough : s.length < fuel)
    (read : readMembers fuel first (.ofEntries entries) s = .ok (layer, left))
    (closed : Json.closeObject left = .ok rest) :
    ∃ (gap : Blanks) (members : List Member),
      s = gap.val ++ (membersText first members ++ 0x7d :: rest) ∧
        Acceptable (entries ++ members.map Member.entry) ∧
        layer = .ofEntries (entries ++ members.map Member.entry) := by
  induction fuel generalizing entries s first with
  | zero => omega
  | succ fuel ih =>
      obtain ⟨found, next, further⟩ := Json.bind_eq_ok_iff.mp read
      rcases Json.key_of_nextKey next with ⟨after, closes, rfl⟩ | ⟨gap, before, begun, rfl, rfl⟩
      · cases further
        obtain ⟨gap, blank, same⟩ := Json.exists_blank left
        rw [Json.closeObject_eq_ok_iff.mp closed] at same
        refine ⟨⟨gap, blank⟩, [], same, ?_, ?_⟩
        · simpa using acceptable
        · simp
      · obtain ⟨⟨changed, after⟩, member, further⟩ := Json.bind_eq_ok_iff.mp further
        obtain ⟨key, quoted, colon, value, spelled, rfl, acceptable, rfl⟩ :=
          entry_of_readMember acceptable member
        have shorter : after.length < fuel := by
          simp only [List.length_append, List.length_cons] at enough
          omega
        obtain ⟨gapAfter, members, rfl, accepted, rfl⟩ := ih acceptable shorter further
        let m : Member := ⟨key, value, before, quoted, colon, gapAfter, spelled⟩
        refine ⟨gap, m :: members, ?_, ?_, ?_⟩
        · rw [membersText_cons]
          simp [m, Member.body]
        · simpa [m, Member.entry] using accepted
        · simp [m, Member.entry]

end Members

theorem ObjectText.head?_skipSpace (object : ObjectText) :
    (Json.skipSpace object.text).head? = some 0x7b := by
  rw [ObjectText.text, Json.skipSpace_append object.before.property,
    Json.skipSpace_cons (by decide)]
  rfl

section Texts

variable {content rest : Bytes} {layer : Layer}

theorem ofText_eq_ok_iff : Layer.ofText content = .ok layer ↔ Layer.scan content = .ok layer := by
  unfold Layer.ofText
  cases Layer.scan content with
  | error stop => simp
  | ok found => simp

theorem finish_eq_ok_iff {found : Layer} :
    Layer.scan.finish layer rest = .ok found ↔ Blank rest ∧ layer = found := by
  rw [← Json.skipSpace_eq_nil_iff]
  unfold Layer.scan.finish
  cases Json.skipSpace rest with
  | nil => simp
  | cons b more => simp [Json.stopAt]

theorem scan_object (opens : Json.skipSpace content = 0x7b :: rest) :
    Layer.scan content =
      readMembers content.length true (.ofEntries []) rest >>= fun found =>
        Json.closeObject found.2 >>= Layer.scan.finish found.1 := by
  have list : ¬ (0x7b : UInt8) = byte '[' := by decide
  simp only [Layer.scan, opens, if_neg list, ↓reduceIte]
  rfl

/-- An object is read as settings exactly when its entries are acceptable, and it gives what they
stand for. -/
theorem ofText_object_iff (object : (Json.skipSpace content).head? = some 0x7b) :
    Layer.ofText content = .ok layer ↔
      ∃ object : ObjectText, object.text = content ∧ Acceptable object.entries ∧
        layer = .ofEntries object.entries := by
  obtain ⟨rest, opens⟩ := List.head?_eq_some_iff.mp object
  obtain ⟨before, blank, same⟩ := Json.exists_blank content
  rw [opens] at same
  have enough : rest.length < content.length := by
    rw [same, List.length_append, List.length_cons]
    omega
  rw [ofText_eq_ok_iff, scan_object opens]
  constructor
  · intro read
    obtain ⟨⟨found, left⟩, reads, further⟩ := Json.bind_eq_ok_iff.mp read
    obtain ⟨after, closed, finished⟩ := Json.bind_eq_ok_iff.mp further
    obtain ⟨afterBlank, rfl⟩ := finish_eq_ok_iff.mp finished
    have none : Acceptable [] := ⟨fun _ impossible => (List.not_mem_nil impossible).elim, .nil⟩
    obtain ⟨inside, members, rfl, acceptable, rfl⟩ :=
      members_of_readMembers none enough reads closed
    exact ⟨⟨⟨before, blank⟩, inside, members, ⟨after, afterBlank⟩⟩, same.symm, acceptable, rfl⟩
  · intro given
    obtain ⟨object, text, acceptable, rfl⟩ := given
    have opened : 0x7b :: rest = 0x7b :: (object.inside.val ++
        (membersText true object.members ++ 0x7d :: object.after.val)) := by
      rw [← opens, ← text, ObjectText.text, Json.skipSpace_append object.before.property]
      exact Json.skipSpace_cons (by decide) _
    obtain rfl := (List.cons.inj opened).2
    have entries : Acceptable ([] ++ object.members.map Member.entry) := acceptable
    obtain ⟨left, closed, reads⟩ := readMembers_of_members entries enough
    refine Json.bind_eq_ok_iff.mpr ⟨_, reads, Json.bind_eq_ok_iff.mpr ⟨_, closed, ?_⟩⟩
    exact finish_eq_ok_iff.mpr ⟨object.after.property, rfl⟩

end Texts

end Settings

end ViewClassifier
