import ViewClassifier.Json.Demand
import ViewClassifier.Proofs.Json.Numbers

/-!
# What a value of a wanted kind has read

Every kind of value is read in the same way whatever follows the value. The fuel for the items of a
list never runs out.
-/

set_option autoImplicit false

namespace ViewClassifier.Json

open Files (Bytes)

theorem framed_scanSigned : Framed scanSigned := by
  intro s n rest read
  cases s with
  | nil => cases read
  | cons b tail =>
      by_cases minus : b = byte '-'
      · subst minus
        exact .cons (fun _ => rfl) (framed_scanNumber true read)
      · have moves : ∀ tail, scanSigned (b :: tail) = scanNumber false (b :: tail) :=
          fun tail => if_neg minus
        rw [moves] at read
        exact .as moves (framed_scanNumber false read) fun _ impossible => nomatch impossible

theorem bind_ne_ok {α β : Type} (step : Except Stop α) {next : α → Except Stop β}
    (stops : ∀ found value, next found ≠ .ok value) (value : β) : step >>= next ≠ .ok value := by
  intro read
  obtain ⟨found, _, impossible⟩ := bind_eq_ok_iff.mp read
  exact stops found value impossible

theorem wrongKind_ne_ok {α : Type} (expected : String) (s : Bytes) (value : α) :
    wrongKind expected s ≠ .ok value := by
  intro read
  cases s with
  | nil => cases read
  | cons b rest =>
      simp only [wrongKind] at read
      split at read
      · exact bind_ne_ok _ nofun _ read
      split at read
      · exact bind_ne_ok _ nofun _ read
      split at read
      · exact bind_ne_ok _ nofun _ read
      split at read
      · exact bind_ne_ok _ nofun _ read
      split at read
      · exact bind_ne_ok _ nofun _ read
      split at read
      · cases read
      split at read
      · cases read
      · cases read

/-- A word that is read as a value of its own. -/
theorem Uses.named {γ : Type} {step : Bytes → Except Stop (γ × Bytes)} {letters : List Char}
    {b : UInt8} {s rest : Bytes} {value found : γ}
    (moves : ∀ tail, step (b :: tail) = word letters tail >>= fun rest => pure (value, rest))
    (read : step (b :: s) = .ok (found, rest)) :
    Uses step (b :: s) rest fun rest => (found, rest) := by
  rw [moves] at read
  obtain ⟨left, word, same⟩ := bind_eq_ok_iff.mp read
  cases same
  exact .cons moves (passes_word _ word).map

namespace Demand

/-- A kind of value that is read alike whatever follows, and that is not read off nothing. -/
structure Sound {α : Type} (d : Demand α) : Prop where
  framed : Framed d.read
  fails : ∀ value, d.read [] ≠ .ok value

theorem scan_nil_ne_ok {α : Type} (d : Demand α) (value : α × Bytes) : d.scan [] ≠ .ok value :=
  nofun

theorem Sound.scan {α : Type} {d : Demand α} (sound : d.Sound) : Framed d.scan := by
  intro s value rest read
  cases found : skipSpace s with
  | nil => simp [Demand.scan, found, stopAt] at read
  | cons b tail =>
      have moves : ∀ other tail, skipSpace other = b :: tail → d.scan other = d.read (b :: tail) :=
        fun other tail behind => by simp only [Demand.scan, behind]
      rw [moves s tail found] at read
      exact .spaced found moves ((sound.framed read).uncons sound.fails)

section Kinds

variable {α : Type} {d : Demand α} {expected : String}

theorem sound_of_cons (nothing : d.read [] = stopAt .expectedValue [])
    (some : ∀ ⦃b s value rest⦄, d.read (b :: s) = .ok (value, rest) →
      Uses d.read (b :: s) rest fun rest => (value, rest)) : d.Sound := by
  have fails : ∀ value, d.read [] ≠ .ok value := nothing ▸ nofun
  refine ⟨fun s value rest read => ?_, fails⟩
  cases s with
  | nil => exact absurd read (fails _)
  | cons b s => exact some read

/-- A kind of value that one byte announces. -/
theorem sound_of_opening {opening : UInt8} {inside : Bytes → Scan α} (framed : Framed inside)
    (nothing : d.read [] = stopAt .expectedValue [])
    (moves : ∀ b s, d.read (b :: s) =
      if b = opening then inside s else wrongKind expected (b :: s)) : d.Sound := by
  refine sound_of_cons nothing fun b s value rest read => ?_
  by_cases opens : b = opening
  · have moves : ∀ s, d.read (b :: s) = inside s := fun s => (moves b s).trans (if_pos opens)
    rw [moves] at read
    exact .cons moves (framed read)
  · rw [moves, if_neg opens] at read
    exact absurd read (wrongKind_ne_ok _ _ _)

end Kinds

theorem sound_text (expected : String) : (text expected).Sound :=
  sound_of_opening framed_scanString rfl fun _ _ => rfl

theorem sound_bool : bool.Sound := by
  refine sound_of_cons rfl fun b s value rest read => ?_
  by_cases yes : b = byte 't'
  · exact .named (fun _ => if_pos yes) read
  by_cases no : b = byte 'f'
  · exact .named (fun _ => (if_neg yes).trans (if_pos no)) read
  · have other : bool.read (b :: s) = wrongKind "a boolean" (b :: s) :=
      (if_neg yes).trans (if_neg no)
    exact absurd (other.symm.trans read) (wrongKind_ne_ok _ _ _)

theorem number_eq_ok_iff {α : Type} {expected : String} {accept : Number → Except Cause α}
    {b : UInt8} {s rest : Bytes} {value : α} (starts : startsNumber b = true) :
    (number expected accept).read (b :: s) = .ok (value, rest) ↔
      ∃ n, scanSigned (b :: s) = .ok (n, rest) ∧ accept n = .ok value := by
  constructor
  · intro read
    obtain ⟨⟨n, left⟩, scanned, read⟩ := bind_eq_ok_iff.mp ((if_pos starts).symm.trans read)
    dsimp only at read
    cases accepted : accept n with
    | error cause =>
        rw [accepted] at read
        cases read
    | ok found =>
        rw [accepted] at read
        cases read
        exact ⟨n, scanned, accepted⟩
  · intro given
    obtain ⟨n, scanned, accepted⟩ := given
    refine (if_pos starts).trans (bind_eq_ok_iff.mpr ⟨_, scanned, ?_⟩)
    dsimp only
    rewrite [accepted]
    rfl

theorem sound_number {α : Type} (expected : String) (accept : Number → Except Cause α) :
    (number expected accept).Sound := by
  refine sound_of_cons rfl fun b s value rest read => ?_
  cases starts : startsNumber b with
  | true =>
      obtain ⟨n, scanned, accepted⟩ := (number_eq_ok_iff starts).mp read
      obtain ⟨text, same, reads⟩ := (framed_scanSigned scanned).uncons nofun
      refine ⟨b :: text, congrArg (b :: ·) same, fun other clear => ?_⟩
      exact (number_eq_ok_iff starts).mpr ⟨n, reads other clear, accepted⟩
  | false =>
      have other : (number expected accept).read (b :: s) = wrongKind expected (b :: s) :=
        if_neg (starts ▸ Bool.false_ne_true)
      exact absurd (other.symm.trans read) (wrongKind_ne_ok _ _ _)

theorem sound_orNull {α : Type} {d : Demand α} (sound : d.Sound) : (orNull d).Sound := by
  refine sound_of_cons rfl fun b s value rest read => ?_
  by_cases null : b = byte 'n'
  · exact .named (fun _ => if_pos null) read
  · have moves : ∀ s, (orNull d).read (b :: s) =
        d.scan (b :: s) >>= fun found => pure (some found.1, found.2) := fun s => if_neg null
    rw [moves] at read
    obtain ⟨⟨found, left⟩, scanned, same⟩ := bind_eq_ok_iff.mp read
    cases same
    exact .cons moves ((sound.scan scanned).uncons d.scan_nil_ne_ok).map

section Lists

theorem nextItem_eq_none_iff {first : Bool} {s : Bytes} :
    nextItem first s = .ok none ↔ ∃ rest, skipSpace s = byte ']' :: rest := by
  unfold nextItem
  cases found : skipSpace s with
  | nil => simp [stopAt]
  | cons b rest =>
      by_cases closes : b = byte ']'
      · simp [closes]
      · simp only [closes, ↓reduceIte, List.cons.injEq, false_and, exists_false, iff_false]
        intro read
        split at read
        · cases read
        split at read
        · split at read
          · cases read
          · split at read
            · cases read
            · cases read
        · cases read

/-- What stands before an item, and the first byte of it. -/
theorem nextItem_eq_some {first : Bool} {s item : Bytes}
    (found : nextItem first s = .ok (some item)) :
    ∃ front b tail, item = b :: tail ∧ s = front ++ item ∧
      ∀ tail, nextItem first (front ++ b :: tail) = .ok (some (b :: tail)) := by
  cases solid : skipSpace s with
  | nil => simp [nextItem, solid, stopAt] at found
  | cons b rest =>
      obtain ⟨front, rfl, behind⟩ := exists_front solid
      by_cases closes : b = byte ']'
      · subst closes
        simp [nextItem, solid] at found
      cases first with
      | true =>
          simp only [nextItem, solid, closes, ↓reduceIte, Except.ok.injEq, Option.some.injEq]
            at found
          subst found
          refine ⟨front, b, rest, rfl, rfl, fun tail => ?_⟩
          simp only [nextItem, behind, closes, ↓reduceIte]
      | false =>
          by_cases comma : b = byte ','
          · subst comma
            cases solidNext : skipSpace rest with
            | nil => simp [nextItem, solid, closes, solidNext, stopAt] at found
            | cons c more =>
                obtain ⟨gap, rfl, behindNext⟩ := exists_front solidNext
                by_cases trailing : c = byte ']'
                · subst trailing
                  simp [nextItem, solid, closes, solidNext, stopAt] at found
                · simp only [nextItem, solid, closes, solidNext, trailing, ↓reduceIte,
                    Except.ok.injEq, Option.some.injEq, Bool.false_eq_true] at found
                  subst found
                  refine ⟨front ++ byte ',' :: gap, c, more, rfl, by simp, fun tail => ?_⟩
                  simp only [List.append_assoc, List.cons_append, nextItem, behind, behindNext,
                    closes, trailing, ↓reduceIte, Bool.false_eq_true]
          · simp [nextItem, solid, closes, comma, stopAt] at found

theorem clear_of_nextItem {s : Bytes} {item : Option Bytes}
    (found : nextItem false s = .ok item) : Clear s := by
  cases solid : skipSpace s with
  | nil => simp [nextItem, solid, stopAt] at found
  | cons b rest =>
      by_cases closes : b = byte ']'
      · subst closes
        exact clear_of_skipSpace solid (clear_cons.mpr (by decide))
      by_cases comma : b = byte ','
      · subst comma
        exact clear_of_skipSpace solid (clear_cons.mpr (by decide))
      · simp [nextItem, solid, closes, comma, stopAt] at found

theorem closeList_eq_ok_iff {s rest : Bytes} :
    closeList s = .ok rest ↔ skipSpace s = byte ']' :: rest := by
  unfold closeList
  cases solid : skipSpace s with
  | nil => simp [stopAt]
  | cons b more =>
      by_cases closes : b = byte ']'
      · simp [closes]
      · simp only [closes, ↓reduceIte, List.cons.injEq, false_and, iff_false]
        intro read
        split at read
        · split at read
          · split at read
            · cases read
            · cases read
          · cases read
        · cases read

theorem length_nextItem {first : Bool} {s item : Bytes}
    (found : nextItem first s = .ok (some item)) : item.length ≤ s.length := by
  obtain ⟨front, b, tail, _, rfl, _⟩ := nextItem_eq_some found
  simp

theorem clear_of_closeList {s rest : Bytes} (closed : closeList s = .ok rest) : Clear s :=
  clear_of_skipSpace (closeList_eq_ok_iff.mp closed) (clear_cons.mpr (by decide))

end Lists

end Demand

theorem Uses.item {γ : Type} {step next : Bytes → Except Stop γ} {first : Bool}
    {s item rest : Bytes} {result : Bytes → γ} (found : Demand.nextItem first s = .ok (some item))
    (moves : ∀ other item, Demand.nextItem first other = .ok (some item) → step other = next item)
    (fails : ∀ value, next [] ≠ .ok value) (uses : Uses next item rest result) :
    Uses step s rest result := by
  obtain ⟨front, b, tail, rfl, rfl, finds⟩ := Demand.nextItem_eq_some found
  obtain ⟨text, rfl, reads⟩ := uses.uncons fails
  refine ⟨front ++ b :: text, by simp, fun other clear => ?_⟩
  rw [List.append_assoc, List.cons_append, moves _ _ (finds _)]
  exact reads other clear

theorem Uses.close {s rest : Bytes} (closed : Demand.closeList s = .ok rest) :
    Uses Demand.closeList s rest id :=
  .spaced (Demand.closeList_eq_ok_iff.mp closed)
    (fun _ _ solid => Demand.closeList_eq_ok_iff.mpr solid) (.nothing fun _ _ => rfl)

namespace Demand

section Items

variable {α : Type} {d : Demand α}

theorem Sound.length_scan (sound : d.Sound) {s rest : Bytes} {value : α}
    (read : d.scan s = .ok (value, rest)) : rest.length < s.length :=
  (sound.scan read).length_lt d.scan_nil_ne_ok

/-- More fuel than there are bytes does not change anything. -/
theorem items_fuel (sound : d.Sound) {fuel more : Nat} {first : Bool} {s : Bytes}
    (enough : s.length < fuel) (alsoEnough : s.length < more) :
    d.items fuel first s = d.items more first s := by
  induction fuel generalizing more first s with
  | zero => omega
  | succ fuel ih =>
      obtain ⟨more, rfl⟩ : ∃ less, more = less + 1 := ⟨more - 1, by omega⟩
      unfold items
      cases found : nextItem first s with
      | error stop => rfl
      | ok item =>
          cases item with
          | none => rfl
          | some item =>
              cases read : d.scan item with
              | error stop => simp [bind, Except.bind, read]
              | ok result =>
                  obtain ⟨value, rest⟩ := result
                  have shorter := sound.length_scan read
                  have inside := length_nextItem found
                  have same : d.items fuel false rest = d.items more false rest :=
                    ih (by omega) (by omega)
                  simp only [bind, Except.bind, read, same]

/-- The items of a list and its closing bracket, without the fuel. -/
def listTail (d : Demand α) (first : Bool) (s : Bytes) : Except Stop (List α × Bytes) := do
  let (values, rest) ← d.items (s.length + 1) first s
  return (values, ← closeList rest)

theorem listTail_of_end {first : Bool} {s : Bytes} (found : nextItem first s = .ok none) :
    d.listTail first s = closeList s >>= fun rest => pure ([], rest) := by
  simp only [listTail, items, found, bind, Except.bind]
  rfl

theorem listTail_of_item (sound : d.Sound) {first : Bool} {s item : Bytes}
    (found : nextItem first s = .ok (some item)) :
    d.listTail first s =
      d.scan item >>= fun head => d.listTail false head.2 >>= fun tail =>
        pure (head.1 :: tail.1, tail.2) := by
  have unfolded : d.items (s.length + 1) first s =
      d.scan item >>= fun head => d.items s.length false head.2 >>= fun tail =>
        pure (head.1 :: tail.1, tail.2) := by
    rw [items, found]
    rfl
  simp only [listTail, unfolded, bind_assoc, pure_bind]
  cases read : d.scan item with
  | error stop => rfl
  | ok head =>
      have shorter := sound.length_scan read
      have inside := length_nextItem found
      have same : d.items s.length false head.2 = d.items (head.2.length + 1) false head.2 :=
        items_fuel sound (by omega) (by omega)
      show (d.items s.length false head.2 >>= _) = (d.items (head.2.length + 1) false head.2 >>= _)
      rw [same]

theorem clear_of_listTail {s : Bytes} {value : List α × Bytes}
    (read : d.listTail false s = .ok value) : Clear s := by
  obtain ⟨_, collected, _⟩ := bind_eq_ok_iff.mp read
  obtain ⟨_, found, _⟩ := bind_eq_ok_iff.mp collected
  exact clear_of_nextItem found

theorem framed_listTail (sound : d.Sound) (first : Bool) : Framed (d.listTail first) := by
  intro s values rest read
  -- each item leaves less to read than there was before it
  induction length : s.length using Nat.strongRecOn generalizing s first values with
  | ind n ih =>
      subst length
      cases found : nextItem first s with
      | error stop =>
          obtain ⟨_, collected, _⟩ := bind_eq_ok_iff.mp read
          obtain ⟨_, impossible, _⟩ := bind_eq_ok_iff.mp collected
          rw [found] at impossible
          cases impossible
      | ok item =>
          cases item with
          | none =>
              obtain ⟨tail, solid⟩ := nextItem_eq_none_iff.mp found
              rw [listTail_of_end found] at read
              obtain ⟨left, closed, same⟩ := bind_eq_ok_iff.mp read
              cases same
              refine .spaced (closeList_eq_ok_iff.mp closed) (fun other tail solid => ?_)
                (.nothing fun _ _ => rfl)
              rw [listTail_of_end (nextItem_eq_none_iff.mpr ⟨tail, solid⟩),
                closeList_eq_ok_iff.mpr solid]
              rfl
          | some item =>
              rw [listTail_of_item sound found] at read
              obtain ⟨⟨head, left⟩, scanned, further⟩ := bind_eq_ok_iff.mp read
              obtain ⟨⟨tail, ended⟩, listed, same⟩ := bind_eq_ok_iff.mp further
              cases same
              have shorter := sound.length_scan scanned
              have inside := length_nextItem found
              have others : Uses (fun s => d.listTail false s >>= fun tail =>
                  pure (head :: tail.1, tail.2)) left ended fun rest => (head :: tail, rest) :=
                (ih left.length (by omega) false listed rfl).map (f := fun t => (head :: t.1, t.2))
              refine .item found (fun other item finds => listTail_of_item sound finds) ?_
                ((sound.scan scanned).bind (clear_of_listTail listed) others)
              intro value impossible
              obtain ⟨_, impossible, _⟩ := bind_eq_ok_iff.mp impossible
              exact d.scan_nil_ne_ok _ impossible

end Items

theorem sound_listOf {α : Type} {d : Demand α} (sound : d.Sound) : (listOf d).Sound :=
  sound_of_opening (framed_listTail sound true) rfl fun _ _ => rfl

section Pairs

variable {α : Type} {d : Demand α}

/-- What follows the first item of a pair. -/
def secondTail (d : Demand α) (first : α) (s : Bytes) : Except Stop ((α × α) × Bytes) := do
  let some s ← nextItem false s | tooFew 1 "an array of length 2" s
  let (second, s) ← d.scan s
  return ((first, second), ← closeList s)

/-- What follows the opening bracket of a pair. -/
def firstTail (d : Demand α) (s : Bytes) : Except Stop ((α × α) × Bytes) := do
  let some s ← nextItem true s | tooFew 0 "an array of length 2" s
  let (first, s) ← d.scan s
  d.secondTail first s

theorem firstTail_of_item {s item : Bytes} (found : nextItem true s = .ok (some item)) :
    d.firstTail s = d.scan item >>= fun head => d.secondTail head.1 head.2 := by
  rw [firstTail, found]
  rfl

theorem secondTail_of_item {first : α} {s item : Bytes}
    (found : nextItem false s = .ok (some item)) :
    d.secondTail first s = d.scan item >>= fun second =>
      closeList second.2 >>= fun rest => pure ((first, second.1), rest) := by
  rw [secondTail, found]
  rfl

theorem scan_bind_nil_ne_ok {β : Type} (next : α × Bytes → Except Stop β) (value : β) :
    d.scan [] >>= next ≠ .ok value :=
  nofun

theorem framed_secondTail (sound : d.Sound) (first : α) : Framed (d.secondTail first) := by
  intro s pair rest read
  obtain ⟨item, found, further⟩ := bind_eq_ok_iff.mp read
  cases item with
  | none => cases further
  | some item =>
      rw [secondTail_of_item found] at read
      obtain ⟨⟨second, left⟩, scanned, further⟩ := bind_eq_ok_iff.mp read
      obtain ⟨_, closed, same⟩ := bind_eq_ok_iff.mp further
      cases same
      have ends : Uses (fun s => closeList s >>= fun rest => pure ((first, second), rest)) left rest
          fun rest => ((first, second), rest) :=
        (Uses.close closed).map (f := fun rest => ((first, second), rest))
      exact .item found (fun other item finds => secondTail_of_item finds)
        (scan_bind_nil_ne_ok _) ((sound.scan scanned).bind (clear_of_closeList closed) ends)

theorem framed_firstTail (sound : d.Sound) : Framed d.firstTail := by
  intro s pair rest read
  obtain ⟨item, found, further⟩ := bind_eq_ok_iff.mp read
  cases item with
  | none => cases further
  | some item =>
      rw [firstTail_of_item found] at read
      obtain ⟨⟨first, left⟩, scanned, further⟩ := bind_eq_ok_iff.mp read
      obtain ⟨_, foundNext, _⟩ := bind_eq_ok_iff.mp further
      exact .item found (fun other item finds => firstTail_of_item finds)
        (scan_bind_nil_ne_ok _) ((sound.scan scanned).bind (clear_of_nextItem foundNext)
          (framed_secondTail sound first further))

end Pairs

theorem sound_pairOf {α : Type} {d : Demand α} (sound : d.Sound) : (pairOf d).Sound :=
  sound_of_opening (framed_firstTail sound) rfl fun _ _ => rfl

end Demand

end ViewClassifier.Json
