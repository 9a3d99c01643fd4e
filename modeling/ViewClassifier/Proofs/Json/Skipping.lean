import ViewClassifier.Json.Skipping
import ViewClassifier.Proofs.Json.Numbers

/-!
# What has been passed over

Passing over a value uses that value alone, and the fuel for the values inside it never runs out.
-/

set_option autoImplicit false

namespace ViewClassifier.Json

open Files (Bytes)

theorem colon_eq_ok_iff {s rest : Bytes} :
    colon s = .ok rest ↔ skipSpace s = byte ':' :: rest := by
  unfold colon
  cases solid : skipSpace s with
  | nil => simp [stopAt]
  | cons b more =>
      by_cases colon : b = byte ':'
      · simp [colon]
      · simp [colon, stopAt]

theorem clear_of_colon {s rest : Bytes} (found : colon s = .ok rest) : Clear s :=
  clear_of_skipSpace (colon_eq_ok_iff.mp found) (clear_cons.mpr (by decide))

section Steps

variable {γ : Type} {next : Bytes → Except Stop γ} {s tail rest : Bytes} {result : Bytes → γ}

theorem Uses.colon (found : colon s = .ok tail) (uses : Uses next tail rest result) :
    Uses (fun s => Json.colon s >>= next) s rest result := by
  refine .spaced (colon_eq_ok_iff.mp found) (fun other tail solid => ?_) uses
  show Json.colon other >>= next = next tail
  rw [colon_eq_ok_iff.mpr solid]
  rfl

theorem Uses.key (found : skipKey s = .ok tail) (uses : Uses next tail rest result) :
    Uses (fun s => skipKey s >>= next) s rest result := by
  cases solid : skipSpace s with
  | nil => simp [skipKey, solid, stopAt] at found
  | cons b more =>
      by_cases quote : b = 0x22
      · subst quote
        have moves : ∀ other tail, skipSpace other = 0x22 :: tail →
            skipKey other = skipString .plain tail >>= Json.colon :=
          fun other tail solid => by simp only [skipKey, solid, ↓reduceIte]
        rw [moves s more solid] at found
        obtain ⟨behind, skipped, separated⟩ := bind_eq_ok_iff.mp found
        refine .spaced solid (fun other tail solid => ?_) ((passes_skipString _ skipped).past
          (clear_of_colon separated) (.colon separated uses))
        show skipKey other >>= next = skipString .plain tail >>= fun s => Json.colon s >>= next
        rw [moves other tail solid, bind_assoc]
      · simp [skipKey, solid, quote, stopAt] at found

end Steps

theorem length_skipKey {s rest : Bytes} (found : skipKey s = .ok rest) :
    rest.length ≤ s.length := by
  have uses : Uses (fun s => skipKey s >>= fun s => .ok s) s rest id :=
    .key found (.nothing fun _ _ => rfl)
  obtain ⟨text, rfl, _⟩ := uses
  simp

theorem Passes.ite {condition : Prop} [Decidable condition] {skip other : Bytes → Except Stop Bytes}
    (yes : Passes skip) (no : Passes other) :
    Passes fun s => if condition then skip s else other s := by
  by_cases holds : condition
  · simpa only [if_pos holds] using yes
  · simpa only [if_neg holds] using no

theorem passes_skipScalar (b : UInt8) : Passes (skipScalar b) := by
  have digits : Passes fun rest => skipNumber (b :: rest) := fun _ _ read =>
    (passes_skipNumber read).uncons nofun
  have others : Passes fun rest => stopAt .expectedValue (b :: rest) := nofun
  exact .ite (passes_word _) <| .ite (passes_word _) <| .ite (passes_word _) <|
    .ite passes_skipNumber <| .ite digits <| .ite (passes_skipString _) others

/-- What may stand in the place of a rest: anything clear where no bracket is open any more, and
otherwise what begins alike. -/
structure Replaces (brackets : List Bracket) (rest other : Bytes) : Prop where
  clear : brackets = [] → Clear other
  head?_eq : brackets ≠ [] → other.head? = rest.head?

theorem skipClosings_cons {afterValue : Bool} {bracket : Bracket} {outer : List Bracket}
    {s more : Bytes} {b : UInt8} (solid : skipSpace s = b :: more) :
    skipClosings afterValue (bracket :: outer) s =
      if b = byte ',' ∧ afterValue then .ok (bracket :: outer, more)
      else if b = bracket.closing then skipClosings true outer more
      else if afterValue then stopAt bracket.atMore (b :: more)
      else .ok (bracket :: outer, b :: more) := by
  simp only [skipClosings, solid]

theorem skipClosings_framed {afterValue : Bool} {brackets left : List Bracket} {s rest : Bytes}
    (read : skipClosings afterValue brackets s = .ok (left, rest)) :
    ∃ text, s = text ++ rest ∧ ∀ other, Replaces left rest other →
      skipClosings afterValue brackets (text ++ other) = .ok (left, other) := by
  induction brackets generalizing afterValue s with
  | nil =>
      obtain ⟨rfl, rfl⟩ := Prod.mk.inj (Except.ok.inj read)
      exact ⟨[], rfl, fun other _ => rfl⟩
  | cons bracket outer ih =>
      cases solid : skipSpace s with
      | nil => simp [skipClosings, solid, stopAt] at read
      | cons b more =>
          obtain ⟨front, rfl, behind⟩ := exists_front solid
          rw [skipClosings_cons solid] at read
          by_cases comma : b = byte ',' ∧ afterValue = true
          · rw [if_pos comma] at read
            cases read
            refine ⟨front ++ [b], by simp, fun other _ => ?_⟩
            rw [List.append_assoc, List.singleton_append, skipClosings_cons (behind other),
              if_pos comma]
          rw [if_neg comma] at read
          by_cases closes : b = bracket.closing
          · rw [if_pos closes] at read
            obtain ⟨text, rfl, reads⟩ := ih read
            refine ⟨front ++ b :: text, by simp, fun other replaces => ?_⟩
            rw [List.append_assoc, List.cons_append, skipClosings_cons (behind _), if_neg comma,
              if_pos closes]
            exact reads other replaces
          rw [if_neg closes] at read
          by_cases after : afterValue = true
          · rw [if_pos after] at read
            cases read
          · rw [if_neg after] at read
            cases read
            refine ⟨front, rfl, fun other replaces => ?_⟩
            have first : other.head? = some b := replaces.head?_eq (List.cons_ne_nil _ _)
            obtain ⟨tail, rfl⟩ := List.head?_eq_some_iff.mp first
            rw [skipClosings_cons (behind tail), if_neg comma, if_neg closes, if_neg after]

/-- The beginning of a value and the closing brackets behind it, with a comma. -/
def skipOne (brackets : List Bracket) (s : Bytes) : Except Stop (List Bracket × Bytes) :=
  match skipSpace s with
  | [] => stopAt .endInValue []
  | b :: rest =>
      if b = byte '[' then skipClosings false (.list :: brackets) rest
      else if b = 0x7b then skipClosings false (.object :: brackets) rest
      else do skipClosings true brackets (← skipScalar b rest)

theorem clear_of_skipClosings {bracket : Bracket} {outer : List Bracket} {s : Bytes}
    {result : List Bracket × Bytes}
    (read : skipClosings true (bracket :: outer) s = .ok result) : Clear s := by
  cases solid : skipSpace s with
  | nil => simp [skipClosings, solid, stopAt] at read
  | cons b more =>
      rw [skipClosings_cons solid] at read
      by_cases comma : b = byte ',' ∧ true = true
      · exact clear_of_skipSpace solid (clear_cons.mpr (comma.1 ▸ by decide))
      by_cases closes : b = bracket.closing
      · refine clear_of_skipSpace solid (clear_cons.mpr (closes ▸ ?_))
        cases bracket with
        | list => decide
        | object => decide
      · rw [if_neg comma, if_neg closes] at read
        cases read

theorem Replaces.clear_append {left : List Bracket} {text rest other : Bytes}
    (replaces : Replaces left rest other) (clear : Clear (text ++ rest)) :
    Clear (text ++ other) := by
  by_cases closed : left = []
  · exact clear.append (replaces.clear closed)
  · cases text with
    | nil =>
        intro b first
        exact clear b ((replaces.head?_eq closed).symm.trans first)
    | cons b more => exact clear_cons.mpr (clear_cons.mp clear)

theorem skipOne_framed {brackets left : List Bracket} {s rest : Bytes}
    (read : skipOne brackets s = .ok (left, rest)) :
    ∃ text, text ≠ [] ∧ s = text ++ rest ∧ ∀ other, Replaces left rest other →
      skipOne brackets (text ++ other) = .ok (left, other) := by
  cases solid : skipSpace s with
  | nil => simp [skipOne, solid, stopAt] at read
  | cons b more =>
      obtain ⟨front, rfl, behind⟩ := exists_front solid
      have moves : ∀ tail, skipOne brackets (front ++ b :: tail) =
          if b = byte '[' then skipClosings false (.list :: brackets) tail
          else if b = 0x7b then skipClosings false (.object :: brackets) tail
          else skipScalar b tail >>= skipClosings true brackets :=
        fun tail => by simp only [skipOne, behind]
      rw [moves] at read
      by_cases list : b = byte '['
      · rw [if_pos list] at read
        obtain ⟨text, rfl, reads⟩ := skipClosings_framed read
        refine ⟨front ++ b :: text, by simp, by simp, fun other replaces => ?_⟩
        rw [List.append_assoc, List.cons_append, moves, if_pos list, reads other replaces]
      by_cases object : b = 0x7b
      · rw [if_neg list, if_pos object] at read
        obtain ⟨text, rfl, reads⟩ := skipClosings_framed read
        refine ⟨front ++ b :: text, by simp, by simp, fun other replaces => ?_⟩
        rw [List.append_assoc, List.cons_append, moves, if_neg list, if_pos object,
          reads other replaces]
      · rw [if_neg list, if_neg object] at read
        obtain ⟨middle, scalar, closings⟩ := bind_eq_ok_iff.mp read
        obtain ⟨text, rfl, reads⟩ := passes_skipScalar b scalar
        obtain ⟨back, rfl, closes⟩ := skipClosings_framed closings
        refine ⟨front ++ b :: (text ++ back), by simp, by simp, fun other replaces => ?_⟩
        have clear : Clear (back ++ other) := by
          cases brackets with
          | nil =>
              obtain ⟨rfl, same⟩ := Prod.mk.inj (Except.ok.inj closings)
              obtain rfl : back = [] := List.append_left_eq_self.mp same
              exact replaces.clear rfl
          | cons bracket outer => exact replaces.clear_append (clear_of_skipClosings closings)
        rw [List.append_assoc, List.cons_append, List.append_assoc, moves, if_neg list,
          if_neg object, reads _ clear]
        exact closes other replaces

theorem length_skipOne {brackets left : List Bracket} {s rest : Bytes}
    (read : skipOne brackets s = .ok (left, rest)) : rest.length < s.length := by
  obtain ⟨text, some, rfl, _⟩ := skipOne_framed read
  have := List.length_pos_iff.mpr some
  rw [List.length_append]
  omega

theorem skipInside_succ (fuel : Nat) (brackets : List Bracket) (s : Bytes) :
    skipInside (fuel + 1) brackets s = skipOne brackets s >>= fun found =>
      match found.1 with
      | [] => pure found.2
      | .object :: _ => skipKey found.2 >>= skipInside fuel found.1
      | .list :: _ => skipInside fuel found.1 found.2 := by
  rw [skipInside, skipOne]
  cases skipSpace s with
  | nil => rfl
  | cons b rest =>
      by_cases list : b = byte '['
      · subst list
        rfl
      by_cases object : b = 0x7b
      · subst object
        rfl
      · dsimp only
        rewrite [if_neg list, if_neg list, if_neg object, if_neg object, bind_assoc]
        rfl

theorem skipInside_fuel {fuel more : Nat} {brackets : List Bracket} {s : Bytes}
    (enough : s.length < fuel) (alsoEnough : s.length < more) :
    skipInside fuel brackets s = skipInside more brackets s := by
  induction fuel generalizing more brackets s with
  | zero => omega
  | succ fuel ih =>
      obtain ⟨more, rfl⟩ : ∃ less, more = less + 1 := ⟨more - 1, by omega⟩
      rw [skipInside_succ, skipInside_succ]
      cases begun : skipOne brackets s with
      | error stop => rfl
      | ok found =>
          obtain ⟨left, rest⟩ := found
          have shorter := length_skipOne begun
          cases left with
          | nil => rfl
          | cons bracket outer =>
              cases bracket with
              | list =>
                  show skipInside fuel (.list :: outer) rest = skipInside more (.list :: outer) rest
                  exact ih (by omega) (by omega)
              | object =>
                  cases key : skipKey rest with
                  | error stop => simp only [bind, Except.bind, key]
                  | ok value =>
                      have inside := length_skipKey key
                      simp only [bind, Except.bind, key]
                      exact ih (by omega) (by omega)

/-- The rest of a value inside open brackets, without the fuel. -/
def skipOpen (brackets : List Bracket) (s : Bytes) : Except Stop Bytes :=
  skipInside (s.length + 1) brackets s

theorem skipOpen_eq (brackets : List Bracket) (s : Bytes) :
    skipOpen brackets s = skipOne brackets s >>= fun found =>
      match found.1 with
      | [] => pure found.2
      | .object :: _ => skipKey found.2 >>= skipOpen found.1
      | .list :: _ => skipOpen found.1 found.2 := by
  rw [skipOpen, skipInside_succ]
  cases begun : skipOne brackets s with
  | error stop => rfl
  | ok found =>
      obtain ⟨left, rest⟩ := found
      have shorter := length_skipOne begun
      cases left with
      | nil => rfl
      | cons bracket outer =>
          cases bracket with
          | list =>
              show skipInside s.length (.list :: outer) rest =
                skipInside (rest.length + 1) (.list :: outer) rest
              exact skipInside_fuel (by omega) (by omega)
          | object =>
              cases key : skipKey rest with
              | error stop => simp only [bind, Except.bind, key]
              | ok value =>
                  have inside := length_skipKey key
                  simp only [bind, Except.bind, key]
                  exact skipInside_fuel (by omega) (by omega)

theorem uses_skipOpen {brackets outer : List Bracket} {bracket : Bracket} {s middle rest : Bytes}
    {next : Bytes → Except Stop Bytes}
    (begun : skipOne brackets s = .ok (bracket :: outer, middle))
    (moves : ∀ other tail, skipOne brackets other = .ok (bracket :: outer, tail) →
      skipOpen brackets other = next tail)
    (fails : ∀ value, next [] ≠ .ok value) (uses : Uses next middle rest id) :
    Uses (skipOpen brackets) s rest id := by
  obtain ⟨front, _, rfl, reads⟩ := skipOne_framed begun
  obtain ⟨back, rfl, continues⟩ := uses
  refine ⟨front ++ back, (List.append_assoc ..).symm, fun other clear => ?_⟩
  have replaces : Replaces (bracket :: outer) (back ++ rest) (back ++ other) := by
    constructor
    · intro impossible
      cases impossible
    · intro _
      cases back with
      | nil => exact absurd (continues [] clear_nil) (fails _)
      | cons b more => rfl
  rw [List.append_assoc, moves _ _ (reads _ replaces)]
  exact continues other clear

theorem skipOpen_nil_ne_ok (brackets : List Bracket) (value : Bytes) :
    skipOpen brackets [] ≠ .ok value :=
  fun impossible => nomatch impossible

theorem skipKey_nil_ne_ok (next : Bytes → Except Stop Bytes) (value : Bytes) :
    skipKey [] >>= next ≠ .ok value :=
  fun impossible => nomatch impossible

theorem passes_skipOpen (brackets : List Bracket) : Passes (skipOpen brackets) := by
  intro s rest read
  induction length : s.length using Nat.strongRecOn generalizing s brackets with
  | ind n ih =>
      subst length
      rw [skipOpen_eq] at read
      obtain ⟨⟨left, middle⟩, begun, further⟩ := bind_eq_ok_iff.mp read
      have shorter := length_skipOne begun
      cases left with
      | nil =>
          cases further
          obtain ⟨text, _, rfl, reads⟩ := skipOne_framed begun
          refine ⟨text, rfl, fun other clear => ?_⟩
          rw [skipOpen_eq, reads other ⟨fun _ => clear, fun some => absurd rfl some⟩]
          rfl
      | cons bracket outer =>
          cases bracket with
          | list =>
              refine uses_skipOpen begun (fun other tail begun => ?_) (skipOpen_nil_ne_ok _)
                (ih middle.length shorter _ further rfl)
              rw [skipOpen_eq, begun]
              rfl
          | object =>
              obtain ⟨value, key, inside⟩ := bind_eq_ok_iff.mp further
              have length : value.length ≤ middle.length := length_skipKey key
              refine uses_skipOpen begun (fun other tail begun => ?_) (skipKey_nil_ne_ok _)
                (.key key (ih value.length (by omega) _ inside rfl))
              rw [skipOpen_eq, begun]
              rfl

theorem passes_skipValue : Passes skipValue :=
  passes_skipOpen []

end ViewClassifier.Json
