import ViewClassifier.Proofs.Files.Writing
import ViewClassifier.Proofs.Text.Pieces

/-!
# What a path names

A path is read from left to right, and every part of it leads from a directory to a place: a slash and
`.` stay, `..` goes up, and a name goes down. A text resolves to a location exactly when it leads there.
So a text keeps its meaning when a slash is repeated, and when `./` or a directory and `/../` are put
in front of a part of it.
-/

set_option autoImplicit false

namespace ViewClassifier.Files

/-- What can stand behind a part of a path: nothing, or a slash. -/
def Ends (rest : List Char) : Prop :=
  ∀ c, rest.head? = some c → c = '/'

theorem ends_nil : Ends [] :=
  fun _ none => nomatch none

theorem ends_slash (rest : List Char) : Ends ('/' :: rest) :=
  fun _ first => (Option.some.inj first).symm

/-- A name that an entry of a directory can have. -/
structure Plain (name : List Char) : Prop where
  nonempty : name ≠ []
  noSlash : '/' ∉ name
  notHere : name ≠ ['.']
  notUp : name ≠ ['.', '.']

/-- Where a text leads from a place. -/
inductive Leads (t : Tree) : Location → List Char → Location → Prop where
  | done {place : Location} : Leads t place [] place
  | slash {place target : Location} {rest : List Char}
      (directory : t.find? place = some .directory) (more : Leads t place rest target) :
      Leads t place ('/' :: rest) target
  | stay {place target : Location} {rest : List Char}
      (directory : t.find? place = some .directory) (ends : Ends rest)
      (more : Leads t place rest target) : Leads t place ('.' :: rest) target
  | up {place target : Location} {rest : List Char}
      (directory : t.find? place = some .directory) (ends : Ends rest)
      (more : Leads t place.dropLast rest target) : Leads t place ('.' :: '.' :: rest) target
  | down {place target : Location} {name rest : List Char}
      (directory : t.find? place = some .directory) (plain : Plain name)
      (there : (t.find? (place ++ [String.ofList name])).isSome = true) (ends : Ends rest)
      (more : Leads t (place ++ [String.ofList name]) rest target) : Leads t place (name ++ rest) target

/-- Where a text starts from: the root if its first character is a slash, and the current directory if
it is not. -/
def startOf (t : Tree) (chars : List Char) : Location :=
  if chars.head? = some '/' then [] else t.here

/-- A text names the location that it leads to. -/
structure Names (t : Tree) (text : String) (location : Location) : Prop where
  nonempty : text ≠ ""
  clean : '\x00' ∉ text.toList
  leads : Leads t (startOf t text.toList) text.toList location

section Turns

/-- The names between the slashes of a text. -/
def namesBetween (chars : List Char) : List String :=
  ((Text.pieces '/' chars).filter (· ≠ [])).map String.ofList

/-- The names that a text is walked by. A slash at the end asks for a directory, as `.` does. -/
def turns (chars : List Char) : List String :=
  namesBetween chars ++ if chars.getLast? = some '/' then ["."] else []

variable {chars part rest : List Char}

theorem namesBetween_part (nonempty : part ≠ []) (noSlash : '/' ∉ part) :
    namesBetween part = [String.ofList part] := by
  unfold namesBetween
  rw [Text.pieces_eq_splitOn, List.splitOn_eq_singleton noSlash]
  simp [nonempty]

theorem namesBetween_append_slash (front rest : List Char) :
    namesBetween (front ++ '/' :: rest) = namesBetween front ++ namesBetween rest := by
  simp [namesBetween, Text.pieces_eq_splitOn, List.splitOn_append_cons_self]

theorem namesBetween_slash (rest : List Char) : namesBetween ('/' :: rest) = namesBetween rest :=
  rfl

theorem turns_part (nonempty : part ≠ []) (noSlash : '/' ∉ part) :
    turns part = [String.ofList part] := by
  have last : part.getLast? ≠ some '/' := fun last => noSlash (List.mem_of_getLast? last)
  rw [turns, namesBetween_part nonempty noSlash, if_neg last]
  rfl

/-- What stands behind a slash is walked after what stands before it. -/
theorem turns_append_slash (front rest : List Char) :
    turns (front ++ '/' :: rest) = namesBetween front ++ turns ('/' :: rest) := by
  have last : (front ++ '/' :: rest).getLast? = ('/' :: rest).getLast? := by
    rw [List.getLast?_append, List.getLast?_cons]
    rfl
  rw [turns, turns, last, namesBetween_append_slash, namesBetween_slash, List.append_assoc]

theorem turns_slash (rest : List Char) :
    turns ('/' :: rest) = if rest = [] then ["."] else turns rest := by
  cases rest with
  | nil => rfl
  | cons c more => rfl

theorem turns_append (nonempty : part ≠ []) (noSlash : '/' ∉ part) (ends : Ends rest) :
    turns (part ++ rest) = String.ofList part :: turns rest := by
  cases rest with
  | nil =>
      rw [List.append_nil, turns_part nonempty noSlash]
      rfl
  | cons c more =>
      obtain rfl := ends c rfl
      rw [turns_append_slash, namesBetween_part nonempty noSlash, List.singleton_append]

/-- What does not start with a slash starts with a part up to the next one. -/
theorem exists_part {c : Char} (more : List Char) (other : c ≠ '/') :
    ∃ part rest, c :: more = part ++ rest ∧ part ≠ [] ∧ '/' ∉ part ∧ Ends rest := by
  refine ⟨c :: more.takeWhile (· != '/'), more.dropWhile (· != '/'), ?_, List.cons_ne_nil _ _, ?_, ?_⟩
  · rw [List.cons_append, List.takeWhile_append_dropWhile]
  · intro member
    rcases List.mem_cons.mp member with same | member
    · exact other same.symm
    · have passed := List.all_eq_true.mp List.all_takeWhile _ member
      simp at passed
  · intro d first
    have stopped := List.head?_dropWhile_not (· != '/') more
    rw [first] at stopped
    simpa using stopped

theorem turns_ne_nil (nonempty : chars ≠ []) : turns chars ≠ [] := by
  induction chars with
  | nil => exact absurd rfl nonempty
  | cons c more ih =>
      by_cases slash : c = '/'
      · rw [slash, turns_slash]
        split
        · exact List.cons_ne_nil _ _
        · rename_i later
          exact ih later
      · obtain ⟨part, rest, split, nonempty, noSlash, ends⟩ := exists_part more slash
        rw [split, turns_append nonempty noSlash ends]
        exact List.cons_ne_nil _ _

end Turns

section Walks

variable {t : Tree} {place next target : Location}

theorem walk_append (first second : List String) :
    t.walk (first ++ second) place = t.walk first place >>= t.walk second :=
  List.foldlM_append

theorem walk_append_of_walk {first second : List String} (walked : t.walk first place = .ok next) :
    t.walk (first ++ second) place = t.walk second next := by
  rw [walk_append, walked]
  rfl

theorem walk_cons_of_step {name : String} {names : List String}
    (moved : t.step place name = .ok next) : t.walk (name :: names) place = t.walk names next := by
  unfold Tree.walk
  rw [List.foldlM_cons, moved]
  rfl

theorem walk_cons_eq_ok_iff {name : String} {names : List String} :
    t.walk (name :: names) place = .ok target ↔
      ∃ next, t.step place name = .ok next ∧ t.walk names next = .ok target := by
  cases moved : t.step place name with
  | error fault =>
      unfold Tree.walk
      rw [List.foldlM_cons, moved]
      simp [bind, Except.bind]
  | ok next => simp [walk_cons_of_step moved]

theorem directory_of_walk {names : List String} (nonempty : names ≠ [])
    (walked : t.walk names place = .ok target) : t.find? place = some .directory := by
  cases names with
  | nil => exact absurd rfl nonempty
  | cons name more =>
      obtain ⟨next, moved, -⟩ := walk_cons_eq_ok_iff.mp walked
      exact Tree.directory_of_step moved

/-- A step from a directory stays, goes up, or goes down to what is there. -/
inductive Steps (t : Tree) (place : Location) : String → Location → Prop where
  | stay : Steps t place "." place
  | up : Steps t place ".." place.dropLast
  | down {name : String} (notHere : name ≠ ".") (notUp : name ≠ "..")
      (there : (t.find? (place ++ [name])).isSome = true) : Steps t place name (place ++ [name])

theorem step_eq_ok_iff {name : String} :
    t.step place name = .ok next ↔ t.find? place = some .directory ∧ Steps t place name next := by
  constructor
  · intro moved
    have directory := Tree.directory_of_step moved
    refine ⟨directory, ?_⟩
    rw [Tree.step_of_directory directory] at moved
    split at moved
    · rename_i here
      cases moved
      exact here ▸ .stay
    split at moved
    · rename_i up
      cases moved
      exact up ▸ .up
    split at moved
    · rename_i notHere notUp there
      cases moved
      exact .down notHere notUp there
    · cases moved
  · intro both
    obtain ⟨directory, steps⟩ := both
    rw [Tree.step_of_directory directory]
    cases steps with
    | stay => rw [if_pos rfl]
    | up => rw [if_neg (by decide), if_pos rfl]
    | down notHere notUp there => rw [if_neg notHere, if_neg notUp, if_pos there]

theorem steps_plain {name : List Char} (plain : Plain name)
    (there : (t.find? (place ++ [String.ofList name])).isSome = true) :
    Steps t place (String.ofList name) (place ++ [String.ofList name]) := by
  refine .down (fun here => plain.notHere ?_) (fun up => plain.notUp ?_) there
  · exact String.ofList_injective here
  · exact String.ofList_injective up

theorem walk_of_leads {chars : List Char} (leads : Leads t place chars target) :
    t.walk (turns chars) place = .ok target := by
  induction leads with
  | done => rfl
  | @slash place target rest directory more ih =>
      rw [turns_slash]
      split
      · rename_i none
        subst none
        rw [walk_cons_of_step (step_eq_ok_iff.mpr ⟨directory, .stay⟩)]
        exact ih
      · exact ih
  | @stay place target rest directory ends more ih =>
      have part : turns (['.'] ++ rest) = "." :: turns rest :=
        turns_append (List.cons_ne_nil _ _) (by decide) ends
      rw [← List.singleton_append, part,
        walk_cons_of_step (step_eq_ok_iff.mpr ⟨directory, .stay⟩)]
      exact ih
  | @up place target rest directory ends more ih =>
      have part : turns (['.', '.'] ++ rest) = ".." :: turns rest :=
        turns_append (List.cons_ne_nil _ _) (by decide) ends
      change t.walk (turns (['.', '.'] ++ rest)) place = .ok target
      rw [part, walk_cons_of_step (step_eq_ok_iff.mpr ⟨directory, .up⟩)]
      exact ih
  | @down place target name rest directory plain there ends more ih =>
      rw [turns_append plain.nonempty plain.noSlash ends,
        walk_cons_of_step (step_eq_ok_iff.mpr ⟨directory, steps_plain plain there⟩)]
      exact ih

/-- By induction on the text, one part after another. -/
theorem leads_of_walk {chars : List Char} (walked : t.walk (turns chars) place = .ok target) :
    Leads t place chars target := by
  induction bound : chars.length using Nat.strongRecOn generalizing chars place with
  | ind length ih =>
      cases chars with
      | nil =>
          cases walked
          exact .done
      | cons c more =>
          by_cases slash : c = '/'
          · subst slash
            have directory := directory_of_walk (turns_ne_nil (List.cons_ne_nil _ _)) walked
            refine .slash directory ?_
            rw [turns_slash] at walked
            split at walked
            · rename_i none
              rw [walk_cons_of_step (step_eq_ok_iff.mpr ⟨directory, .stay⟩)] at walked
              cases walked
              exact none ▸ .done
            · exact ih more.length (by simp [← bound]) walked rfl
          · obtain ⟨part, rest, split, nonempty, noSlash, ends⟩ := exists_part more slash
            rw [split] at walked bound ⊢
            rw [turns_append nonempty noSlash ends] at walked
            obtain ⟨next, moved, walked⟩ := walk_cons_eq_ok_iff.mp walked
            obtain ⟨directory, steps⟩ := step_eq_ok_iff.mp moved
            have shorter : rest.length < length := by
              have := List.length_pos_iff.mpr nonempty
              rw [List.length_append] at bound
              omega
            have further := ih rest.length shorter walked rfl
            generalize named : String.ofList part = name at steps
            cases steps with
            | stay =>
                obtain rfl : part = ['.'] := String.ofList_injective named
                exact .stay directory ends further
            | up =>
                obtain rfl : part = ['.', '.'] := String.ofList_injective named
                exact .up directory ends further
            | down notHere notUp there =>
                subst named
                have plain : Plain part := {
                  nonempty, noSlash
                  notHere := fun here => notHere (here ▸ rfl)
                  notUp := fun up => notUp (up ▸ rfl) }
                exact .down directory plain there ends further

end Walks

section Texts

variable {t : Tree} {text : String} {location : Location}

/-- A text is walked by its turns, from the root or from the current directory. -/
theorem resolve_eq (nonempty : text ≠ "") (clean : '\x00' ∉ text.toList) :
    t.resolve text = t.walk (turns text.toList) (startOf t text.toList) := by
  have names : (if (Path.ofText text).slashed then (Path.ofText text).names ++ ["."]
      else (Path.ofText text).names) = turns text.toList := by
    unfold Path.ofText turns namesBetween
    by_cases last : text.toList.getLast? = some '/'
    · simp [last]
    · simp [last]
  have start : t.start (Path.ofText text) = startOf t text.toList := by
    unfold Tree.start Path.ofText startOf
    simp only [beq_iff_eq]
  unfold Tree.resolve
  dsimp only
  rw [if_neg nonempty, if_neg clean, names, start]

theorem resolve_eq_ok_iff : t.resolve text = .ok location ↔ Names t text location := by
  constructor
  · intro resolved
    by_cases empty : text = ""
    · rw [Tree.resolve, if_pos empty] at resolved
      cases resolved
    by_cases zero : '\x00' ∈ text.toList
    · rw [Tree.resolve, if_neg empty, if_pos zero] at resolved
      cases resolved
    rw [resolve_eq empty zero] at resolved
    exact ⟨empty, zero, leads_of_walk resolved⟩
  · intro names
    rw [resolve_eq names.nonempty names.clean]
    exact walk_of_leads names.leads

end Texts

section Spellings

/-- A place of a text where a name can start: behind a slash, or before all of a text that does not
start with one. -/
inductive NameStarts : List Char → List Char → Prop where
  | first {c : Char} {rest : List Char} (other : c ≠ '/') : NameStarts [] (c :: rest)
  | behind {front after : List Char} : NameStarts (front ++ ['/']) after

/-- Another spelling of a text: a slash is written twice, or `./` or the name of a directory with
`/../` is put in front of a name. -/
inductive Respelled (t : Tree) : List Char → List Char → Prop where
  | slash {before after : List Char} :
      Respelled t (before ++ '/' :: after) (before ++ '/' :: '/' :: after)
  | here {before after : List Char} (starts : NameStarts before after) :
      Respelled t (before ++ after) (before ++ '.' :: '/' :: after)
  | up {before name after : List Char} {place : Location} (starts : NameStarts before after)
      (plain : Plain name) (named : Names t (String.ofList (before ++ name)) place)
      (directory : t.find? place = some .directory) :
      Respelled t (before ++ after) (before ++ (name ++ '/' :: '.' :: '.' :: '/' :: after))

variable {t : Tree} {place target : Location} {before after part rest chars other : List Char}

theorem turns_of_starts (starts : NameStarts before after) :
    turns (before ++ after) = namesBetween before ++ turns ('/' :: after) := by
  cases starts with
  | first => rfl
  | @behind front =>
      rw [List.append_assoc, List.singleton_append, turns_append_slash, namesBetween_append_slash]
      simp [namesBetween, Text.pieces]

theorem NameStarts.inserted (starts : NameStarts before after) (nonempty : part ≠ [])
    (noSlash : '/' ∉ part) (rest : List Char) : NameStarts before (part ++ rest) := by
  cases starts with
  | behind => exact .behind
  | first =>
      cases part with
      | nil => exact absurd rfl nonempty
      | cons c more => exact .first fun slash => noSlash (slash ▸ .head _)

/-- A part that is put in front of a name is walked before what follows it. -/
theorem turns_inserted (starts : NameStarts before after) (nonempty : part ≠ [])
    (noSlash : '/' ∉ part) (ends : Ends rest) :
    turns (before ++ (part ++ rest)) = namesBetween before ++ String.ofList part :: turns rest := by
  have some : part ++ rest ≠ [] := List.append_ne_nil_of_left_ne_nil nonempty rest
  rw [turns_of_starts (starts.inserted nonempty noSlash rest), turns_slash, if_neg some,
    turns_append nonempty noSlash ends]

/-- A step to the place itself asks for a directory, as every other step does. -/
theorem walk_here {names : List String} (nonempty : names ≠ []) :
    t.walk ("." :: names) place = t.walk names place := by
  cases names with
  | nil => exact absurd rfl nonempty
  | cons name more =>
      cases found : t.find? place with
      | none => simp [Tree.walk, Tree.step, found, bind, Except.bind]
      | some node =>
          cases node with
          | file content => simp [Tree.walk, Tree.step, found, bind, Except.bind]
          | directory => exact walk_cons_of_step (step_eq_ok_iff.mpr ⟨found, .stay⟩)

/-- The name of a directory and `..` lead back. -/
theorem walk_up {name : String} {names : List String} (directory : t.find? place = some .directory)
    (steps : Steps t place name (place ++ [name]))
    (child : t.find? (place ++ [name]) = some .directory) :
    t.walk (name :: ".." :: names) place = t.walk names place := by
  have back : Steps t (place ++ [name]) ".." place := by
    have parent : Steps t (place ++ [name]) ".." (place ++ [name]).dropLast := .up
    rwa [List.dropLast_concat] at parent
  rw [walk_cons_of_step (step_eq_ok_iff.mpr ⟨directory, steps⟩),
    walk_cons_of_step (step_eq_ok_iff.mpr ⟨child, back⟩)]

theorem startOf_inserted (t : Tree) (starts : NameStarts before after) (nonempty : part ≠ [])
    (noSlash : '/' ∉ part) (rest : List Char) :
    startOf t (before ++ (part ++ rest)) = startOf t (before ++ after) := by
  cases starts with
  | behind => simp [startOf, List.head?_append]
  | first other =>
      cases part with
      | nil => exact absurd rfl nonempty
      | cons c more =>
          have second : c ≠ '/' := fun slash => noSlash (slash ▸ .head _)
          simp [startOf, other, second]

theorem resolve_congr (some : chars ≠ []) (otherSome : other ≠ [])
    (clean : '\x00' ∈ chars ↔ '\x00' ∈ other) (start : startOf t other = startOf t chars)
    (walked : t.walk (turns other) (startOf t chars) = t.walk (turns chars) (startOf t chars)) :
    t.resolve (String.ofList other) = t.resolve (String.ofList chars) := by
  have nonempty : ∀ {l : List Char}, l ≠ [] → String.ofList l ≠ "" :=
    fun some empty => some (String.ofList_injective empty)
  by_cases zero : '\x00' ∈ chars
  · unfold Tree.resolve
    dsimp only
    rw [if_neg (nonempty some), if_neg (nonempty otherSome), String.toList_ofList,
      String.toList_ofList, if_pos zero, if_pos (clean.mp zero)]
  · have otherClean := mt clean.mpr zero
    rw [← @String.toList_ofList chars] at zero
    rw [← @String.toList_ofList other] at otherClean
    rw [resolve_eq (nonempty some) zero, resolve_eq (nonempty otherSome) otherClean,
      String.toList_ofList, String.toList_ofList, start, walked]

theorem NameStarts.append_ne_nil (starts : NameStarts before after) : before ++ after ≠ [] := by
  cases starts <;> simp

/-- The place before a name from which the name leads on. -/
theorem exists_of_names_append {name : List Char} (starts : NameStarts before after)
    (plain : Plain name) (named : Names t (String.ofList (before ++ name)) target) :
    ∃ place, t.walk (namesBetween before) (startOf t (before ++ after)) = .ok place ∧
      t.find? place = some .directory ∧
      Steps t place (String.ofList name) (place ++ [String.ofList name]) ∧
      target = place ++ [String.ofList name] := by
  have start := startOf_inserted t starts plain.nonempty plain.noSlash []
  have names := turns_inserted starts plain.nonempty plain.noSlash ends_nil
  have walked := walk_of_leads named.leads
  rw [List.append_nil] at start names
  rw [String.toList_ofList, start, names] at walked
  cases reached : t.walk (namesBetween before) (startOf t (before ++ after)) with
  | error fault =>
      rw [walk_append, reached] at walked
      cases walked
  | ok place =>
      rw [walk_append_of_walk reached] at walked
      obtain ⟨next, moved, stopped⟩ := walk_cons_eq_ok_iff.mp walked
      cases stopped
      obtain ⟨directory, steps⟩ := step_eq_ok_iff.mp moved
      refine ⟨place, rfl, directory, ?_⟩
      generalize same : String.ofList name = entry at steps
      cases steps with
      | stay => exact absurd (String.ofList_injective same) plain.notHere
      | up => exact absurd (String.ofList_injective same) plain.notUp
      | down notHere notUp there => exact ⟨.down notHere notUp there, rfl⟩

/-- All spellings of a text resolve alike, also where they name nothing. -/
theorem resolve_respelled (respelled : Respelled t chars other) :
    t.resolve (String.ofList other) = t.resolve (String.ofList chars) := by
  cases respelled with
  | @slash before after =>
      refine resolve_congr (by simp) (by simp) (by simp) ?_ ?_
      · cases before <;> rfl
      · rw [turns_append_slash, turns_append_slash, turns_slash, if_neg (List.cons_ne_nil _ _)]
  | @here before after starts =>
      have start : startOf t (before ++ (['.'] ++ '/' :: after)) = startOf t (before ++ after) :=
        startOf_inserted t starts (by decide) (by decide) _
      have names : turns (before ++ (['.'] ++ '/' :: after)) =
          namesBetween before ++ "." :: turns ('/' :: after) :=
        turns_inserted starts (by decide) (by decide) (ends_slash after)
      refine resolve_congr starts.append_ne_nil (by simp) (by simp) start ?_
      rw [List.singleton_append] at names
      rw [names, turns_of_starts starts, walk_append, walk_append]
      have same : t.walk ("." :: turns ('/' :: after)) = t.walk (turns ('/' :: after)) :=
        funext fun place => walk_here (turns_ne_nil (List.cons_ne_nil _ _))
      exact congrArg _ same
  | @up before name after target starts plain named directory =>
      have start := startOf_inserted t starts plain.nonempty plain.noSlash
        ('/' :: '.' :: '.' :: '/' :: after)
      have names := turns_inserted starts plain.nonempty plain.noSlash
        (ends_slash ('.' :: '.' :: '/' :: after))
      have back : turns (['.', '.'] ++ '/' :: after) = ".." :: turns ('/' :: after) :=
        turns_append (by decide) (by decide) (ends_slash after)
      obtain ⟨place, walked, isDirectory, steps, rfl⟩ := exists_of_names_append starts plain named
      have clean := named.clean
      rw [String.toList_ofList, List.mem_append, not_or] at clean
      refine resolve_congr starts.append_ne_nil (by simp) (by simp [clean]) start ?_
      rw [names, turns_of_starts starts, walk_append_of_walk walked, walk_append_of_walk walked,
        turns_slash, if_neg (List.cons_ne_nil _ _)]
      change t.walk (_ :: turns (['.', '.'] ++ '/' :: after)) place = _
      rw [back, walk_up isDirectory steps directory]

end Spellings

end ViewClassifier.Files
