import ViewClassifier.Files.Tree

/-!
# Reading what was written

A file that is written at a path is read at this path. Every directory on the way to it is still there,
since a file never takes the place of a directory.
-/

set_option autoImplicit false

namespace ViewClassifier.Files.Tree

variable {t : Tree} {target location : Location} {node : Node}

theorem find?_set_self (named : target ≠ []) : (t.set target node).find? target = some node := by
  simp [find?, set, named]

theorem lookup_filter_of_ne {entries : List (Location × Node)} (other : location ≠ target) :
    (entries.filter (·.1 ≠ target)).lookup location = entries.lookup location := by
  induction entries with
  | nil => rfl
  | cons entry more ih =>
      obtain ⟨place, held⟩ := entry
      by_cases same : place = target
      · have passed : (location == place) = false := beq_false_of_ne (same ▸ other)
        rw [List.filter_cons_of_neg (by simpa using same), ih, List.lookup_cons, passed]
      · rw [List.filter_cons_of_pos (by simpa using same), List.lookup_cons, List.lookup_cons, ih]

theorem find?_set_of_ne (other : location ≠ target) :
    (t.set target node).find? location = t.find? location := by
  unfold find? set
  rw [List.lookup_cons, beq_false_of_ne other, lookup_filter_of_ne other]

theorem find?_isSome_set (named : target ≠ []) (there : (t.find? location).isSome = true) :
    ((t.set target node).find? location).isSome = true := by
  by_cases same : location = target
  · rw [same, find?_set_self named]
    rfl
  · rwa [find?_set_of_ne same]

theorem directory_of_step {name : String} {next : Location} (moved : t.step location name = .ok next) :
    t.find? location = some .directory := by
  unfold step at moved
  cases found : t.find? location with
  | none =>
      rw [found] at moved
      cases moved
  | some place =>
      cases place with
      | directory => rfl
      | file content =>
          rw [found] at moved
          cases moved

theorem step_of_directory (directory : t.find? location = some .directory) (name : String) :
    t.step location name =
      if name = "." then .ok location
      else if name = ".." then .ok location.dropLast
      else if (t.find? (location ++ [name])).isSome then .ok (location ++ [name])
      else .error .notFound := by
  unfold step
  rw [directory]

theorem step_set {name : String} {next : Location} (named : target ≠ [])
    (outside : t.find? target ≠ some .directory) (moved : t.step location name = .ok next) :
    (t.set target node).step location name = .ok next := by
  have directory := directory_of_step moved
  have other : location ≠ target := fun same => outside (same ▸ directory)
  have kept : (t.set target node).find? location = some .directory :=
    (find?_set_of_ne other).trans directory
  rw [step_of_directory directory] at moved
  rw [step_of_directory kept]
  by_cases here : name = "."
  · rwa [if_pos here] at moved ⊢
  by_cases up : name = ".."
  · rwa [if_neg here, if_pos up] at moved ⊢
  by_cases there : (t.find? (location ++ [name])).isSome = true
  · rw [if_neg here, if_neg up, if_pos there] at moved
    rwa [if_neg here, if_neg up, if_pos (find?_isSome_set named there)]
  · rw [if_neg here, if_neg up, if_neg there] at moved
    cases moved

theorem walk_set {names : List String} {last : Location} (named : target ≠ [])
    (outside : t.find? target ≠ some .directory) (walked : t.walk names location = .ok last) :
    (t.set target node).walk names location = .ok last := by
  unfold walk at walked ⊢
  induction names generalizing location with
  | nil => exact walked
  | cons name more ih =>
      rw [List.foldlM_cons] at walked ⊢
      cases moved : t.step location name with
      | error fault =>
          rw [moved] at walked
          cases walked
      | ok next =>
          rw [moved] at walked
          rw [step_set named outside moved]
          exact ih walked

/-- A path that leads to a place for a file: its directory is there, and no directory has its name. -/
structure Place (t : Tree) (text : String) (directory : Location) (name : String) : Prop where
  nonempty : text ≠ ""
  clean : '\x00' ∉ text.toList
  plain : (Path.ofText text).slashed = false
  last : (Path.ofText text).names.getLast? = some name
  walked : t.walk (Path.ofText text).names.dropLast (t.start (Path.ofText text)) = .ok directory
  isDirectory : t.find? directory = some .directory
  notHere : name ≠ "."
  notUp : name ≠ ".."
  outside : t.find? (directory ++ [name]) ≠ some .directory

theorem write_eq_ok {t' : Tree} {text : String} {content : Bytes}
    (written : t.write text content = .ok t') :
    ∃ directory name, Place t text directory name ∧
      t' = t.set (directory ++ [name]) (.file content) := by
  unfold write at written
  dsimp only at written
  by_cases empty : text = ""
  · rw [if_pos empty] at written
    cases written
  by_cases zero : '\x00' ∈ text.toList
  · rw [if_neg empty, if_pos zero] at written
    cases written
  rw [if_neg empty, if_neg zero] at written
  cases last : (Path.ofText text).names.getLast? with
  | none =>
      rw [last] at written
      cases written
  | some name =>
      rw [last] at written
      cases walked : t.walk (Path.ofText text).names.dropLast (t.start (Path.ofText text)) with
      | error fault => simp [walked, bind, Except.bind] at written
      | ok directory =>
          simp only [walked, pure, Except.pure, bind, Except.bind] at written
          cases found : t.find? directory with
          | none =>
              rw [found] at written
              cases written
          | some place =>
              cases place with
              | file content =>
                  rw [found] at written
                  cases written
              | directory =>
                  rw [found] at written
                  dsimp only at written
                  split at written
                  · cases written
                  · rename_i free
                    simp only [not_or, Bool.not_eq_true] at free
                    obtain ⟨plain, notHere, notUp, outside⟩ := free
                    exact ⟨directory, name, ⟨empty, zero, plain, last, walked, found, notHere, notUp,
                      outside⟩, (Except.ok.inj written).symm⟩

theorem read_write {t' : Tree} {text : String} {content : Bytes}
    (written : t.write text content = .ok t') : t'.read text = .ok content := by
  obtain ⟨directory, name, place, rfl⟩ := write_eq_ok written
  have named : directory ++ [name] ≠ [] := by simp
  obtain ⟨filed, isFiled⟩ : ∃ filed, t.set (directory ++ [name]) (.file content) = filed := ⟨_, rfl⟩
  have found : filed.find? (directory ++ [name]) = some (.file content) :=
    isFiled ▸ find?_set_self named
  have reached : filed.walk (Path.ofText text).names.dropLast (filed.start (Path.ofText text)) =
      .ok directory := by
    rw [← isFiled]
    exact walk_set named place.outside place.walked
  have stepped : filed.step directory name = .ok (directory ++ [name]) := by
    have kept : filed.find? directory = some .directory := by
      rw [← isFiled, find?_set_of_ne (by simp)]
      exact place.isDirectory
    rw [step_of_directory kept, if_neg place.notHere, if_neg place.notUp, found]
    rfl
  have resolved : filed.resolve text = .ok (directory ++ [name]) := by
    obtain ⟨before, names⟩ := List.getLast?_eq_some_iff.mp place.last
    rw [names, List.dropLast_concat] at reached
    unfold resolve
    dsimp only
    rw [if_neg place.nonempty, if_neg place.clean, place.plain, if_neg Bool.false_ne_true, names,
      walk, List.foldlM_append]
    unfold walk at reached
    rw [reached]
    simp [bind, Except.bind, stepped, pure, Except.pure]
  rw [isFiled]
  simp [read, open?, resolved, found, bind, Except.bind, pure, Except.pure]

end ViewClassifier.Files.Tree
