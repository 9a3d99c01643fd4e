import ViewClassifier.ModelFiles
import ViewClassifier.Proofs.Files.Naming
import ViewClassifier.Proofs.Result

/-!
# Model files in one directory

Which model files pass their check, and what the others are refused for. The check looks at the places
that the paths name, and so it does not matter how the paths are spelled.
-/

set_option autoImplicit false

namespace ViewClassifier

open Files (Tree Location Names Respelled)

/-- A text names a place where a file is. -/
structure HoldsFile (tree : Tree) (text : String) (place : Location) : Prop where
  names : Names tree text place
  file : ∃ content, tree.find? place = some (.file content)

section HoldsFile

variable {tree : Tree} {text : String} {place other : Location}

theorem HoldsFile.unique (first : HoldsFile tree text place) (second : HoldsFile tree text other) :
    place = other := by
  have left := Files.resolve_eq_ok_iff.mpr first.names
  have right := Files.resolve_eq_ok_iff.mpr second.names
  exact Except.ok.inj (left.symm.trans right)

theorem isFile_iff : tree.isFile text = true ↔ ∃ place, HoldsFile tree text place := by
  constructor
  · intro isFile
    unfold Tree.isFile Tree.open? at isFile
    cases resolved : tree.resolve text with
    | error fault =>
        rw [resolved] at isFile
        cases isFile
    | ok place =>
        rw [resolved] at isFile
        refine ⟨place, Files.resolve_eq_ok_iff.mp resolved, ?_⟩
        cases found : tree.find? place with
        | none => simp [found, bind, Except.bind, throw, throwThe, MonadExceptOf.throw] at isFile
        | some node =>
            cases node with
            | file content => exact ⟨content, rfl⟩
            | directory => simp [found, bind, Except.bind, pure, Except.pure] at isFile
  · intro held
    obtain ⟨place, names, content, found⟩ := held
    have resolved := Files.resolve_eq_ok_iff.mpr names
    simp [Tree.isFile, Tree.open?, resolved, found, bind, Except.bind, pure, Except.pure]

theorem isFile_eq_false (missing : ∀ place, ¬ HoldsFile tree text place) :
    tree.isFile text = false := by
  refine Bool.eq_false_iff.mpr fun isFile => ?_
  obtain ⟨place, held⟩ := isFile_iff.mp isFile
  exact missing place held

theorem HoldsFile.parentDirectory (held : HoldsFile tree text place) :
    parentDirectory tree text = .ok place.dropLast := by
  unfold ViewClassifier.parentDirectory
  rw [Files.resolve_eq_ok_iff.mpr held.names]

end HoldsFile

namespace ModelFiles

/-- The definition is a file, and so are the weights, if there are any, in the same directory. -/
def Complete (tree : Tree) (files : ModelFiles) : Prop :=
  ∃ place, HoldsFile tree files.definition place ∧
    ∀ weights, files.weights = some weights →
      ∃ other, HoldsFile tree weights other ∧ other.dropLast = place.dropLast

/-- Why model files do not pass. The definition is looked for first, then the weights, and the
directories are compared last. -/
inductive Refused (tree : Tree) (files : ModelFiles) : Error → Prop where
  | noDefinition (missing : ∀ place, ¬ HoldsFile tree files.definition place) :
      Refused tree files (.missingFile files.definition)
  | noWeights {place : Location} {weights : String}
      (definition : HoldsFile tree files.definition place) (given : files.weights = some weights)
      (missing : ∀ other, ¬ HoldsFile tree weights other) :
      Refused tree files (.missingFile weights)
  | apart {place other : Location} {weights : String}
      (definition : HoldsFile tree files.definition place) (given : files.weights = some weights)
      (held : HoldsFile tree weights other) (different : other.dropLast ≠ place.dropLast) :
      Refused tree files
        (.invalidConfig (.misplacedWeights weights (Location.text place.dropLast)))

variable {tree : Tree} {files : ModelFiles} {error : Error} {place other : Location}

theorem complete_or_refused (tree : Tree) (files : ModelFiles) :
    Complete tree files ∨ ∃ error, Refused tree files error := by
  by_cases definition : ∃ place, HoldsFile tree files.definition place
  · obtain ⟨place, definition⟩ := definition
    cases given : files.weights with
    | none => exact .inl ⟨place, definition, fun _ some => nomatch given.symm.trans some⟩
    | some weights =>
        by_cases there : ∃ other, HoldsFile tree weights other
        · obtain ⟨other, held⟩ := there
          by_cases same : other.dropLast = place.dropLast
          · refine .inl ⟨place, definition, fun path some => ?_⟩
            obtain rfl := Option.some.inj (given.symm.trans some)
            exact ⟨other, held, same⟩
          · exact .inr ⟨_, .apart definition given held same⟩
        · exact .inr ⟨_, .noWeights definition given (not_exists.mp there)⟩
  · exact .inr ⟨_, .noDefinition (not_exists.mp definition)⟩

/-- What the check compares when the definition and the weights are files. -/
theorem check_of_both {weights : String} (definition : HoldsFile tree files.definition place)
    (given : files.weights = some weights) (held : HoldsFile tree weights other) :
    files.check tree =
      if place.dropLast ≠ other.dropLast then
        .error (.invalidConfig (.misplacedWeights weights (Location.text place.dropLast)))
      else .ok () := by
  have first := isFile_iff.mpr ⟨place, definition⟩
  have second := isFile_iff.mpr ⟨other, held⟩
  unfold check
  rw [given]
  simp only [first, second, definition.parentDirectory, held.parentDirectory]
  rfl

theorem check_of_complete (complete : Complete tree files) : files.check tree = .ok () := by
  obtain ⟨place, definition, together⟩ := complete
  cases given : files.weights with
  | none =>
      have first := isFile_iff.mpr ⟨place, definition⟩
      unfold check
      rw [given, first]
      rfl
  | some weights =>
      obtain ⟨other, held, same⟩ := together weights given
      rw [check_of_both definition given held, if_neg fun different => different same.symm]

theorem check_of_refused (refused : Refused tree files error) :
    files.check tree = .error error := by
  cases refused with
  | noDefinition missing =>
      unfold check
      rw [isFile_eq_false missing]
      rfl
  | @noWeights place weights definition given missing =>
      have first := isFile_iff.mpr ⟨place, definition⟩
      unfold check
      rw [given, first]
      dsimp only
      rw [isFile_eq_false missing]
      rfl
  | apart definition given held different =>
      rw [check_of_both definition given held, if_pos (Ne.symm different)]

theorem check_eq_ok_iff : files.check tree = .ok () ↔ Complete tree files := by
  refine ⟨fun accepted => ?_, check_of_complete⟩
  rcases complete_or_refused tree files with complete | ⟨error, refused⟩
  · exact complete
  · cases accepted.symm.trans (check_of_refused refused)

theorem check_eq_error_iff : files.check tree = .error error ↔ Refused tree files error := by
  refine ⟨fun refusal => ?_, check_of_refused⟩
  rcases complete_or_refused tree files with complete | ⟨reason, refused⟩
  · cases refusal.symm.trans (check_of_complete complete)
  · obtain rfl := Except.error.inj (refusal.symm.trans (check_of_refused refused))
    exact refused

theorem complete_congr {definition : String} (kept : HoldsFile tree files.definition place)
    (held : HoldsFile tree definition place) :
    Complete tree { files with definition } ↔ Complete tree files := by
  constructor
  · intro complete
    obtain ⟨found, holds, together⟩ := complete
    exact ⟨found, holds.unique held ▸ kept, together⟩
  · intro complete
    obtain ⟨found, holds, together⟩ := complete
    exact ⟨found, holds.unique kept ▸ held, together⟩

theorem complete_congr_weights {weights path : String} (given : files.weights = some weights)
    (kept : HoldsFile tree weights place) (held : HoldsFile tree path place) :
    Complete tree { files with weights := some path } ↔ Complete tree files := by
  constructor
  · intro complete
    obtain ⟨found, definition, together⟩ := complete
    obtain ⟨other, holds, same⟩ := together path rfl
    obtain rfl := holds.unique held
    refine ⟨found, definition, fun text some => ?_⟩
    obtain rfl := Option.some.inj (given.symm.trans some)
    exact ⟨other, kept, same⟩
  · intro complete
    obtain ⟨found, definition, together⟩ := complete
    obtain ⟨other, holds, same⟩ := together weights given
    obtain rfl := holds.unique kept
    refine ⟨found, definition, fun text some => ?_⟩
    obtain rfl := Option.some.inj some
    exact ⟨other, held, same⟩

/-- Model files pass exactly when they are files in one directory, and otherwise the first thing that is
wrong is reported. A path can be replaced by any other one that names its file. All spellings of a
path name the same places. -/
theorem check_spellings (tree : Tree) (files : ModelFiles) :
    (files.check tree = .ok () ↔ Complete tree files) ∧
      (∀ error, files.check tree = .error error ↔ Refused tree files error) ∧
      (∀ definition place, HoldsFile tree files.definition place →
        HoldsFile tree definition place →
          ({ files with definition }.check tree = .ok () ↔ files.check tree = .ok ())) ∧
      (∀ weights path place, files.weights = some weights → HoldsFile tree weights place →
        HoldsFile tree path place →
          ({ files with weights := some path }.check tree = .ok () ↔
            files.check tree = .ok ())) ∧
      ∀ text other : String, Respelled tree text.toList other.toList →
        ∀ place, HoldsFile tree other place ↔ HoldsFile tree text place := by
  refine ⟨check_eq_ok_iff, fun _ => check_eq_error_iff, ?_, ?_, ?_⟩
  · intro definition place kept held
    rw [check_eq_ok_iff, check_eq_ok_iff]
    exact complete_congr kept held
  · intro weights path place given kept held
    rw [check_eq_ok_iff, check_eq_ok_iff]
    exact complete_congr_weights given kept held
  · intro text other respelled place
    have alike := Files.resolve_respelled respelled
    rw [String.ofList_toList, String.ofList_toList] at alike
    have names : Names tree other place ↔ Names tree text place := by
      rw [← Files.resolve_eq_ok_iff, ← Files.resolve_eq_ok_iff, alike]
    constructor
    · intro held
      exact ⟨names.mp held.names, held.file⟩
    · intro held
      exact ⟨names.mpr held.names, held.file⟩

/-- A model in a directory of its own, and other weights beside this directory. -/
def modelTree : Tree where
  here := ["work"]
  entries := [
    (["work"], .directory), (["work", "net.bin"], .file []), (["work", "models"], .directory),
    (["work", "models", "net.onnx"], .file []), (["work", "models", "net.bin"], .file [])]

def modelPair : ModelFiles where
  definition := "models/net.onnx"
  weights := some "/work/./models//net.bin"

theorem check_spellings_modelTree :
    modelPair.check modelTree = .ok () ∧
      { modelPair with definition := ".//models/../models/net.onnx" }.check modelTree = .ok () := by
  have kept : HoldsFile modelTree modelPair.definition ["work", "models", "net.onnx"] :=
    ⟨Files.resolve_eq_ok_iff.mp (by rfl), [], rfl⟩
  have held : HoldsFile modelTree ".//models/../models/net.onnx" ["work", "models", "net.onnx"] :=
    ⟨Files.resolve_eq_ok_iff.mp (by rfl), [], rfl⟩
  have accepted : modelPair.check modelTree = .ok () := by rfl
  exact ⟨accepted, ((check_spellings modelTree modelPair).2.2.1 _ _ kept held).mpr accepted⟩

end ModelFiles

end ViewClassifier
