import ViewClassifier.CommandLine.Program
import ViewClassifier.Proofs.Settings.Objects

/-!
# Layers of settings

The settings that a command line and a settings file make together. Each setting is found on its
own: an argument comes before an entry of the file, and an entry before the default.
-/

set_option autoImplicit false

namespace ViewClassifier

open Files (Bytes Tree)
open Json (Demand)

/-- `null` is the one text that takes a value away. -/
theorem Json.Demand.value?_orNull_eq_none_iff {α : Type} {d : Demand α} {text : Bytes} :
    (orNull d).value? text = some none ↔
      ∃ gap : Blanks, text = gap.val ++ ['n', 'u', 'l', 'l'].map byte := by
  rw [value?_eq_some_iff]
  constructor
  · intro read
    obtain ⟨gap, blank, same⟩ := exists_blank text
    cases solid : skipSpace text with
    | nil => simp [scan, solid, stopAt] at read
    | cons b rest =>
        have begun : (orNull d).read (b :: rest) = .ok (none, []) := by
          simpa only [scan, solid] using read
        rw [solid] at same
        by_cases null : b = byte 'n'
        · have moves : (orNull d).read (b :: rest) =
              word ['u', 'l', 'l'] rest >>= fun rest => pure (none, rest) := if_pos null
          rw [moves] at begun
          obtain ⟨left, letters, ended⟩ := bind_eq_ok_iff.mp begun
          cases ended
          have letters := word_eq_ok_iff.mp letters
          rw [List.append_nil] at letters
          rw [letters, null] at same
          exact ⟨⟨gap, blank⟩, same⟩
        · have moves : (orNull d).read (b :: rest) =
              d.scan (b :: rest) >>= fun found => pure (some found.1, found.2) := if_neg null
          rw [moves] at begun
          obtain ⟨_, _, ended⟩ := bind_eq_ok_iff.mp begun
          cases ended
  · intro given
    obtain ⟨gap, rfl⟩ := given
    have solid : skipSpace (gap.val ++ ['n', 'u', 'l', 'l'].map byte) =
        byte 'n' :: ['u', 'l', 'l'].map byte := by
      rw [skipSpace_append gap.property]
      exact skipSpace_cons (by decide) _
    simp only [scan, solid]
    rfl

namespace CommandLine

open Settings (Entry Layer ObjectText Acceptable valueOf known fields path dims)

/-- Setting by setting, what an argument says, or else an entry of the file, or else the default. -/
def layered (arguments : Arguments) (entries : List Entry) : Settings :=
  let below : Settings := {}
  { model := arguments.model.getD ((valueOf path "model" entries).getD below.model)
    weights := arguments.weights.or ((valueOf (.orNull path) "weights" entries).getD below.weights)
    image := arguments.image.getD ((valueOf path "image" entries).getD below.image)
    mean := arguments.mean.or ((valueOf (.orNull path) "mean" entries).getD below.mean)
    channelSwap :=
      (valueOf (.orNull (.listOf .count)) "channel_swap" entries).getD below.channelSwap
    rawScale := (valueOf (.orNull .real) "raw_scale" entries).getD below.rawScale
    inputScale := (valueOf (.orNull .real) "input_scale" entries).getD below.inputScale
    imageDims := (valueOf dims "image_dims" entries).getD below.imageDims
    cropDims := (valueOf dims "crop_dims" entries).getD below.cropDims
    oversample :=
      if arguments.noOversample then false
      else (valueOf .bool "oversample" entries).getD below.oversample
    colour := (valueOf .bool "color" entries).getD below.colour
    outDir := arguments.outDir.getD ((valueOf path "out_dir" entries).getD below.outDir) }

theorem over_eq_layered (arguments : Arguments) (entries : List Entry) :
    arguments.layer.over ((Layer.ofEntries entries).over {}) = layered arguments entries := by
  obtain ⟨config, model, weights, image, mean, outDir, region, topK, noOversample, view, saveCsv⟩ :=
    arguments
  cases weights <;> cases mean <;> cases noOversample <;> rfl

section File

variable {tree : Tree} {arguments : Arguments} {path : String}

theorem loadSettings_of_none (unnamed : arguments.config = none) :
    loadSettings tree arguments = .ok (layered arguments []) := by
  rw [loadSettings, unnamed, ← over_eq_layered]
  rfl

theorem loadSettings_of_ok {layer : Layer} (named : arguments.config = some path)
    (loaded : Layer.load tree path = .ok layer) :
    loadSettings tree arguments = .ok (arguments.layer.over (layer.over {})) := by
  simp only [loadSettings, named, loaded]
  rfl

theorem loadSettings_of_error {error : Error} (named : arguments.config = some path)
    (refused : Layer.load tree path = .error error) :
    loadSettings tree arguments = .error ⟨"reading config " ++ path, error⟩ := by
  simp only [loadSettings, named, refused]
  rfl

theorem load_of_file {content : Bytes} (opened : tree.open? path = .ok (.file content)) :
    Layer.load tree path = (Layer.ofText content).mapError .json := by
  simp only [Layer.load, opened]
  cases Layer.ofText content with
  | error fault => rfl
  | ok layer => rfl

theorem loadSettings_of_object {object : ObjectText} (named : arguments.config = some path)
    (opened : tree.open? path = .ok (.file object.text)) (acceptable : Acceptable object.entries) :
    loadSettings tree arguments = .ok (layered arguments object.entries) := by
  have loaded : Layer.load tree path = .ok (.ofEntries object.entries) := by
    rw [load_of_file opened, (Settings.ofText_object_iff object.head?_skipSpace).mpr
      ⟨object, rfl, acceptable, rfl⟩]
    rfl
  rw [loadSettings_of_ok named loaded, over_eq_layered]

end File

/-- Each setting comes from the command line, or else from the settings file, or else from the
defaults. Of a file that holds an object, the entries that name settings are all that counts, in any
order. A file that gives no settings is an error whatever the command line says. -/
theorem loadSettings_layered (tree : Tree) (arguments : Arguments) :
    (arguments.config = none → loadSettings tree arguments = .ok (layered arguments [])) ∧
      (∀ (α : Type) (d : Demand α) (text : Bytes), (Demand.orNull d).value? text = some none ↔
        ∃ gap : Blanks, text = gap.val ++ ['n', 'u', 'l', 'l'].map Json.byte) ∧
      ∀ path, arguments.config = some path →
        (∀ content layer, tree.open? path = .ok (.file content) →
          Layer.ofText content = .ok layer → (Json.skipSpace content).head? = some 0x7b →
            ∃ object : ObjectText, object.text = content ∧ Acceptable object.entries) ∧
        (∀ object : ObjectText, tree.open? path = .ok (.file object.text) →
          Acceptable object.entries →
            loadSettings tree arguments = .ok (layered arguments object.entries) ∧
            (∀ field ∈ fields, field.isSet (.ofEntries object.entries) = true ↔
              field.key ∈ object.entries.map Prod.fst) ∧
            ∀ (other : ObjectText) (otherTree : Tree),
              (object.entries.filter known).Perm (other.entries.filter known) →
              (∀ entry ∈ other.entries, known entry = false →
                Json.skipValue entry.2 = .ok []) →
              otherTree.open? path = .ok (.file other.text) →
                loadSettings otherTree arguments = loadSettings tree arguments) ∧
        (∀ content fault, tree.open? path = .ok (.file content) →
          Layer.ofText content = .error fault →
            loadSettings tree arguments = .error ⟨"reading config " ++ path, .json fault⟩) ∧
        (tree.open? path = .ok .directory →
          loadSettings tree arguments =
            .error ⟨"reading config " ++ path, .json (.unreadable .isDirectory)⟩) ∧
        ∀ fault, tree.open? path = .error fault →
          loadSettings tree arguments = .error ⟨"reading config " ++ path, .file fault⟩ := by
  refine ⟨loadSettings_of_none, fun _ _ _ => Demand.value?_orNull_eq_none_iff,
    fun path named => ⟨?_, ?_, ?_, ?_, ?_⟩⟩
  · intro content layer _ read object
    obtain ⟨object, text, acceptable, _⟩ := (Settings.ofText_object_iff object).mp read
    exact ⟨object, text, acceptable⟩
  · intro object opened acceptable
    refine ⟨loadSettings_of_object named opened acceptable, fun field member => ?_, ?_⟩
    · exact acceptable.isSet_iff (Settings.field?_key member)
    · intro other otherTree same skipped otherOpened
      have accepted : ∀ entry ∈ other.entries, known entry = false → Settings.Accepted entry :=
        fun entry member unknown =>
          Settings.accepted_of_unknown unknown (skipped entry member unknown)
      have otherAcceptable := acceptable.perm same accepted
      have equal : Layer.ofEntries other.entries = .ofEntries object.entries :=
        Settings.ofEntries_congr fun key names => acceptable.lookup_perm otherAcceptable same names
      rw [loadSettings_of_object named opened acceptable,
        loadSettings_of_object named otherOpened otherAcceptable, ← over_eq_layered, equal,
        over_eq_layered]
  · intro content fault opened refused
    refine loadSettings_of_error named ?_
    rw [load_of_file opened, refused]
    rfl
  · intro opened
    refine loadSettings_of_error named ?_
    simp only [Layer.load, opened]
  · intro fault closed
    refine loadSettings_of_error named ?_
    simp only [Layer.load, closed]

/-- An object whose one member takes the mean file away. -/
def withoutMean : ObjectText where
  before := ⟨[], Json.blank_nil⟩
  inside := ⟨[], Json.blank_nil⟩
  members := [{
    key := "mean"
    value := ['n', 'u', 'l', 'l'].map Json.byte
    before := ⟨[], Json.blank_nil⟩
    quoted := ['m', 'e', 'a', 'n'].map Json.byte ++ [0x22]
    gap := ⟨[], Json.blank_nil⟩
    after := ⟨[], Json.blank_nil⟩
    spelled := rfl }]
  after := ⟨[], Json.blank_nil⟩

theorem loadSettings_layered_withoutMean :
    loadSettings { here := [], entries := [(["run.json"], .file withoutMean.text)] }
        { config := some "run.json", model := some "net.onnx" } =
      .ok { model := "net.onnx", mean := none } := by
  have acceptable : Acceptable withoutMean.entries := by
    constructor
    · intro entry member
      obtain rfl := List.mem_singleton.mp member
      exact ⟨_, rfl⟩
    · exact List.pairwise_singleton _ _
  exact (((loadSettings_layered _ _).2.2 "run.json" rfl).2.1 withoutMean rfl acceptable).1

end CommandLine

end ViewClassifier
