import ViewClassifier.Json.Demand
import ViewClassifier.Json.Skipping
import ViewClassifier.Settings.Basic

/-!
# Settings files

Reads a layer of settings from a JSON text. The text is an object whose keys name the settings, in any
order, or a list that gives the settings in their order from the first one on. Keys that name no
setting are passed over with their values. No setting may be given twice.
-/

set_option autoImplicit false

namespace ViewClassifier.Settings

open Files (Bytes Tree)
open Json (Stop Demand)

structure Field where
  key : String
  isSet : Layer → Bool
  read : Layer → Bytes → Except Stop (Layer × Bytes)

/-- The setting with a key, a value of a kind and a place in the layer. -/
def Field.make {α : Type} (key : String) (get : Layer → Option α) (set : Layer → α → Layer)
    (demand : Demand α) : Field where
  key
  isSet layer := (get layer).isSome
  read layer s := do
    let (value, rest) ← demand.scan s
    return (set layer value, rest)

def path : Demand String :=
  .text "path string"

def dims : Demand Dims where
  read s := do
    let ((height, width), rest) ← (Demand.pairOf .count).read s
    return (⟨height, width⟩, rest)

def fields : List Field :=
  [.make "model" Layer.model (fun layer value => { layer with model := some value }) path,
    .make "weights" Layer.weights (fun layer value => { layer with weights := some value })
      (.orNull path),
    .make "image" Layer.image (fun layer value => { layer with image := some value }) path,
    .make "mean" Layer.mean (fun layer value => { layer with mean := some value }) (.orNull path),
    .make "channel_swap" Layer.channelSwap
      (fun layer value => { layer with channelSwap := some value }) (.orNull (.listOf .count)),
    .make "raw_scale" Layer.rawScale (fun layer value => { layer with rawScale := some value })
      (.orNull .real),
    .make "input_scale" Layer.inputScale
      (fun layer value => { layer with inputScale := some value }) (.orNull .real),
    .make "image_dims" Layer.imageDims (fun layer value => { layer with imageDims := some value })
      dims,
    .make "crop_dims" Layer.cropDims (fun layer value => { layer with cropDims := some value })
      dims,
    .make "oversample" Layer.oversample
      (fun layer value => { layer with oversample := some value }) .bool,
    .make "color" Layer.colour (fun layer value => { layer with colour := some value }) .bool,
    .make "out_dir" Layer.outDir (fun layer value => { layer with outDir := some value }) path]

def field? (key : String) : Option Field :=
  fields.find? (·.key == key)

/-- Reads the items of a list into the fields, one after the other, up to the end of either. -/
def readItems (fields : List Field) (first : Bool) (layer : Layer) (s : Bytes) :
    Except Stop (Layer × Bytes) :=
  match fields with
  | [] => .ok (layer, s)
  | field :: more => do
      match ← Demand.nextItem first s with
      | none => return (layer, s)
      | some s =>
          let (layer, s) ← field.read layer s
          readItems more false layer s

def readMember (layer : Layer) (s : Bytes) : Except Stop (Layer × Bytes) := do
  let (key, s) ← Json.scanString s
  match field? key with
  | some field =>
      if field.isSet layer then Json.stopAt (.duplicateField key) (Json.skipSpace s)
      field.read layer (← Json.colon s)
  | none => return (layer, ← Json.skipValue (← Json.colon s))

/-- Reads the members of an object up to its closing brace, with fuel for each of them. -/
def readMembers (fuel : Nat) (first : Bool) (layer : Layer) (s : Bytes) :
    Except Stop (Layer × Bytes) :=
  match fuel with
  | 0 => .ok (layer, s)
  | fuel + 1 => do
      match ← Json.nextKey first s with
      | none => return (layer, s)
      | some s =>
          let (layer, s) ← readMember layer s
          readMembers fuel false layer s

def Layer.scan (s : Bytes) : Except Stop Layer := do
  match Json.skipSpace s with
  | [] => Json.stopAt .endInValue []
  | b :: rest =>
      if b = Json.byte '[' then
        let (layer, rest) ← readItems fields true {} rest
        finish layer (← Demand.closeList rest)
      else if b = 0x7b then
        let (layer, rest) ← readMembers s.length true {} rest
        finish layer (← Json.closeObject rest)
      else Json.wrongKind "struct DemoConfig" (b :: rest)
where
  finish (layer : Layer) (s : Bytes) : Except Stop Layer :=
    match Json.skipSpace s with
    | [] => .ok layer
    | rest => Json.stopAt .trailingCharacters rest

def Layer.ofText (text : Bytes) : Except Json.Fault Layer :=
  match Layer.scan text with
  | .ok layer => .ok layer
  | .error stop => .error (stop.fault text)

def Layer.load (tree : Tree) (path : String) : Result Layer :=
  match tree.open? path with
  | .error fault => .error (.file fault)
  | .ok .directory => .error (.json (.unreadable .isDirectory))
  | .ok (.file content) =>
      match Layer.ofText content with
      | .ok layer => .ok layer
      | .error fault => .error (.json fault)

def load (tree : Tree) (path : String) : Result Settings := do
  return (← Layer.load tree path).over {}

end ViewClassifier.Settings
