import ViewClassifier.MeanFile
import ViewClassifier.Png.Coding

/-!
# Picture files

The format of a picture file follows from the extension of its name. Only PNG files hold pictures that
can be read or written.
-/

set_option autoImplicit false

namespace ViewClassifier

open Files (Tree)

inductive PictureFormat where
  | png
  | jpeg
  /-- A format that is known by its name only. -/
  | other
  deriving DecidableEq, Repr

def otherExtensions : List String :=
  ["avif", "gif", "webp", "tif", "tiff", "tga", "dds", "bmp", "ico", "hdr", "exr", "pbm", "pam",
    "ppm", "pgm", "pnm", "ff", "qoi", "pcx"]

def PictureFormat.ofExtension? (extension : String) : Option PictureFormat :=
  let name := extension.map Char.toLower
  if name ∈ ["png", "apng"] then some .png
  else if name ∈ ["jpg", "jpeg", "jfif"] then some .jpeg
  else if name ∈ otherExtensions then some .other
  else none

def PictureFormat.ofPath? (path : String) : Option PictureFormat :=
  (Files.Path.ofText path).extension?.bind PictureFormat.ofExtension?

def loadPicture (tree : Tree) (path : String) : Result Picture := do
  let content ← requireFile tree path
  match PictureFormat.ofPath? path with
  | some .png =>
      match Png.decode content with
      | .ok picture => return picture
      | .error fault => throw (.picture fault)
  | some .jpeg => throw (.picture .malformed)
  | some .other | none => throw (.picture .unsupported)

/-- The image of a file, with three channels when `colour` is set and with one otherwise. -/
def loadImage (tree : Tree) (path : String) (colour : Bool) : Result Image := do
  let picture ← loadPicture tree path
  return picture.toImage colour

/-- The tree after an image is written to a file. The file is made before its content is known. -/
def saveImage (tree : Tree) (path : String) (image : Image) : Result Tree := do
  let picture ← Image.toPicture image
  let some format := PictureFormat.ofPath? path | throw (.picture .unsupported)
  match tree.write path ((Png.encode? picture).getD []) with
  | .error _ => throw (.picture .interrupted)
  | .ok written =>
      if format ≠ .png then throw (.picture .unsupported)
      if picture.width = 0 ∨ picture.height = 0 then throw (.picture .interrupted)
      return written

end ViewClassifier
