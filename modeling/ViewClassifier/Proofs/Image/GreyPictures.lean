import ViewClassifier.Proofs.Image.GreyLevels
import ViewClassifier.Proofs.Places

/-!
# Grey pictures

A grey picture becomes an image of one channel, or an image of three channels that are equal to each
other. The samples of the two images are the same numbers or neighbours. Transparency shows in no
image.
-/

set_option autoImplicit false

namespace ViewClassifier

open Binary32

/-- The samples of a pixel that show. They come first, and transparency follows. -/
def PixelKind.shown : PixelKind → ℕ
  | .grey | .greyAlpha => 1
  | .colour | .colourAlpha => 3

namespace PixelKind

theorem shown_pos (kind : PixelKind) : 0 < kind.shown := by
  cases kind <;> decide

theorem shown_of_isColour {kind : PixelKind} (colour : kind.isColour) : kind.shown = 3 := by
  cases kind with
  | grey => cases colour
  | greyAlpha => cases colour
  | colour => rfl
  | colourAlpha => rfl

end PixelKind

namespace Samples

/-- Samples of one kind that have the same value at a place. -/
inductive SameAt (i : ℕ) : Samples → Samples → Prop where
  | bytes {left right : Array UInt8} (same : left.getD i 0 = right.getD i 0) :
      SameAt i (.bytes left) (.bytes right)
  | words {left right : Array UInt16} (same : left.getD i 0 = right.getD i 0) :
      SameAt i (.words left) (.words right)
  | reals {left right : Array Float32} (same : left.getD i 0 = right.getD i 0) :
      SameAt i (.reals left) (.reals right)

namespace SameAt

variable {left right : Samples} {i : ℕ}

theorem fraction_eq (sameAt : SameAt i left right) : left.fraction i = right.fraction i := by
  cases sameAt with
  | bytes same => rw [fraction, fraction, same]
  | words same => rw [fraction, fraction, same]
  | reals same => exact same

theorem scaled_eq (sameAt : SameAt i left right) : left.scaled i = right.scaled i := by
  cases sameAt with
  | bytes same => rw [scaled, scaled, same]
  | words same => rw [scaled, scaled, same]
  | reals same => exact same

end SameAt

end Samples

open Samples (SameAt)

namespace Picture

variable {p q : Picture} {y x c : ℕ}

theorem inner_toColour (p : Picture) : p.toColour.inner = 3 :=
  Volume.inner_ofFn _ _ _ _

theorem inner_toGrey (p : Picture) : p.toGrey.inner = 1 :=
  Volume.inner_ofFn _ _ _ _

/-- Pictures of one size and kind whose samples may differ in transparency only. -/
structure SameBesideAlpha (p q : Picture) : Prop where
  height : p.height = q.height
  width : p.width = q.width
  kind : p.kind = q.kind
  sameAt : ∀ y x c, y < p.height → x < p.width → c < p.kind.shown →
    SameAt (p.pixelStart y x + c) p.samples q.samples

namespace SameBesideAlpha

variable (same : SameBesideAlpha p q)

include same

theorem pixelStart_eq (y x : ℕ) : p.pixelStart y x = q.pixelStart y x := by
  rw [pixelStart, pixelStart, same.width, same.kind]

theorem toColour_eq : p.toColour = q.toColour := by
  have channels := (inner_toColour p).trans (inner_toColour q).symm
  refine Volume.ext_get same.height same.width channels fun y x c hy hx hc => ?_
  have sameAt := same.sameAt y x
  rw [get_toColour hy hx hc, get_toColour (same.height ▸ hy) (same.width ▸ hx) hc, ← same.kind,
    ← same.pixelStart_eq]
  by_cases colour : p.kind.isColour
  · have shown : c < p.kind.shown := PixelKind.shown_of_isColour colour ▸ hc
    have fraction := (sameAt c hy hx shown).fraction_eq
    rw [if_pos colour, if_pos colour, fraction]
  · have scaled := (sameAt 0 hy hx p.kind.shown_pos).scaled_eq
    rw [Nat.add_zero] at scaled
    rw [if_neg colour, if_neg colour, scaled]

theorem toGrey_eq : p.toGrey = q.toGrey := by
  have channels := (inner_toGrey p).trans (inner_toGrey q).symm
  refine Volume.ext_get same.height same.width channels fun y x c hy hx hc => ?_
  have sameAt := same.sameAt y x
  rw [Nat.lt_one_iff.mp hc, get_toGrey hy hx, get_toGrey (same.height ▸ hy) (same.width ▸ hx),
    ← same.kind, ← same.pixelStart_eq]
  by_cases colour : p.kind.isColour
  · have shown : p.kind.shown = 3 := PixelKind.shown_of_isColour colour
    have red := (sameAt 0 hy hx (by omega)).scaled_eq
    have green := (sameAt 1 hy hx (by omega)).scaled_eq
    have blue := (sameAt 2 hy hx (by omega)).scaled_eq
    rw [Nat.add_zero] at red
    rw [if_pos colour, if_pos colour, red, green, blue]
  · have grey := (sameAt 0 hy hx p.kind.shown_pos).fraction_eq
    rw [Nat.add_zero] at grey
    rw [if_neg colour, if_neg colour, grey]

theorem toImage_eq (colour : Bool) : p.toImage colour = q.toImage colour := by
  cases colour with
  | false => exact same.toGrey_eq
  | true => exact same.toColour_eq

end SameBesideAlpha

/-- The images of a grey picture. The three channels of the one are equal, and stand at each pixel as many
places above the channel of the other as the scaled sample stands above the fraction. -/
structure Tiled (p : Picture) : Prop where
  colour_lengths : (p.toImage true).HasLengths p.height p.width 3
  grey_lengths : (p.toImage false).HasLengths p.height p.width 1
  channels : ∀ y x c, y < p.height → x < p.width → c < 3 →
    (p.toImage true).get y x c = (p.toImage true).get y x 0
  levels : ∀ y x c, y < p.height → x < p.width → c < 3 →
    level ((p.toImage true).get y x c) =
      level ((p.toImage false).get y x 0) + p.samples.drift (p.pixelStart y x)
  same_iff : ∀ y x c, y < p.height → x < p.width → c < 3 →
    ((p.toImage true).get y x c = (p.toImage false).get y x 0 ↔
      p.samples.drift (p.pixelStart y x) = 0)

section Grey

variable (grey : p.kind.isColour = false)

include grey

theorem toImage_true (hy : y < p.height) (hx : x < p.width) (hc : c < 3) :
    (p.toImage true).get y x c = p.samples.scaled (p.pixelStart y x) := by
  have sample := get_toColour hy hx hc
  rwa [grey, if_neg Bool.false_ne_true] at sample

theorem toImage_false (hy : y < p.height) (hx : x < p.width) :
    (p.toImage false).get y x 0 = p.samples.fraction (p.pixelStart y x) := by
  have sample := get_toGrey hy hx
  rwa [grey, if_neg Bool.false_ne_true] at sample

theorem tiled : p.Tiled where
  colour_lengths := ⟨rfl, rfl, rfl⟩
  grey_lengths := ⟨rfl, rfl, rfl⟩
  channels := by
    intro y x c hy hx hc
    rw [toImage_true grey hy hx hc, toImage_true grey hy hx (by decide)]
  levels := by
    intro y x c hy hx hc
    rw [toImage_true grey hy hx hc, toImage_false grey hy hx, Samples.level_scaled]
  same_iff := by
    intro y x c hy hx hc
    rw [toImage_true grey hy hx hc, toImage_false grey hy hx, Samples.scaled_eq_fraction_iff]

end Grey

/-- A grey picture is tiled into three equal channels, which are neighbours of its grey samples or equal
to them, and pictures that differ in transparency only become the same images. -/
theorem toImage_tiled (p : Picture) :
    (p.kind.isColour = false → p.Tiled) ∧
      ∀ q, p.SameBesideAlpha q → ∀ colour, p.toImage colour = q.toImage colour :=
  ⟨tiled, fun _ same => same.toImage_eq⟩

/-- A sample whose copies are too small by one place, and one whose copies are equal to it. -/
def greyWords (transparency : UInt16) : Picture :=
  ⟨1, 2, .greyAlpha, .words #[257, transparency, 300, 65535], rfl, by decide⟩

theorem sameBesideAlpha_greyWords : (greyWords 0).SameBesideAlpha (greyWords 9) := by
  refine ⟨rfl, rfl, rfl, fun y x c hy hx hc => ?_⟩
  obtain rfl : y = 0 := Nat.lt_one_iff.mp hy
  obtain rfl : c = 0 := Nat.lt_one_iff.mp hc
  match x with
  | 0 => exact .words rfl
  | 1 => exact .words rfl

theorem toImage_tiled_greyWords :
    ((greyWords 0).toImage true).get 0 0 2 ≠ ((greyWords 0).toImage false).get 0 0 0 ∧
      ((greyWords 0).toImage true).get 0 1 2 = ((greyWords 0).toImage false).get 0 1 0 ∧
      (greyWords 0).toImage true = (greyWords 9).toImage true := by
  obtain ⟨grey, alpha⟩ := toImage_tiled (greyWords 0)
  have tiled := grey rfl
  have first := tiled.same_iff 0 0 2 (by decide) (by decide) (by decide)
  have second := tiled.same_iff 0 1 2 (by decide) (by decide) (by decide)
  exact ⟨mt first.mp (by decide), second.mpr (by decide), alpha _ sameBesideAlpha_greyWords true⟩

def darkGrey : Picture :=
  ⟨1, 1, .grey, .bytes #[3], rfl, inWords_pixel⟩

theorem darkGrey_differs : darkGrey.kind.isColour = false ∧
    (darkGrey.toImage true).get 0 0 0 ≠ (darkGrey.toImage false).get 0 0 0 := by
  have differs := (tiled (p := darkGrey) rfl).same_iff 0 0 0 (by decide) (by decide) (by decide)
  exact ⟨rfl, mt differs.mp (by decide)⟩

end Picture

end ViewClassifier
