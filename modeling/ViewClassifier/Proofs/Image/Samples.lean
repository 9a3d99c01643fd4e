import ViewClassifier.Image.Picture
import ViewClassifier.Proofs.Binary32.Arithmetic

/-!
# Samples of an image

The samples of a picture with 8 or 16 bits lie between zero and one after the conversion to an
image, with one exception: the three colour weights add up to slightly more than one, so that white
becomes brighter than one. One step below the greatest red, green or blue makes up for it.
-/

set_option autoImplicit false

namespace ViewClassifier

open Binary32

namespace Samples

/-- Samples of 8 or 16 bits. -/
def IsWhole : Samples → Prop
  | .bytes _ | .words _ => True
  | .reals _ => False

def greatest : Samples → ℕ
  | .bytes _ => 255
  | .words _ => 65535
  | .reals _ => 0

def count (samples : Samples) (i : ℕ) : ℕ :=
  match samples with
  | .bytes values => (values.getD i 0).toNat
  | .words values => (values.getD i 0).toNat
  | .reals _ => 0

/-- The number closest to one that a sample below the greatest one is scaled to. -/
def dimmed : Float32 := .ofBits 0x3f7fff00

variable {samples : Samples} {i : ℕ}

theorem count_le_greatest (samples : Samples) (i : ℕ) : samples.count i ≤ samples.greatest := by
  cases samples with
  | bytes values => exact Nat.le_of_lt_succ (values.getD i 0).toNat_lt
  | words values => exact Nat.le_of_lt_succ (values.getD i 0).toNat_lt
  | reals => exact le_rfl

/-- Quotients take the greatest sample as their divisor, and scaled samples its reciprocal as their
factor. -/
theorem fraction_scaled_eq (whole : samples.IsWhole) (i : ℕ) :
    samples.fraction i = ofNat (samples.count i) / ofNat samples.greatest ∧
      samples.scaled i = ofNat (samples.count i) * (1 / ofNat samples.greatest) := by
  cases samples with
  | bytes values =>
      have sample : (values.getD i 0).toFloat32 = ofNat (values.getD i 0).toNat := (ofNat_eq _).symm
      have greatest : (255 : Float32) = ofNat 255 := by decide
      rw [fraction, scaled, sample, greatest]
      exact ⟨rfl, rfl⟩
  | words values =>
      have sample : (values.getD i 0).toFloat32 = ofNat (values.getD i 0).toNat := (ofNat_eq _).symm
      have greatest : (65535 : Float32) = ofNat 65535 := by decide
      rw [fraction, scaled, sample, greatest]
      exact ⟨rfl, rfl⟩
  | reals => exact whole.elim

section Greatest

variable (whole : samples.IsWhole)

include whole

theorem greatest_cases {P : ℕ → Prop} (eight : P 255) (sixteen : P 65535) : P samples.greatest := by
  cases samples with
  | bytes => exact eight
  | words => exact sixteen
  | reals => exact whole.elim

theorem amount_greatest : Amount (ofNat samples.greatest) :=
  greatest_cases (P := fun count => Amount (ofNat count)) whole (by decide) (by decide)

theorem level_greatest_pos : 0 < level (ofNat samples.greatest) :=
  greatest_cases (P := fun count => 0 < level (ofNat count)) whole (by decide) (by decide)

theorem amount_reciprocal : Amount (1 / ofNat samples.greatest) :=
  greatest_cases (P := fun count => Amount (1 / ofNat count)) whole (by decide) (by decide)

theorem greatest_scaled : ofNat samples.greatest * (1 / ofNat samples.greatest) = 1 := by
  have one : (.ofBits 0x3f800000 : Float32) = 1 := by decide
  exact (greatest_cases (P := fun count => ofNat count * (1 / ofNat count) = .ofBits 0x3f800000)
    whole (by decide) (by decide)).trans one

theorem next_greatest_scaled :
    UpTo dimmed (ofNat (samples.greatest - 1) * (1 / ofNat samples.greatest)) :=
  greatest_cases (P := fun count => UpTo dimmed (ofNat (count - 1) * (1 / ofNat count))) whole
    (by decide) (by decide)

theorem fraction_upTo_one (i : ℕ) : UpTo 1 (samples.fraction i) := by
  have amount := amount_greatest whole
  have positive := level_greatest_pos whole
  have quotient := amount.div_eq_one positive
  have within := (UpTo.ofNat (samples.count_le_greatest i) amount).div amount positive
    (by rw [quotient]; decide)
  rwa [quotient, ← (fraction_scaled_eq whole i).1] at within

theorem scaled_upTo_one (i : ℕ) : UpTo 1 (samples.scaled i) := by
  have within := (UpTo.ofNat (samples.count_le_greatest i) (amount_greatest whole)).mul
    (amount_reciprocal whole).upTo (by rw [greatest_scaled whole]; decide)
  rwa [greatest_scaled whole, ← (fraction_scaled_eq whole i).2] at within

theorem scaled_upTo_dimmed (less : samples.count i < samples.greatest) :
    UpTo dimmed (samples.scaled i) := by
  have next := next_greatest_scaled whole
  have limit := UpTo.ofNat (Nat.sub_le samples.greatest 1) (amount_greatest whole)
  have within := (UpTo.ofNat (Nat.le_sub_one_of_lt less) limit.amount).mul
    (amount_reciprocal whole).upTo next.amount
  rw [← (fraction_scaled_eq whole i).2] at within
  exact within.trans next

theorem scaled_eq_one (full : samples.count i = samples.greatest) : samples.scaled i = 1 := by
  rw [(fraction_scaled_eq whole i).2, full, greatest_scaled whole]

end Greatest

end Samples

section Brightness

variable {r g b red green blue : Float32}

/-- The terms and the partial sums of a brightness are amounts. -/
structure Weighable (red green blue : Float32) : Prop where
  redTerm : Amount (red * redWeight)
  redSum : Amount (0 + red * redWeight)
  greenTerm : Amount (green * greenWeight)
  greenSum : Amount ((0 + red * redWeight) + green * greenWeight)
  blueTerm : Amount (blue * blueWeight)
  total : Amount (brightness red green blue)

theorem weighable_one : Weighable 1 1 1 := by
  constructor <;> decide

theorem brightness_one : brightness 1 1 1 = .ofBits 0x3f800001 := by
  decide

/-- A brightness does not fall when a colour grows. -/
theorem Weighable.upTo (limits : Weighable red green blue) (rUpTo : UpTo red r)
    (gUpTo : UpTo green g) (bUpTo : UpTo blue b) :
    Weighable r g b ∧ UpTo (brightness red green blue) (brightness r g b) := by
  have zero : UpTo 0 0 := by decide
  have redTerm := rUpTo.mul (by decide : UpTo redWeight redWeight) limits.redTerm
  have redSum := zero.add redTerm limits.redSum
  have greenTerm := gUpTo.mul (by decide : UpTo greenWeight greenWeight) limits.greenTerm
  have greenSum := redSum.add greenTerm limits.greenSum
  have blueTerm := bUpTo.mul (by decide : UpTo blueWeight blueWeight) limits.blueTerm
  have total := greenSum.add blueTerm limits.total
  exact ⟨⟨redTerm.amount, redSum.amount, greenTerm.amount, greenSum.amount, blueTerm.amount,
    total.amount⟩, total⟩

open Samples (dimmed)

theorem brightness_upTo_one (rUpTo : UpTo 1 r) (gUpTo : UpTo 1 g) (bUpTo : UpTo 1 b)
    (some : UpTo dimmed r ∨ UpTo dimmed g ∨ UpTo dimmed b) : UpTo 1 (brightness r g b) := by
  -- The bound of the two other colours is one, and the three closed sums stay within it.
  have one : UpTo 1 1 := by decide
  have below : UpTo 1 dimmed := by decide
  rcases some with less | less | less
  · have limits := (weighable_one.upTo below one one).1
    exact (limits.upTo less gUpTo bUpTo).2.trans ⟨limits.total, one.amount, by decide⟩
  · have limits := (weighable_one.upTo one below one).1
    exact (limits.upTo rUpTo less bUpTo).2.trans ⟨limits.total, one.amount, by decide⟩
  · have limits := (weighable_one.upTo one one below).1
    exact (limits.upTo rUpTo gUpTo less).2.trans ⟨limits.total, one.amount, by decide⟩

end Brightness

namespace Picture

def IsWhite (p : Picture) (y x : ℕ) : Prop :=
  p.kind.isColour ∧ ∀ c < 3, p.samples.count (p.pixelStart y x + c) = p.samples.greatest

variable {p : Picture} {y x c : ℕ}

theorem get_toColour (hy : y < p.height) (hx : x < p.width) (hc : c < 3) :
    p.toColour.get y x c =
      if p.kind.isColour then p.samples.fraction (p.pixelStart y x + c)
      else p.samples.scaled (p.pixelStart y x) :=
  Volume.get_ofFn _ hy hx hc

theorem toColour_sample (whole : p.samples.IsWhole) (hy : y < p.height) (hx : x < p.width)
    (hc : c < 3) : UpTo 1 (p.toColour.get y x c) := by
  rw [get_toColour hy hx hc]
  by_cases colour : p.kind.isColour
  · rw [if_pos colour]
    exact Samples.fraction_upTo_one whole _
  · rw [if_neg colour]
    exact Samples.scaled_upTo_one whole _

theorem get_toGrey (hy : y < p.height) (hx : x < p.width) :
    p.toGrey.get y x 0 =
      if p.kind.isColour then
        brightness (p.samples.scaled (p.pixelStart y x)) (p.samples.scaled (p.pixelStart y x + 1))
          (p.samples.scaled (p.pixelStart y x + 2))
      else p.samples.fraction (p.pixelStart y x) :=
  Volume.get_ofFn _ hy hx Nat.one_pos

theorem toGrey_white (whole : p.samples.IsWhole) (hy : y < p.height) (hx : x < p.width)
    (white : p.IsWhite y x) : p.toGrey.get y x 0 = .ofBits 0x3f800001 := by
  obtain ⟨colour, full⟩ := white
  have red := Samples.scaled_eq_one whole (full 0 (by decide))
  have green := Samples.scaled_eq_one whole (full 1 (by decide))
  have blue := Samples.scaled_eq_one whole (full 2 (by decide))
  rw [Nat.add_zero] at red
  rw [get_toGrey hy hx, if_pos colour, red, green, blue, brightness_one]

theorem toGrey_sample (whole : p.samples.IsWhole) (hy : y < p.height) (hx : x < p.width)
    (dark : ¬ p.IsWhite y x) : UpTo 1 (p.toGrey.get y x 0) := by
  rw [get_toGrey hy hx]
  have unit := Samples.scaled_upTo_one whole
  have less : ∀ i, p.samples.count i ≠ p.samples.greatest →
      UpTo Samples.dimmed (p.samples.scaled i) := by
    intro i other
    have least := p.samples.count_le_greatest i
    exact Samples.scaled_upTo_dimmed whole (Nat.lt_of_le_of_ne least other)
  by_cases colour : p.kind.isColour
  · rw [if_pos colour]
    refine brightness_upTo_one (unit _) (unit _) (unit _) ?_
    by_cases red : p.samples.count (p.pixelStart y x) = p.samples.greatest
    · by_cases green : p.samples.count (p.pixelStart y x + 1) = p.samples.greatest
      · refine .inr (.inr (less _ fun blue => dark ⟨colour, fun c bound => ?_⟩))
        match c with
        | 0 => exact red
        | 1 => exact green
        | 2 => exact blue
      · exact .inr (.inl (less _ green))
    · exact .inl (less _ red)
  · rw [if_neg colour]
    exact Samples.fraction_upTo_one whole _

/-- All samples of the image of a whole picture lie between zero and one, except for white that is
turned into grey, which exceeds one by the least possible amount. -/
theorem toImage_sample (whole : p.samples.IsWhole) (colour : Bool)
    (hy : y < (p.toImage colour).height) (hx : x < (p.toImage colour).width)
    (hc : c < (p.toImage colour).channels) :
    0 ≤ (p.toImage colour).get y x c ∧ (p.toImage colour).get y x c ≤ .ofBits 0x3f800001 ∧
      ((p.toImage colour).get y x c ≤ 1 ↔ ¬ (colour = false ∧ p.IsWhite y x)) := by
  have step : UpTo (.ofBits 0x3f800001) 1 := by decide
  have accept : ∀ {sample : Float32}, UpTo 1 sample → ¬ (colour = false ∧ p.IsWhite y x) →
      0 ≤ sample ∧ sample ≤ .ofBits 0x3f800001 ∧
        (sample ≤ 1 ↔ ¬ (colour = false ∧ p.IsWhite y x)) :=
    fun within dark => ⟨within.amount.zero_le, (within.trans step).le, iff_of_true within.le dark⟩
  cases colour with
  | true => exact accept (toColour_sample whole hy hx hc) (fun grey => nomatch grey.1)
  | false =>
      obtain rfl : c = 0 := Nat.lt_one_iff.mp hc
      by_cases white : p.IsWhite y x
      · have sample : (p.toImage false).get y x 0 = .ofBits 0x3f800001 :=
          toGrey_white whole hy hx white
        rw [sample]
        exact ⟨by decide, by decide, iff_of_false (by decide) (not_not_intro ⟨rfl, white⟩)⟩
      · exact accept (toGrey_sample whole hy hx white) (fun grey => white grey.2)

theorem inWords_pixel : Dims.InWords ⟨1, 1⟩ := by decide

def nearlyWhite : Picture :=
  ⟨1, 1, .colourAlpha, .words #[65535, 65535, 65534, 0], rfl, inWords_pixel⟩

theorem toImage_sample_nearlyWhite :
    nearlyWhite.samples.IsWhole ∧ 0 < (nearlyWhite.toImage false).height ∧
      0 < (nearlyWhite.toImage false).width ∧ 0 < (nearlyWhite.toImage false).channels ∧
      0 ≤ (nearlyWhite.toImage false).get 0 0 0 ∧ (nearlyWhite.toImage false).get 0 0 0 ≤ 1 := by
  have whole : nearlyWhite.samples.IsWhole := trivial
  have blue : nearlyWhite.samples.count (nearlyWhite.pixelStart 0 0 + 2) ≠
      nearlyWhite.samples.greatest := by decide
  have sample := toImage_sample whole false Nat.one_pos Nat.one_pos Nat.one_pos
  exact ⟨whole, Nat.one_pos, Nat.one_pos, Nat.one_pos, sample.1,
    sample.2.2.mpr fun grey => blue (grey.2.2 2 (by decide))⟩

def white : Picture :=
  ⟨1, 1, .colour, .bytes #[255, 255, 255], rfl, inWords_pixel⟩

theorem white_exceeds_one : white.samples.IsWhole ∧ 0 < (white.toImage false).height ∧
    0 < (white.toImage false).width ∧ 0 < (white.toImage false).channels ∧
    ¬ (white.toImage false).get 0 0 0 ≤ 1 := by
  refine ⟨trivial, Nat.one_pos, Nat.one_pos, Nat.one_pos, ?_⟩
  have sample : (white.toImage false).get 0 0 0 = .ofBits 0x3f800001 :=
    toGrey_white trivial Nat.one_pos Nat.one_pos ⟨rfl, by decide⟩
  rw [sample]
  decide

end Picture

end ViewClassifier
