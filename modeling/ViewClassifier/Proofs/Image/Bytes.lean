import ViewClassifier.Proofs.Binary32.NotANumber
import ViewClassifier.Proofs.Binary32.WholePart
import ViewClassifier.Proofs.Image.Samples
import ViewClassifier.Proofs.Places

/-!
# Pictures of bytes

A byte comes back from a sample that is not far from its share of the greatest byte. Both ways to
make a sample of a byte stay near enough, so that an 8-bit picture comes back from its image.
-/

set_option autoImplicit false

namespace ViewClassifier

open Binary32
open Rounding (spacing)

section Byte

variable {x : Float32} {count : ℕ}

theorem clampUnit_of_upTo (unit : UpTo 1 x) : clampUnit x = x := by
  have above : ¬ x < 0 :=
    fun negative => ((lt_iff_not_le unit.amount.number 0).mp negative).2 unit.amount.zero_le
  have below : ¬ 1 < x :=
    fun greater => ((lt_iff_not_le (by decide) x).mp greater).2 unit.le
  unfold clampUnit
  rw [if_neg above, if_neg below]

theorem toUInt8_nearest (small : count < 256) :
    (nearest .positive count 0).toUInt8.toNat = count := by
  have each : ∀ n : Fin 256, (nearest .positive n.val 0).toUInt8.toNat = n.val := by
    decide +kernel
  exact each ⟨count, small⟩

theorem toUInt8_of_zero (zero : ∃ sign, unpack x = .zero sign) : x.toUInt8.toNat = 0 := by
  obtain ⟨sign, unpacked⟩ := zero
  change ((unpack x).toUInt8).toNat = 0
  rw [unpacked]
  rfl

theorem exact_greatest_byte : exact (ofNat 255) = 255 :=
  exact_ofNat (by decide)

/-- The product with the greatest byte is off by less than a quarter of a unit, and so is the
product of the distance. -/
theorem sampleByte_of_close (unit : UpTo 1 x) (small : count < 256)
    (close : |exact x - count / 255| ≤ 1 / 1024) : (sampleByte x).toNat = count := by
  have greatest : (255 : Float32) = ofNat 255 := by decide
  have limit : Amount (ofNat 255) := by decide
  have top : Amount (1 * ofNat 255) := by decide
  have scaled := (unit.mul limit.upTo top).amount
  have bound := mul_le_mul_of_nonneg_right unit.exact_le (exact_nonneg (ofNat 255))
  rw [exact_one, one_mul] at bound
  have error := (unit.amount.rounds_mul limit).error
    (mul_nonneg (exact_nonneg x) (exact_nonneg _)) limit bound
  rw [spacing_of_octave (show (level (ofNat 255)).toNat / 0x800000 - 1 = 133 by decide),
    exact_greatest_byte] at error
  have distance : 2 * |exact (x * ofNat 255) - count| < 1 := by
    have product : exact x * 255 - count = 255 * (exact x - count / 255) := by ring
    have triangle := abs_sub_le (exact (x * ofNat 255)) (exact x * 255) count
    rw [product, abs_mul, abs_of_nonneg (by norm_num : (0 : ℚ) ≤ 255)] at triangle
    norm_num at error
    linarith
  unfold sampleByte
  rw [clampUnit_of_upTo unit, greatest]
  rcases round_of_close scaled distance with ⟨rfl, zero⟩ | rounded
  · exact toUInt8_of_zero zero
  · rw [rounded, toUInt8_nearest small]

theorem close_quotient (small : count ≤ 255) :
    |exact (ofNat count / ofNat 255) - count / 255| ≤ 1 / 1024 := by
  have limit : Amount (ofNat 255) := by decide
  have exactly : exact (ofNat count) = count :=
    exact_ofNat (Nat.lt_of_le_of_lt small (by decide))
  have top : (count : ℚ) ≤ 255 := by exact_mod_cast small
  have rounds := (UpTo.ofNat small limit).amount.rounds_div limit (by decide)
  rw [exactly, exact_greatest_byte] at rounds
  have error := rounds.error (by positivity) (show Amount 1 by decide) (by
    rw [exact_one]
    linarith)
  rw [spacing_of_octave (show (level 1).toNat / 0x800000 - 1 = 126 by decide)] at error
  norm_num at error ⊢
  linarith

/-- The reciprocal is off by less than 2⁻²³, and the product with a byte multiplies the distance. -/
theorem close_scaled (small : count ≤ 255) :
    |exact (ofNat count * (1 / ofNat 255)) - count / 255| ≤ 1 / 1024 := by
  have limit : Amount (ofNat 255) := by decide
  have reciprocal : Amount (1 / ofNat 255) := by decide
  have exactly : exact (ofNat count) = count :=
    exact_ofNat (Nat.lt_of_le_of_lt small (by decide))
  have top : (count : ℚ) ≤ 255 := by exact_mod_cast small
  have share := (show Amount 1 by decide).rounds_div limit (by decide)
  rw [exact_one, exact_greatest_byte] at share
  have shareError := share.error (by norm_num) (show Amount 1 by decide) (by
    rw [exact_one]
    norm_num)
  rw [spacing_of_octave (show (level 1).toNat / 0x800000 - 1 = 126 by decide)] at shareError
  norm_num at shareError
  have least : (0 : ℚ) ≤ count := Nat.cast_nonneg count
  have distance : |count * exact (1 / ofNat 255) - count / 255| ≤ 255 * (1 / 16777216) := by
    rw [div_eq_mul_one_div, ← mul_sub, abs_mul, abs_of_nonneg least]
    exact mul_le_mul top (by linarith) (abs_nonneg _) (by norm_num)
  have bounded : count * exact (1 / ofNat 255) ≤ exact (ofNat 2) := by
    rw [exact_ofNat (by decide)]
    have above := (abs_le.mp distance).2
    norm_num at above ⊢
    linarith
  have rounds := (UpTo.ofNat small limit).amount.rounds_mul reciprocal
  rw [exactly] at rounds
  have error := rounds.error (mul_nonneg least (exact_nonneg _))
    (show Amount (ofNat 2) by decide) bounded
  rw [spacing_of_octave (show (level (ofNat 2)).toNat / 0x800000 - 1 = 127 by decide)] at error
  norm_num at error
  have triangle := abs_sub_le (exact (ofNat count * (1 / ofNat 255)))
    (count * exact (1 / ofNat 255)) (count / 255)
  linarith

end Byte

namespace Samples

variable (values : Array UInt8) (i : ℕ)

theorem sampleByte_fraction : sampleByte (fraction (.bytes values) i) = values.getD i 0 := by
  have whole : (bytes values).IsWhole := trivial
  have small := (bytes values).count_le_greatest i
  apply UInt8.toNat_inj.mp
  refine sampleByte_of_close (fraction_upTo_one whole i) (Nat.lt_succ_of_le small) ?_
  rw [(fraction_scaled_eq whole i).1]
  exact close_quotient small

theorem sampleByte_scaled : sampleByte (scaled (.bytes values) i) = values.getD i 0 := by
  have whole : (bytes values).IsWhole := trivial
  have small := (bytes values).count_le_greatest i
  apply UInt8.toNat_inj.mp
  refine sampleByte_of_close (scaled_upTo_one whole i) (Nat.lt_succ_of_le small) ?_
  rw [(fraction_scaled_eq whole i).2]
  exact close_scaled small

end Samples

/-- What an image of one or three channels is written as. -/
theorem Image.exists_toPicture {image : Image} (short : image.dims.InWords)
    (count : image.channels = 1 ∨ image.channels = 3) :
    ∃ picture out, image.toPicture = .ok picture ∧ picture.height = image.height ∧
      picture.width = image.width ∧ picture.kind = .colour ∧ picture.samples = .bytes out ∧
      ∀ y x c, y < image.height → x < image.width → c < 3 →
        out[picture.pixelStart y x + c]? =
          some (sampleByte (image.get y x (Min.min c (image.channels - 1)))) := by
  have accepted : ¬ (image.channels ≠ 1 ∧ image.channels ≠ 3) := by omega
  have height : image.height % UInt32.size = image.height := Nat.mod_eq_of_lt short.1
  have width : image.width % UInt32.size = image.width := Nat.mod_eq_of_lt short.2
  unfold toPicture
  rw [if_neg accepted]
  refine ⟨_, _, rfl, height, width, rfl, rfl, fun y x c hy hx hc => ?_⟩
  rw [← height] at hy
  rw [← width] at hx
  have lengths : (Volume.ofFn (image.height % UInt32.size) (image.width % UInt32.size) 3
      fun y x c => image.get y x (Min.min c (image.channels - 1))).HasLengths
        (image.height % UInt32.size) (image.width % UInt32.size) 3 :=
    ⟨rfl, rfl, rfl⟩
  have stored := Volume.getElem?_data lengths hy hx hc
  rw [Volume.get_ofFn _ hy hx hc] at stored
  rw [Array.getElem?_map]
  exact congrArg (Option.map sampleByte) stored

namespace Picture

variable {p : Picture} {values : Array UInt8} {y x c : ℕ}

/-- The place of a colour sample among the samples of its pixel. A grey pixel has one for all. -/
def colourSample (p : Picture) (c : ℕ) : ℕ :=
  if p.kind.isColour then c else 0

theorem colourSample_lt (p : Picture) (hc : c < 3) : p.colourSample c < p.kind.samples := by
  unfold colourSample
  cases p.kind <;> simp [PixelKind.isColour, PixelKind.samples] <;> omega

theorem sampleByte_toImage (bytes : p.samples = .bytes values) {colour : Bool}
    (kept : colour = true ∨ p.kind.isColour = false) (hy : y < p.height) (hx : x < p.width)
    (hc : c < 3) :
    sampleByte ((p.toImage colour).get y x (Min.min c ((p.toImage colour).channels - 1))) =
      values.getD (p.pixelStart y x + p.colourSample c) 0 := by
  cases colour with
  | true =>
      have channel : Min.min c ((p.toImage true).channels - 1) = c := Nat.min_eq_left (by
        change c ≤ 2
        omega)
      rw [channel]
      change sampleByte (p.toColour.get y x c) = _
      unfold colourSample
      rw [get_toColour hy hx hc, bytes]
      by_cases coloured : p.kind.isColour
      · rw [if_pos coloured, if_pos coloured]
        exact Samples.sampleByte_fraction values _
      · rw [if_neg coloured, if_neg coloured]
        exact Samples.sampleByte_scaled values _
  | false =>
      have grey : ¬ p.kind.isColour := by simpa using kept
      have channel : Min.min c ((p.toImage false).channels - 1) = 0 :=
        Nat.min_eq_right (Nat.zero_le c)
      rw [channel]
      change sampleByte (p.toGrey.get y x 0) = _
      unfold colourSample
      rw [get_toGrey hy hx, if_neg grey, if_neg grey, bytes]
      exact Samples.sampleByte_fraction values _

theorem pixelStart_add_lt (bytes : p.samples = .bytes values) (hy : y < p.height)
    (hx : x < p.width) {sample : ℕ} (inside : sample < p.kind.samples) :
    p.pixelStart y x + sample < values.size := by
  have size := p.size_samples
  rw [bytes] at size
  change values.size = _ at size
  rw [size]
  exact Volume.offset_lt hy hx inside

/-- An 8-bit picture comes back from its colour image, and a grey one from its grey image as well.
What comes back is in colour, with the grey sample three times and without transparency. -/
theorem toPicture_toImage (bytes : p.samples = .bytes values) {colour : Bool}
    (kept : colour = true ∨ p.kind.isColour = false) :
    ∃ back out, (p.toImage colour).toPicture = .ok back ∧ back.height = p.height ∧
      back.width = p.width ∧ back.kind = .colour ∧ back.samples = .bytes out ∧
      ∀ y x c, y < p.height → x < p.width → c < 3 →
        ∃ sample, values[p.pixelStart y x + p.colourSample c]? = some sample ∧
          out[back.pixelStart y x + c]? = some sample := by
  have height : (p.toImage colour).height = p.height := by cases colour <;> rfl
  have width : (p.toImage colour).width = p.width := by cases colour <;> rfl
  have short : (p.toImage colour).dims.InWords := by cases colour <;> exact p.inWords
  have count : (p.toImage colour).channels = 1 ∨ (p.toImage colour).channels = 3 := by
    cases colour with
    | true => exact .inr rfl
    | false => exact .inl rfl
  obtain ⟨back, out, written, backHeight, backWidth, kind, samples, stored⟩ :=
    Image.exists_toPicture short count
  refine ⟨back, out, written, backHeight.trans height, backWidth.trans width, kind, samples, ?_⟩
  intro y x c hy hx hc
  have inside := pixelStart_add_lt bytes hy hx (p.colourSample_lt hc)
  have sample := sampleByte_toImage bytes kept hy hx hc
  rw [Array.getD_eq_getD_getElem?, Array.getElem?_eq_getElem inside] at sample
  refine ⟨_, Array.getElem?_eq_getElem inside, ?_⟩
  rw [stored y x c (height ▸ hy) (width ▸ hx) hc, sample]
  rfl

theorem toPicture_toImage_greyAlpha :
    let p : Picture := ⟨1, 2, .greyAlpha, .bytes #[7, 0, 200, 255], rfl, by decide⟩
    p.samples = .bytes #[7, 0, 200, 255] ∧ p.kind.isColour = false ∧
      ∃ back out, (p.toImage false).toPicture = .ok back ∧ back.width = 2 ∧
        back.samples = .bytes out ∧ out[back.pixelStart 0 1 + 2]? = some 200 := by
  intro p
  obtain ⟨back, out, written, _, width, _, samples, stored⟩ :=
    toPicture_toImage (show p.samples = .bytes #[7, 0, 200, 255] from rfl) (.inr rfl)
  obtain ⟨sample, grey, colour⟩ := stored 0 1 2 (by decide) (by decide) (by decide)
  obtain rfl : 200 = sample := Option.some.inj grey
  exact ⟨rfl, rfl, back, out, written, width, samples, colour⟩

end Picture

end ViewClassifier
