import TileGrammar.Proofs.Picture.Bytes
import TileGrammar.Proofs.Validation.Verdicts

/-!
# Judging packed bytes

Bytes of the right number are judged as the canvas they are read as. Of all
others the verdict is that they make no picture: one finding, and neither
warnings nor counts, for no rule is asked.
-/

set_option autoImplicit false

namespace TileGrammar

namespace Policy

variable (policy : Policy) {width height : Nat} {bytes : List UInt8} (g : Grammar)
  (palette : Option Palette)

theorem judgeBytes_of_ofBytes {c : Canvas} (h : Canvas.ofBytes width height bytes = .ok c) :
    policy.judgeBytes width height bytes g palette = policy.judge c g palette := by
  rw [judgeBytes, h]

theorem judgeBytes_of_length_ne (h : bytes.length ≠ width * height * 4) :
    policy.judgeBytes width height bytes g palette =
      .ok ⟨g.tileId, false, [badFormat (.byteCount width height bytes.length)], [], ∅⟩ := by
  rw [judgeBytes, Canvas.ofBytes_of_length_ne h]
  rfl

end Policy

/-- Bytes make a picture exactly when they are four times as many as its places, a number that a
word of 64 bits holds. Then the pixel at a place is the four bytes there, the pixels row by row are
the bytes again, and judging the bytes is judging the picture, which always comes to a verdict. Any
other number of bytes is refused for its format, and the verdict on them fails the tile with this
one error and nothing else. -/
theorem packed_bytes_are_judged_as_pixels (width height : UInt32)
    (hsize : 4 * width.toNat * height.toNat < 2 ^ 64) (bytes : List UInt8) :
    let w := width.toNat
    let h := height.toNat
    (Canvas.wordCount width height).toNat = 4 * w * h ∧
    ((∃ c, Canvas.ofBytes w h bytes = .ok c) ↔ bytes.length = 4 * w * h) ∧
    (∀ c, Canvas.ofBytes w h bytes = .ok c →
      c.width = w ∧ c.height = h ∧
      (∀ x y, x < w → y < h → ∃ p, c.read (x, y) = .ok p ∧
        ∀ j < 4, bytes[4 * (y * w + x) + j]? = p.channels[j]?) ∧
      c.view.pixels.map (List.flatMap Rgba.channels) = .ok bytes ∧
      ∀ (policy : Policy) (g : Grammar) (palette : Option Palette), ∃ v,
        policy.judge c g palette = .ok v ∧ policy.judgeBytes w h bytes g palette = .ok v) ∧
    (bytes.length ≠ 4 * w * h →
      (∃ e, Canvas.ofBytes w h bytes = .error e ∧ e.kind = .format) ∧
      ∀ (policy : Policy) (g : Grammar) (palette : Option Palette), ∃ found,
        policy.judgeBytes w h bytes g palette = .ok ⟨g.tileId, false, [found], [], ∅⟩ ∧
          found.kind = .format ∧ found.severity = .error) := by
  intro w h
  have hcount : w * h * 4 = 4 * w * h := by rw [Nat.mul_comm, Nat.mul_assoc]
  refine ⟨Canvas.toNat_wordCount hsize, ?_, fun c hc => ?_, fun hlength => ?_⟩
  · rw [← hcount]
    constructor
    · rintro ⟨c, hc⟩
      exact (Canvas.ofBytes_eq_ok_iff.mp hc).1
    · intro hlength
      exact ⟨_, Canvas.ofBytes_eq_ok_iff.mpr ⟨hlength, rfl⟩⟩
  · have hwell := Canvas.ofBytes_wellFormed hc
    have hshape : c.width = w ∧ c.height = h := by
      obtain ⟨-, rfl⟩ := Canvas.ofBytes_eq_ok_iff.mp hc
      exact ⟨rfl, rfl⟩
    refine ⟨hshape.1, hshape.2, fun x y => Canvas.read_of_ofBytes hc, ?_,
      fun policy g palette => ?_⟩
    · rw [hwell.view_bytes, Canvas.bytes_of_ofBytes hc]
    · obtain ⟨v, hv⟩ := Scene.verdict_ok policy g palette hwell
      exact ⟨v, hv, (policy.judgeBytes_of_ofBytes g palette hc).trans hv⟩
  · rw [← hcount] at hlength
    refine ⟨⟨_, Canvas.ofBytes_of_length_ne hlength, rfl⟩, fun policy g palette => ?_⟩
    exact ⟨_, policy.judgeBytes_of_length_ne g palette hlength, rfl, rfl⟩

theorem packed_bytes_are_judged_as_pixels_column :
    let bytes : List UInt8 := [1, 2, 3, 255, 4, 5, 6, 0]
    let g := Grammar.ofCategory "wall" "ink"
    4 * (1 : UInt32).toNat * (2 : UInt32).toNat < 2 ^ 64 ∧
      (∃ c, Canvas.ofBytes 1 2 bytes = .ok c ∧
        (∃ p, c.read (0, 1) = .ok p ∧ p.channels[3]? = some 0) ∧
        ∃ v, Policy.strictest.judgeBytes 1 2 bytes g none = .ok v) ∧
      ∃ found, Policy.strictest.judgeBytes 1 2 bytes.dropLast g none =
        .ok ⟨g.tileId, false, [found], [], ∅⟩ ∧ found.kind = .format := by
  intro bytes g
  have hsize : 4 * (1 : UInt32).toNat * (2 : UInt32).toNat < 2 ^ 64 := by decide
  obtain ⟨-, hmake, hread, -⟩ := packed_bytes_are_judged_as_pixels 1 2 hsize bytes
  obtain ⟨-, -, -, hrefused⟩ := packed_bytes_are_judged_as_pixels 1 2 hsize bytes.dropLast
  obtain ⟨c, hc⟩ := hmake.mpr rfl
  obtain ⟨-, -, hpixel, -, hjudge⟩ := hread c hc
  refine ⟨hsize, ⟨c, hc, ?_, ?_⟩, ?_⟩
  · obtain ⟨p, hp, hbytes⟩ := hpixel 0 1 (by decide) (by decide)
    exact ⟨p, hp, (hbytes 3 (by decide)).symm⟩
  · obtain ⟨v, -, hv⟩ := hjudge Policy.strictest g none
    exact ⟨v, hv⟩
  · obtain ⟨found, hfound, hkind, -⟩ := (hrefused (by decide)).2 Policy.strictest g none
    exact ⟨found, hfound, hkind⟩

end TileGrammar
