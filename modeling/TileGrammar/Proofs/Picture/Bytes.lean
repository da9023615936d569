import TileGrammar.Proofs.Picture.Drawing

/-!
# Canvases as they are made

A canvas begins in one color or is read from bytes, four to a pixel, and is
then drawn on. All canvases made in this way are well formed. Pixels stand row
by row: bytes of the right number are read as a canvas whose pixel at a place
is the four bytes there, so the pixels of all places, row by row, are the bytes
again.
-/

set_option autoImplicit false

namespace TileGrammar

theorem Region.map_index_all (width height : Nat) :
    (all width height).map (fun p => p.2 * width + p.1) = List.range (width * height) := by
  have hspan : ∀ n, span 0 n = List.range n := by
    intro n
    rw [span, Nat.sub_zero, List.range_eq_range']
  rw [all, rect, hspan, hspan]
  -- One row more is counted on from where the others end.
  induction height with
  | zero => simp
  | succ height ih =>
    rw [List.range_succ, List.flatMap_append, List.map_append, ih, Nat.mul_succ, List.range_add]
    simp [Nat.mul_comm]

namespace Canvas

theorem length_lt_of_no_pixel {bytes : List UInt8}
    (h : ∀ r g b a rest, bytes = r :: g :: b :: a :: rest → False) : bytes.length < 4 := by
  rcases bytes with _ | ⟨r, _ | ⟨g, _ | ⟨b, _ | ⟨a, rest⟩⟩⟩⟩
  · simp
  · simp
  · simp
  · simp
  · exact absurd rfl (h r g b a rest)

theorem size_pixelsFrom (bytes : List UInt8) (pixels : Array Rgba) :
    (pixelsFrom bytes pixels).size = pixels.size + bytes.length / 4 := by
  fun_induction pixelsFrom bytes pixels with
  | case1 r g b a rest pixels ih =>
    rw [ih, Array.size_push]
    simp only [List.length_cons]
    omega
  | case2 bytes pixels hfew =>
    have hlength := length_lt_of_no_pixel hfew
    omega

theorem ofBytes_wellFormed {width height : Nat} {bytes : List UInt8} {c : Canvas}
    (h : ofBytes width height bytes = .ok c) : c.WellFormed := by
  unfold ofBytes at h
  split at h
  next hlength =>
    cases h
    rw [WellFormed, size_pixelsFrom, hlength]
    simp
  next => cases h

/-- In one color or read from bytes at first, and then changed by strokes. -/
inductive Made : Canvas → Prop where
  | uniform (width height : Nat) (color : Rgba) : Made (uniform width height color)
  | ofBytes {width height : Nat} {bytes : List UInt8} {c : Canvas} :
      ofBytes width height bytes = .ok c → Made c
  | draw {c : Canvas} (s : Stroke) : Made c → Made (c.draw s)

theorem Made.wellFormed {c : Canvas} (h : c.Made) : c.WellFormed := by
  induction h with
  | uniform width height color => exact uniform_wellFormed width height color
  | ofBytes h => exact ofBytes_wellFormed h
  | draw s _ ih => exact draw_wellFormed ih s

theorem channels_pixelsFrom {bytes : List UInt8} {pixels : Array Rgba} (h : 4 ∣ bytes.length) :
    (pixelsFrom bytes pixels).toList.flatMap Rgba.channels =
      pixels.toList.flatMap Rgba.channels ++ bytes := by
  fun_induction pixelsFrom bytes pixels with
  | case1 r g b a rest pixels ih =>
    have hrest : 4 ∣ rest.length := by
      simp only [List.length_cons] at h
      omega
    rw [ih hrest]
    simp [Rgba.channels]
  | case2 bytes pixels hfew =>
    -- Fewer than four bytes are left, and four divides their number.
    have hnil : bytes = [] := by
      apply List.eq_nil_of_length_eq_zero
      have hshort := length_lt_of_no_pixel hfew
      omega
    simp [hnil]

theorem WellFormed.read_of_index {c : Canvas} (h : c.WellFormed) {x y : Nat} (hx : x < c.width)
    (hy : y < c.height) :
    ∃ p, c.pixels.toList[y * c.width + x]? = some p ∧ c.read (x, y) = .ok p := by
  have hindex : y * c.width + x < c.pixels.size := by
    rw [h]
    exact Region.index_lt (p := (x, y)) ⟨hx, hy⟩
  refine ⟨c.pixels[y * c.width + x], ?_, ?_⟩
  · simp [hindex]
  · simp [read, pixelAt?, hindex, orFail]

theorem WellFormed.map_pixel_all {c : Canvas} (h : c.WellFormed) :
    (Region.all c.width c.height).map c.pixel = c.pixels.toList := by
  have hpixel : c.pixel = (fun i => c.pixels[i]?.getD .clear) ∘ fun p => p.2 * c.width + p.1 := rfl
  rw [hpixel, ← List.map_map, Region.map_index_all, ← h]
  apply List.ext_getElem
  · simp
  · intro i _ hi
    have hlt : i < c.pixels.size := by simpa using hi
    simp [hlt]

theorem WellFormed.view_bytes {c : Canvas} (h : c.WellFormed) :
    c.view.pixels.map (List.flatMap Rgba.channels) = .ok c.bytes := by
  rw [h.pixels_eq, h.map_pixel_all]
  rfl

section

variable {width height : Nat} {bytes : List UInt8} {c : Canvas}

theorem ofBytes_of_length_ne (h : bytes.length ≠ width * height * 4) :
    ofBytes width height bytes = .error (.byteCount width height bytes.length) := by
  rw [ofBytes, if_neg h]

theorem ofBytes_eq_ok_iff : ofBytes width height bytes = .ok c ↔
    bytes.length = width * height * 4 ∧ c = ⟨width, height, pixelsFrom bytes #[]⟩ := by
  by_cases h : bytes.length = width * height * 4
  · rw [ofBytes, if_pos h]
    constructor
    · intro hc
      cases hc
      exact ⟨h, rfl⟩
    · rintro ⟨-, rfl⟩
      rfl
  · rw [ofBytes_of_length_ne h]
    constructor
    · intro hc
      cases hc
    · rintro ⟨hlength, -⟩
      exact absurd hlength h

theorem bytes_of_ofBytes (h : ofBytes width height bytes = .ok c) : c.bytes = bytes := by
  obtain ⟨hlength, rfl⟩ := ofBytes_eq_ok_iff.mp h
  have hwhole : 4 ∣ bytes.length := ⟨width * height, by omega⟩
  exact channels_pixelsFrom hwhole

theorem read_of_ofBytes (h : ofBytes width height bytes = .ok c) {x y : Nat} (hx : x < width)
    (hy : y < height) : ∃ p, c.read (x, y) = .ok p ∧
      ∀ j < 4, bytes[4 * (y * width + x) + j]? = p.channels[j]? := by
  have hwell := ofBytes_wellFormed h
  have hbytes := bytes_of_ofBytes h
  obtain ⟨-, rfl⟩ := ofBytes_eq_ok_iff.mp h
  obtain ⟨p, hp, hread⟩ := hwell.read_of_index hx hy
  refine ⟨p, hread, fun j hj => ?_⟩
  have hchannel : p.channels[j]? = some p.channels[j] := List.getElem?_eq_getElem hj
  rw [hchannel, ← hbytes, Nat.mul_comm]
  exact getElem?_flatMap_of_length (f := Rgba.channels) (k := 4) (fun _ => rfl) hp hchannel

end

def wordCount (width height : UInt32) : UInt64 := width.toUInt64 * height.toUInt64 * 4

theorem toNat_wordCount {width height : UInt32} (h : 4 * width.toNat * height.toNat < 2 ^ 64) :
    (wordCount width height).toNat = 4 * width.toNat * height.toNat := by
  have hcount : width.toNat * height.toNat * 4 = 4 * width.toNat * height.toNat := by
    rw [Nat.mul_comm, Nat.mul_assoc]
  simp only [wordCount, UInt64.toNat_mul, UInt32.toNat_toUInt64, UInt64.toNat_ofNat]
  omega

end Canvas

end TileGrammar
