import Photonic.Fake.Format7

namespace Photonic
namespace Fake
open Dcam

/-- A byte written to a frame: its place from the frame's first byte, and its value. -/
structure Store where
  offset : ℕ
  value : BitVec 8
  deriving DecidableEq, Repr

def clampU8 (v : ℤ) : BitVec 8 := if v < 0 then 0 else if 255 < v then 255 else BitVec.ofInt 8 v

/-- What a pixel shows. -/
structure Colour where
  r : ℕ
  g : ℕ
  b : ℕ
  lum : ℕ
  deriving DecidableEq, Repr

/-- A white bar sweeps over the three ramps. -/
def colour (w x y frameNo : ℕ) : Colour :=
  let bar := if w = 0 then 0 else frameNo * 8 % 2 ^ 32 % w
  if (x + 2 ^ 32 - bar) % 2 ^ 32 < 16 then ⟨0xFF, 0xFF, 0xFF, 0xFF⟩
  else
    let lum := (x + y + frameNo * 4) % 256
    ⟨lum, y % 256, x % 256, lum⟩

namespace Colour

def luma (c : Colour) : ℤ := (77 * c.r + 150 * c.g + 29 * c.b) / 256

def chromaU (c : Colour) : ℤ := 128 + (-43 * c.r - 85 * c.g + 128 * c.b) / 256

def chromaV (c : Colour) : ℤ := 128 + (128 * c.r - 107 * c.g - 21 * c.b) / 256

end Colour

def pixelStores (pixfmt w x y : ℕ) (c : Colour) : List Store :=
  let index := (y * w + x) % 2 ^ 32
  if pixfmt = pixYuv422 then
    [⟨index * 2, clampU8 (if x % 2 = 1 then c.chromaV else c.chromaU)⟩,
      ⟨index * 2 + 1, clampU8 c.luma⟩]
  else if pixfmt = pixYuv411 then
    let p := y * (w * 3 % 2 ^ 32 / 2) + x / 4 * 6
    let k := x % 4
    ⟨p + (k + 1 + k / 2), clampU8 c.luma⟩ ::
      if k = 0 then [⟨p, clampU8 c.chromaU⟩]
      else if k = 2 then [⟨p + 3, clampU8 c.chromaV⟩]
      else []
  else if pixfmt = pixYuv444 ∨ pixfmt = pixRgb24 then
    [⟨index * 3, BitVec.ofNat 8 c.b⟩, ⟨index * 3 + 1, BitVec.ofNat 8 c.g⟩,
      ⟨index * 3 + 2, BitVec.ofNat 8 c.r⟩]
  else if pixfmt = pixMono16 then
    [⟨index * 2, BitVec.ofNat 8 c.lum⟩, ⟨index * 2 + 1, BitVec.ofNat 8 c.lum⟩]
  else if pixfmt = pixRaw8 then
    let sample :=
      if y % 2 = 0 then if x % 2 = 0 then c.r else c.g else if x % 2 = 0 then c.g else c.b
    [⟨y * w + x, BitVec.ofNat 8 sample⟩]
  else [⟨y * w + x, BitVec.ofNat 8 c.lum⟩]

/-- `sizeof(frame_meta_t)` -/
def frameMetaBytes : ℕ := 152

def frameMetaChecksumOffset : ℕ := 148

/-- The bytes of a header, and of the checksum patched into it: the state of the camera's other
parts and the contents of the frame. -/
structure Stamp where
  header : Vector (BitVec 8) frameMetaBytes
  checksum : Vector (BitVec 8) 4

def layDown {n : ℕ} (offset : ℕ) (bytes : Vector (BitVec 8) n) : List Store :=
  (List.finRange n).map fun i : Fin n => ⟨offset + i, bytes.get i⟩

/-- `embed_frame_meta`: nothing in a frame that transmits less than a header. -/
def embedFrameMeta (iso : IsoGeometry) (stamp : Stamp) : List Store :=
  if iso.isoBpp * iso.isoPpf % 2 ^ 32 < frameMetaBytes then []
  else layDown 0 stamp.header ++ layDown frameMetaChecksumOffset stamp.checksum

def fillFrameImage (iso : IsoGeometry) (frameNo : ℕ) (stamp : Stamp) : List Store :=
  let w := iso.imgWidth
  let h := iso.imgHeight
  let image :=
    if w = 0 ∨ h = 0 then
      (List.range iso.frameBytes).map fun i => ⟨i, BitVec.ofNat 8 (i + frameNo * 4)⟩
    else
      (List.range h).flatMap fun y => (List.range w).flatMap fun x =>
        pixelStores iso.pixfmt w x y (colour w x y frameNo)
  image ++ embedFrameMeta iso stamp

def bytesPerPixel (pixfmt : ℕ) : ℕ :=
  if pixfmt = pixYuv422 ∨ pixfmt = pixMono16 then 2
  else if pixfmt = pixYuv444 ∨ pixfmt = pixRgb24 then 3
  else 1

def lineBytes (pixfmt w : ℕ) : ℕ :=
  if pixfmt = pixYuv411 then w * 3 / 2 else w * bytesPerPixel pixfmt

section
variable {w h x y : ℕ}

/-- The bytes of a pixel end where those of the next begin. -/
theorem place_lt (hx : x < w) {index k b : ℕ} (hindex : index ≤ y * w + x) (hb : b < k) :
    index * k + b < (y + 1) * (w * k) := by
  calc index * k + b < (index + 1) * k := by rw [Nat.add_one_mul]; omega
    _ ≤ ((y + 1) * w) * k := Nat.mul_le_mul_right _ (by rw [Nat.add_one_mul]; omega)
    _ = (y + 1) * (w * k) := Nat.mul_assoc ..

theorem pixelStores_yuv411_lt (hx : x < w) (hgroups : 4 ∣ w) {c : Colour} {s : Store}
    (hs : s ∈ pixelStores pixYuv411 w x y c) : s.offset < (y + 1) * lineBytes pixYuv411 w := by
  obtain ⟨groups, rfl⟩ := hgroups
  have hline : lineBytes pixYuv411 (4 * groups) = 6 * groups := by
    simp only [lineBytes, if_true]
    omega
  have hwrap := Nat.mod_le (4 * groups * 3) (2 ^ 32)
  have hstart : y * (4 * groups * 3 % 2 ^ 32 / 2) ≤ y * (6 * groups) :=
    Nat.mul_le_mul_left _ (by omega)
  have hgroup : x / 4 < groups := by omega
  rw [hline, Nat.add_one_mul]
  simp only [pixelStores, if_neg (show pixYuv411 ≠ pixYuv422 by decide), if_true,
    List.mem_cons] at hs
  obtain rfl | hs := hs
  · dsimp only
    omega
  split_ifs at hs
  · obtain rfl := List.mem_singleton.mp hs
    dsimp only
    omega
  · obtain rfl := List.mem_singleton.mp hs
    dsimp only
    omega
  · cases hs

theorem pixelStores_lt {pixfmt : ℕ} (hx : x < w) (hgroups : pixfmt = pixYuv411 → 4 ∣ w)
    {c : Colour} {s : Store} (hs : s ∈ pixelStores pixfmt w x y c) :
    s.offset < (y + 1) * lineBytes pixfmt w := by
  by_cases h411 : pixfmt = pixYuv411
  · subst h411
    exact pixelStores_yuv411_lt hx (hgroups rfl) hs
  have hindex := Nat.mod_le (y * w + x) (2 ^ 32)
  simp only [lineBytes, if_neg h411]
  simp only [pixelStores, if_neg h411] at hs
  by_cases h422 : pixfmt = pixYuv422
  · simp only [h422, if_true, List.mem_cons, List.not_mem_nil, or_false] at hs
    rw [h422, show bytesPerPixel pixYuv422 = 2 from rfl]
    obtain rfl | rfl := hs
    · exact place_lt hx hindex (b := 0) (by decide)
    · exact place_lt hx hindex (by decide)
  by_cases h444 : pixfmt = pixYuv444 ∨ pixfmt = pixRgb24
  · have hbytes : bytesPerPixel pixfmt = 3 := by obtain rfl | rfl := h444 <;> rfl
    simp only [if_neg h422, if_pos h444, List.mem_cons, List.not_mem_nil, or_false] at hs
    rw [hbytes]
    obtain rfl | rfl | rfl := hs
    · exact place_lt hx hindex (b := 0) (by decide)
    · exact place_lt hx hindex (by decide)
    · exact place_lt hx hindex (by decide)
  by_cases h16 : pixfmt = pixMono16
  · simp only [if_neg h422, if_neg h444, if_pos h16, List.mem_cons, List.not_mem_nil,
      or_false] at hs
    rw [h16, show bytesPerPixel pixMono16 = 2 from rfl]
    obtain rfl | rfl := hs
    · exact place_lt hx hindex (b := 0) (by decide)
    · exact place_lt hx hindex (by decide)
  -- one byte a pixel, whatever it shows
  have hbytes : bytesPerPixel pixfmt = 1 := by simp [bytesPerPixel, h422, h444, h16]
  have hoffset : s.offset = y * w + x := by
    simp only [if_neg h422, if_neg h444, if_neg h16] at hs
    split_ifs at hs <;> rw [List.mem_singleton.mp hs]
  rw [hbytes, hoffset]
  exact (Nat.mul_one _).symm.trans_lt (place_lt hx le_rfl (b := 0) (by decide))

theorem exists_pixelStores_ge {pixfmt : ℕ} (h411 : pixfmt ≠ pixYuv411) (hwrap : y * w + x < 2 ^ 32)
    (c : Colour) : ∃ s ∈ pixelStores pixfmt w x y c, y * w + x ≤ s.offset := by
  unfold pixelStores
  rw [Nat.mod_eq_of_lt hwrap]
  split_ifs
  all_goals exact ⟨_, List.mem_cons_self, by dsimp only; omega⟩

end

namespace IsoGeometry

/-- The slot of a frame holds its picture and what is sent of it. -/
structure Holds (iso : IsoGeometry) : Prop where
  groups : iso.pixfmt = pixYuv411 → 4 ∣ iso.imgWidth
  picture : iso.imgHeight * lineBytes iso.pixfmt iso.imgWidth ≤ iso.frameBytes
  sent : iso.isoBpp * iso.isoPpf ≤ iso.frameBytes

instance (iso : IsoGeometry) : Decidable iso.Holds :=
  decidable_of_iff ((iso.pixfmt = pixYuv411 → 4 ∣ iso.imgWidth) ∧
    iso.imgHeight * lineBytes iso.pixfmt iso.imgWidth ≤ iso.frameBytes ∧
      iso.isoBpp * iso.isoPpf ≤ iso.frameBytes)
    ⟨fun ⟨h₁, h₂, h₃⟩ => ⟨h₁, h₂, h₃⟩, fun ⟨h₁, h₂, h₃⟩ => ⟨h₁, h₂, h₃⟩⟩

end IsoGeometry

theorem layDown_lt {n offset : ℕ} {bytes : Vector (BitVec 8) n} {s : Store}
    (hs : s ∈ layDown offset bytes) : s.offset < offset + n := by
  obtain ⟨i, -, rfl⟩ := List.mem_map.mp hs
  exact Nat.add_lt_add_left i.isLt _

/-- The header is part of what is sent. -/
theorem embedFrameMeta_lt {iso : IsoGeometry} {stamp : Stamp} {s : Store}
    (hs : s ∈ embedFrameMeta iso stamp) : s.offset < iso.isoBpp * iso.isoPpf := by
  unfold embedFrameMeta at hs
  split_ifs at hs with hsmall
  · cases hs
  have hsent : frameMetaBytes ≤ iso.isoBpp * iso.isoPpf :=
    (Nat.le_of_not_lt hsmall).trans (Nat.mod_le _ _)
  refine lt_of_lt_of_le ?_ hsent
  obtain hs | hs := List.mem_append.mp hs
  · exact (layDown_lt hs).trans_eq (Nat.zero_add _)
  · exact layDown_lt hs

theorem fillFrameImage_lt {iso : IsoGeometry} (h : iso.Holds) {frameNo : ℕ} {stamp : Stamp}
    {s : Store} (hs : s ∈ fillFrameImage iso frameNo stamp) : s.offset < iso.frameBytes := by
  obtain hs | hs := List.mem_append.mp hs
  · split_ifs at hs
    · obtain ⟨i, hi, rfl⟩ := List.mem_map.mp hs
      exact List.mem_range.mp hi
    · obtain ⟨y, hy, hs⟩ := List.mem_flatMap.mp hs
      obtain ⟨x, hx, hs⟩ := List.mem_flatMap.mp hs
      have hline : (y + 1) * lineBytes iso.pixfmt iso.imgWidth ≤
          iso.imgHeight * lineBytes iso.pixfmt iso.imgWidth :=
        Nat.mul_le_mul_right _ (List.mem_range.mp hy)
      exact ((pixelStores_lt (List.mem_range.mp hx) h.groups hs).trans_le hline).trans_le h.picture
  · exact (embedFrameMeta_lt hs).trans_le h.sent

/-- A slot of fewer bytes than the picture has pixels is left. -/
theorem exists_fillFrameImage_ge {iso : IsoGeometry} (h411 : iso.pixfmt ≠ pixYuv411)
    (hframe : iso.frameBytes < 2 ^ 32) (hsmall : iso.frameBytes < iso.imgWidth * iso.imgHeight)
    (frameNo : ℕ) (stamp : Stamp) :
    ∃ s ∈ fillFrameImage iso frameNo stamp, iso.frameBytes ≤ s.offset := by
  have hw : 0 < iso.imgWidth := Nat.pos_of_mul_pos_right (Nat.zero_lt_of_lt hsmall)
  -- the pixel whose index is the length of the slot
  let y := iso.frameBytes / iso.imgWidth
  let x := iso.frameBytes % iso.imgWidth
  have hy : y < iso.imgHeight := Nat.div_lt_of_lt_mul hsmall
  have hx : x < iso.imgWidth := Nat.mod_lt _ hw
  have hindex : y * iso.imgWidth + x = iso.frameBytes := Nat.div_add_mod' ..
  obtain ⟨s, hs, hge⟩ := exists_pixelStores_ge h411 (hindex.trans_lt hframe)
    (colour iso.imgWidth x y frameNo)
  refine ⟨s, List.mem_append_left _ ?_, hindex ▸ hge⟩
  rw [if_neg (not_or.mpr ⟨hw.ne', (Nat.zero_lt_of_lt hy).ne'⟩)]
  exact List.mem_flatMap.mpr ⟨y, List.mem_range.mpr hy,
    List.mem_flatMap.mpr ⟨x, List.mem_range.mpr hx, hs⟩⟩

end Fake
end Photonic
