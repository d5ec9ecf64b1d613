import Photonic.Lib.Routine
import Photonic.Interface.Extension

namespace Photonic
namespace Dcam

def statusDeviceNotReady : NtStatus := 0xC00000A3
def statusDeviceConfigurationError : NtStatus := 0xC0000182

/-- `Photonic1394ReadRegister` and `Photonic1394WriteRegister`, at an offset from the command
base. A register may be read with an effect, and every access may fail. -/
structure RegisterPort (σ : Type) where
  read : ℕ → Routine σ NtStatus (BitVec 32)
  write : ℕ → BitVec 32 → Routine σ NtStatus Unit

/-- A read of the register can return the value. -/
def RegisterPort.Yields {σ : Type} (port : RegisterPort σ) (offset : ℕ) (value : BitVec 32) : Prop :=
  ∃ s, (port.read offset s).1 = .ok value

def regVideoFormatInq : ℕ := 0x100
def regVideoModeInq : ℕ := 0x180
def regFrameRateInq : ℕ := 0x200
def regVCsrInq7 : ℕ := 0x2e0
def regFrameRate : ℕ := 0x600
def regVideoMode : ℕ := 0x604
def regVideoFormat : ℕ := 0x608

def f7Format : ℕ := 7
def regVideoModeInq7 : ℕ := regVideoModeInq + f7Format * 4

/-- The registers of a Format 7 mode, from the base of its CSR block. -/
def f7MaxImageSize : ℕ := 0x00
def f7UnitSize : ℕ := 0x04
def f7ImagePosition : ℕ := 0x08
def f7ImageSize : ℕ := 0x0c
def f7ColorCodingId : ℕ := 0x10
def f7ColorCodingInq : ℕ := 0x14
def f7PacketParaInq : ℕ := 0x40
def f7BytePerPacket : ℕ := 0x44

def numFormats : ℕ := 3
def numModes : ℕ := 8
def numRates : ℕ := 6

/-- An id in the top three bits of a selection register. -/
def selected (id : ℕ) : BitVec 32 := BitVec.ofNat 32 id <<< 29

def hi16 (v : BitVec 32) : ℕ := v.toNat / 0x10000
def lo16 (v : BitVec 32) : ℕ := v.toNat % 0x10000

theorem hi16_lt (v : BitVec 32) : hi16 v < 0x10000 := by
  have := v.isLt
  simp only [hi16]
  omega

theorem lo16_lt (v : BitVec 32) : lo16 v < 0x10000 := Nat.mod_lt _ (by decide)

def pixMono8 : ℕ := 0
def pixYuv411 : ℕ := 1
def pixYuv422 : ℕ := 2
def pixYuv444 : ℕ := 3
def pixRgb24 : ℕ := 4
def pixMono16 : ℕ := 5
def pixRaw8 : ℕ := 7
def pixInvalid : ℕ := 0xFFFFFFFF

def codingBpp (coding : ℕ) : ℕ :=
  if coding = pixMono8 ∨ coding = pixRaw8 then 8
  else if coding = pixYuv411 then 12
  else if coding = pixYuv422 ∨ coding = pixMono16 then 16
  else if coding = pixYuv444 ∨ coding = pixRgb24 then 24
  else 0

/-- The codings the driver knows are small ids. -/
theorem codingBpp_lt {coding : ℕ} (h : codingBpp coding ≠ 0) : coding < 8 := by
  unfold codingBpp at h
  by_cases h₁ : coding = pixMono8 ∨ coding = pixRaw8
  · obtain rfl | rfl := h₁ <;> decide
  by_cases h₂ : coding = pixYuv411
  · subst h₂
    decide
  by_cases h₃ : coding = pixYuv422 ∨ coding = pixMono16
  · obtain rfl | rfl := h₃ <;> decide
  by_cases h₄ : coding = pixYuv444 ∨ coding = pixRgb24
  · obtain rfl | rfl := h₄ <;> decide
  simp [h₁, h₂, h₃, h₄] at h

def imageBytes (width height bpp : ℕ) : ℕ := width * height * bpp % 2 ^ 64 / 8 % 2 ^ 32

def maxImageBytes : ℕ := 256 * 1024 * 1024

/-- A frame below the cap is sized without a wrap. -/
theorem imageBytes_eq {width height bpp : ℕ} (h : width * height * bpp / 8 ≤ maxImageBytes) :
    imageBytes width height bpp = width * height * bpp / 8 := by
  have h8 : width * height * bpp < 2 ^ 64 := by simp only [maxImageBytes] at h; omega
  rw [imageBytes, Nat.mod_eq_of_lt h8, Nat.mod_eq_of_lt]
  simp only [maxImageBytes] at h
  omega

/-- `DCAM_ISO_CYCLE_100NS` -/
def isoCycle100ns : ℕ := 1250

def maxUlong : ℕ := 0xFFFFFFFF

def format7Interval (totalBytes bytesPerPacket : ℕ) : ℕ :=
  if bytesPerPacket = 0 then 0
  else
    let interval := totalBytes * isoCycle100ns / bytesPerPacket
    if maxUlong < interval then maxUlong else interval

theorem format7Interval_eq {totalBytes bytesPerPacket : ℕ} (h : bytesPerPacket ≠ 0) :
    format7Interval totalBytes bytesPerPacket =
      min maxUlong (totalBytes * isoCycle100ns / bytesPerPacket) := by
  simp only [format7Interval, if_neg h]
  split_ifs <;> omega

theorem format7Interval_le (totalBytes bytesPerPacket : ℕ) :
    format7Interval totalBytes bytesPerPacket ≤ maxUlong := by
  unfold format7Interval
  dsimp only
  split_ifs <;> omega

/-- `g_DcamRateInterval` -/
def rateInterval (rate : ℕ) : ℕ :=
  [5333333, 2666667, 1333333, 666667, 333333, 166667].getD rate 0

def rateBounds (rateMask : BitVec 32) : ℕ × ℕ :=
  (List.range numRates).foldl
    (fun bounds rate =>
      if rateMask.getMsbD rate then
        let interval := rateInterval rate
        (if bounds.1 = 0 ∨ interval < bounds.1 then interval else bounds.1,
          if bounds.2 = 0 ∨ bounds.2 < interval then interval else bounds.2)
      else bounds)
    (0, 0)

theorem rateInterval_le (rate : ℕ) : rateInterval rate ≤ 5333333 := by
  unfold rateInterval
  match rate with
  | 0 | 1 | 2 | 3 | 4 | 5 => decide
  | n + 6 => simp

theorem rateBounds_le (rateMask : BitVec 32) :
    (rateBounds rateMask).1 ≤ (rateBounds rateMask).2 ∧ (rateBounds rateMask).2 ≤ 5333333 := by
  unfold rateBounds
  generalize hb : ((0, 0) : ℕ × ℕ) = bounds
  have h : bounds.1 ≤ bounds.2 ∧ bounds.2 ≤ 5333333 := by simp [← hb]
  clear hb
  generalize List.range numRates = rates
  induction rates generalizing bounds with
  | nil => exact h
  | cons rate rates ih =>
    refine ih _ ?_
    have := rateInterval_le rate
    dsimp only
    split_ifs <;> omega

structure ModeGeometry where
  pixelFormat : ℕ
  width : ℕ
  height : ℕ
  deriving DecidableEq, Repr

/-- `g_DcamGeometry` -/
def geometryTable : List (List ModeGeometry) :=
  [[⟨pixYuv444, 160, 120⟩, ⟨pixYuv422, 320, 240⟩, ⟨pixYuv411, 640, 480⟩, ⟨pixYuv422, 640, 480⟩,
    ⟨pixRgb24, 640, 480⟩, ⟨pixMono8, 640, 480⟩, ⟨pixMono16, 640, 480⟩, ⟨pixInvalid, 0, 0⟩],
   [⟨pixYuv422, 800, 600⟩, ⟨pixRgb24, 800, 600⟩, ⟨pixMono8, 800, 600⟩, ⟨pixYuv422, 1024, 768⟩,
    ⟨pixRgb24, 1024, 768⟩, ⟨pixMono8, 1024, 768⟩, ⟨pixMono16, 800, 600⟩, ⟨pixMono16, 1024, 768⟩],
   [⟨pixYuv422, 1280, 960⟩, ⟨pixRgb24, 1280, 960⟩, ⟨pixMono8, 1280, 960⟩, ⟨pixYuv422, 1600, 1200⟩,
    ⟨pixRgb24, 1600, 1200⟩, ⟨pixMono8, 1600, 1200⟩, ⟨pixMono16, 1280, 960⟩, ⟨pixMono16, 1600, 1200⟩]]

def geometry (format mode : ℕ) : ModeGeometry :=
  (geometryTable.getD format []).getD mode ⟨pixInvalid, 0, 0⟩

structure PacketGeometry where
  bytesPerPacket : ℕ
  packetsPerFrame : ℕ
  deriving DecidableEq, Repr

/-- `g_DcamPacketGeometry`, the rates of a mode in a line. -/
def packetTable : List (List (List PacketGeometry)) :=
  [[[⟨0, 0⟩, ⟨0, 0⟩, ⟨60, 960⟩, ⟨120, 480⟩, ⟨240, 240⟩, ⟨0, 0⟩],
    [⟨0, 0⟩, ⟨80, 1920⟩, ⟨160, 960⟩, ⟨320, 480⟩, ⟨640, 240⟩, ⟨0, 0⟩],
    [⟨0, 0⟩, ⟨240, 1920⟩, ⟨480, 960⟩, ⟨960, 480⟩, ⟨1920, 240⟩, ⟨0, 0⟩],
    [⟨0, 0⟩, ⟨320, 1920⟩, ⟨640, 960⟩, ⟨1280, 480⟩, ⟨2560, 240⟩, ⟨0, 0⟩],
    [⟨0, 0⟩, ⟨480, 1920⟩, ⟨960, 960⟩, ⟨1920, 480⟩, ⟨3840, 240⟩, ⟨0, 0⟩],
    [⟨0, 0⟩, ⟨160, 1920⟩, ⟨320, 960⟩, ⟨640, 480⟩, ⟨1280, 240⟩, ⟨2560, 120⟩],
    [⟨0, 0⟩, ⟨320, 1920⟩, ⟨640, 960⟩, ⟨1280, 480⟩, ⟨2560, 240⟩, ⟨0, 0⟩],
    [⟨0, 0⟩, ⟨0, 0⟩, ⟨0, 0⟩, ⟨0, 0⟩, ⟨0, 0⟩, ⟨0, 0⟩]],
   [[⟨0, 0⟩, ⟨500, 1920⟩, ⟨1000, 960⟩, ⟨2000, 480⟩, ⟨4000, 240⟩, ⟨0, 0⟩],
    [⟨0, 0⟩, ⟨0, 0⟩, ⟨1500, 960⟩, ⟨3000, 480⟩, ⟨0, 0⟩, ⟨0, 0⟩],
    [⟨0, 0⟩, ⟨0, 0⟩, ⟨500, 960⟩, ⟨1000, 480⟩, ⟨2000, 240⟩, ⟨4000, 120⟩],
    [⟨384, 4096⟩, ⟨768, 2048⟩, ⟨1536, 1024⟩, ⟨3072, 512⟩, ⟨0, 0⟩, ⟨0, 0⟩],
    [⟨576, 4096⟩, ⟨1152, 2048⟩, ⟨2304, 1024⟩, ⟨0, 0⟩, ⟨0, 0⟩, ⟨0, 0⟩],
    [⟨192, 4096⟩, ⟨384, 2048⟩, ⟨768, 1024⟩, ⟨1536, 512⟩, ⟨3072, 256⟩, ⟨0, 0⟩],
    [⟨0, 0⟩, ⟨500, 1920⟩, ⟨1000, 960⟩, ⟨2000, 480⟩, ⟨4000, 240⟩, ⟨0, 0⟩],
    [⟨384, 4096⟩, ⟨768, 2048⟩, ⟨1536, 1024⟩, ⟨3072, 512⟩, ⟨0, 0⟩, ⟨0, 0⟩]],
   [[⟨640, 3840⟩, ⟨1280, 1920⟩, ⟨2560, 960⟩, ⟨0, 0⟩, ⟨0, 0⟩, ⟨0, 0⟩],
    [⟨960, 3840⟩, ⟨1920, 1920⟩, ⟨3840, 960⟩, ⟨0, 0⟩, ⟨0, 0⟩, ⟨0, 0⟩],
    [⟨320, 3840⟩, ⟨640, 1920⟩, ⟨1280, 960⟩, ⟨2560, 480⟩, ⟨0, 0⟩, ⟨0, 0⟩],
    [⟨1000, 3840⟩, ⟨2000, 1920⟩, ⟨4000, 960⟩, ⟨0, 0⟩, ⟨0, 0⟩, ⟨0, 0⟩],
    [⟨1500, 3840⟩, ⟨3000, 1920⟩, ⟨0, 0⟩, ⟨0, 0⟩, ⟨0, 0⟩, ⟨0, 0⟩],
    [⟨500, 3840⟩, ⟨1000, 1920⟩, ⟨2000, 960⟩, ⟨4000, 480⟩, ⟨0, 0⟩, ⟨0, 0⟩],
    [⟨640, 3840⟩, ⟨1280, 1920⟩, ⟨2560, 960⟩, ⟨0, 0⟩, ⟨0, 0⟩, ⟨0, 0⟩],
    [⟨1000, 3840⟩, ⟨2000, 1920⟩, ⟨4000, 960⟩, ⟨0, 0⟩, ⟨0, 0⟩, ⟨0, 0⟩]]]

def packetGeometry (format mode rate : ℕ) : PacketGeometry :=
  ((packetTable.getD format []).getD mode []).getD rate ⟨0, 0⟩

/-- Every size of the standard table can be streamed at S400. -/
theorem bytesPerPacket_le : ∀ format < numFormats, ∀ mode < numModes, ∀ rate < numRates,
    (packetGeometry format mode rate).bytesPerPacket ≤ 4096 := by
  decide

/-- `Photonic1394CsrPointerToOffset`. A block outside the register window, or below the
command base, is rejected. -/
def csrPointerToOffset (csrBase : ℕ) (pointer : BitVec 32) (blockBytes : ℕ) : Except NtStatus ℕ :=
  let absolute := 0xFFFFF0000000 + pointer.toNat * 4
  if absolute < 0xFFFFF0000000 ∨ 0xFFFFF1000000 < absolute + blockBytes ∨ absolute < csrBase then
    .error statusDeviceConfigurationError
  else .ok ((absolute - csrBase) % 2 ^ 32)

/-- `Photonic1394MaxIsochPayload`: the stream runs at S400 at most. -/
def maxIsochPayload (maxSpeedCode : ℕ) : ℕ := 1024 <<< min maxSpeedCode 2

structure VideoMode where
  format : ℕ
  mode : ℕ
  pixelFormat : ℕ
  width : ℕ
  height : ℕ
  defaultWidth : ℕ
  defaultHeight : ℕ
  isFormat7 : Bool
  unitWidth : ℕ
  unitHeight : ℕ
  format7CsrOffset : ℕ
  rateMask : BitVec 32
  minFrameInterval : ℕ
  maxFrameInterval : ℕ
  deriving DecidableEq, Repr

def maxVideoModes : ℕ := 48

end Dcam
end Photonic
