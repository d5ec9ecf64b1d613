import Mathlib.Logic.Function.Basic
import Photonic.Dcam.Registers

namespace Photonic
namespace Fake
open Dcam

def numF7Modes : ℕ := 4
def busMaxBpp : ℕ := 4096
def isoMaxPacketsPerFrame : ℕ := 4096

/-- `dcam_f7_mode_info_t` -/
structure ModeInfo where
  maxWidth : ℕ
  maxHeight : ℕ
  unitWidth : ℕ
  unitHeight : ℕ
  defWidth : ℕ
  defHeight : ℕ
  colorCodingInq : BitVec 32
  deriving DecidableEq, Repr

def colorInqAll : BitVec 32 := 0xA5000000
def colorInqNoYuv422 : BitVec 32 := 0x85000000
def colorInqMono : BitVec 32 := 0x84000000

def f7Modes : Vector ModeInfo numF7Modes :=
  #v[⟨1575, 1053, 4, 4, 1388, 1032, colorInqMono⟩, ⟨1280, 960, 8, 8, 1280, 960, colorInqNoYuv422⟩,
    ⟨640, 480, 8, 8, 640, 480, colorInqAll⟩, ⟨320, 240, 4, 4, 320, 240, colorInqAll⟩]

/-- `dcam_f7_bits_per_pixel` -/
def bitsPerPixel (coding : ℕ) : ℕ :=
  match coding with
  | 0 => 8
  | 1 => 12
  | 2 | 5 => 16
  | 3 | 4 => 24
  | 6 => 48
  | 7 | 8 => 8
  | _ => 0

/-- `dcam_f7_live` -/
structure Live where
  width : ℕ
  height : ℕ
  offx : ℕ
  offy : ℕ
  colorCoding : ℕ
  bytesPerPacket : ℕ
  deriving DecidableEq, Repr

namespace Live

/-- `dcam_f7_frame_bytes` -/
def frameBytes (live : Live) : ℕ :=
  live.width * live.height * bitsPerPixel live.colorCoding / 8 % 2 ^ 32

/-- `UNIT_BYTE_PER_PACKET` of `dcam_f7_packet_params`: the bytes of a line, quadlet-aligned. -/
def unit (live : Live) : ℕ :=
  let line := (live.width * bitsPerPixel live.colorCoding + 7) / 8
  let aligned := (line + 3) / 4 * 4
  if aligned = 0 then 4 else aligned

/-- `MAX_BYTE_PER_PACKET` of `dcam_f7_packet_params` -/
def max (live : Live) : ℕ :=
  if busMaxBpp / live.unit * live.unit < live.unit then live.unit
  else busMaxBpp / live.unit * live.unit

/-- `dcam_f7_bpp_is_legal` -/
def BppIsLegal (live : Live) (bpp : ℕ) : Prop :=
  live.unit ≤ bpp ∧ bpp ≤ live.max ∧ bpp % live.unit = 0

instance (live : Live) (bpp : ℕ) : Decidable (live.BppIsLegal bpp) :=
  inferInstanceAs (Decidable (_ ∧ _ ∧ _))

/-- `dcam_f7_recommended_bpp` -/
def recommendedBpp (live : Live) : ℕ := live.unit

/-- `dcam_f7_packets_per_frame` -/
def packetsPerFrame (live : Live) : ℕ :=
  if live.recommendedBpp = 0 then 0
  else (live.frameBytes + live.recommendedBpp - 1) / live.recommendedBpp

/-- The packet size the camera falls back to when the geometry or the coding changes. -/
def reset (live : Live) : Live := { live with bytesPerPacket := live.recommendedBpp }

end Live

/-- `dcam_camera`. `others` is what the registers outside this part read. -/
structure Camera where
  curFormat : ℕ
  curMode : ℕ
  curRate : ℕ
  f7 : Fin numF7Modes → Live
  others : ℕ → BitVec 32

/-- Two halves of a register. -/
def word (hi lo : ℕ) : BitVec 32 := BitVec.ofNat 32 hi <<< 16 ||| BitVec.ofNat 32 lo

namespace Camera

/-- `dcam_f7_csr_read` -/
def csrRead (cam : Camera) (mode : Fin numF7Modes) (reg : ℕ) : BitVec 32 :=
  let info := f7Modes[mode]
  let live := cam.f7 mode
  if reg = f7MaxImageSize then word info.maxWidth info.maxHeight
  else if reg = f7UnitSize then word info.unitWidth info.unitHeight
  else if reg = f7ImagePosition then word live.offx (live.offy % 0x10000)
  else if reg = f7ImageSize then word live.width (live.height % 0x10000)
  else if reg = f7ColorCodingId then BitVec.ofNat 32 live.colorCoding <<< 24
  else if reg = f7ColorCodingInq then info.colorCodingInq
  else if reg = f7PacketParaInq then word live.unit live.max
  else if reg = f7BytePerPacket then BitVec.ofNat 32 live.recommendedBpp <<< 16
  else if reg = 0x34 then BitVec.ofNat 32 (live.width * live.height)
  else if reg = 0x3c then BitVec.ofNat 32 live.frameBytes
  else if reg = 0x48 then BitVec.ofNat 32 live.packetsPerFrame
  else 0

def setLive (cam : Camera) (mode : Fin numF7Modes) (live : Live) : Camera :=
  { cam with f7 := Function.update cam.f7 mode live }

/-- `dcam_f7_csr_write`; `none` is `RCODE_DATA_ERROR`, which latches nothing. -/
def csrWrite (cam : Camera) (mode : Fin numF7Modes) (reg : ℕ) (logical : BitVec 32) :
    Option Camera :=
  let live := cam.f7 mode
  if reg = f7ImagePosition then
    some (cam.setLive mode { live with offx := hi16 logical, offy := lo16 logical })
  else if reg = f7ImageSize then
    some (cam.setLive mode { live with width := hi16 logical, height := lo16 logical }.reset)
  else if reg = f7ColorCodingId then
    some (cam.setLive mode { live with colorCoding := logical.toNat / 2 ^ 24 }.reset)
  else if reg = f7BytePerPacket then
    if live.BppIsLegal (hi16 logical) then
      some (cam.setLive mode { live with bytesPerPacket := hi16 logical })
    else none
  else some cam

def powerUpLive (mode : Fin numF7Modes) : Live :=
  Live.reset ⟨f7Modes[mode].defWidth, f7Modes[mode].defHeight, 0, 0, 0, 0⟩

def f7Reset (cam : Camera) : Camera := { cam with f7 := powerUpLive }

def resetVideoState (cam : Camera) : Camera :=
  { cam with curFormat := 0, curMode := 5, curRate := 4 }.f7Reset

end Camera

/-- What a start of the stream works out. -/
structure IsoGeometry where
  isoBpp : ℕ
  isoPpf : ℕ
  frameBytes : ℕ
  pixfmt : ℕ
  imgWidth : ℕ
  imgHeight : ℕ
  deriving DecidableEq, Repr

def renderedPixfmt (coding : ℕ) : ℕ :=
  if coding = pixYuv422 then pixYuv422 else if coding = pixMono16 then pixMono16
  else if coding = pixRaw8 then pixRaw8 else pixMono8

def isoComputeGeometryF7 (cam : Camera) : Option IsoGeometry :=
  if h : cam.curMode < numF7Modes then
    let live := cam.f7 ⟨cam.curMode, h⟩
    let bits := bitsPerPixel live.colorCoding
    if bits = 0 then none
    else if live.bytesPerPacket = 0 ∨ live.width = 0 ∨ live.height = 0 then none
    else
      let imageBytes := live.width * live.height * bits / 8 % 2 ^ 32
      let ppf := imageBytes / live.bytesPerPacket
      if ppf = 0 ∨ isoMaxPacketsPerFrame < ppf then none
      else some ⟨live.bytesPerPacket, ppf, imageBytes, renderedPixfmt live.colorCoding,
        live.width, live.height⟩
  else none

def isoComputeGeometry (cam : Camera) : Option IsoGeometry :=
  if cam.curFormat = f7Format then isoComputeGeometryF7 cam
  else if numFormats ≤ cam.curFormat ∨ numModes ≤ cam.curMode ∨ numRates ≤ cam.curRate then none
  else
    let info := geometry cam.curFormat cam.curMode
    let rate := packetGeometry cam.curFormat cam.curMode cam.curRate
    if rate.bytesPerPacket = 0 ∨ rate.packetsPerFrame = 0 ∨
        isoMaxPacketsPerFrame < rate.packetsPerFrame then none
    else some ⟨rate.bytesPerPacket, rate.packetsPerFrame,
      rate.bytesPerPacket * rate.packetsPerFrame, info.pixelFormat, info.width, info.height⟩

def f7CsrBlock : ℕ := 0xa00
def f7CsrBlockLen : ℕ := 0x100

/-- What creation fixes of a camera: the modes it exposes, and the low half of the base the
register region was allocated at, in the search window. `writeOther` is a write outside this
part: what it leaves there, or that it is refused. -/
structure Config where
  advertiseStdFormats : Bool
  f7Count : ℕ
  csrBase : ℕ
  writeOther : ℕ → BitVec 32 → (ℕ → BitVec 32) → Option (ℕ → BitVec 32)
  f7Count_le : f7Count ≤ numF7Modes
  csrBase_ge : 0xF0001000 ≤ csrBase
  csrBase_le : csrBase + 0x1000 ≤ 0xF0100000
  csrBase_aligned : csrBase % 4 = 0

/-- A bit for every index below the bound that meets the test, from the top. -/
def bitmask (count : ℕ) (test : ℕ → Bool) : BitVec 32 :=
  (List.range count).foldl
    (fun mask i => if test i then mask ||| (0x80000000 : BitVec 32) >>> i else mask) 0

def frameRateInq (format mode : ℕ) : BitVec 32 :=
  bitmask numRates fun rate => (packetGeometry format mode rate).bytesPerPacket ≠ 0

def videoModeInq (format : ℕ) : BitVec 32 := bitmask numModes fun mode => frameRateInq format mode ≠ 0

def statusDeviceDataError : NtStatus := 0xC000009C

namespace Config
variable (cfg : Config)

def videoFormatInq : BitVec 32 :=
  (0x80000000 : BitVec 32) >>> f7Format |||
    if cfg.advertiseStdFormats then bitmask numFormats fun format => videoModeInq format ≠ 0 else 0

/-- `dcam_f7_csr_pointer` -/
def csrPointer (mode : ℕ) : BitVec 32 :=
  BitVec.ofNat 32 ((cfg.csrBase - 0xf0000000 + (f7CsrBlock + mode * f7CsrBlockLen)) / 4)

/-- `dcam_on_register_read` -/
def registerRead (cam : Camera) (off : ℕ) : BitVec 32 :=
  if off = regVideoFormatInq then cfg.videoFormatInq
  else if regVideoModeInq ≤ off ∧ off ≤ regVideoModeInq + (numFormats - 1) * 4 ∧ off % 4 = 0 then
    videoModeInq ((off - regVideoModeInq) / 4)
  else if regFrameRateInq ≤ off ∧ off ≤ regFrameRateInq + (numFormats * numModes - 1) * 4 ∧
      off % 4 = 0 then
    frameRateInq ((off - regFrameRateInq) / 4 / numModes) ((off - regFrameRateInq) / 4 % numModes)
  else if off = regVideoModeInq7 then bitmask cfg.f7Count fun _ => true
  else if regVCsrInq7 ≤ off ∧ off < regVCsrInq7 + cfg.f7Count * 4 ∧ off % 4 = 0 then
    cfg.csrPointer ((off - regVCsrInq7) / 4)
  else if h : f7CsrBlock ≤ off ∧ off < f7CsrBlock + cfg.f7Count * f7CsrBlockLen then
    cam.csrRead ⟨(off - f7CsrBlock) / f7CsrBlockLen, by
      have := cfg.f7Count_le
      simp only [f7CsrBlock, f7CsrBlockLen] at h ⊢
      omega⟩ ((off - f7CsrBlock) % f7CsrBlockLen)
  else if off = regFrameRate then selected cam.curRate
  else if off = regVideoMode then selected cam.curMode
  else if off = regVideoFormat then selected cam.curFormat
  else cam.others off

/-- `dcam_on_register_write`; `none` is `RCODE_DATA_ERROR`. -/
def registerWrite (cam : Camera) (off : ℕ) (logical : BitVec 32) : Option Camera :=
  if off = 0 then some (if logical.getMsbD 0 then cam.resetVideoState else cam)
  else if off = regVideoFormat then some { cam with curFormat := logical.toNat / 2 ^ 29 }
  else if off = regVideoMode then some { cam with curMode := logical.toNat / 2 ^ 29 }
  else if off = regFrameRate then some { cam with curRate := logical.toNat / 2 ^ 29 }
  else if h : f7CsrBlock ≤ off ∧ off < f7CsrBlock + cfg.f7Count * f7CsrBlockLen then
    cam.csrWrite ⟨(off - f7CsrBlock) / f7CsrBlockLen, by
      have := cfg.f7Count_le
      simp only [f7CsrBlock, f7CsrBlockLen] at h ⊢
      omega⟩ ((off - f7CsrBlock) % f7CsrBlockLen) logical
  else (cfg.writeOther off logical cam.others).map fun others => { cam with others := others }

/-- The camera on the bus. -/
def port : RegisterPort Camera where
  read off := fun cam => (.ok (cfg.registerRead cam off), cam)
  write off logical := fun cam =>
    match cfg.registerWrite cam off logical with
    | some cam => (.ok (), cam)
    | none => (.error statusDeviceDataError, cam)

/-- The command base the driver discovers. -/
def commandBase : ℕ := 0xFFFF00000000 + cfg.csrBase

end Config
end Fake
end Photonic
