import Photonic.Dcam.Registers

namespace Photonic
namespace Dcam

/-- What enumeration writes of the device extension, with the camera behind it. -/
structure Bringup (σ : Type) where
  camera : σ
  modes : List VideoMode

section
variable {σ : Type} (port : RegisterPort σ)

def onCamera {α : Type} (x : Routine σ NtStatus α) : Routine (Bringup σ) NtStatus α := fun s =>
  ((x s.camera).1, { s with camera := (x s.camera).2 })

def readRegister (offset : ℕ) : Routine (Bringup σ) NtStatus (BitVec 32) := onCamera (port.read offset)

def writeRegister (offset : ℕ) (value : BitVec 32) : Routine (Bringup σ) NtStatus Unit :=
  onCamera (port.write offset value)

/-- `entry = &Extension->Modes[Extension->ModeCount]` and what follows it, where the table has
room. -/
def addMode (entry : VideoMode) : Routine (Bringup σ) NtStatus Bool := do
  let s ← Routine.get
  if maxVideoModes ≤ s.modes.length then pure false
  else do
    Routine.modify fun s => { s with modes := s.modes ++ [entry] }
    pure true

/-- The registers of a Format 7 mode that are read once. -/
structure Format7Regs where
  maxSize : BitVec 32
  unitSize : BitVec 32
  codingMask : BitVec 32
  curSize : BitVec 32
  curCoding : BitVec 32
  packetPara : BitVec 32
  bytePerPacket : BitVec 32
  deriving DecidableEq, Repr

def readFormat7Regs (base : ℕ) : Routine (Bringup σ) NtStatus Format7Regs := do
  let maxSize ← readRegister port (base + f7MaxImageSize)
  let unitSize ← readRegister port (base + f7UnitSize)
  let codingMask ← readRegister port (base + f7ColorCodingInq)
  let curSize ← readRegister port (base + f7ImageSize)
  let curCoding ← readRegister port (base + f7ColorCodingId)
  let packetPara ← readRegister port (base + f7PacketParaInq)
  let bytePerPacket ← readRegister port (base + f7BytePerPacket)
  pure ⟨maxSize, unitSize, codingMask, curSize, curCoding, packetPara, bytePerPacket⟩

/-- The geometry of a mode, normalised to its unit grid, and its packet sizes. -/
structure Format7Geometry where
  width : ℕ
  height : ℕ
  unitWidth : ℕ
  unitHeight : ℕ
  curWidth : ℕ
  curHeight : ℕ
  unitBpp : ℕ
  maxBpp : ℕ
  deriving DecidableEq, Repr

namespace Format7Regs

/-- The unit step, or the maximum size where the camera reports none. -/
def unit (r : Format7Regs) : ℕ × ℕ :=
  if hi16 r.unitSize = 0 ∨ lo16 r.unitSize = 0 then (hi16 r.maxSize, lo16 r.maxSize)
  else (hi16 r.unitSize, lo16 r.unitSize)

/-- The current size on the unit grid, clamped to the aligned maximum, which also stands in
for an empty size. -/
def current (r : Format7Regs) (width height unitWidth unitHeight : ℕ) : ℕ × ℕ :=
  let curWidth := min (hi16 r.curSize / unitWidth * unitWidth) width
  let curHeight := min (lo16 r.curSize / unitHeight * unitHeight) height
  if curWidth = 0 ∨ curHeight = 0 then (width, height) else (curWidth, curHeight)

/-- What the probe makes of the registers of a mode, or that it skips the mode. -/
def geometry (r : Format7Regs) : Option Format7Geometry :=
  if hi16 r.maxSize = 0 ∨ lo16 r.maxSize = 0 then none
  else
    let (unitWidth, unitHeight) := r.unit
    let width := hi16 r.maxSize / unitWidth * unitWidth
    let height := lo16 r.maxSize / unitHeight * unitHeight
    if width = 0 ∨ height = 0 then none
    else
      let (curWidth, curHeight) := r.current width height unitWidth unitHeight
      let unitBpp := hi16 r.packetPara
      let maxBpp := lo16 r.packetPara
      if unitBpp = 0 ∨ maxBpp = 0 ∨ hi16 r.bytePerPacket = 0 then none
      else
        let bpp := codingBpp (r.curCoding.toNat / 2 ^ 24)
        if bpp = 0 then none
        else if maxImageBytes < curWidth * curHeight * bpp / 8 then none
        else some ⟨width, height, unitWidth, unitHeight, curWidth, curHeight, unitBpp, maxBpp⟩

end Format7Regs

def Format7Geometry.entry (g : Format7Geometry) (mode base coding : ℕ) : VideoMode where
  format := f7Format
  mode := mode
  pixelFormat := coding
  width := g.width
  height := g.height
  defaultWidth := g.curWidth
  defaultHeight := g.curHeight
  isFormat7 := true
  unitWidth := g.unitWidth
  unitHeight := g.unitHeight
  format7CsrOffset := base
  rateMask := 0
  minFrameInterval :=
    format7Interval (imageBytes g.curWidth g.curHeight (codingBpp coding)) g.maxBpp
  maxFrameInterval :=
    format7Interval (imageBytes g.curWidth g.curHeight (codingBpp coding)) g.unitBpp

/-- A coding of a Format 7 mode: an unknown one, or one whose largest frame is above the cap,
is not advertised. -/
def addCoding (g : Format7Geometry) (codingMask : BitVec 32) (mode base coding : ℕ) :
    Routine (Bringup σ) NtStatus Bool :=
  if codingMask.getMsbD coding = false then pure true
  else if codingBpp coding = 0 then pure true
  else if maxImageBytes < g.width * g.height * codingBpp coding / 8 then pure true
  else addMode (g.entry mode base coding)

/-- One mode of `PhotonicDcamEnumerateFormat7`. A register access that fails skips the mode. -/
def probeFormat7 (csrBase mode : ℕ) : Routine (Bringup σ) NtStatus Bool := do
  let pointer ← (readRegister port (regVCsrInq7 + mode * 4)).attempt
  match pointer with
  | .error _ => pure true
  | .ok pointer =>
    match csrPointerToOffset csrBase pointer (f7BytePerPacket + 4) with
    | .error _ => pure true
    | .ok base =>
      let regs ← Routine.attempt do
        writeRegister port regVideoMode (selected mode)
        readFormat7Regs port base
      match regs with
      | .error _ => pure true
      | .ok regs =>
        match regs.geometry with
        | none => pure true
        | some g => Routine.eachWhile (addCoding g regs.codingMask mode base) (List.range 32)

def enumerateFormat7 (csrBase : ℕ) : Routine (Bringup σ) NtStatus Unit := do
  let modeMask ← Routine.attempt do
    writeRegister port regVideoFormat (selected f7Format)
    readRegister port regVideoModeInq7
  match modeMask with
  | .error _ => pure ()
  | .ok modeMask =>
    let _ ← Routine.eachWhile
      (fun mode => if modeMask.getMsbD mode then probeFormat7 port csrBase mode else pure true)
      (List.range numModes)
    pure ()

def fixedEntry (format mode : ℕ) (rateMask : BitVec 32) : VideoMode where
  format := format
  mode := mode
  pixelFormat := (geometry format mode).pixelFormat
  width := (geometry format mode).width
  height := (geometry format mode).height
  defaultWidth := (geometry format mode).width
  defaultHeight := (geometry format mode).height
  isFormat7 := false
  unitWidth := 0
  unitHeight := 0
  format7CsrOffset := 0
  rateMask := rateMask
  minFrameInterval := (rateBounds rateMask).1
  maxFrameInterval := (rateBounds rateMask).2

def frameRateInq (format mode : ℕ) : ℕ := regFrameRateInq + (format * numModes + mode) * 4

def enumerateFixed (format mode : ℕ) : Routine (Bringup σ) NtStatus Bool :=
  if (geometry format mode).pixelFormat = pixInvalid then pure true
  else do
    let rateMask ← readRegister port (frameRateInq format mode)
    if (rateBounds rateMask).1 = 0 then pure true else addMode (fixedEntry format mode rateMask)

def enumerateFormat (format : ℕ) : Routine (Bringup σ) NtStatus Bool := do
  let modeMask ← readRegister port (regVideoModeInq + format * 4)
  Routine.eachWhile
    (fun mode => if modeMask.getMsbD mode then enumerateFixed port format mode else pure true)
    (List.range numModes)

def readSelection (csrBase : ℕ) : Routine (Bringup σ) NtStatus (ℕ × ℕ) :=
  if csrBase = 0 then Routine.throw statusDeviceNotReady
  else do
    let format ← readRegister port regVideoFormat
    let mode ← readRegister port regVideoMode
    pure (format.toNat / 2 ^ 29, mode.toNat / 2 ^ 29)

/-- `PhotonicDcamNormalizeSelection`: the selection saved before, where it is an enumerated
mode, or the first mode. Whether it can be programmed does not matter. -/
def normalizeSelection (saved : Except NtStatus (ℕ × ℕ)) : Routine (Bringup σ) NtStatus Unit := do
  let s ← Routine.get
  let known := match saved with
    | .error _ => none
    | .ok (format, mode) => s.modes.find? fun e : VideoMode => e.format = format ∧ e.mode = mode
  let first := s.modes.head?
  match known.or first with
  | none => pure ()
  | some e =>
    let _ ← Routine.attempt do
      writeRegister port regVideoFormat (selected e.format)
      writeRegister port regVideoMode (selected e.mode)
    pure ()

/-- `PhotonicDcamEnumerateModes` behind `ModeCount = 0`. -/
def fillModes (csrBase : ℕ) : Routine (Bringup σ) NtStatus Unit := do
  let saved ← (readSelection port csrBase).attempt
  let formatMask ← readRegister port regVideoFormatInq
  let go ← Routine.eachWhile
    (fun format => if formatMask.getMsbD format then enumerateFormat port format else pure true)
    (List.range numFormats)
  if go && formatMask.getMsbD f7Format then enumerateFormat7 port csrBase
  let s ← Routine.get
  if s.modes.length = 0 then Routine.throw statusDeviceConfigurationError
  else normalizeSelection port saved

def enumerateModes (csrBase : ℕ) : Routine (Bringup σ) NtStatus Unit := do
  Routine.modify fun s => { s with modes := [] }
  fillModes port csrBase

end
end Dcam
end Photonic
