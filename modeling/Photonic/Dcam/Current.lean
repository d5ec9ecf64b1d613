import Photonic.Dcam.Configure

namespace Photonic
namespace Dcam

def statusNotFound : NtStatus := 0xC0000225
def statusNoMoreEntries : NtStatus := 0x8000001A
def statusDeviceDataError : NtStatus := 0xC000009C

def selection (v : BitVec 32) : ℕ := v.toNat / 2 ^ 29

/-- The coding in a `COLOR_CODING_ID` register. -/
def coding (v : BitVec 32) : ℕ := v.toNat / 2 ^ 24

def VideoMode.isOf (e : VideoMode) (format mode : ℕ) : Bool := e.format = format ∧ e.mode = mode

def entriesFrom (modes : List VideoMode) (format mode : ℕ) : List VideoMode :=
  modes.dropWhile fun e => !e.isOf format mode

def refineCoding (e : VideoMode) (rest : List VideoMode) (format mode pixelFormat : ℕ) : VideoMode :=
  ((e :: rest).find? fun c => c.isOf format mode && c.pixelFormat = pixelFormat).getD e

def codingRegister (e : VideoMode) : ℕ := e.format7CsrOffset + f7ColorCodingId

def sizeRegister (e : VideoMode) : ℕ := e.format7CsrOffset + f7ImageSize

/-- `PhotonicDcamRateFromIndex`, from a rate and a count on. -/
def scanRateMask (rateMask : BitVec 32) (index : ℕ) : List ℕ → ℕ → ℕ
  | [], _ => numRates
  | rate :: rates, count =>
    if rateMask.getMsbD rate = false then scanRateMask rateMask index rates count
    else if count = index then rate
    else scanRateMask rateMask index rates (count + 1)

def rateFromIndex (rateMask : BitVec 32) (index : ℕ) : ℕ :=
  scanRateMask rateMask index (List.range numRates) 0

/-- The region of interest, in units of the whole sensor. -/
structure Subwindow where
  scale : ℕ
  offsetX : ℕ
  offsetY : ℕ
  width : ℕ
  height : ℕ
  deriving DecidableEq, Repr

/-- The widest default size of the table. -/
def fullWidth (modes : List VideoMode) : ℕ :=
  modes.foldl (fun width e => if width < e.defaultWidth then e.defaultWidth else width) 0

section
variable {σ : Type} (port : RegisterPort σ) (csrBase : ℕ) (modes : List VideoMode)

/-- `PhotonicDcamReadSelection` of the live camera. -/
def liveSelection : Routine σ NtStatus (ℕ × ℕ) :=
  if csrBase = 0 then Routine.throw statusDeviceNotReady
  else do
    let format ← port.read regVideoFormat
    let mode ← port.read regVideoMode
    pure (selection format, selection mode)

def getCurrentPixelFormat : Routine σ NtStatus ℕ := do
  let (format, mode) ← liveSelection port csrBase
  match entriesFrom modes format mode with
  | [] => Routine.throw statusNotFound
  | e :: _ =>
    if e.isFormat7 = false then pure e.pixelFormat
    else do
      let value ← port.read (codingRegister e)
      pure (coding value)

def getCurrentMode : Routine σ NtStatus VideoMode := do
  let (format, mode) ← liveSelection port csrBase
  match entriesFrom modes format mode with
  | [] => Routine.throw statusNotFound
  | e :: rest =>
    if e.isFormat7 = false then pure e
    else do
      let value ← (port.read (codingRegister e)).attempt
      match value with
      | .error _ => pure e
      | .ok value => pure (refineCoding e rest format mode (coding value))

def getCurrentSubwindow : Routine σ NtStatus Subwindow := do
  let mode ← getCurrentMode port csrBase modes
  let scale := fullWidth modes / mode.defaultWidth
  let scaled (offsetX offsetY width height : ℕ) : Subwindow :=
    ⟨scale, offsetX * scale % 2 ^ 32, offsetY * scale % 2 ^ 32, width * scale % 2 ^ 32,
      height * scale % 2 ^ 32⟩
  if mode.isFormat7 then do
    let position ← port.read (mode.format7CsrOffset + f7ImagePosition)
    let size ← port.read (sizeRegister mode)
    pure (scaled (hi16 position) (lo16 position) (hi16 size) (lo16 size))
  else pure (scaled 0 0 mode.defaultWidth mode.defaultHeight)

/-- `PhotonicDcamEnumFrameRate`: the interval at an index. -/
def enumFrameRate (index : ℕ) : Routine σ NtStatus ℕ := do
  let entry ← getCurrentMode port csrBase modes
  if entry.isFormat7 then
    if index = 0 ∧ entry.minFrameInterval ≠ 0 then pure entry.minFrameInterval
    else Routine.throw statusNoMoreEntries
  else
    let rate := rateFromIndex entry.rateMask index
    if numRates ≤ rate then Routine.throw statusNoMoreEntries else pure (rateInterval rate)

def getFrameRate : Routine σ NtStatus ℕ := do
  let entry ← getCurrentMode port csrBase modes
  if entry.isFormat7 then
    if entry.minFrameInterval = 0 then Routine.throw statusUnsuccessful
    else pure entry.minFrameInterval
  else do
    let value ← port.read regFrameRate
    let rate := selection value
    if numRates ≤ rate then Routine.throw statusDeviceDataError else pure (rateInterval rate)

def selectPixelFormat (pixelFormat : ℕ) : Routine σ NtStatus Unit :=
  if csrBase = 0 then Routine.throw statusDeviceNotReady
  else match modes.find? fun e => e.pixelFormat = pixelFormat with
    | none => Routine.throw statusNotFound
    | some e => do
      port.write regVideoFormat (selected e.format)
      port.write regVideoMode (selected e.mode)
      if e.isFormat7 then
        port.write (codingRegister e) (BitVec.ofNat 32 e.pixelFormat <<< 24)

def setFrameRate (index : ℕ) : Routine σ NtStatus Unit := do
  let entry ← getCurrentMode port csrBase modes
  if entry.isFormat7 then
    if index ≠ 0 ∨ entry.minFrameInterval = 0 then Routine.throw statusNoMoreEntries else pure ()
  else
    let rate := rateFromIndex entry.rateMask index
    if numRates ≤ rate then Routine.throw statusNoMoreEntries
    else port.write regFrameRate (selected rate)

/-- The stream of `PhotonicIoctlCapturePrepare`: the live mode at its default size, at the live
rate or, where that cannot be read, at the shortest interval. -/
def prepareStream : Routine σ NtStatus Stream := do
  let mode ← getCurrentMode port csrBase modes
  let bpp := codingBpp mode.pixelFormat
  if bpp = 0 then Routine.throw statusInvalidDeviceState
  else do
    let interval ← (getFrameRate port csrBase modes).attempt
    let interval := match interval with
      | .error _ => mode.minFrameInterval
      | .ok interval => if interval = 0 then mode.minFrameInterval else interval
    pure ⟨some mode, mode.defaultWidth, mode.defaultHeight,
      imageBytes mode.defaultWidth mode.defaultHeight bpp, interval⟩

end

theorem entriesFrom_subset {modes : List VideoMode} {format mode : ℕ} {e : VideoMode}
    (h : e ∈ entriesFrom modes format mode) : e ∈ modes :=
  (List.dropWhile_suffix _).subset h

theorem isOf_of_entriesFrom {modes : List VideoMode} {format mode : ℕ} {e : VideoMode}
    {rest : List VideoMode} (h : entriesFrom modes format mode = e :: rest) :
    e.isOf format mode = true := by
  have hhead : (entriesFrom modes format mode).head? = some e := by rw [h]; rfl
  unfold entriesFrom at hhead
  have := List.head?_dropWhile_not (fun e => !VideoMode.isOf e format mode) modes
  rw [hhead] at this
  simpa using this

theorem refineCoding_mem {modes : List VideoMode} {format mode pixelFormat : ℕ} {e : VideoMode}
    {rest : List VideoMode} (h : entriesFrom modes format mode = e :: rest) :
    refineCoding e rest format mode pixelFormat ∈ modes ∧
      (refineCoding e rest format mode pixelFormat).isOf format mode = true := by
  unfold refineCoding
  cases hfind : (e :: rest).find? fun c => c.isOf format mode && c.pixelFormat = pixelFormat with
  | none => exact ⟨entriesFrom_subset (h ▸ List.mem_cons_self), isOf_of_entriesFrom h⟩
  | some c =>
    have hc := List.find?_some hfind
    simp only [Bool.and_eq_true] at hc
    exact ⟨entriesFrom_subset (h ▸ List.mem_of_find?_eq_some hfind), hc.1⟩

end Dcam
end Photonic
