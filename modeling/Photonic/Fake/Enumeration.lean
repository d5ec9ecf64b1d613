import Photonic.Fake.Agreement
import Photonic.Lib.Machine

namespace Photonic
namespace Fake
open Dcam

def streamedModes (format : ℕ) : List ℕ :=
  (List.range numModes).filter fun mode =>
    (List.range numRates).any fun rate => (packetGeometry format mode rate).bytesPerPacket ≠ 0

def advertisedFormat (format : ℕ) : List VideoMode :=
  (streamedModes format).map fun mode => fixedEntry format mode (frameRateInq format mode)

def ModeInfo.codings (info : ModeInfo) : List ℕ :=
  (List.range 32).filter fun coding => info.colorCodingInq.getMsbD coding

namespace Camera
variable (cam : Camera)

def gridSize (mode : Fin numF7Modes) : ℕ × ℕ :=
  let info := f7Modes.get mode
  let live := cam.f7 mode
  if live.width < info.unitWidth ∨ live.height < info.unitHeight then
    (info.maxWidth / info.unitWidth * info.unitWidth, info.maxHeight / info.unitHeight * info.unitHeight)
  else (live.width / info.unitWidth * info.unitWidth, live.height / info.unitHeight * info.unitHeight)

def f7Geometry (mode : Fin numF7Modes) : Format7Geometry :=
  let info := f7Modes.get mode
  { width := info.maxWidth / info.unitWidth * info.unitWidth
    height := info.maxHeight / info.unitHeight * info.unitHeight
    unitWidth := info.unitWidth
    unitHeight := info.unitHeight
    curWidth := (cam.gridSize mode).1
    curHeight := (cam.gridSize mode).2
    unitBpp := (cam.f7 mode).unit
    maxBpp := (cam.f7 mode).max }

def advertisedMode (mode : Fin numF7Modes) : List VideoMode :=
  (f7Modes.get mode).codings.map fun coding => (cam.f7Geometry mode).entry mode (Config.block mode) coding

/-- What a driver has programmed: a size that the mode has, in a coding that the driver knows. -/
structure Programmed (mode : Fin numF7Modes) : Prop where
  coding : codingBpp (cam.f7 mode).colorCoding ≠ 0
  width : (cam.f7 mode).width ≤ (f7Modes.get mode).maxWidth
  height : (cam.f7 mode).height ≤ (f7Modes.get mode).maxHeight

/-- The camera as a driver leaves it: the selection fits its registers. -/
structure Driven : Prop where
  format : cam.curFormat < 8
  mode : cam.curMode < 8
  programmed : ∀ mode, cam.Programmed mode

end Camera

namespace Config

def exposed (cfg : Config) : List (Fin numF7Modes) :=
  (List.finRange numF7Modes).filter fun mode => (mode : ℕ) < cfg.f7Count

/-- The camera's modes, in the order of its inquiry registers. -/
def advertised (cfg : Config) (cam : Camera) : List VideoMode :=
  (if cfg.advertiseStdFormats then (List.range numFormats).flatMap advertisedFormat else []) ++
    cfg.exposed.flatMap cam.advertisedMode

end Config

def Adds (P : Camera → Prop) (x : Routine (Bringup Camera) NtStatus Bool) (modes : List VideoMode) :
    Prop :=
  ∀ s, P s.camera → s.modes.length + modes.length ≤ maxVideoModes →
    ∃ cam, P cam ∧ x s = (.ok true, ⟨cam, s.modes ++ modes⟩)

namespace Adds
variable {P : Camera → Prop} {γ : Type}

theorem nothing : Adds P (pure true) [] := by
  intro s hs _
  exact ⟨s.camera, hs, by rw [List.append_nil]; rfl⟩

theorem eachWhile {body : γ → Routine (Bringup Camera) NtStatus Bool} {out : γ → List VideoMode}
    {cs : List γ} (h : ∀ c ∈ cs, Adds P (body c) (out c)) :
    Adds P (Routine.eachWhile body cs) (cs.flatMap out) := by
  induction cs with
  | nil => exact nothing
  | cons c cs ih =>
    intro s hs hroom
    simp only [List.flatMap_cons, List.length_append] at hroom
    obtain ⟨cam, hcam, hc⟩ := h c List.mem_cons_self s hs (by omega)
    obtain ⟨cam', hcam', hcs⟩ := ih (fun d hd => h d (List.mem_cons_of_mem c hd))
      ⟨cam, s.modes ++ out c⟩ hcam (by simp only [List.length_append]; omega)
    refine ⟨cam', hcam', ?_⟩
    rw [Routine.eachWhile, Routine.bind_ok hc, if_pos rfl, hcs, List.flatMap_cons, List.append_assoc]

theorem addMode (e : VideoMode) : Adds P (Dcam.addMode e) [e] := by
  intro s hs hroom
  refine ⟨s.camera, hs, ?_⟩
  rw [addMode_eq, if_neg (by simp only [List.length_singleton] at hroom; omega)]

theorem congr {x : Routine (Bringup Camera) NtStatus Bool} {modes modes' : List VideoMode}
    (h : Adds P x modes) (heq : modes = modes') : Adds P x modes' := heq ▸ h

end Adds

theorem flatMap_singleton_if {α β : Type} (l : List α) (p : α → Bool) (f : α → β) :
    (l.flatMap fun a => if p a then [f a] else []) = (l.filter p).map f := by
  induction l with
  | nil => rfl
  | cons a l ih => cases hp : p a <;> simp [hp, ih]

namespace Config
variable (cfg : Config)

theorem readRegister_eq (off : ℕ) (s : Bringup Camera) :
    readRegister cfg.port off s = (.ok (cfg.registerRead s.camera off), s) := rfl

theorem registerRead_formatInq (cam : Camera) :
    cfg.registerRead cam regVideoFormatInq = cfg.videoFormatInq := if_pos rfl

theorem registerRead_modeInq {format : ℕ} (h : format < numFormats) (cam : Camera) :
    cfg.registerRead cam (regVideoModeInq + format * 4) = videoModeInq format := by
  simp only [numFormats] at h
  unfold registerRead
  rw [if_neg (by simp only [regVideoModeInq, regVideoFormatInq]; omega),
    if_pos (by simp only [regVideoModeInq, numFormats]; omega)]
  congr 1
  omega

theorem registerRead_rateInq {format mode : ℕ} (hf : format < numFormats) (hm : mode < numModes)
    (cam : Camera) : cfg.registerRead cam (Dcam.frameRateInq format mode) = frameRateInq format mode := by
  simp only [numFormats, numModes] at hf hm
  unfold registerRead Dcam.frameRateInq
  rw [if_neg (by simp only [regFrameRateInq, regVideoFormatInq, numModes]; omega),
    if_neg (by simp only [regFrameRateInq, regVideoModeInq, numFormats, numModes]; omega),
    if_pos (by simp only [regFrameRateInq, numFormats, numModes]; omega)]
  simp only [numModes]
  congr 1 <;> omega

theorem registerRead_modeInq7 (cam : Camera) :
    cfg.registerRead cam regVideoModeInq7 = bitmask cfg.f7Count fun _ => true := by
  rw [registerRead, if_neg (by decide), if_neg (by decide), if_neg (by decide), if_pos rfl]

theorem modeInq7_getMsbD {mode : ℕ} (hm : mode < numModes) :
    (bitmask cfg.f7Count fun _ => true).getMsbD mode = decide (mode < cfg.f7Count) := by
  have hmask : ∀ n ≤ numF7Modes, ∀ m < numModes,
      (bitmask n fun _ => true).getMsbD m = decide (m < n) := by
    decide
  exact hmask _ cfg.f7Count_le _ hm

theorem videoFormatInq_getMsbD : cfg.videoFormatInq.getMsbD f7Format = true ∧
    ∀ format < numFormats, cfg.videoFormatInq.getMsbD format = cfg.advertiseStdFormats := by
  unfold videoFormatInq
  cases cfg.advertiseStdFormats <;> decide

theorem registerRead_selection (cam : Camera) :
    cfg.registerRead cam regVideoFormat = selected cam.curFormat ∧
      cfg.registerRead cam regVideoMode = selected cam.curMode := by
  have hcount := cfg.f7Count_le
  simp only [numF7Modes] at hcount
  have hpointers : ∀ off, 0x600 ≤ off → ¬(regVCsrInq7 ≤ off ∧ off < regVCsrInq7 + cfg.f7Count * 4 ∧
      off % 4 = 0) := by
    intro off hoff
    simp only [regVCsrInq7]
    omega
  constructor
  · rw [registerRead, if_neg (by decide), if_neg (by decide), if_neg (by decide), if_neg (by decide),
      if_neg (hpointers _ (by decide)), dif_neg (fun h => absurd h.1 (by decide)), if_neg (by decide),
      if_neg (by decide), if_pos rfl]
  · rw [registerRead, if_neg (by decide), if_neg (by decide), if_neg (by decide), if_neg (by decide),
      if_neg (hpointers _ (by decide)), dif_neg (fun h => absurd h.1 (by decide)), if_neg (by decide),
      if_pos rfl]

theorem csrPointerToOffset_csrPointer {mode : ℕ} (hmode : mode < cfg.f7Count) :
    csrPointerToOffset cfg.commandBase (cfg.csrPointer mode) (f7BytePerPacket + 4) =
      .ok (block mode) := by
  have hcount := cfg.f7Count_le
  have hge := cfg.csrBase_ge
  have hle := cfg.csrBase_le
  have haligned := cfg.csrBase_aligned
  have hpointer : (cfg.csrPointer mode).toNat * 4 = cfg.csrBase - 0xf0000000 + block mode := by
    simp only [csrPointer, block, f7CsrBlock, f7CsrBlockLen, numF7Modes] at hcount ⊢
    rw [BitVec.toNat_ofNat, Nat.mod_eq_of_lt (by omega)]
    omega
  have hblock : block mode = 0xa00 + mode * 0x100 := rfl
  simp only [numF7Modes] at hcount
  simp only [csrPointerToOffset, hpointer, commandBase]
  rw [if_neg (by simp only [f7BytePerPacket]; omega)]
  congr 1
  omega

end Config

/-- The inquiry registers of a standard format against its packet table. -/
theorem streamed_iff : ∀ format < numFormats, ∀ mode < numModes,
    ((videoModeInq format).getMsbD mode = true ↔ mode ∈ streamedModes format) ∧
      (mode ∈ streamedModes format → (geometry format mode).pixelFormat ≠ pixInvalid ∧
        (rateBounds (frameRateInq format mode)).1 ≠ 0) := by
  decide +kernel

section
variable (cfg : Config) (cam : Camera)

theorem enumerateFormat_adds {format : ℕ} (hf : format < numFormats) :
    Adds (· = cam) (enumerateFormat cfg.port format) (advertisedFormat format) := by
  have hmode : ∀ mode ∈ List.range numModes, Adds (· = cam)
      (if (videoModeInq format).getMsbD mode then enumerateFixed cfg.port format mode else pure true)
      (if mode ∈ streamedModes format then [fixedEntry format mode (frameRateInq format mode)] else []) := by
    intro mode hm
    have hm := List.mem_range.mp hm
    obtain ⟨hbit, hvalid⟩ := streamed_iff format hf mode hm
    by_cases hs : mode ∈ streamedModes format
    · obtain ⟨hpix, hrate⟩ := hvalid hs
      rw [if_pos (hbit.mpr hs), if_pos hs]
      intro s hcam hroom
      obtain ⟨cam', hcam', hadd⟩ := Adds.addMode (P := (· = cam))
        (fixedEntry format mode (frameRateInq format mode)) s hcam hroom
      refine ⟨cam', hcam', ?_⟩
      rw [enumerateFixed, if_neg hpix, Routine.bind_ok (cfg.readRegister_eq _ _),
        cfg.registerRead_rateInq hf hm, if_neg hrate]
      exact hadd
    · rw [if_neg (mt hbit.mp hs), if_neg hs]
      exact .nothing
  intro s hcam hroom
  rw [enumerateFormat, Routine.bind_ok (cfg.readRegister_eq _ _), cfg.registerRead_modeInq hf]
  refine (Adds.eachWhile hmode).congr ?_ s hcam hroom
  have hsplit := flatMap_singleton_if (List.range numModes) (fun mode => mode ∈ streamedModes format)
    fun mode => fixedEntry format mode (frameRateInq format mode)
  simp only [decide_eq_true_eq] at hsplit
  rw [hsplit, advertisedFormat]
  congr 1
  unfold streamedModes
  apply List.filter_congr
  intro mode hm
  rw [Bool.eq_iff_iff, decide_eq_true_eq, List.mem_filter]
  exact and_iff_right hm

theorem standard_adds : Adds (· = cam)
    (Routine.eachWhile (fun format => if cfg.videoFormatInq.getMsbD format then
      enumerateFormat cfg.port format else pure true) (List.range numFormats))
    (if cfg.advertiseStdFormats then (List.range numFormats).flatMap advertisedFormat else []) := by
  have hformat : ∀ format ∈ List.range numFormats, Adds (· = cam)
      (if cfg.videoFormatInq.getMsbD format then enumerateFormat cfg.port format else pure true)
      (if cfg.advertiseStdFormats then advertisedFormat format else []) := by
    intro format hf
    have hf := List.mem_range.mp hf
    rw [cfg.videoFormatInq_getMsbD.2 format hf]
    cases cfg.advertiseStdFormats with
    | true => exact enumerateFormat_adds cfg cam hf
    | false => exact .nothing
  refine (Adds.eachWhile hformat).congr ?_
  cases cfg.advertiseStdFormats with
  | true => rfl
  | false => simp

end

/-- What the table of the Format 7 modes has: sizes of at least a unit, and codings that the driver
knows with frames below its cap. -/
theorem f7Modes_spec : ∀ mode : Fin numF7Modes,
    (0 < (f7Modes.get mode).unitWidth ∧ (f7Modes.get mode).unitWidth ≤ (f7Modes.get mode).maxWidth ∧
      (f7Modes.get mode).maxWidth ≤ 1575) ∧
    (0 < (f7Modes.get mode).unitHeight ∧ (f7Modes.get mode).unitHeight ≤ (f7Modes.get mode).maxHeight ∧
      (f7Modes.get mode).maxHeight ≤ 1053) ∧
    ∀ coding ∈ (f7Modes.get mode).codings, codingBpp coding ≠ 0 := by
  decide +kernel

theorem mono8_mem_codings : ∀ mode : Fin numF7Modes, pixMono8 ∈ (f7Modes.get mode).codings := by
  decide

theorem codingBpp_le (coding : ℕ) : codingBpp coding ≤ 24 := by
  unfold codingBpp
  split_ifs <;> omega

/-- The driver's cap is far above the camera's frames. -/
theorem frame_le_cap {width height coding : ℕ} (hw : width ≤ 1575) (hh : height ≤ 1053) :
    width * height * codingBpp coding / 8 ≤ maxImageBytes := by
  have := Nat.mul_le_mul (Nat.mul_le_mul hw hh) (codingBpp_le coding)
  simp only [maxImageBytes]
  omega

namespace Camera
variable {cam : Camera} {mode : Fin numF7Modes}

/-- The registers of a mode as the driver reads them. -/
def f7Regs (cam : Camera) (mode : Fin numF7Modes) : Format7Regs where
  maxSize := word (f7Modes.get mode).maxWidth (f7Modes.get mode).maxHeight
  unitSize := word (f7Modes.get mode).unitWidth (f7Modes.get mode).unitHeight
  codingMask := (f7Modes.get mode).colorCodingInq
  curSize := word (cam.f7 mode).width ((cam.f7 mode).height % 0x10000)
  curCoding := BitVec.ofNat 32 (cam.f7 mode).colorCoding <<< 24
  packetPara := word (cam.f7 mode).unit (cam.f7 mode).max
  bytePerPacket := BitVec.ofNat 32 (cam.f7 mode).recommendedBpp <<< 16

theorem f7Regs_unit (cam : Camera) (mode : Fin numF7Modes) :
    (cam.f7Regs mode).unit = ((f7Modes.get mode).unitWidth, (f7Modes.get mode).unitHeight) := by
  obtain ⟨⟨huw, hw, hwidth⟩, ⟨huh, hh, hheight⟩, -⟩ := f7Modes_spec mode
  have hhi : hi16 (cam.f7Regs mode).unitSize = (f7Modes.get mode).unitWidth := hi16_word (by omega) (by omega)
  have hlo : lo16 (cam.f7Regs mode).unitSize = (f7Modes.get mode).unitHeight := lo16_word (by omega) (by omega)
  rw [Format7Regs.unit, hhi, hlo, if_neg (by omega)]

theorem f7Regs_current (h : cam.Programmed mode) : (cam.f7Regs mode).current
    ((f7Modes.get mode).maxWidth / (f7Modes.get mode).unitWidth * (f7Modes.get mode).unitWidth)
    ((f7Modes.get mode).maxHeight / (f7Modes.get mode).unitHeight * (f7Modes.get mode).unitHeight)
    (f7Modes.get mode).unitWidth (f7Modes.get mode).unitHeight = cam.gridSize mode := by
  obtain ⟨⟨huw, hw, hwidth⟩, ⟨huh, hh, hheight⟩, -⟩ := f7Modes_spec mode
  have hliveW := h.width
  have hliveH := h.height
  have hhi : hi16 (cam.f7Regs mode).curSize = (cam.f7 mode).width := hi16_word (by omega) (by omega)
  have hlo : lo16 (cam.f7Regs mode).curSize = (cam.f7 mode).height := by
    refine (lo16_word (by omega) (by omega)).trans ?_
    rw [Nat.mod_eq_of_lt (by omega)]
  have hgridW : (cam.f7 mode).width / (f7Modes.get mode).unitWidth * (f7Modes.get mode).unitWidth ≤
      (f7Modes.get mode).maxWidth / (f7Modes.get mode).unitWidth * (f7Modes.get mode).unitWidth :=
    Nat.mul_le_mul_right _ (Nat.div_le_div_right hliveW)
  have hgridH : (cam.f7 mode).height / (f7Modes.get mode).unitHeight * (f7Modes.get mode).unitHeight ≤
      (f7Modes.get mode).maxHeight / (f7Modes.get mode).unitHeight * (f7Modes.get mode).unitHeight :=
    Nat.mul_le_mul_right _ (Nat.div_le_div_right hliveH)
  have hzeroW : (cam.f7 mode).width / (f7Modes.get mode).unitWidth * (f7Modes.get mode).unitWidth = 0 ↔
      (cam.f7 mode).width < (f7Modes.get mode).unitWidth := by
    rw [Nat.mul_eq_zero, or_iff_left huw.ne', Nat.div_eq_zero_iff_lt huw]
  have hzeroH : (cam.f7 mode).height / (f7Modes.get mode).unitHeight * (f7Modes.get mode).unitHeight = 0 ↔
      (cam.f7 mode).height < (f7Modes.get mode).unitHeight := by
    rw [Nat.mul_eq_zero, or_iff_left huh.ne', Nat.div_eq_zero_iff_lt huh]
  simp only [Format7Regs.current, gridSize, hhi, hlo, Nat.min_eq_left hgridW, Nat.min_eq_left hgridH,
    hzeroW, hzeroH]

theorem gridSize_le (h : cam.Programmed mode) :
    (cam.gridSize mode).1 ≤ 1575 ∧ (cam.gridSize mode).2 ≤ 1053 := by
  obtain ⟨⟨huw, hw, hwidth⟩, ⟨huh, hh, hheight⟩, -⟩ := f7Modes_spec mode
  have hW := Nat.div_mul_le_self (f7Modes.get mode).maxWidth (f7Modes.get mode).unitWidth
  have hH := Nat.div_mul_le_self (f7Modes.get mode).maxHeight (f7Modes.get mode).unitHeight
  have hw' := Nat.div_mul_le_self (cam.f7 mode).width (f7Modes.get mode).unitWidth
  have hh' := Nat.div_mul_le_self (cam.f7 mode).height (f7Modes.get mode).unitHeight
  have hliveW := h.width
  have hliveH := h.height
  unfold gridSize
  dsimp only
  split <;> constructor <;> dsimp only <;> omega

/-- The driver makes of the registers what was programmed, on the unit grid. -/
theorem f7Regs_geometry (h : cam.Programmed mode) :
    (cam.f7Regs mode).geometry = some (cam.f7Geometry mode) := by
  obtain ⟨⟨huw, hw, hwidth⟩, ⟨huh, hh, hheight⟩, -⟩ := f7Modes_spec mode
  have hline : (cam.f7 mode).width * bitsPerPixel (cam.f7 mode).colorCoding < 0x40000 := by
    have := Nat.mul_le_mul (h.width.trans hwidth) (codingBpp_le (cam.f7 mode).colorCoding)
    rw [bitsPerPixel_eq h.coding]
    omega
  have hunit := Live.unit_lt hline
  have hmax := Live.max_lt hunit
  have hpos := (cam.f7 mode).unit_pos
  have hle := (cam.f7 mode).unit_le_max
  have hmaxW : hi16 (cam.f7Regs mode).maxSize = (f7Modes.get mode).maxWidth := hi16_word (by omega) (by omega)
  have hmaxH : lo16 (cam.f7Regs mode).maxSize = (f7Modes.get mode).maxHeight := lo16_word (by omega) (by omega)
  have hunitBpp : hi16 (cam.f7Regs mode).packetPara = (cam.f7 mode).unit := hi16_word hunit hmax
  have hmaxBpp : lo16 (cam.f7Regs mode).packetPara = (cam.f7 mode).max := lo16_word hunit hmax
  have hrecommended : hi16 (cam.f7Regs mode).bytePerPacket = (cam.f7 mode).unit := hi16_shiftLeft hunit
  have hcoding : (cam.f7Regs mode).curCoding.toNat / 2 ^ 24 = (cam.f7 mode).colorCoding :=
    coding_toNat (codingBpp_lt h.coding)
  have hdivW := Nat.mul_pos (Nat.div_pos hw huw) huw
  have hdivH := Nat.mul_pos (Nat.div_pos hh huh) huh
  obtain ⟨hgridW, hgridH⟩ := gridSize_le h
  have hcap : _ * _ * codingBpp (cam.f7 mode).colorCoding / 8 ≤ _ := frame_le_cap hgridW hgridH
  unfold Format7Regs.geometry
  dsimp only
  rw [hmaxW, hmaxH, if_neg (by omega), f7Regs_unit]
  dsimp only
  rw [if_neg (by omega), f7Regs_current h, hunitBpp, hmaxBpp, hrecommended, if_neg (by omega), hcoding,
    if_neg h.coding, if_neg (Nat.not_lt.mpr hcap)]
  rfl

end Camera

section
variable {cfg : Config} {cam : Camera} {mode : Fin numF7Modes}

theorem readFormat7Regs_eq (hmode : (mode : ℕ) < cfg.f7Count) (s : Bringup Camera) :
    readFormat7Regs cfg.port (Config.block mode) s = (.ok (s.camera.f7Regs mode), s) := by
  have hread : ∀ reg < f7CsrBlockLen, readRegister cfg.port (Config.block mode + reg) s =
      (.ok (s.camera.csrRead mode reg), s) := by
    intro reg hreg
    rw [cfg.readRegister_eq, cfg.registerRead_csr hmode hreg]
  unfold readFormat7Regs
  rw [Routine.bind_ok (hread f7MaxImageSize (by decide)), Routine.bind_ok (hread f7UnitSize (by decide)),
    Routine.bind_ok (hread f7ColorCodingInq (by decide)), Routine.bind_ok (hread f7ImageSize (by decide)),
    Routine.bind_ok (hread f7ColorCodingId (by decide)), Routine.bind_ok (hread f7PacketParaInq (by decide)),
    Routine.bind_ok (hread f7BytePerPacket (by decide))]
  rfl

/-- The driver is probing the Format 7 modes: it has left nothing but its selection. -/
def Camera.Probed (cam c : Camera) : Prop :=
  ∃ mode < 8, c = { cam with curFormat := f7Format, curMode := mode }

theorem writeMode_eq {m : ℕ} (hm : m < 8) (s : Bringup Camera) :
    writeRegister cfg.port regVideoMode (selected m) s =
      (.ok (), { s with camera := { s.camera with curMode := m } }) := by
  have hwrite : cfg.registerWrite s.camera regVideoMode (selected m) =
      some { s.camera with curMode := m } := by
    rw [Config.registerWrite, if_neg (by decide), if_neg (by decide), if_pos rfl, selected_toNat hm]
  unfold writeRegister onCamera
  rw [cfg.write_ok hwrite]

theorem writeFormat_eq {format : ℕ} (hf : format < 8) (s : Bringup Camera) :
    writeRegister cfg.port regVideoFormat (selected format) s =
      (.ok (), { s with camera := { s.camera with curFormat := format } }) := by
  have hwrite : cfg.registerWrite s.camera regVideoFormat (selected format) =
      some { s.camera with curFormat := format } := by
    rw [Config.registerWrite, if_neg (by decide), if_pos rfl, selected_toNat hf]
  unfold writeRegister onCamera
  rw [cfg.write_ok hwrite]

theorem addCoding_adds (P : Camera → Prop) (cam : Camera) (mode : Fin numF7Modes) {coding : ℕ}
    (hc : coding < 32) : Adds P
      (addCoding (cam.f7Geometry mode) (f7Modes.get mode).colorCodingInq mode (Config.block mode) coding)
      (if (f7Modes.get mode).colorCodingInq.getMsbD coding then
        [(cam.f7Geometry mode).entry mode (Config.block mode) coding] else []) := by
  unfold addCoding
  cases hbit : (f7Modes.get mode).colorCodingInq.getMsbD coding with
  | false => exact .nothing
  | true =>
    obtain ⟨⟨-, -, hw⟩, ⟨-, -, hh⟩, hknown⟩ := f7Modes_spec mode
    have hmem : coding ∈ (f7Modes.get mode).codings := List.mem_filter.mpr ⟨List.mem_range.mpr hc, hbit⟩
    have hgridW := Nat.div_mul_le_self (f7Modes.get mode).maxWidth (f7Modes.get mode).unitWidth
    have hgridH := Nat.div_mul_le_self (f7Modes.get mode).maxHeight (f7Modes.get mode).unitHeight
    have hcap : (cam.f7Geometry mode).width * (cam.f7Geometry mode).height * codingBpp coding / 8 ≤
        maxImageBytes := frame_le_cap (hgridW.trans hw) (hgridH.trans hh)
    rw [if_neg (by simp), if_neg (hknown coding hmem), if_neg (Nat.not_lt.mpr hcap)]
    exact .addMode _

theorem probeFormat7_eq {σ : Type} {port : RegisterPort σ} {csrBase mode base : ℕ}
    {s t : Bringup σ} {pointer : BitVec 32} {regs : Format7Regs} {g : Format7Geometry}
    (hpointer : readRegister port (regVCsrInq7 + mode * 4) s = (.ok pointer, s))
    (hbase : csrPointerToOffset csrBase pointer (f7BytePerPacket + 4) = .ok base)
    (hregs : (do
      writeRegister port regVideoMode (selected mode)
      readFormat7Regs port base) s = (.ok regs, t))
    (hg : regs.geometry = some g) : probeFormat7 port csrBase mode s =
      Routine.eachWhile (addCoding g regs.codingMask mode base) (List.range 32) t := by
  have hattempt : ∀ {α : Type} {x : Routine (Bringup σ) NtStatus α} {u v : Bringup σ} {a : α},
      x u = (.ok a, v) → x.attempt u = (.ok (.ok a), v) := by
    intro α x u v a hx
    rw [Routine.attempt, hx]
  simp only [probeFormat7, Routine.bind_ok (hattempt hpointer), hbase, Routine.bind_ok (hattempt hregs),
    hg]

theorem probeFormat7_adds (hmode : (mode : ℕ) < cfg.f7Count) (h : cam.Programmed mode) :
    Adds cam.Probed (probeFormat7 cfg.port cfg.commandBase mode) (cam.advertisedMode mode) := by
  have hm : (mode : ℕ) < 8 := mode.isLt.trans (by decide)
  rintro ⟨c, modes⟩ ⟨m, hm', rfl⟩ hroom
  have hpointer : readRegister cfg.port (regVCsrInq7 + mode * 4)
      ⟨{ cam with curFormat := f7Format, curMode := m }, modes⟩ =
      (.ok (cfg.csrPointer mode), ⟨{ cam with curFormat := f7Format, curMode := m }, modes⟩) := by
    rw [cfg.readRegister_eq, cfg.registerRead_pointer hmode]
  have hregs : (do
        writeRegister cfg.port regVideoMode (selected mode)
        readFormat7Regs cfg.port (Config.block mode) : Routine (Bringup Camera) NtStatus Format7Regs)
      ⟨{ cam with curFormat := f7Format, curMode := m }, modes⟩ =
      (.ok (cam.f7Regs mode), ⟨{ cam with curFormat := f7Format, curMode := mode }, modes⟩) := by
    rw [Routine.bind_ok (writeMode_eq hm _), readFormat7Regs_eq hmode]
    rfl
  rw [probeFormat7_eq hpointer (cfg.csrPointerToOffset_csrPointer hmode) hregs (Camera.f7Regs_geometry h)]
  refine (Adds.eachWhile (P := cam.Probed) fun coding hc =>
    addCoding_adds cam.Probed cam mode (List.mem_range.mp hc)).congr ?_ _ ⟨mode, hm, rfl⟩ hroom
  exact flatMap_singleton_if _ _ _

theorem exposed_flatMap {β : Type} (cfg : Config) (f : Fin numF7Modes → List β) :
    ((List.range numModes).flatMap fun mode =>
      if h : mode < numF7Modes ∧ mode < cfg.f7Count then f ⟨mode, h.1⟩ else []) =
    cfg.exposed.flatMap f := by
  have hle := cfg.f7Count_le
  unfold Config.exposed
  generalize cfg.f7Count = n at hle
  simp only [numF7Modes] at hle
  obtain rfl | rfl | rfl | rfl | rfl : n = 0 ∨ n = 1 ∨ n = 2 ∨ n = 3 ∨ n = 4 := by omega
  all_goals rfl

theorem enumerateFormat7_eq (h : ∀ mode, cam.Programmed mode) (hm : cam.curMode < 8)
    {modes : List VideoMode}
    (hroom : modes.length + (cfg.exposed.flatMap cam.advertisedMode).length ≤ maxVideoModes) :
    ∃ c, cam.Probed c ∧ enumerateFormat7 cfg.port cfg.commandBase ⟨cam, modes⟩ =
      (.ok (), ⟨c, modes ++ cfg.exposed.flatMap cam.advertisedMode⟩) := by
  have hmask : Routine.attempt (do
        writeRegister cfg.port regVideoFormat (selected f7Format)
        readRegister cfg.port regVideoModeInq7) ⟨cam, modes⟩ =
      (.ok (.ok (bitmask cfg.f7Count fun _ => true)), ⟨{ cam with curFormat := f7Format }, modes⟩) := by
    rw [Routine.attempt, Routine.bind_ok (writeFormat_eq (by decide) _), cfg.readRegister_eq,
      cfg.registerRead_modeInq7]
  have hbody : ∀ mode ∈ List.range numModes, Adds cam.Probed
      (if (bitmask cfg.f7Count fun _ => true).getMsbD mode then
        probeFormat7 cfg.port cfg.commandBase mode else pure true)
      (if h : mode < numF7Modes ∧ mode < cfg.f7Count then cam.advertisedMode ⟨mode, h.1⟩ else []) := by
    intro mode hmode
    rw [cfg.modeInq7_getMsbD (List.mem_range.mp hmode)]
    by_cases hlt : mode < cfg.f7Count
    · have hf7 := hlt.trans_le cfg.f7Count_le
      rw [if_pos (by simpa using hlt), dif_pos ⟨hf7, hlt⟩]
      exact @probeFormat7_adds cfg cam ⟨mode, hf7⟩ hlt (h _)
    · rw [if_neg (by simpa using hlt), dif_neg fun hc => hlt hc.2]
      exact .nothing
  rw [← exposed_flatMap] at hroom ⊢
  obtain ⟨c, hc, heq⟩ := (Adds.eachWhile hbody) ⟨{ cam with curFormat := f7Format }, modes⟩
    ⟨cam.curMode, hm, rfl⟩ hroom
  refine ⟨c, hc, ?_⟩
  unfold enumerateFormat7
  rw [Routine.bind_ok hmask]
  dsimp only
  rw [Routine.bind_ok heq]
  rfl

theorem advertised_length (cfg : Config) (cam : Camera) :
    (cfg.advertised cam).length ≤ maxVideoModes := by
  have hstandard : ((List.range numFormats).flatMap advertisedFormat).length = 23 := by decide +kernel
  have hf7 : (cfg.exposed.flatMap cam.advertisedMode).length ≤ 13 := by
    have hlength : (cfg.exposed.flatMap cam.advertisedMode).length =
        (cfg.exposed.map fun mode => (f7Modes.get mode).codings.length).sum := by
      simp [List.length_flatMap, Camera.advertisedMode]
    have hle := cfg.f7Count_le
    rw [hlength]
    unfold Config.exposed
    generalize cfg.f7Count = n at hle
    simp only [numF7Modes] at hle
    obtain rfl | rfl | rfl | rfl | rfl : n = 0 ∨ n = 1 ∨ n = 2 ∨ n = 3 ∨ n = 4 := by omega
    all_goals decide
  unfold Config.advertised
  rw [List.length_append]
  cases cfg.advertiseStdFormats with
  | true =>
    rw [if_pos rfl, hstandard]
    simp only [maxVideoModes]
    omega
  | false =>
    simp only [maxVideoModes, Bool.false_eq_true, if_false, List.length_nil]
    omega

theorem advertised_lt (cfg : Config) (cam : Camera) :
    ∀ e ∈ cfg.advertised cam, e.format < 8 ∧ e.mode < 8 := by
  intro e he
  rcases List.mem_append.mp he with he | he
  · split at he
    · simp only [List.mem_flatMap, List.mem_range, advertisedFormat, List.mem_map, streamedModes,
        List.mem_filter] at he
      obtain ⟨format, hf, mode, ⟨hm, -⟩, rfl⟩ := he
      exact ⟨hf.trans (by decide), hm⟩
    · cases he
  · obtain ⟨mode, -, he⟩ := List.mem_flatMap.mp he
    obtain ⟨coding, -, rfl⟩ := List.mem_map.mp he
    exact ⟨(by decide : f7Format < 8), mode.isLt.trans (by decide)⟩

theorem advertised_ne_nil (hcount : 0 < cfg.f7Count) (cam : Camera) : cfg.advertised cam ≠ [] := by
  have hmode : (⟨0, by decide⟩ : Fin numF7Modes) ∈ cfg.exposed :=
    List.mem_filter.mpr ⟨List.mem_finRange _, by simpa using hcount⟩
  have hmem : (cam.f7Geometry ⟨0, by decide⟩).entry 0 (Config.block 0) pixMono8 ∈ cfg.advertised cam :=
    List.mem_append_right _ (List.mem_flatMap.mpr ⟨_, hmode, List.mem_map.mpr ⟨pixMono8, mono8_mem_codings _, rfl⟩⟩)
  exact List.ne_nil_of_mem hmem

theorem normalizeSelection_eq {modes : List VideoMode} (hne : modes ≠ [])
    (hlt : ∀ e ∈ modes, e.format < 8 ∧ e.mode < 8) (format mode : ℕ) (c : Camera) : ∃ e ∈ modes,
      ((∃ e' ∈ modes, e'.format = format ∧ e'.mode = mode) → e.format = format ∧ e.mode = mode) ∧
      normalizeSelection cfg.port (.ok (format, mode)) ⟨c, modes⟩ =
        (.ok (), ⟨{ c with curFormat := e.format, curMode := e.mode }, modes⟩) := by
  have hwrites : ∀ e ∈ modes, Routine.attempt (do
        writeRegister cfg.port regVideoFormat (selected e.format)
        writeRegister cfg.port regVideoMode (selected e.mode)) ⟨c, modes⟩ =
      (.ok (.ok ()), ⟨{ c with curFormat := e.format, curMode := e.mode }, modes⟩) := by
    intro e he
    rw [Routine.attempt, Routine.bind_ok (writeFormat_eq (hlt e he).1 _), writeMode_eq (hlt e he).2]
  have hget : (Routine.get : Routine (Bringup Camera) NtStatus _) ⟨c, modes⟩ =
      (.ok ⟨c, modes⟩, ⟨c, modes⟩) := rfl
  obtain ⟨first, hfirst⟩ : ∃ first, modes.head? = some first := by
    cases modes with
    | nil => exact absurd rfl hne
    | cons e modes => exact ⟨e, rfl⟩
  unfold normalizeSelection
  rw [Routine.bind_ok hget]
  dsimp only
  cases hfind : modes.find? fun e : VideoMode => e.format = format ∧ e.mode = mode with
  | some e =>
    have he := List.mem_of_find?_eq_some hfind
    have hsel : e.format = format ∧ e.mode = mode := by simpa using List.find?_some hfind
    refine ⟨e, he, fun _ => hsel, ?_⟩
    dsimp only [Option.or]
    rw [Routine.bind_ok (hwrites e he)]
    rfl
  | none =>
    have he := List.mem_of_mem_head? hfirst
    refine ⟨first, he, fun hx => ?_, ?_⟩
    · obtain ⟨e', he', hsel⟩ := hx
      have := List.find?_eq_none.mp hfind e' he'
      simp [hsel] at this
    · rw [hfirst]
      dsimp only [Option.or]
      rw [Routine.bind_ok (hwrites first he)]
      rfl

/-- The enumeration of a camera as a driver leaves it succeeds. Its table is what the camera
advertises, and it selects one of these modes: the one selected before, if it is one of them. -/
theorem enumerateModes_eq (hcount : 0 < cfg.f7Count) (h : cam.Driven) (modes : List VideoMode) :
    ∃ e ∈ cfg.advertised cam,
      ((∃ e' ∈ cfg.advertised cam, e'.format = cam.curFormat ∧ e'.mode = cam.curMode) →
        e.format = cam.curFormat ∧ e.mode = cam.curMode) ∧
      enumerateModes cfg.port cfg.commandBase ⟨cam, modes⟩ =
        (.ok (), ⟨{ cam with curFormat := e.format, curMode := e.mode }, cfg.advertised cam⟩) := by
  have hroom := advertised_length cfg cam
  unfold Config.advertised at hroom
  rw [List.length_append] at hroom
  have hbase : cfg.commandBase ≠ 0 := by
    simp only [Config.commandBase]
    omega
  have hsaved : (readSelection cfg.port cfg.commandBase).attempt ⟨cam, []⟩ =
      (.ok (.ok (cam.curFormat, cam.curMode)), ⟨cam, []⟩) := by
    obtain ⟨hf, hm⟩ := cfg.registerRead_selection cam
    rw [Routine.attempt, readSelection, if_neg hbase, Routine.bind_ok (cfg.readRegister_eq _ _),
      Routine.bind_ok (cfg.readRegister_eq _ _), hf, hm, selected_toNat h.format, selected_toNat h.mode]
    rfl
  obtain ⟨c, rfl, hstandard⟩ := standard_adds cfg cam ⟨cam, []⟩ rfl (by simp only [List.length_nil]; omega)
  obtain ⟨c, ⟨m, -, rfl⟩, hf7⟩ := enumerateFormat7_eq h.programmed h.mode hroom
  dsimp only [List.nil_append] at hstandard
  have hne := advertised_ne_nil hcount c
  have hstart : enumerateModes cfg.port cfg.commandBase ⟨c, modes⟩ =
      fillModes cfg.port cfg.commandBase ⟨c, []⟩ := rfl
  rw [hstart, fillModes, Routine.bind_ok hsaved, Routine.bind_ok (cfg.readRegister_eq _ _), cfg.registerRead_formatInq,
    Routine.bind_ok hstandard]
  rw [cfg.videoFormatInq_getMsbD.1, Bool.and_self, if_pos rfl, Routine.bind_ok hf7]
  obtain ⟨e, he, hkept, heq⟩ := normalizeSelection_eq hne (advertised_lt cfg c) c.curFormat c.curMode
    { c with curFormat := f7Format, curMode := m }
  refine ⟨e, he, hkept, ?_⟩
  have hget : (Routine.get : Routine (Bringup Camera) NtStatus _)
      ⟨{ c with curFormat := f7Format, curMode := m }, cfg.advertised c⟩ =
      (.ok ⟨{ c with curFormat := f7Format, curMode := m }, cfg.advertised c⟩,
        ⟨{ c with curFormat := f7Format, curMode := m }, cfg.advertised c⟩) := rfl
  refine (Routine.bind_ok hget).trans ?_
  rw [if_neg fun hz => hne (List.eq_nil_of_length_eq_zero hz)]
  exact heq

end

/-- A Format 7 entry of the table is one that the camera advertises: of an exposed mode, in a coding
that the driver knows, within the size of the mode. -/
def Config.Offers (cfg : Config) (e : VideoMode) : Prop :=
  e.isFormat7 = true → ∃ mode : Fin numF7Modes, (mode : ℕ) < cfg.f7Count ∧ e.mode = mode ∧
    e.format7CsrOffset = Config.block mode ∧ codingBpp e.pixelFormat ≠ 0 ∧
    e.width ≤ (f7Modes.get mode).maxWidth ∧ e.height ≤ (f7Modes.get mode).maxHeight

section
variable (cfg : Config)

theorem offers_advertised (cam : Camera) : ∀ e ∈ cfg.advertised cam, cfg.Offers e := by
  intro e he h7
  rcases List.mem_append.mp he with he | he
  · split at he
    · simp only [List.mem_flatMap, List.mem_range, advertisedFormat, List.mem_map] at he
      obtain ⟨format, -, mode, -, rfl⟩ := he
      cases h7
    · cases he
  · obtain ⟨mode, hmode, he⟩ := List.mem_flatMap.mp he
    obtain ⟨coding, hcoding, rfl⟩ := List.mem_map.mp he
    obtain ⟨-, -, hknown⟩ := f7Modes_spec mode
    refine ⟨mode, by simpa [Config.exposed] using hmode, rfl, rfl, hknown coding hcoding, ?_, ?_⟩
    · exact Nat.div_mul_le_self _ _
    · exact Nat.div_mul_le_self _ _

theorem powerUp_driven (others : ℕ → BitVec 32) : (Camera.powerUp others).Driven := by
  have hmodes : ∀ mode : Fin numF7Modes, (f7Modes.get mode).defWidth ≤ (f7Modes.get mode).maxWidth ∧
      (f7Modes.get mode).defHeight ≤ (f7Modes.get mode).maxHeight := by
    decide
  exact ⟨(by decide : 0 < 8), (by decide : 5 < 8), fun mode =>
    ⟨(by decide : codingBpp 0 ≠ 0), (hmodes mode).1, (hmodes mode).2⟩⟩

theorem Camera.Driven.setLive {cam : Camera} (h : cam.Driven) (mode : Fin numF7Modes) {live : Live}
    (hc : codingBpp live.colorCoding ≠ 0) (hw : live.width ≤ (f7Modes.get mode).maxWidth)
    (hh : live.height ≤ (f7Modes.get mode).maxHeight) : (cam.setLive mode live).Driven := by
  refine ⟨h.format, h.mode, fun m => ?_⟩
  by_cases hm : m = mode
  · subst hm
    have hlive : (cam.setLive m live).f7 m = live := Function.update_self ..
    exact ⟨by rwa [hlive], by rwa [hlive], by rwa [hlive]⟩
  · have hlive : (cam.setLive mode live).f7 m = cam.f7 m := Function.update_of_ne hm ..
    have hm' := h.programmed m
    exact ⟨by rw [hlive]; exact hm'.coding, by rw [hlive]; exact hm'.width,
      by rw [hlive]; exact hm'.height⟩

theorem Camera.Driven.select {cam : Camera} (h : cam.Driven) {format mode : ℕ} (hf : format < 8)
    (hm : mode < 8) (rate : ℕ) :
    Camera.Driven { cam with curFormat := format, curMode := mode, curRate := rate } :=
  ⟨hf, hm, fun m => ⟨(h.programmed m).coding, (h.programmed m).width, (h.programmed m).height⟩⟩

theorem write_keeps {off : ℕ} {v : BitVec 32}
    (h : ∀ cam cam', cam.Driven → cfg.registerWrite cam off v = some cam' → cam'.Driven) :
    Routine.Keeps Camera.Driven (cfg.port.write off v) fun _ => True := by
  intro cam hcam
  refine ⟨?_, fun _ _ => trivial⟩
  simp only [Config.port]
  cases hw : cfg.registerWrite cam off v with
  | none => exact hcam
  | some cam' => exact h cam cam' hcam hw

theorem read_keeps (off : ℕ) : Routine.Keeps Camera.Driven (cfg.port.read off) fun _ => True :=
  fun _ hcam => ⟨hcam, fun _ _ => trivial⟩

theorem selection_keeps {off : ℕ} (hoff : off = regVideoFormat ∨ off = regVideoMode ∨ off = regFrameRate)
    (v : BitVec 32) : Routine.Keeps Camera.Driven (cfg.port.write off v) fun _ => True := by
  apply write_keeps
  intro cam cam' hcam hw
  have hv := v.isLt
  obtain rfl | rfl | rfl := hoff
  · rw [Config.registerWrite, if_neg (by decide), if_pos rfl] at hw
    cases hw
    exact hcam.select (by omega) hcam.mode _
  · rw [Config.registerWrite, if_neg (by decide), if_neg (by decide), if_pos rfl] at hw
    cases hw
    exact hcam.select hcam.format (by omega) _
  · rw [Config.registerWrite, if_neg (by decide), if_neg (by decide), if_neg (by decide), if_pos rfl] at hw
    cases hw
    exact hcam.select hcam.format hcam.mode _

section
variable {cfg} {mode : Fin numF7Modes} (hmode : (mode : ℕ) < cfg.f7Count)
include hmode

theorem imageSize_keeps {width height : ℕ} (hw : width ≤ (f7Modes.get mode).maxWidth)
    (hh : height ≤ (f7Modes.get mode).maxHeight) : Routine.Keeps Camera.Driven
      (cfg.port.write (Config.block mode + f7ImageSize) (packSize width height)) fun _ => True := by
  obtain ⟨⟨-, -, hwidth⟩, ⟨-, -, hheight⟩, -⟩ := f7Modes_spec mode
  apply write_keeps
  intro cam cam' hcam hwrite
  rw [cfg.registerWrite_csr hmode (by decide), Camera.csrWrite, if_neg (by decide), if_pos rfl,
    hi16_packSize (by omega) (by omega), lo16_packSize (by omega)] at hwrite
  cases hwrite
  exact hcam.setLive mode (hcam.programmed mode).coding hw hh

theorem coding_keeps {coding : ℕ} (hc : codingBpp coding ≠ 0) : Routine.Keeps Camera.Driven
    (cfg.port.write (Config.block mode + f7ColorCodingId) (BitVec.ofNat 32 coding <<< 24))
    fun _ => True := by
  apply write_keeps
  intro cam cam' hcam hwrite
  rw [cfg.registerWrite_csr hmode (by decide), Camera.csrWrite, if_neg (by decide), if_neg (by decide),
    if_pos rfl, coding_toNat (codingBpp_lt hc)] at hwrite
  cases hwrite
  exact hcam.setLive mode hc (hcam.programmed mode).width (hcam.programmed mode).height

theorem bytePerPacket_keeps (v : BitVec 32) : Routine.Keeps Camera.Driven
    (cfg.port.write (Config.block mode + f7BytePerPacket) v) fun _ => True := by
  apply write_keeps
  intro cam cam' hcam hwrite
  rw [cfg.registerWrite_csr hmode (by decide), Camera.csrWrite, if_neg (by decide), if_neg (by decide),
    if_neg (by decide), if_pos rfl] at hwrite
  split at hwrite
  · cases hwrite
    exact hcam.setLive mode (hcam.programmed mode).coding (hcam.programmed mode).width
      (hcam.programmed mode).height
  · cases hwrite

end

theorem fromExcept_keeps {α : Type} (r : Except NtStatus α) :
    Routine.Keeps Camera.Driven (fromExcept r) fun _ => True := by
  cases r with
  | ok a => exact .pure trivial
  | error e => exact .throw

theorem configureStream_keeps {stream : Stream} (h : ∀ e ∈ stream.mode, cfg.Offers e ∧
      stream.width ≤ e.width ∧ stream.height ≤ e.height) (maxSpeedCode : ℕ) :
    Routine.Keeps Camera.Driven (configureStream cfg.port stream maxSpeedCode) fun _ => True := by
  unfold configureStream
  cases hmode : stream.mode with
  | none => exact .throw
  | some e =>
    obtain ⟨hoffers, hwidth, hheight⟩ := h e hmode
    dsimp only
    split
    · next h7 =>
      obtain ⟨mode, hlt, hm, hbase, hcoding, hw, hh⟩ := hoffers h7
      unfold configureFormat7
      dsimp only
      rw [hbase]
      refine .ite (fun _ => .throw) fun _ => ?_
      refine (selection_keeps cfg (.inl rfl) _).bind fun _ _ => ?_
      refine (selection_keeps cfg (.inr (.inl rfl)) _).bind fun _ _ => ?_
      refine (imageSize_keeps hlt (hwidth.trans hw) (hheight.trans hh)).bind fun _ _ => ?_
      refine (coding_keeps hlt hcoding).bind fun _ _ => ?_
      refine (read_keeps cfg _).bind fun _ _ => .ite (fun _ => .throw) fun _ => ?_
      refine (fromExcept_keeps _).bind fun _ _ => ?_
      exact (bytePerPacket_keeps hlt _).bind fun _ _ => .pure trivial
    · refine .ite (fun _ => .throw) fun _ => ?_
      refine (selection_keeps cfg (.inl rfl) _).bind fun _ _ => ?_
      refine (selection_keeps cfg (.inr (.inl rfl)) _).bind fun _ _ => ?_
      exact (selection_keeps cfg (.inr (.inr rfl)) _).bind fun _ _ => .pure trivial

end

inductive DriverAct
  | enumerate
  | configure (stream : Stream) (maxSpeedCode : ℕ)

/-- A stream is configured on an entry of the table, within its size. -/
def Negotiated (s : Bringup Camera) : DriverAct → Prop
  | .enumerate => True
  | .configure stream _ => ∀ e ∈ stream.mode, e ∈ s.modes ∧ stream.width ≤ e.width ∧
      stream.height ≤ e.height

instance (s : Bringup Camera) (a : DriverAct) : Decidable (Negotiated s a) :=
  match a with
  | .enumerate => .isTrue trivial
  | .configure stream _ => inferInstanceAs (Decidable (∀ e ∈ stream.mode, e ∈ s.modes ∧
      stream.width ≤ e.width ∧ stream.height ≤ e.height))

/-- The driver on the camera that was just created. -/
def driver (cfg : Config) (others : ℕ → BitVec 32) : Machine (Bringup Camera) DriverAct where
  init := ⟨.powerUp others, []⟩
  step s
    | .enumerate => some (enumerateModes cfg.port cfg.commandBase s).2
    | .configure stream maxSpeedCode =>
      some { s with camera := (configureStream cfg.port stream maxSpeedCode s.camera).2 }

theorem driven_of_reaches {cfg : Config} (hcount : 0 < cfg.f7Count) {others : ℕ → BitVec 32}
    {s : Bringup Camera} (h : (driver cfg others).Reaches Negotiated s) :
    s.camera.Driven ∧ ∀ e ∈ s.modes, cfg.Offers e := by
  refine h.invariant (I := fun s => s.camera.Driven ∧ ∀ e ∈ s.modes, cfg.Offers e)
    ⟨powerUp_driven others, by rintro _ ⟨⟩⟩ ?_
  rintro ⟨cam, modes⟩ a s' _ ⟨hdriven, hoffers⟩ hneg hs
  cases a with
  | enumerate =>
    obtain ⟨e, he, -, heq⟩ := enumerateModes_eq hcount hdriven modes
    simp only [driver, Option.some.injEq] at hs
    rw [heq] at hs
    subst hs
    obtain ⟨hf, hm⟩ := advertised_lt cfg cam e he
    exact ⟨hdriven.select hf hm _, offers_advertised cfg cam⟩
  | configure stream maxSpeedCode =>
    simp only [driver, Option.some.injEq] at hs
    subst hs
    refine ⟨?_, hoffers⟩
    refine (configureStream_keeps cfg (fun e he => ?_) maxSpeedCode cam hdriven).1
    obtain ⟨hmem, hsize⟩ := hneg e he
    exact ⟨hoffers e hmem, hsize⟩

/-- An entry without its default size and the intervals that follow from it. -/
def offer (e : VideoMode) : VideoMode :=
  { e with defaultWidth := 0, defaultHeight := 0, minFrameInterval := 0, maxFrameInterval := 0 }

theorem advertised_offer (cfg : Config) (cam cam' : Camera) :
    (cfg.advertised cam).map offer = (cfg.advertised cam').map offer := by
  simp only [Config.advertised, List.map_append, List.map_flatMap, Camera.advertisedMode, List.map_map]
  rfl

/-- Whatever streams the driver has configured on the emulated camera's modes, and whether that
succeeded or not, an enumeration succeeds and fills the table with exactly the modes that the
camera advertises, the same as at its creation but for the default sizes and what follows from
them. The selection it leaves is one of the modes, and the one before if that is one of them. -/
theorem enumeration_complete (cfg : Config) (hcount : 0 < cfg.f7Count) (others : ℕ → BitVec 32)
    {s : Bringup Camera} (h : (driver cfg others).Reaches Negotiated s) :
    (cfg.advertised s.camera).map offer = (cfg.advertised (.powerUp others)).map offer ∧
    ∃ e ∈ cfg.advertised s.camera,
      ((∃ e' ∈ cfg.advertised s.camera,
          e'.format = s.camera.curFormat ∧ e'.mode = s.camera.curMode) →
        e.format = s.camera.curFormat ∧ e.mode = s.camera.curMode) ∧
      enumerateModes cfg.port cfg.commandBase s =
        (.ok (), ⟨{ s.camera with curFormat := e.format, curMode := e.mode },
          cfg.advertised s.camera⟩) := by
  obtain ⟨hdriven, -⟩ := driven_of_reaches hcount h
  exact ⟨advertised_offer cfg _ _, enumerateModes_eq hcount hdriven s.modes⟩

def configureRun : List DriverAct :=
  [.enumerate, .configure ⟨some ⟨7, 0, 0, 1572, 1052, 1388, 1032, true, 4, 4, 0xa00, 0, 645000, 1290000⟩,
    640, 480, 307200, 645000⟩ 2]

def configured : Bringup Camera := (driver defaultConfig fun _ => 0).after Negotiated configureRun

/-- The next enumeration finds the size that was configured. -/
theorem enumeration_complete_configured :
    (defaultConfig.advertised configured.camera).map (fun e => (e.defaultWidth, e.defaultHeight)) =
      [(640, 480), (640, 480)] ∧
    (enumerateModes defaultConfig.port defaultConfig.commandBase configured).2.modes =
      defaultConfig.advertised configured.camera := by
  have hr : (driver defaultConfig fun _ => 0).Reaches Negotiated configured :=
    (driver defaultConfig fun _ => 0).reaches_after Negotiated configureRun
  obtain ⟨e, -, -, heq⟩ := (enumeration_complete defaultConfig (by decide) _ hr).2
  refine ⟨by decide +kernel, ?_⟩
  rw [heq]

end Fake
end Photonic
