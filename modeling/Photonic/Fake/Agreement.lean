import Photonic.Dcam.Table
import Photonic.Dcam.Configure
import Photonic.Fake.Format7

namespace Photonic
namespace Fake
open Dcam

theorem toNat_word {hi lo : ℕ} (hhi : hi < 0x10000) (hlo : lo < 0x10000) :
    (word hi lo).toNat = hi * 0x10000 + lo := by
  have h := Nat.two_pow_add_eq_or_of_lt (i := 16) hlo hi
  rw [word, BitVec.toNat_or, BitVec.toNat_shiftLeft, BitVec.toNat_ofNat, BitVec.toNat_ofNat,
    Nat.mod_eq_of_lt (by omega : hi < 2 ^ 32), Nat.mod_eq_of_lt (by omega : lo < 2 ^ 32),
    Nat.shiftLeft_eq, Nat.mod_eq_of_lt (by omega), Nat.mul_comm hi, ← h]

theorem hi16_word {hi lo : ℕ} (hhi : hi < 0x10000) (hlo : lo < 0x10000) :
    hi16 (word hi lo) = hi := by
  rw [hi16, toNat_word hhi hlo]
  omega

theorem lo16_word {hi lo : ℕ} (hhi : hi < 0x10000) (hlo : lo < 0x10000) :
    lo16 (word hi lo) = lo := by
  rw [lo16, toNat_word hhi hlo]
  omega

theorem bitsPerPixel_eq {coding : ℕ} (h : codingBpp coding ≠ 0) :
    bitsPerPixel coding = codingBpp coding := by
  have hsmall : ∀ c < 8, codingBpp c ≠ 0 → bitsPerPixel c = codingBpp c := by decide
  exact hsmall coding (codingBpp_lt h) h

theorem bitsPerPixel_le (coding : ℕ) : bitsPerPixel coding ≤ 48 := by
  unfold bitsPerPixel
  split <;> decide

namespace Live

theorem unit_pos (live : Live) : 0 < live.unit := by
  unfold unit
  dsimp only
  split_ifs <;> omega

theorem unit_le_max (live : Live) : live.unit ≤ live.max := by
  unfold max
  split_ifs <;> omega

theorem unit_legal (live : Live) : live.BppIsLegal live.unit :=
  ⟨le_rfl, live.unit_le_max, Nat.mod_self _⟩

theorem line_le_unit (live : Live) :
    live.width * bitsPerPixel live.colorCoding ≤ live.unit * 8 := by
  unfold unit
  dsimp only
  split_ifs <;> omega

theorem unit_lt {live : Live} (h : live.width * bitsPerPixel live.colorCoding < 0x40000) :
    live.unit < 0x10000 := by
  unfold unit
  dsimp only
  split_ifs <;> omega

theorem max_lt {live : Live} (h : live.unit < 0x10000) : live.max < 0x10000 := by
  have := Nat.div_mul_le_self busMaxBpp live.unit
  simp only [busMaxBpp] at this
  unfold max
  split_ifs
  · exact h
  · simp only [busMaxBpp]
    omega

theorem unit_congr {l l' : Live} (hw : l.width = l'.width) (hc : l.colorCoding = l'.colorCoding) :
    l.unit = l'.unit := by
  simp only [unit, hw, hc]

theorem bppIsLegal_congr {l l' : Live} (hw : l.width = l'.width)
    (hc : l.colorCoding = l'.colorCoding) (bpp : ℕ) : l.BppIsLegal bpp ↔ l'.BppIsLegal bpp := by
  simp only [BppIsLegal, max, unit_congr hw hc]

theorem reset_legal (live : Live) : live.reset.BppIsLegal live.reset.bytesPerPacket :=
  (bppIsLegal_congr rfl rfl _).mp live.unit_legal

end Live

/-- A write to a CSR block, refused or not, or a reset. -/
inductive CsrAct
  | write (mode : Fin numF7Modes) (reg : ℕ) (logical : BitVec 32)
  | reset

namespace Camera

/-- The live packet size of every mode is legal for its geometry. -/
def BppLegal (cam : Camera) : Prop := ∀ mode, (cam.f7 mode).BppIsLegal (cam.f7 mode).bytesPerPacket

def after (cam : Camera) : CsrAct → Camera
  | .write mode reg logical => (cam.csrWrite mode reg logical).getD cam
  | .reset => cam.f7Reset

/-- The camera as creation leaves it: zeroed, then reset. -/
def powerUp (others : ℕ → BitVec 32) : Camera :=
  resetVideoState ⟨0, 0, 0, fun _ => ⟨0, 0, 0, 0, 0, 0⟩, others⟩

theorem BppLegal.setLive {cam : Camera} (h : cam.BppLegal) (mode : Fin numF7Modes) {live : Live}
    (hl : live.BppIsLegal live.bytesPerPacket) : (cam.setLive mode live).BppLegal := by
  intro m
  by_cases hm : m = mode
  · subst hm
    simpa [Camera.setLive] using hl
  · simpa [Camera.setLive, hm] using h m

theorem f7Reset_bppLegal (cam : Camera) : cam.f7Reset.BppLegal := fun _ => Live.reset_legal _

/-- A write latches nothing, moves the window, falls back to the unit with the new geometry or
coding, or latches a size that was found legal. -/
theorem BppLegal.csrWrite {cam cam' : Camera} (h : cam.BppLegal) {mode : Fin numF7Modes} {reg : ℕ}
    {logical : BitVec 32} (hw : cam.csrWrite mode reg logical = some cam') : cam'.BppLegal := by
  unfold Camera.csrWrite at hw
  dsimp only at hw
  split_ifs at hw with hpos hsize hcoding hbpp hlegal
  all_goals cases hw
  · exact h.setLive mode ((Live.bppIsLegal_congr rfl rfl _).mp (h mode))
  · exact h.setLive mode (Live.reset_legal _)
  · exact h.setLive mode (Live.reset_legal _)
  · exact h.setLive mode ((Live.bppIsLegal_congr rfl rfl _).mp hlegal)
  · exact h

theorem BppLegal.after {cam : Camera} (h : cam.BppLegal) (a : CsrAct) : (cam.after a).BppLegal := by
  cases a with
  | reset => exact f7Reset_bppLegal cam
  | write mode reg logical =>
    cases hw : cam.csrWrite mode reg logical with
    | none => simpa [Camera.after, hw] using h
    | some cam' => simpa [Camera.after, hw] using h.csrWrite hw

theorem BppLegal.run {cam : Camera} (h : cam.BppLegal) (acts : List CsrAct) :
    (acts.foldl Camera.after cam).BppLegal := by
  induction acts generalizing cam with
  | nil => exact h
  | cons a acts ih => exact ih (h.after a)

end Camera

namespace Config
variable (cfg : Config)

/-- The base of a mode's CSR block. -/
def block (mode : ℕ) : ℕ := f7CsrBlock + mode * f7CsrBlockLen

theorem block_index (mode : ℕ) {reg : ℕ} (hreg : reg < f7CsrBlockLen) :
    (block mode + reg - f7CsrBlock) / f7CsrBlockLen = mode ∧
      (block mode + reg - f7CsrBlock) % f7CsrBlockLen = reg := by
  simp only [block, f7CsrBlock, f7CsrBlockLen] at hreg ⊢
  omega

theorem registerRead_csr {mode : Fin numF7Modes} (hmode : (mode : ℕ) < cfg.f7Count) {reg : ℕ}
    (hreg : reg < f7CsrBlockLen) (cam : Camera) :
    cfg.registerRead cam (block mode + reg) = cam.csrRead mode reg := by
  have hcount := cfg.f7Count_le
  have hindex := block_index mode hreg
  simp only [numF7Modes] at hcount
  simp only [f7CsrBlockLen] at hreg
  unfold registerRead
  rw [if_neg (by simp only [block, f7CsrBlock, f7CsrBlockLen, regVideoFormatInq]; omega),
    if_neg (by simp only [block, f7CsrBlock, f7CsrBlockLen, regVideoModeInq, numFormats]; omega),
    if_neg (by
      simp only [block, f7CsrBlock, f7CsrBlockLen, regFrameRateInq, numFormats, numModes]; omega),
    if_neg (by
      simp only [block, f7CsrBlock, f7CsrBlockLen, regVideoModeInq7, regVideoModeInq, f7Format]
      omega),
    if_neg (by simp only [block, f7CsrBlock, f7CsrBlockLen, regVCsrInq7]; omega),
    dif_pos (by simp only [block, f7CsrBlock, f7CsrBlockLen]; omega)]
  exact congrArg₂ cam.csrRead (Fin.ext hindex.1) hindex.2

theorem registerWrite_csr {mode : Fin numF7Modes} (hmode : (mode : ℕ) < cfg.f7Count) {reg : ℕ}
    (hreg : reg < f7CsrBlockLen) (cam : Camera) (logical : BitVec 32) :
    cfg.registerWrite cam (block mode + reg) logical = cam.csrWrite mode reg logical := by
  have hcount := cfg.f7Count_le
  have hindex := block_index mode hreg
  simp only [numF7Modes] at hcount
  simp only [f7CsrBlockLen] at hreg
  unfold registerWrite
  rw [if_neg (by simp only [block, f7CsrBlock, f7CsrBlockLen]; omega),
    if_neg (by simp only [block, f7CsrBlock, f7CsrBlockLen, regVideoFormat]; omega),
    if_neg (by simp only [block, f7CsrBlock, f7CsrBlockLen, regVideoMode]; omega),
    if_neg (by simp only [block, f7CsrBlock, f7CsrBlockLen, regFrameRate]; omega),
    dif_pos (by simp only [block, f7CsrBlock, f7CsrBlockLen]; omega)]
  exact congrArg₂ (fun m r => cam.csrWrite m r logical) (Fin.ext hindex.1) hindex.2

theorem write_ok {cam cam' : Camera} {off : ℕ} {logical : BitVec 32}
    (h : cfg.registerWrite cam off logical = some cam') :
    cfg.port.write off logical cam = (.ok (), cam') := by
  simp only [port, h]

end Config

theorem selected_toNat {id : ℕ} (h : id < 8) : (selected id).toNat / 2 ^ 29 = id := by
  rw [selected, BitVec.toNat_shiftLeft, BitVec.toNat_ofNat, Nat.shiftLeft_eq,
    Nat.mod_eq_of_lt (by omega : id < 2 ^ 32), Nat.mod_eq_of_lt (by omega)]
  omega

theorem coding_toNat {coding : ℕ} (h : coding < 8) :
    (BitVec.ofNat 32 coding <<< 24).toNat / 2 ^ 24 = coding := by
  rw [BitVec.toNat_shiftLeft, BitVec.toNat_ofNat, Nat.shiftLeft_eq,
    Nat.mod_eq_of_lt (by omega : coding < 2 ^ 32), Nat.mod_eq_of_lt (by omega)]
  omega

theorem hi16_shiftLeft {v : ℕ} (h : v < 0x10000) : hi16 (BitVec.ofNat 32 v <<< 16) = v := by
  rw [hi16, BitVec.toNat_shiftLeft, BitVec.toNat_ofNat, Nat.shiftLeft_eq,
    Nat.mod_eq_of_lt (by omega : v < 2 ^ 32), Nat.mod_eq_of_lt (by omega)]
  omega

namespace Camera

def programmed (cam : Camera) (mode : Fin numF7Modes) (width height coding : ℕ) : Camera :=
  { cam with curFormat := f7Format, curMode := mode }.setLive mode
    { cam.f7 mode with width := width, height := height, colorCoding := coding }.reset

@[simp] theorem programmed_f7 (cam : Camera) (mode : Fin numF7Modes) (width height coding : ℕ) :
    (cam.programmed mode width height coding).f7 mode =
      { cam.f7 mode with width := width, height := height, colorCoding := coding }.reset := by
  simp [programmed, setLive]

end Camera

theorem program_steps (cfg : Config) {mode : Fin numF7Modes} (hmode : (mode : ℕ) < cfg.f7Count)
    {width height coding : ℕ} (hw : width < 0x10000) (hh : height < 0x10000) (hc : coding < 8)
    (cam : Camera) {α : Type} (x : Routine Camera NtStatus α) :
    (do
      cfg.port.write regVideoFormat (selected f7Format)
      cfg.port.write regVideoMode (selected mode)
      cfg.port.write (Config.block mode + f7ImageSize) (packSize width height)
      cfg.port.write (Config.block mode + f7ColorCodingId) (BitVec.ofNat 32 coding <<< 24)
      x : Routine Camera NtStatus α) cam = x (cam.programmed mode width height coding) := by
  have hf : cfg.registerWrite cam regVideoFormat (selected f7Format) =
      some { cam with curFormat := f7Format } := by
    rw [Config.registerWrite, if_neg (by decide), if_pos rfl, selected_toNat (by decide)]
  have hm : cfg.registerWrite { cam with curFormat := f7Format } regVideoMode (selected mode) =
      some { cam with curFormat := f7Format, curMode := mode } := by
    rw [Config.registerWrite, if_neg (by decide), if_neg (by decide), if_pos rfl,
      selected_toNat (mode.isLt.trans (by decide))]
  let selected : Camera := { cam with curFormat := f7Format, curMode := mode }
  let sized := selected.setLive mode { cam.f7 mode with width := width, height := height }.reset
  have hs : cfg.registerWrite selected (Config.block mode + f7ImageSize) (packSize width height) =
      some sized := by
    rw [cfg.registerWrite_csr hmode (by decide), Camera.csrWrite, if_neg (by decide), if_pos rfl,
      hi16_packSize hw hh, lo16_packSize hh]
  have hcoding : cfg.registerWrite sized (Config.block mode + f7ColorCodingId)
      (BitVec.ofNat 32 coding <<< 24) = some (cam.programmed mode width height coding) := by
    rw [cfg.registerWrite_csr hmode (by decide), Camera.csrWrite, if_neg (by decide),
      if_neg (by decide), if_pos rfl, coding_toNat hc]
    simp [sized, selected, Camera.programmed, Camera.setLive, Live.reset, Live.recommendedBpp,
      Live.unit]
  rw [Routine.bind_ok (cfg.write_ok hf), Routine.bind_ok (cfg.write_ok hm),
    Routine.bind_ok (cfg.write_ok hs), Routine.bind_ok (cfg.write_ok hcoding)]

/-- What an outcome of the driver's configuration says of the camera: no write was refused, and
on success the camera streams the driver's packets, which make up the frame. -/
def Agrees (frameBytes : ℕ) (r : Except NtStatus Packetisation × Camera) : Prop :=
  r.1 ≠ .error statusDeviceDataError ∧
    ∀ p, r.1 = .ok p → ∃ iso, isoComputeGeometry r.2 = some iso ∧
      iso.isoBpp = p.bytesPerPacket ∧ iso.isoPpf = p.packetsPerFrame ∧
      p.bytesPerPacket * p.packetsPerFrame = frameBytes ∧ iso.frameBytes = frameBytes

theorem agrees_error {frameBytes : ℕ} {e : NtStatus} (h : e ≠ statusDeviceDataError)
    (cam : Camera) : Agrees frameBytes (.error e, cam) := by
  refine ⟨fun he => h (Except.error.inj he), ?_⟩
  rintro p ⟨⟩

section
variable {mode : Fin numF7Modes} {width height coding : ℕ}

/-- A whole number of packets of at least a line each covers the frame. -/
theorem packets_le_height (height : ℕ) {bits unit bpp : ℕ} (hline : width * bits ≤ unit * 8)
    (hle : unit ≤ bpp) : width * height * bits / 8 / bpp ≤ height := by
  refine Nat.div_le_of_le_mul ?_
  have hframe : width * height * bits ≤ unit * height * 8 := by
    calc width * height * bits = width * bits * height := Nat.mul_right_comm ..
      _ ≤ unit * 8 * height := Nat.mul_le_mul_right _ hline
      _ = unit * height * 8 := Nat.mul_right_comm ..
  calc width * height * bits / 8 ≤ unit * height := by omega
    _ ≤ bpp * height := Nat.mul_le_mul_right _ hle

theorem isoComputeGeometry_programmed (cam : Camera) (hbits : bitsPerPixel coding ≠ 0)
    (hw : 0 < width) (hh : 0 < height) (hheight : height ≤ isoMaxPacketsPerFrame)
    (hwrap : width * height * bitsPerPixel coding < 2 ^ 32) {bpp : ℕ} (hpos : 0 < bpp)
    (hdvd : bpp ∣ width * height * bitsPerPixel coding / 8)
    (hne : width * height * bitsPerPixel coding / 8 ≠ 0)
    (hunit : ((cam.programmed mode width height coding).f7 mode).unit ≤ bpp) :
    isoComputeGeometry ((cam.programmed mode width height coding).setLive mode
        { (cam.programmed mode width height coding).f7 mode with bytesPerPacket := bpp }) =
      some ⟨bpp, width * height * bitsPerPixel coding / 8 / bpp,
        width * height * bitsPerPixel coding / 8, renderedPixfmt coding, width, height⟩ := by
  have hline := ((cam.programmed mode width height coding).f7 mode).line_le_unit
  simp only [Camera.programmed_f7, Live.reset] at hline hunit ⊢
  have hppf := packets_le_height height hline hunit
  have hpackets : width * height * bitsPerPixel coding / 8 / bpp ≠ 0 :=
    (Nat.div_pos (Nat.le_of_dvd (Nat.pos_of_ne_zero hne) hdvd) hpos).ne'
  have hmod : width * height * bitsPerPixel coding / 8 % 2 ^ 32 =
      width * height * bitsPerPixel coding / 8 := Nat.mod_eq_of_lt (by omega)
  simp only [isoComputeGeometry, isoComputeGeometryF7, Camera.programmed, Camera.setLive,
    Live.reset, if_true, mode.isLt, dif_pos, Fin.eta, Function.update_self, hbits, hpos.ne',
    hw.ne', hh.ne', or_self, if_false, hmod, hpackets, false_or]
  rw [if_neg (by omega)]

theorem configureFormat7_agrees (cfg : Config) (hmode : (mode : ℕ) < cfg.f7Count) {e : VideoMode}
    (hbase : e.format7CsrOffset = Config.block mode) (hm : e.mode = mode)
    (hcoding : codingBpp e.pixelFormat ≠ 0) {stream : Stream} (hw : 0 < stream.width)
    (hh : 0 < stream.height) (hwidth : stream.width ≤ 0x1000) (hheight : stream.height ≤ 0x1000)
    (hwrap : stream.width * stream.height * codingBpp e.pixelFormat < 2 ^ 32)
    (hsize : stream.imageSize = stream.width * stream.height * codingBpp e.pixelFormat / 8)
    (maxSpeedCode : ℕ) (cam : Camera) :
    Agrees stream.imageSize (configureFormat7 cfg.port e stream maxSpeedCode cam) := by
  unfold configureFormat7
  dsimp only
  split_ifs with hzero
  · exact agrees_error (by decide) cam
  rw [hbase, hm, program_steps cfg hmode (by omega) (by omega) (codingBpp_lt hcoding)]
  have hbits := bitsPerPixel_eq hcoding
  rw [← hbits] at hwrap hsize hcoding
  let programmed := cam.programmed mode stream.width stream.height e.pixelFormat
  let live := programmed.f7 mode
  have hline : live.width * bitsPerPixel live.colorCoding < 0x40000 := by
    have hlive : live.width = stream.width := by simp [live, programmed, Live.reset]
    have := Nat.mul_le_mul (hlive ▸ hwidth) (bitsPerPixel_le live.colorCoding)
    omega
  have hunit := Live.unit_lt hline
  have hmax := Live.max_lt hunit
  -- the camera answers with its live unit and maximum, which fit the halves of the word
  have hpara : cfg.port.read (Config.block mode + f7PacketParaInq) programmed =
      (.ok (word live.unit live.max), programmed) := by
    simp only [Config.port, cfg.registerRead_csr hmode (show f7PacketParaInq < _ by decide)]
    rfl
  rw [Routine.bind_ok hpara, hi16_word hunit hmax, lo16_word hunit hmax]
  have hpos := live.unit_pos
  rw [if_neg (by have := live.unit_le_max; omega)]
  cases hp : packetSize stream.imageSize stream.frameInterval live.unit live.max
      (maxIsochPayload maxSpeedCode) with
  | error e' =>
    rw [Routine.bind_error (show fromExcept (.error e') programmed = (.error e', programmed) from rfl)]
    refine agrees_error ?_ programmed
    rw [packetSize_error hp]
    decide
  | ok bpp =>
    rw [Routine.bind_ok (show fromExcept (.ok bpp) programmed = (.ok bpp, programmed) from rfl)]
    obtain ⟨hbpp, hdvd, hle, hframe⟩ := packetSize_spec hp
    -- the packet size is a multiple of the unit below the maximum, so the camera accepts it
    have hlegal : live.BppIsLegal bpp :=
      ⟨Nat.le_of_dvd hbpp hdvd, hle, Nat.mod_eq_zero_of_dvd hdvd⟩
    have hwrite : cfg.registerWrite programmed (Config.block mode + f7BytePerPacket)
        (BitVec.ofNat 32 bpp <<< 16) =
          some (programmed.setLive mode { live with bytesPerPacket := bpp }) := by
      rw [cfg.registerWrite_csr hmode (by decide), Camera.csrWrite, if_neg (by decide),
        if_neg (by decide), if_neg (by decide), if_pos rfl, hi16_shiftLeft (by omega),
        if_pos hlegal]
    rw [Routine.bind_ok (cfg.write_ok hwrite)]
    refine ⟨nofun, ?_⟩
    rintro p ⟨⟩
    refine ⟨_, isoComputeGeometry_programmed cam hcoding hw hh hheight hwrap hbpp
      (hsize ▸ hframe) (hsize ▸ hzero) (Nat.le_of_dvd hbpp hdvd), rfl, ?_, ?_, hsize.symm⟩
    · simp only [hsize]
    · exact Nat.mul_div_cancel' hframe

end
namespace Config
variable (cfg : Config)

theorem eq_of_yields {off : ℕ} {v : BitVec 32} (h : cfg.port.Yields off v) :
    ∃ cam, v = cfg.registerRead cam off := by
  obtain ⟨cam, hv⟩ := h
  exact ⟨cam, (Except.ok.inj hv).symm⟩

theorem lt_f7Count {mask : BitVec 32} (h : cfg.port.Yields regVideoModeInq7 mask) {mode : ℕ}
    (hmode : mode < numModes) (hbit : mask.getMsbD mode = true) : mode < cfg.f7Count := by
  obtain ⟨cam, rfl⟩ := cfg.eq_of_yields h
  have hread : cfg.registerRead cam regVideoModeInq7 = bitmask cfg.f7Count fun _ => true := by
    rw [registerRead, if_neg (by decide), if_neg (by decide), if_neg (by decide), if_pos rfl]
  rw [hread] at hbit
  have hmask : ∀ n ≤ numF7Modes, ∀ m < numModes,
      (bitmask n fun _ => true).getMsbD m = true → m < n := by
    decide
  exact hmask _ cfg.f7Count_le _ hmode hbit

theorem registerRead_pointer {mode : ℕ} (hmode : mode < cfg.f7Count) (cam : Camera) :
    cfg.registerRead cam (regVCsrInq7 + mode * 4) = cfg.csrPointer mode := by
  have hcount := cfg.f7Count_le
  simp only [numF7Modes] at hcount
  unfold registerRead
  rw [if_neg (by simp only [regVCsrInq7, regVideoFormatInq]; omega),
    if_neg (by simp only [regVCsrInq7, regVideoModeInq, numFormats]; omega),
    if_neg (by simp only [regVCsrInq7, regFrameRateInq, numFormats, numModes]; omega),
    if_neg (by simp only [regVCsrInq7, regVideoModeInq7, regVideoModeInq, f7Format]; omega),
    if_pos (by simp only [regVCsrInq7]; omega)]
  congr 1
  omega

theorem csrPointerToOffset_eq {mode : ℕ} (hmode : mode < cfg.f7Count) {blockBytes base : ℕ}
    (h : csrPointerToOffset cfg.commandBase (cfg.csrPointer mode) blockBytes = .ok base) :
    base = block mode := by
  have hcount := cfg.f7Count_le
  have hge := cfg.csrBase_ge
  have hle := cfg.csrBase_le
  have haligned := cfg.csrBase_aligned
  have hpointer : (cfg.csrPointer mode).toNat * 4 = cfg.csrBase - 0xf0000000 + block mode := by
    simp only [csrPointer, block, f7CsrBlock, f7CsrBlockLen, numF7Modes] at hcount ⊢
    rw [BitVec.toNat_ofNat, Nat.mod_eq_of_lt (by omega)]
    omega
  simp only [csrPointerToOffset, hpointer, commandBase] at h
  split_ifs at h
  cases h
  simp only [block, f7CsrBlock, f7CsrBlockLen, numF7Modes] at hcount ⊢
  omega

end Config

theorem f7Modes_max : ∀ mode : Fin numF7Modes,
    (f7Modes.get mode).maxWidth ≤ 0x1000 ∧ (f7Modes.get mode).maxHeight ≤ 0x1000 := by
  decide

theorem built_format7 {cfg : Config} {e : VideoMode} (he : Built cfg.port cfg.commandBase e)
    (h7 : e.isFormat7 = true) :
    ∃ mode : Fin numF7Modes, (mode : ℕ) < cfg.f7Count ∧ e.mode = mode ∧
      e.format7CsrOffset = Config.block mode ∧ codingBpp e.pixelFormat ≠ 0 ∧
      e.width ≤ 0x1000 ∧ e.height ≤ 0x1000 := by
  cases he with
  | fixed => cases h7
  | @format7 mode base coding modeMask pointer r g hmode hmask hbit hpointer hbase hregs
      hgeometry hcoding hbpp hcap =>
    have hlt := cfg.lt_f7Count hmask hmode hbit
    obtain ⟨cam, rfl⟩ := cfg.eq_of_yields hpointer
    rw [cfg.registerRead_pointer hlt] at hbase
    obtain rfl := cfg.csrPointerToOffset_eq hlt hbase
    let m : Fin numF7Modes := ⟨mode, hlt.trans_le cfg.f7Count_le⟩
    obtain ⟨cam', hsize⟩ := cfg.eq_of_yields hregs.maxSize
    have hread : r.maxSize = word f7Modes[m].maxWidth f7Modes[m].maxHeight := by
      rw [hsize]
      exact @Config.registerRead_csr cfg m hlt _ (by decide) cam'
    obtain ⟨hw, hh⟩ : f7Modes[m].maxWidth ≤ 0x1000 ∧ f7Modes[m].maxHeight ≤ 0x1000 :=
      f7Modes_max m
    have haccepts := Format7Regs.accepts_of_geometry hgeometry
    have hwidth := haccepts.width_le
    have hheight := haccepts.height_le
    rw [hread, hi16_word (by omega) (by omega)] at hwidth
    rw [hread, lo16_word (by omega) (by omega)] at hheight
    exact ⟨m, hlt, rfl, rfl, hbpp, hwidth.trans hw, hheight.trans hh⟩

/-- In every emulated Format 7 mode and coding the driver stores, at every size on the unit
grid, every frame interval, bus speed and state of the camera, the window's position included,
a configuration that succeeds leaves both sides with the same packets and the whole frame, and
the camera refuses none of its writes. On the camera, the live packet size is legal whatever
has been written, refused or reset since it was created. -/
theorem format7_agreement (cfg : Config) (s : Bringup Camera) (others : ℕ → BitVec 32)
    (acts : List CsrAct) :
    (∀ e ∈ (enumerateModes cfg.port cfg.commandBase s).2.modes, e.isFormat7 = true →
      ∀ (stream : Stream) (maxSpeedCode : ℕ) (cam : Camera),
        0 < stream.width → e.unitWidth ∣ stream.width → stream.width ≤ e.width →
        0 < stream.height → e.unitHeight ∣ stream.height → stream.height ≤ e.height →
        stream.imageSize = imageBytes stream.width stream.height (codingBpp e.pixelFormat) →
        stream.imageSize = stream.width * stream.height * codingBpp e.pixelFormat / 8 ∧
          Agrees stream.imageSize (configureFormat7 cfg.port e stream maxSpeedCode cam)) ∧
      (acts.foldl Camera.after (Camera.powerUp others)).BppLegal := by
  refine ⟨?_, Camera.BppLegal.run (Camera.f7Reset_bppLegal _) acts⟩
  intro e he h7 stream maxSpeedCode cam hw _ hwle hh _ hhle himage
  have hbuilt := (enumerateModes_table _ _ s).built e he
  obtain ⟨mode, hlt, hmode, hbase, hcoding, hwidth, hheight⟩ := built_format7 hbuilt h7
  have hframe : stream.width * stream.height * codingBpp e.pixelFormat ≤
      e.width * e.height * codingBpp e.pixelFormat :=
    Nat.mul_le_mul_right _ (Nat.mul_le_mul hwle hhle)
  have hsized := hbuilt.sized
  have hcap : stream.width * stream.height * codingBpp e.pixelFormat / 8 ≤ maxImageBytes :=
    (Nat.div_le_div_right hframe).trans hsized.frameBytes_le
  rw [imageBytes_eq hcap] at himage
  exact ⟨himage, configureFormat7_agrees cfg hlt hbase hmode hcoding hw hh (hwle.trans hwidth)
    (hhle.trans hheight) (hframe.trans_lt hsized.noWrap) himage maxSpeedCode cam⟩

/-- The camera as it is by default: its one mode is that of the real camera. -/
def defaultConfig : Config where
  advertiseStdFormats := false
  f7Count := 1
  csrBase := 0xF0001000
  writeOther := fun _ _ _ => none
  f7Count_le := by decide
  csrBase_ge := by decide
  csrBase_le := by decide
  csrBase_aligned := by decide

/-- The full frame in MONO8 at 15.5 fps. -/
theorem format7_agreement_mono8 :
    let cam := Camera.powerUp fun _ => 0
    let e : VideoMode := ⟨7, 0, 0, 1572, 1052, 1388, 1032, true, 4, 4, 0xa00, 0, 645000, 1290000⟩
    let r := configureFormat7 defaultConfig.port e ⟨some e, 1388, 1032, 1432416, 645000⟩ 2 cam
    r.1 = .ok ⟨2776, 516⟩ ∧ Agrees 1432416 r :=
  ⟨by decide +kernel,
    ((format7_agreement defaultConfig ⟨Camera.powerUp fun _ => 0, []⟩ (fun _ => 0) []).1
      ⟨7, 0, 0, 1572, 1052, 1388, 1032, true, 4, 4, 0xa00, 0, 645000, 1290000⟩ (by decide +kernel)
      rfl ⟨some ⟨7, 0, 0, 1572, 1052, 1388, 1032, true, 4, 4, 0xa00, 0, 645000, 1290000⟩, 1388,
        1032, 1432416, 645000⟩ 2 (Camera.powerUp fun _ => 0) (by decide) (by decide) (by decide)
      (by decide) (by decide) (by decide) (by decide)).2⟩

end Fake
end Photonic
