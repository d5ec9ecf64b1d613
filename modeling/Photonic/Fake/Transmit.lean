import Photonic.Lib.Machine
import Photonic.Fake.Agreement
import Photonic.Fake.Frame

namespace Photonic
namespace Fake
open Dcam

def regIsochChannel : ℕ := 0x60C
def regIsoEn : ℕ := 0x614
def regOneShot : ℕ := 0x61C

def isoRingFramesMax : ℕ := 4
def isoBufferMaxBytes : ℕ := 12 * 1024 * 1024
def isoBufferMinBytes : ℕ := 256 * 1024

/-- What `dcam_camera` keeps of the stream. `isoBuffer` is the length of the mapped buffer. -/
structure Transmitter where
  cam : Camera
  isoCreated : Bool
  isoBuffer : Option ℕ
  isoRunning : Bool
  isoChannel : ℕ
  isoSpeed : ℕ
  refillSlot : ℕ
  isoAckedPackets : ℕ
  frameCounter : ℕ
  framesTransmitted : ℕ
  isoOneshot : Bool
  iso : IsoGeometry
  ringFrames : ℕ

/-- The camera as `dcam_create` leaves it. -/
def Transmitter.created (others : ℕ → BitVec 32) : Transmitter :=
  ⟨.powerUp others, false, none, false, 0, 2, 0, 0, 0, 0, false, ⟨0, 0, 0, 0, 0, 0⟩, 0⟩

inductive MapResult
  | mapped
  | noMemory
  | failed

/-- How the system calls of a start come out. -/
structure Setup where
  opened : Bool
  contextCreated : Bool
  mmap : ℕ → MapResult
  started : Bool

structure Render where
  buffer : Option ℕ
  slot : ℕ
  iso : IsoGeometry
  frameNo : ℕ

/-- Every byte written stays in the slot, and in the buffer that is mapped then. -/
def Render.Inside (r : Render) : Prop :=
  ∀ stamp, ∀ s ∈ fillFrameImage r.iso r.frameNo stamp,
    s.offset < r.iso.frameBytes ∧
      ∃ bytes, r.buffer = some bytes ∧ r.slot * r.iso.frameBytes + s.offset < bytes

/-- The loop of `iso_map_buffer_once` over sizes that halve. -/
def mapFrom (mmap : ℕ → MapResult) : ℕ → ℕ → Option ℕ
  | 0, _ => none
  | tries + 1, want =>
    if want < isoBufferMinBytes then none
    else match mmap want with
      | .mapped => some want
      | .noMemory => mapFrom mmap tries (want / 2)
      | .failed => none

def isoMapBufferOnce (mmap : ℕ → MapResult) (buffer : Option ℕ) : Option ℕ :=
  match buffer with
  | some bytes => some bytes
  | none => mapFrom mmap 6 isoBufferMaxBytes

def isoSetupRing (bytes frameBytes : ℕ) : Option ℕ :=
  let ring := bytes / frameBytes % 2 ^ 32
  if ring = 0 then none else some (if isoRingFramesMax < ring then isoRingFramesMax else ring)

namespace Transmitter

/-- `dcam_iso_start` up to the ring, and whether it gets that far. -/
def isoSetup (env : Setup) (t : Transmitter) : Transmitter × Bool :=
  if t.isoRunning then (t, false)
  else match isoComputeGeometry t.cam with
    | none => (t, false)
    | some iso =>
      let t := { t with iso := iso }
      if ¬t.isoCreated ∧ ¬(env.opened ∧ env.contextCreated) then (t, false)
      else
        let t := { t with isoCreated := true }
        match isoMapBufferOnce env.mmap t.isoBuffer with
        | none => (t, false)
        | some bytes =>
          let t := { t with isoBuffer := some bytes }
          match isoSetupRing bytes iso.frameBytes with
          | none => (t, false)
          | some ring => ({ t with ringFrames := ring }, true)

/-- `dcam_fill_frame_image` into a slot of the ring. -/
def render (t : Transmitter) (slot frameNo : ℕ) : Render := ⟨t.isoBuffer, slot, t.iso, frameNo⟩

/-- The frames a start queues before `START_ISO`. -/
def prefill (t : Transmitter) : ℕ := if t.isoOneshot then 1 else t.ringFrames

def isoStart (env : Setup) (t : Transmitter) : Transmitter × List Render :=
  let (t, ready) := t.isoSetup env
  if ready then
    ({ t with
        frameCounter := t.prefill, framesTransmitted := 0, isoAckedPackets := 0
        refillSlot := t.prefill % t.ringFrames, isoRunning := env.started },
      (List.range t.prefill).map fun slot => t.render slot slot)
  else (t, [])

def isoStop (t : Transmitter) : Transmitter :=
  if ¬t.isoRunning ∧ ¬t.isoCreated then t
  else { t with isoBuffer := none, isoCreated := false, isoRunning := false }

/-- The refill loop of `dcam_on_iso_interrupt`. -/
def refill : ℕ → Transmitter → Transmitter × List Render
  | 0, t => (t, [])
  | fuel + 1, t =>
    if t.isoAckedPackets < t.iso.isoPpf then (t, [])
    else
      let t := { t with
        isoAckedPackets := t.isoAckedPackets - t.iso.isoPpf
        framesTransmitted := (t.framesTransmitted + 1) % 2 ^ 32 }
      if t.isoOneshot then (t.isoStop, [])
      else
        let frame := t.render t.refillSlot t.frameCounter
        let (t, frames) := refill fuel { t with
          frameCounter := (t.frameCounter + 1) % 2 ^ 32
          refillSlot := (t.refillSlot + 1) % t.ringFrames }
        (t, frame :: frames)

/-- `dcam_on_iso_interrupt`; a frame has at least one packet, so the packets bound the laps. -/
def onIsoInterrupt (completed : ℕ) (t : Transmitter) : Transmitter × List Render :=
  if t.isoRunning = false ∨ t.iso.isoPpf = 0 ∨ t.ringFrames = 0 then (t, [])
  else
    let outstanding := t.ringFrames * t.iso.isoPpf % 2 ^ 32
    let completed := if outstanding < completed then outstanding else completed
    let acked := (t.isoAckedPackets + completed) % 2 ^ 32
    refill acked { t with isoAckedPackets := acked }

end Transmitter

/-- What happens to the camera: a register write, the stream it starts by itself when it is
told to at creation, a completion interrupt, an error on the context. -/
inductive Act
  | write (off : ℕ) (logical : BitVec 32) (env : Setup)
  | forceStream (bytesPerPacket : BitVec 32) (env : Setup)
  | interrupt (completed : ℕ)
  | error

namespace Transmitter

/-- The write of `ISOCH_CHANNEL`: a context that exists keeps its channel and speed. -/
def setChannel (t : Transmitter) (logical : BitVec 32) : Transmitter :=
  let channel := logical.toNat / 2 ^ 28
  let speed := logical.toNat / 2 ^ 24 % 16
  if t.isoCreated ∧ (channel ≠ t.isoChannel ∨ speed ≠ t.isoSpeed) then t
  else { t with isoChannel := channel, isoSpeed := speed }

/-- Format 7 mode 0, as `dcam_force_stream` selects it. -/
def selectMode0 (t : Transmitter) : Transmitter :=
  { t with cam := { t.cam with curFormat := f7Format, curMode := 0 } }

/-- The state in which an act calls `dcam_iso_start`, with the outcomes of the calls. -/
def starts (t : Transmitter) : Act → Option (Setup × Transmitter)
  | .write off logical env =>
    if off = regIsoEn ∧ logical.getMsbD 0 then some (env, { t with isoOneshot := false })
    else if off = regOneShot ∧ logical.getMsbD 0 then
      some (env, { t.isoStop with isoOneshot := true })
    else none
  | .forceStream bytesPerPacket env =>
    let t := t.selectMode0
    if bytesPerPacket = 0 then some (env, { t with isoOneshot := false })
    else (t.cam.csrWrite ⟨0, by decide⟩ f7BytePerPacket (bytesPerPacket <<< 16)).map fun cam =>
      (env, { t with cam := cam, isoOneshot := false })
  | .interrupt _ => none
  | .error => none

end Transmitter

namespace Config
variable (cfg : Config)

def otherwise (t : Transmitter) : Act → Transmitter × List Render
  | .write off logical _ =>
    if off = regIsochChannel then (t.setChannel logical, [])
    else if off = regIsoEn then (t.isoStop, [])
    else if off = regOneShot then (t, [])
    else match cfg.registerWrite t.cam off logical with
      | some cam => ({ t with cam := cam }, [])
      | none => (t, [])
  | .forceStream _ _ => (t.selectMode0, [])
  | .interrupt completed => t.onIsoInterrupt completed
  | .error => (t.isoStop, [])

/-- `dcam_on_register_write`, `dcam_force_stream`, `dcam_on_iso_interrupt` and
`dcam_on_iso_error`. -/
def step (t : Transmitter) (a : Act) : Transmitter × List Render :=
  match t.starts a with
  | some (env, t) => t.isoStart env
  | none => cfg.otherwise t a

/-- The frames rendered in a run. -/
def renders : Transmitter → List Act → List Render
  | _, [] => []
  | t, a :: acts => (cfg.step t a).2 ++ renders (cfg.step t a).1 acts

end Config

/-- The image of the selected Format 7 mode, by its live registers, does not wrap 32 bits. -/
def Camera.Whole (cam : Camera) : Prop :=
  cam.curFormat = f7Format → ∀ h : cam.curMode < numF7Modes,
    (cam.f7 ⟨cam.curMode, h⟩).width * (cam.f7 ⟨cam.curMode, h⟩).height *
      bitsPerPixel (cam.f7 ⟨cam.curMode, h⟩).colorCoding / 8 < 2 ^ 32

theorem lineBytes_rendered {coding : ℕ} (h : bitsPerPixel coding ≠ 0) (w : ℕ) :
    lineBytes (renderedPixfmt coding) w * 8 ≤ w * bitsPerPixel coding := by
  have hsmall : coding < 9 := by
    by_contra hlarge
    obtain ⟨n, rfl⟩ := Nat.exists_eq_add_of_le (Nat.le_of_not_lt hlarge)
    exact h (by simp only [bitsPerPixel, Nat.add_comm 9])
  have hcodings : ∀ c < 9, renderedPixfmt c ≠ pixYuv411 ∧
      bytesPerPixel (renderedPixfmt c) * 8 ≤ bitsPerPixel c := by
    decide
  obtain ⟨h411, hbytes⟩ := hcodings coding hsmall
  rw [lineBytes, if_neg h411, Nat.mul_assoc]
  exact Nat.mul_le_mul_left _ hbytes

theorem renderedPixfmt_ne (coding : ℕ) : renderedPixfmt coding ≠ pixYuv411 := by
  unfold renderedPixfmt
  split_ifs <;> decide

theorem packetTable_holds : ∀ format < numFormats, ∀ mode < numModes, ∀ rate < numRates,
    (packetGeometry format mode rate).bytesPerPacket ≠ 0 →
      IsoGeometry.Holds ⟨(packetGeometry format mode rate).bytesPerPacket,
        (packetGeometry format mode rate).packetsPerFrame,
        (packetGeometry format mode rate).bytesPerPacket *
          (packetGeometry format mode rate).packetsPerFrame,
        (geometry format mode).pixelFormat, (geometry format mode).width,
        (geometry format mode).height⟩ := by
  decide +kernel

section
variable {cam : Camera} {iso : IsoGeometry}

/-- What a Format 7 start latches. -/
theorem isoComputeGeometryF7_eq (h : isoComputeGeometryF7 cam = some iso) :
    ∃ hmode : cam.curMode < numF7Modes, ∃ live, live = cam.f7 ⟨cam.curMode, hmode⟩ ∧
      bitsPerPixel live.colorCoding ≠ 0 ∧ iso.pixfmt = renderedPixfmt live.colorCoding ∧
      iso.imgWidth = live.width ∧ iso.imgHeight = live.height ∧
      iso.frameBytes =
        live.width * live.height * bitsPerPixel live.colorCoding / 8 % 2 ^ 32 ∧
      iso.isoBpp * iso.isoPpf ≤ iso.frameBytes := by
  unfold isoComputeGeometryF7 at h
  dsimp only at h
  split_ifs at h with hmode hbits hzero hppf
  cases h
  exact ⟨hmode, _, rfl, hbits, rfl, rfl, rfl, rfl, Nat.mul_div_le ..⟩

theorem isoComputeGeometry_f7 (hf : cam.curFormat = f7Format) :
    isoComputeGeometry cam = isoComputeGeometryF7 cam := if_pos hf

/-- A start whose image does not wrap latches a slot that holds the picture. -/
theorem holds_of_whole (h : isoComputeGeometry cam = some iso) (hwhole : cam.Whole) :
    iso.Holds := by
  by_cases hf : cam.curFormat = f7Format
  · rw [isoComputeGeometry_f7 hf] at h
    obtain ⟨hmode, live, rfl, hbits, hpix, hw, hh, hframe, hsent⟩ := isoComputeGeometryF7_eq h
    refine ⟨fun h411 => absurd (hpix.symm.trans h411) (renderedPixfmt_ne _), ?_, hsent⟩
    rw [hframe, Nat.mod_eq_of_lt (hwhole hf hmode), hpix, hw, hh]
    refine (Nat.le_div_iff_mul_le (by decide)).mpr ?_
    have hline := lineBytes_rendered hbits (cam.f7 ⟨cam.curMode, hmode⟩).width
    calc (cam.f7 ⟨cam.curMode, hmode⟩).height * lineBytes _ _ * 8
        = (cam.f7 ⟨cam.curMode, hmode⟩).height * (lineBytes _ _ * 8) := Nat.mul_assoc ..
      _ ≤ _ * (_ * _) := Nat.mul_le_mul_left _ hline
      _ = _ := by rw [← Nat.mul_assoc, Nat.mul_comm (cam.f7 ⟨cam.curMode, hmode⟩).height]
  · unfold isoComputeGeometry at h
    dsimp only at h
    rw [if_neg hf] at h
    split_ifs at h with hrange hgeometry
    cases h
    simp only [not_or, not_le] at hrange hgeometry
    exact packetTable_holds _ hrange.1 _ hrange.2.1 _ hrange.2.2 hgeometry.1

theorem short_of_not_whole (h : isoComputeGeometry cam = some iso) (hwhole : ¬cam.Whole)
    (hfits : iso.frameBytes ≤ isoBufferMaxBytes) :
    iso.pixfmt ≠ pixYuv411 ∧ iso.frameBytes < iso.imgWidth * iso.imgHeight := by
  simp only [Camera.Whole, Classical.not_imp, not_forall, not_lt] at hwhole
  obtain ⟨hf, hmode, hlarge⟩ := hwhole
  rw [isoComputeGeometry_f7 hf] at h
  obtain ⟨hmode, live, rfl, hbits, hpix, hw, hh, hframe, hsent⟩ := isoComputeGeometryF7_eq h
  refine ⟨hpix ▸ renderedPixfmt_ne _, ?_⟩
  rw [hw, hh]
  have hbound := Nat.mul_le_mul_left ((cam.f7 ⟨cam.curMode, hmode⟩).width *
    (cam.f7 ⟨cam.curMode, hmode⟩).height) (bitsPerPixel_le (cam.f7 ⟨cam.curMode, hmode⟩).colorCoding)
  simp only [isoBufferMaxBytes] at hfits
  omega

end

theorem mapFrom_le {mmap : ℕ → MapResult} {tries want bytes : ℕ}
    (h : mapFrom mmap tries want = some bytes) : bytes ≤ want := by
  induction tries generalizing want with
  | zero => cases h
  | succ tries ih =>
    unfold mapFrom at h
    split_ifs at h
    cases hm : mmap want with
    | mapped =>
      simp only [hm, Option.some.injEq] at h
      exact h.ge
    | noMemory =>
      simp only [hm] at h
      exact (ih h).trans (Nat.div_le_self ..)
    | failed => simp [hm] at h

theorem isoSetupRing_spec {bytes frameBytes ring : ℕ}
    (h : isoSetupRing bytes frameBytes = some ring) : 0 < ring ∧ ring * frameBytes ≤ bytes := by
  unfold isoSetupRing at h
  dsimp only at h
  split_ifs at h with hzero hmax
  all_goals cases h
  all_goals
    have hring := Nat.mod_le (bytes / frameBytes) (2 ^ 32)
    have hfits := Nat.div_mul_le_self bytes frameBytes
  · exact ⟨by decide, (Nat.mul_le_mul_right _ (hmax.le.trans hring)).trans hfits⟩
  · exact ⟨Nat.pos_of_ne_zero hzero, (Nat.mul_le_mul_right _ hring).trans hfits⟩

namespace Render

theorem inside {r : Render} {bytes ring : ℕ} (hholds : r.iso.Holds) (hbuffer : r.buffer = some bytes)
    (hslot : r.slot < ring) (hring : ring * r.iso.frameBytes ≤ bytes) : r.Inside := by
  intro stamp s hs
  have hlt := fillFrameImage_lt hholds hs
  refine ⟨hlt, bytes, hbuffer, ?_⟩
  calc r.slot * r.iso.frameBytes + s.offset < (r.slot + 1) * r.iso.frameBytes := by
        rw [Nat.add_one_mul]
        exact Nat.add_lt_add_left hlt _
    _ ≤ ring * r.iso.frameBytes := Nat.mul_le_mul_right _ hslot
    _ ≤ bytes := hring

end Render

namespace Transmitter
variable {t : Transmitter} {env : Setup}

def Mapped (t : Transmitter) : Prop := ∀ bytes, t.isoBuffer = some bytes → bytes ≤ isoBufferMaxBytes

def Ringed (t : Transmitter) : Prop :=
  ∃ bytes, t.isoBuffer = some bytes ∧ t.ringFrames * t.iso.frameBytes ≤ bytes

theorem render_inside {slot : ℕ} (hholds : t.iso.Holds) (hring : t.Ringed)
    (hslot : slot < t.ringFrames) (frameNo : ℕ) : (t.render slot frameNo).Inside := by
  obtain ⟨bytes, hbuffer, hring⟩ := hring
  exact Render.inside hholds hbuffer hslot hring

theorem isoSetup_of_running (h : t.isoRunning = true) : t.isoSetup env = (t, false) := if_pos h

theorem isoSetup_isoRunning : (t.isoSetup env).1.isoRunning = t.isoRunning := by
  unfold isoSetup
  split
  · rfl
  split
  · rfl
  dsimp only
  split
  · rfl
  split
  · rfl
  split <;> rfl

theorem Mapped.isoSetup (h : t.Mapped) : (t.isoSetup env).1.Mapped := by
  have hmap : ∀ bytes, isoMapBufferOnce env.mmap t.isoBuffer = some bytes →
      bytes ≤ isoBufferMaxBytes := by
    intro bytes hb
    cases hbuffer : t.isoBuffer with
    | none => exact mapFrom_le (hbuffer ▸ hb)
    | some mapped =>
      rw [hbuffer] at hb
      cases hb
      exact h _ hbuffer
  unfold Transmitter.isoSetup
  split
  · exact h
  split
  · exact h
  dsimp only
  split
  · exact h
  split
  · exact h
  · next bytes hb =>
    have hle := hmap bytes hb
    split
    all_goals
      rintro _ ⟨⟩
      exact hle

theorem isoSetup_spec (h : (t.isoSetup env).2 = true) :
    t.isoRunning = false ∧ isoComputeGeometry t.cam = some (t.isoSetup env).1.iso ∧
      0 < (t.isoSetup env).1.ringFrames ∧ (t.isoSetup env).1.Ringed := by
  revert h
  unfold isoSetup
  split
  · exact nofun
  next hrunning =>
  split
  · exact nofun
  next iso hiso =>
  dsimp only
  split
  · exact nofun
  split
  · exact nofun
  next bytes hbytes =>
  split
  · exact nofun
  next ring hring =>
  intro _
  obtain ⟨hpos, hfits⟩ := isoSetupRing_spec hring
  exact ⟨Bool.eq_false_iff.mpr hrunning, hiso, hpos, bytes, rfl, hfits⟩

/-- A start whose set-up goes through meets the condition on its image. -/
def Sized (t : Transmitter) (env : Setup) : Prop := (t.isoSetup env).2 = true → t.cam.Whole

theorem isoStart_of_failed (h : (t.isoSetup env).2 = false) :
    t.isoStart env = ((t.isoSetup env).1, []) := by
  unfold isoStart
  simp only [h, Bool.false_eq_true, if_false]

theorem prefill_le (h : 0 < t.ringFrames) : 0 < t.prefill ∧ t.prefill ≤ t.ringFrames := by
  unfold prefill
  split <;> omega

theorem isoStart_renders (h : (t.isoSetup env).2 = true) :
    (t.isoStart env).2 =
      (List.range (t.isoSetup env).1.prefill).map fun slot => (t.isoSetup env).1.render slot slot := by
  unfold isoStart
  simp only [h, if_true]

theorem isoStart_inside (hsized : t.Sized env) : ∀ r ∈ (t.isoStart env).2, r.Inside := by
  intro r hr
  cases h : (t.isoSetup env).2 with
  | false =>
    rw [isoStart_of_failed h] at hr
    cases hr
  | true =>
    rw [isoStart_renders h] at hr
    obtain ⟨slot, hslot, rfl⟩ := List.mem_map.mp hr
    obtain ⟨-, hgeometry, hpos, hring⟩ := isoSetup_spec h
    exact render_inside (holds_of_whole hgeometry (hsized h)) hring
      ((List.mem_range.mp hslot).trans_le (prefill_le hpos).2) slot

theorem isoStart_outside (hmapped : t.Mapped) (hsized : ¬t.Sized env) :
    ∃ r ∈ (t.isoStart env).2, ¬r.Inside := by
  simp only [Sized, Classical.not_imp] at hsized
  obtain ⟨h, hwhole⟩ := hsized
  obtain ⟨-, hgeometry, hpos, bytes, hbuffer, hring⟩ := isoSetup_spec h
  have hbound : (t.isoSetup env).1.Mapped := hmapped.isoSetup
  have hslot : (t.isoSetup env).1.iso.frameBytes ≤ isoBufferMaxBytes :=
    (Nat.le_mul_of_pos_left _ hpos).trans (hring.trans (hbound bytes hbuffer))
  obtain ⟨h411, hshort⟩ := short_of_not_whole hgeometry hwhole hslot
  rw [isoStart_renders h]
  refine ⟨(t.isoSetup env).1.render 0 0,
    List.mem_map.mpr ⟨0, List.mem_range.mpr (prefill_le hpos).1, rfl⟩, fun hinside => ?_⟩
  let stamp : Stamp := ⟨Vector.replicate _ 0, Vector.replicate _ 0⟩
  obtain ⟨s, hs, hge⟩ := exists_fillFrameImage_ge h411
    (hslot.trans_lt (by decide)) hshort 0 stamp
  exact absurd (hinside stamp s hs).1 (Nat.not_lt.mpr hge)

structure Sound (t : Transmitter) : Prop where
  mapped : t.Mapped
  holds : t.isoRunning = true → t.iso.Holds
  ringed : t.isoRunning = true → t.Ringed
  refill : t.isoRunning = true → t.refillSlot < t.ringFrames

theorem Sound.idle (hmapped : t.Mapped) (h : t.isoRunning = false) : t.Sound := by
  refine ⟨hmapped, ?_, ?_, ?_⟩ <;> simp [h]

theorem Sound.isoStop (h : t.Sound) : t.isoStop.Sound := by
  unfold Transmitter.isoStop
  split
  · exact h
  · exact .idle nofun rfl

theorem Sound.isoStart (h : t.Sound) (hsized : t.Sized env) : (t.isoStart env).1.Sound := by
  cases hready : (t.isoSetup env).2 with
  | false =>
    rw [isoStart_of_failed hready]
    cases hrunning : t.isoRunning with
    | true =>
      rw [isoSetup_of_running hrunning]
      exact h
    | false => exact .idle h.mapped.isoSetup (isoSetup_isoRunning.trans hrunning)
  | true =>
    obtain ⟨-, hgeometry, hpos, hring⟩ := isoSetup_spec hready
    unfold Transmitter.isoStart
    simp only [hready, if_true]
    exact ⟨h.mapped.isoSetup, fun _ => holds_of_whole hgeometry (hsized hready), fun _ => hring,
      fun _ => Nat.mod_lt _ hpos⟩

/-- One lap renders into the ring and moves on in it, or stops. -/
theorem Sound.refilled (h : t.Sound) (hrunning : t.isoRunning = true) (fuel : ℕ) :
    (t.refill fuel).1.Sound ∧ ∀ r ∈ (t.refill fuel).2, r.Inside := by
  induction fuel generalizing t with
  | zero => exact ⟨h, nofun⟩
  | succ fuel ih =>
    unfold Transmitter.refill
    dsimp only
    split_ifs with hacked hone
    · exact ⟨h, nofun⟩
    · exact ⟨Sound.isoStop ⟨h.mapped, h.holds, h.ringed, h.refill⟩, nofun⟩
    · have hslot := h.refill hrunning
      have hnext := ih (t := { t with
          isoAckedPackets := t.isoAckedPackets - t.iso.isoPpf
          framesTransmitted := (t.framesTransmitted + 1) % 2 ^ 32
          frameCounter := (t.frameCounter + 1) % 2 ^ 32
          refillSlot := (t.refillSlot + 1) % t.ringFrames })
        ⟨h.mapped, h.holds, h.ringed, fun _ => Nat.mod_lt _ (Nat.zero_lt_of_lt hslot)⟩ hrunning
      refine ⟨hnext.1, ?_⟩
      intro r hr
      obtain rfl | hr := List.mem_cons.mp hr
      · exact render_inside (h.holds hrunning) (h.ringed hrunning) hslot _
      · exact hnext.2 r hr

theorem refill_drained (hppf : 0 < t.iso.isoPpf) (hone : t.isoOneshot = false) {fuel : ℕ}
    (hfuel : t.isoAckedPackets ≤ fuel) :
    (t.refill fuel).1.isoAckedPackets < t.iso.isoPpf := by
  induction fuel generalizing t with
  | zero => exact hfuel.trans_lt hppf
  | succ fuel ih =>
    unfold Transmitter.refill
    dsimp only
    split_ifs with hacked hstop
    · exact hacked
    · simp [hone] at hstop
    · exact @ih { t with
          isoAckedPackets := t.isoAckedPackets - t.iso.isoPpf
          framesTransmitted := (t.framesTransmitted + 1) % 2 ^ 32
          frameCounter := (t.frameCounter + 1) % 2 ^ 32
          refillSlot := (t.refillSlot + 1) % t.ringFrames } hppf hone (by dsimp only; omega)

theorem Sound.acked (h : t.Sound) (acked : ℕ) : Sound { t with isoAckedPackets := acked } :=
  ⟨h.mapped, h.holds, h.ringed, h.refill⟩

theorem Sound.onIsoInterrupt (h : t.Sound) (completed : ℕ) :
    (t.onIsoInterrupt completed).1.Sound ∧ ∀ r ∈ (t.onIsoInterrupt completed).2, r.Inside := by
  unfold Transmitter.onIsoInterrupt
  split
  · exact ⟨h, nofun⟩
  · next hidle =>
    simp only [not_or, Bool.not_eq_false] at hidle
    dsimp only
    generalize (t.isoAckedPackets + _) % 2 ^ 32 = acked
    exact (h.acked acked).refilled hidle.1 acked

theorem Sound.starts (h : t.Sound) {a : Act} {t' : Transmitter}
    (hs : t.starts a = some (env, t')) : t'.Sound := by
  cases a with
  | write off logical env' =>
    simp only [Transmitter.starts] at hs
    split_ifs at hs
    · cases hs
      exact ⟨h.mapped, h.holds, h.ringed, h.refill⟩
    · cases hs
      have hstop := h.isoStop
      exact ⟨hstop.mapped, hstop.holds, hstop.ringed, hstop.refill⟩
  | forceStream bytesPerPacket env' =>
    simp only [Transmitter.starts] at hs
    split_ifs at hs
    · cases hs
      exact ⟨h.mapped, h.holds, h.ringed, h.refill⟩
    · obtain ⟨cam, -, hs⟩ := Option.map_eq_some_iff.mp hs
      cases hs
      exact ⟨h.mapped, h.holds, h.ringed, h.refill⟩
  | interrupt completed => cases hs
  | error => cases hs

theorem Sound.setChannel (h : t.Sound) (logical : BitVec 32) : (t.setChannel logical).Sound := by
  unfold Transmitter.setChannel
  dsimp only
  split_ifs
  · exact h
  · exact ⟨h.mapped, h.holds, h.ringed, h.refill⟩

theorem Sound.otherwise (h : t.Sound) (cfg : Config) (a : Act) :
    (cfg.otherwise t a).1.Sound ∧ ∀ r ∈ (cfg.otherwise t a).2, r.Inside := by
  cases a with
  | write off logical env' =>
    simp only [Config.otherwise]
    split_ifs
    · exact ⟨h.setChannel logical, nofun⟩
    · exact ⟨h.isoStop, nofun⟩
    · exact ⟨h, nofun⟩
    split
    · exact ⟨⟨h.mapped, h.holds, h.ringed, h.refill⟩, nofun⟩
    · exact ⟨h, nofun⟩
  | forceStream bytesPerPacket env' => exact ⟨⟨h.mapped, h.holds, h.ringed, h.refill⟩, nofun⟩
  | interrupt completed => exact h.onIsoInterrupt completed
  | error => exact ⟨h.isoStop, nofun⟩

def SizedStart (t : Transmitter) (a : Act) : Prop :=
  ∀ env t', t.starts a = some (env, t') → t'.Sized env

theorem Sound.step (h : t.Sound) (cfg : Config) {a : Act} (hsized : t.SizedStart a) :
    (cfg.step t a).1.Sound ∧ ∀ r ∈ (cfg.step t a).2, r.Inside := by
  unfold Config.step
  split
  · next env t' hs =>
    have hsized := hsized env t' hs
    exact ⟨(h.starts hs).isoStart hsized, isoStart_inside hsized⟩
  · exact h.otherwise cfg a

theorem Sound.step_outside (h : t.Sound) (cfg : Config) {a : Act} (hsized : ¬t.SizedStart a) :
    ∃ r ∈ (cfg.step t a).2, ¬r.Inside := by
  simp only [SizedStart, not_forall] at hsized
  obtain ⟨env, t', hs, hsized⟩ := hsized
  simp only [Config.step, hs]
  exact isoStart_outside (h.starts hs).mapped hsized

theorem created_sound (others : ℕ → BitVec 32) : (created others).Sound := .idle nofun rfl

end Transmitter

namespace Config
variable (cfg : Config)

/-- Every start of a run meets the condition. -/
def SizedRun : Transmitter → List Act → Prop
  | _, [] => True
  | t, a :: acts => t.SizedStart a ∧ SizedRun (cfg.step t a).1 acts

theorem renders_inside_iff {t : Transmitter} (h : t.Sound) (acts : List Act) :
    (∀ r ∈ cfg.renders t acts, r.Inside) ↔ cfg.SizedRun t acts := by
  induction acts generalizing t with
  | nil => exact ⟨fun _ => trivial, fun _ => nofun⟩
  | cons a acts ih =>
    simp only [renders, List.forall_mem_append, SizedRun]
    by_cases hsized : t.SizedStart a
    · obtain ⟨hsound, hinside⟩ := h.step cfg hsized
      rw [ih hsound]
      exact and_congr_left' ⟨fun _ => hsized, fun _ => hinside⟩
    · obtain ⟨r, hr, houtside⟩ := h.step_outside cfg hsized
      exact iff_of_false (fun hall => houtside (hall.1 r hr)) fun hrun => hsized hrun.1

end Config

/-- In every run of the camera, whatever the host writes, whatever the system calls of a start
and the completions report, every byte of every frame rendered lies in its slot and in the
mapped buffer if and only if every start that is set up for Format 7 finds an image below
`2 ^ 32` bytes. -/
theorem renderer_confined_iff (cfg : Config) (others : ℕ → BitVec 32) (acts : List Act) :
    (∀ r ∈ cfg.renders (.created others) acts, r.Inside) ↔
      cfg.SizedRun (.created others) acts :=
  cfg.renders_inside_iff (Transmitter.created_sound others) acts

/-- Every system call goes through. -/
def clearSetup : Setup := ⟨true, true, fun _ => .mapped, true⟩

/-- RGB16 at 65535 lines by 10924: the image of 4295426040 bytes is cut to a slot of 458744. -/
def wrappingStart : List Act :=
  [.write regVideoFormat (selected f7Format) clearSetup, .write regVideoMode 0 clearSetup,
    .write (Config.block 0 + f7ColorCodingId) 0x06000000 clearSetup,
    .write (Config.block 0 + f7ImageSize) 0xFFFF2AAC clearSetup,
    .write regIsoEn 0x80000000 clearSetup]

theorem renderer_leaves_slot : ¬∀ (cfg : Config) (others : ℕ → BitVec 32) (acts : List Act),
    ∀ r ∈ cfg.renders (.created others) acts, r.Inside := by
  intro h
  have hrun := (defaultConfig.renders_inside_iff (Transmitter.created_sound fun _ => 0) _).mp
    (h defaultConfig (fun _ => 0) wrappingStart)
  have hsized := hrun.2.2.2.2.1 clearSetup _ rfl (by decide +kernel) (by decide +kernel)
    (by decide +kernel)
  exact absurd hsized (by decide +kernel)

end Fake
end Photonic
