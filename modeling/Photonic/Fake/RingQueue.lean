import Photonic.Fake.Transmit

namespace Photonic
namespace Fake
open Dcam

structure IsoContext where
  queued : List Render
  packets : ℕ
  reported : ℕ

namespace IsoContext

def fresh : IsoContext := ⟨[], 0, 0⟩

/-- A frame is offered in as many packets as its geometry has. -/
def offer (c : IsoContext) (frames : List Render) : IsoContext :=
  { c with
    queued := c.queued ++ frames
    packets := c.packets + (frames.map (·.iso.isoPpf)).sum }

def report (c : IsoContext) (completed : ℕ) : IsoContext :=
  { c with reported := c.reported + completed }

end IsoContext

/-- The camera with the context that its file descriptor holds. -/
structure Transmission where
  cam : Transmitter
  context : Option IsoContext

/-- The packets that an act reports. -/
def Act.completed : Act → ℕ
  | .interrupt n => n
  | .write _ _ _ | .forceStream _ _ | .error => 0

namespace Transmission

def found (s : Transmission) (a : Act) : Option IsoContext :=
  match s.cam.starts a with
  | some (_, t) => if t.isoCreated then s.context else none
  | none => s.context

def step (cfg : Config) (s : Transmission) (a : Act) : Transmission :=
  let (cam, frames) := cfg.step s.cam a
  ⟨cam, if cam.isoCreated then
    some ((((s.found a).getD .fresh).report a.completed).offer frames) else none⟩

/-- The kernel reports no packet twice, and none of a context that does not run. No start takes up
a context on which `START_ISO` has failed. -/
def Faithful (s : Transmission) (a : Act) : Prop :=
  (a.completed ≠ 0 → s.cam.isoRunning = true ∧
    ∀ c ∈ s.context, c.reported + a.completed ≤ c.packets) ∧
  ∀ p ∈ s.cam.starts a, p.2.isoRunning = false → ∀ c ∈ s.found a, c.queued = []

instance (s : Transmission) (a : Act) : Decidable (s.Faithful a) :=
  inferInstanceAs (Decidable (_ ∧ _))

def machine (cfg : Config) (others : ℕ → BitVec 32) : Machine Transmission Act where
  init := ⟨.created others, none⟩
  step s a := some (s.step cfg a)

structure Lined (c : IsoContext) (t : Transmitter) : Prop where
  queued : c.queued = (List.range c.queued.length).map fun n =>
    t.render (n % t.ringFrames) (n % 2 ^ 32)
  packets : c.packets = c.queued.length * t.iso.isoPpf
  reported : c.reported ≤ c.packets

/-- Where the refill of a running stream is. -/
structure Paced (c : IsoContext) (t : Transmitter) : Prop where
  ring : 0 < t.ringFrames ∧ t.ringFrames ≤ isoRingFramesMax
  ppf : 0 < t.iso.isoPpf ∧ t.iso.isoPpf ≤ isoMaxPacketsPerFrame
  acked : t.isoAckedPackets = c.reported % t.iso.isoPpf
  transmitted : t.framesTransmitted = c.reported / t.iso.isoPpf % 2 ^ 32
  counter : t.frameCounter = c.queued.length % 2 ^ 32
  slot : t.refillSlot = c.queued.length % t.ringFrames
  ahead : c.queued.length ≤ c.reported / t.iso.isoPpf + t.ringFrames
  oneshot : t.isoOneshot = true → c.queued.length = 1

structure Aired (s : Transmission) : Prop where
  created : s.context.isSome = s.cam.isoCreated
  lined : ∀ c ∈ s.context, Lined c s.cam
  running : s.cam.isoRunning = true → ∃ c ∈ s.context, Paced c s.cam

end Transmission

namespace Transmitter
variable {t : Transmitter} {env : Setup}

theorem isoComputeGeometry_ppf {cam : Camera} {iso : IsoGeometry}
    (h : isoComputeGeometry cam = some iso) : 0 < iso.isoPpf ∧ iso.isoPpf ≤ isoMaxPacketsPerFrame := by
  unfold isoComputeGeometry at h
  split at h
  · unfold isoComputeGeometryF7 at h
    dsimp only at h
    split_ifs at h with hmode hbits hzero hppf
    cases h
    simp only [not_or, not_lt] at hppf
    exact ⟨Nat.pos_of_ne_zero hppf.1, hppf.2⟩
  · dsimp only at h
    split_ifs at h with hrange hgeometry
    cases h
    simp only [not_or, not_lt] at hgeometry
    exact ⟨Nat.pos_of_ne_zero hgeometry.2.1, hgeometry.2.2⟩

theorem isoSetupRing_le {bytes frameBytes ring : ℕ} (h : isoSetupRing bytes frameBytes = some ring) :
    ring ≤ isoRingFramesMax := by
  unfold isoSetupRing at h
  dsimp only at h
  split_ifs at h with hzero hmax
  · cases h
    exact le_rfl
  · cases h
    exact Nat.le_of_not_lt hmax

theorem isoSetup_ready (h : (t.isoSetup env).2 = true) :
    (t.isoSetup env).1.isoCreated = true ∧ (t.isoSetup env).1.ringFrames ≤ isoRingFramesMax := by
  revert h
  unfold isoSetup
  split
  · rintro ⟨⟩
  split
  · rintro ⟨⟩
  dsimp only
  split
  · rintro ⟨⟩
  split
  · rintro ⟨⟩
  split
  · rintro ⟨⟩
  next ring hring =>
  intro _
  exact ⟨rfl, isoSetupRing_le hring⟩

theorem isoSetup_isoOneshot : (t.isoSetup env).1.isoOneshot = t.isoOneshot := by
  unfold isoSetup
  split
  · rfl
  split
  · rfl
  dsimp only
  split
  · rfl
  split
  · rfl
  split <;> rfl

theorem isoStop_isoCreated : t.isoStop.isoCreated = false := by
  unfold isoStop
  split
  · next h => simpa using h.2
  · rfl

theorem isoStop_isoRunning : t.isoStop.isoRunning = false := by
  unfold isoStop
  split
  · next h => simpa using h.1
  · rfl

end Transmitter

namespace IsoContext

theorem offer_nil (c : IsoContext) : c.offer [] = c := by simp [offer]

theorem offer_cons (c : IsoContext) (r : Render) (frames : List Render) :
    (c.offer [r]).offer frames = c.offer (r :: frames) := by
  simp [offer, List.append_assoc, Nat.add_assoc]

end IsoContext

namespace Transmission

/-- The refill loop has made up for `done` frames. -/
structure Lapping (c : IsoContext) (t : Transmitter) (done : ℕ) : Prop where
  lined : Lined c t
  reported : c.reported = done * t.iso.isoPpf + t.isoAckedPackets
  transmitted : t.framesTransmitted = done % 2 ^ 32
  counter : t.frameCounter = c.queued.length % 2 ^ 32
  slot : t.refillSlot = c.queued.length % t.ringFrames
  ahead : c.queued.length ≤ done + t.ringFrames

/-- What a refill leaves alone. -/
def Latched (t t' : Transmitter) : Prop :=
  t'.iso = t.iso ∧ t'.ringFrames = t.ringFrames ∧ t'.isoRunning = t.isoRunning ∧
    t'.isoCreated = t.isoCreated ∧ t'.isoOneshot = t.isoOneshot

variable {c : IsoContext} {t : Transmitter}

theorem Lined.offer (h : Lined c t) {t' : Transmitter} (hb : t'.isoBuffer = t.isoBuffer)
    (hi : t'.iso = t.iso) (hr : t'.ringFrames = t.ringFrames) :
    Lined (c.offer [t.render (c.queued.length % t.ringFrames) (c.queued.length % 2 ^ 32)]) t' where
  queued := by
    have hrender : ∀ slot n, t'.render slot n = t.render slot n := by
      intro slot n
      rw [Transmitter.render, Transmitter.render, hb, hi]
    simp only [IsoContext.offer, List.length_append, List.length_singleton, List.range_succ,
      List.map_append, List.map_singleton, hrender, hr]
    rw [← h.queued]
  packets := by
    simp only [IsoContext.offer, List.map_singleton, List.sum_singleton, List.length_append,
      List.length_singleton, h.packets, hi, Nat.add_one_mul, Transmitter.render]
  reported := h.reported.trans (Nat.le_add_right _ _)

/-- A lap makes up for one frame with the next: the frame goes to the slot that the count of frames
gives, and the count goes on. -/
theorem Lapping.again {done : ℕ} (h : Lapping c t done) (hacked : t.iso.isoPpf ≤ t.isoAckedPackets) :
    Lapping (c.offer [t.render t.refillSlot t.frameCounter])
      { t with
        isoAckedPackets := t.isoAckedPackets - t.iso.isoPpf
        framesTransmitted := (t.framesTransmitted + 1) % 2 ^ 32
        frameCounter := (t.frameCounter + 1) % 2 ^ 32
        refillSlot := (t.refillSlot + 1) % t.ringFrames } (done + 1) := by
  refine ⟨?_, ?_, ?_, ?_, ?_, ?_⟩
  · rw [h.counter, h.slot]
    exact h.lined.offer rfl rfl rfl
  · have hmul := Nat.add_one_mul done t.iso.isoPpf
    have hrep := h.reported
    dsimp only [IsoContext.offer]
    omega
  · dsimp only
    rw [h.transmitted, Nat.mod_add_mod]
  · dsimp only [IsoContext.offer]
    rw [h.counter, Nat.mod_add_mod, List.length_append, List.length_singleton]
  · dsimp only [IsoContext.offer]
    rw [h.slot, Nat.mod_add_mod, List.length_append, List.length_singleton]
  · have hahead := h.ahead
    simp only [IsoContext.offer, List.length_append, List.length_singleton]
    omega

theorem Lapping.refill {fuel done : ℕ} (h : Lapping c t done) (hone : t.isoOneshot = false)
    (hppf : 0 < t.iso.isoPpf) (hfuel : t.isoAckedPackets ≤ fuel) :
    (∃ done', Lapping (c.offer (t.refill fuel).2) (t.refill fuel).1 done') ∧
      (t.refill fuel).1.isoAckedPackets < t.iso.isoPpf ∧ Latched t (t.refill fuel).1 := by
  induction fuel generalizing c t done with
  | zero =>
    refine ⟨⟨done, ?_⟩, by simpa [Transmitter.refill] using hfuel.trans_lt hppf, rfl, rfl, rfl, rfl, rfl⟩
    simpa [Transmitter.refill, IsoContext.offer_nil] using h
  | succ fuel ih =>
    unfold Transmitter.refill
    dsimp only
    split_ifs with hacked hstop
    · exact ⟨⟨done, by simpa [IsoContext.offer_nil] using h⟩, hacked, rfl, rfl, rfl, rfl, rfl⟩
    · simp [hone] at hstop
    · have hlap := ih (h.again (Nat.le_of_not_lt hacked)) hone hppf (by dsimp only; omega)
      rw [IsoContext.offer_cons] at hlap
      exact hlap

theorem Lapping.paced {done : ℕ} (h : Lapping c t done) (hless : t.isoAckedPackets < t.iso.isoPpf)
    (hring : 0 < t.ringFrames ∧ t.ringFrames ≤ isoRingFramesMax)
    (hppf : t.iso.isoPpf ≤ isoMaxPacketsPerFrame)
    (hone : t.isoOneshot = true → c.queued.length = 1) : Paced c t := by
  have hpos : 0 < t.iso.isoPpf := Nat.zero_lt_of_lt hless
  have hdiv : c.reported / t.iso.isoPpf = done := by
    rw [h.reported, Nat.mul_comm, Nat.mul_add_div hpos, Nat.div_eq_of_lt hless, Nat.add_zero]
  refine ⟨hring, ⟨hpos, hppf⟩, ?_, ?_, h.counter, h.slot, ?_, hone⟩
  · rw [h.reported, Nat.mul_comm, Nat.mul_add_mod, Nat.mod_eq_of_lt hless]
  · rw [hdiv, h.transmitted]
  · rw [hdiv]
    exact h.ahead

/-- A one-shot stream stops behind its frame. -/
theorem refill_oneshot {fuel : ℕ} (hone : t.isoOneshot = true) (hppf : 0 < t.iso.isoPpf)
    (hfuel : t.isoAckedPackets ≤ fuel) :
    t.isoAckedPackets < t.iso.isoPpf ∧ t.refill fuel = (t, []) ∨
      (t.refill fuel).1.isoCreated = false ∧ (t.refill fuel).1.isoRunning = false := by
  cases fuel with
  | zero => exact .inl ⟨hfuel.trans_lt hppf, rfl⟩
  | succ fuel =>
    unfold Transmitter.refill
    dsimp only
    split_ifs with hacked
    · exact .inl ⟨hacked, rfl⟩
    · exact .inr ⟨Transmitter.isoStop_isoCreated, Transmitter.isoStop_isoRunning⟩

variable {s : Transmission}

theorem Lined.keep (h : Lined c t) {t' : Transmitter} (hb : t'.isoBuffer = t.isoBuffer)
    (hi : t'.iso = t.iso) (hr : t'.ringFrames = t.ringFrames) : Lined c t' := by
  refine ⟨?_, hi ▸ h.packets, h.reported⟩
  have hrender : ∀ slot n, t'.render slot n = t.render slot n := by
    intro slot n
    rw [Transmitter.render, Transmitter.render, hb, hi]
  simp only [hrender, hr]
  exact h.queued

theorem Lined.fresh : Lined .fresh t := ⟨rfl, (Nat.zero_mul _).symm, le_rfl⟩

theorem Lined.eq_fresh (h : Lined c t) (hq : c.queued = []) : c = .fresh := by
  have hp : c.packets = 0 := by simpa [hq] using h.packets
  have hr : c.reported = 0 := by
    have := h.reported
    omega
  obtain ⟨queued, packets, reported⟩ := c
  cases hq
  cases hp
  cases hr
  rfl

theorem Aired.closed (hc : t.isoCreated = false) (hr : t.isoRunning = false) : Aired ⟨t, none⟩ := by
  refine ⟨hc.symm, ?_, ?_⟩
  · rintro _ ⟨⟩
  · intro hrun
    rw [hr] at hrun
    cases hrun

theorem Aired.plain (h : s.Aired) (hp : t.isoCreated = s.cam.isoCreated)
    (hl : ∀ c ∈ s.context, Lined c t)
    (hr : t.isoRunning = true → ∃ c ∈ s.context, Paced c t) :
    Aired ⟨t, if t.isoCreated then some (((s.context.getD .fresh).report 0).offer []) else none⟩ := by
  have hsame : (if t.isoCreated then some (((s.context.getD .fresh).report 0).offer []) else none) =
      s.context := by
    have hcreated := h.created
    rw [hp, ← hcreated]
    cases s.context with
    | none => rfl
    | some c => simp [IsoContext.report, IsoContext.offer_nil]
  rw [hsame]
  exact ⟨h.created.trans hp.symm, hl, hr⟩

theorem Aired.interrupt (h : s.Aired) {cfg : Config} {n : ℕ} (hf : s.Faithful (.interrupt n)) :
    (s.step cfg (.interrupt n)).Aired := by
  have hfound : s.found (.interrupt n) = s.context := rfl
  have hstep : cfg.step s.cam (.interrupt n) = s.cam.onIsoInterrupt n := rfl
  unfold step
  rw [hfound, hstep]
  dsimp only [Act.completed]
  cases hrun : s.cam.isoRunning with
  | false =>
    have hzero : n = 0 := by
      by_contra hne
      rw [(hf.1 hne).1] at hrun
      cases hrun
    rw [hzero, Transmitter.onIsoInterrupt, if_pos (.inl hrun)]
    exact h.plain rfl h.lined fun hr => by rw [hrun] at hr; cases hr
  | true =>
    obtain ⟨c, hc, hp⟩ := h.running hrun
    have hl := h.lined c hc
    have hreport : c.reported + n ≤ c.packets := by
      by_cases hne : n = 0
      · exact hne ▸ hl.reported
      · exact (hf.1 hne).2 c hc
    have hcreated : s.cam.isoCreated = true := by
      rw [← h.created, Option.mem_def.mp hc]
      rfl
    have hdiv := Nat.div_add_mod c.reported s.cam.iso.isoPpf
    -- what the kernel has not reported yet fits the ring, so the clamp does not cut it
    have hring : s.cam.ringFrames * s.cam.iso.isoPpf ≤ 4 * 4096 := Nat.mul_le_mul hp.ring.2 hp.ppf.2
    have hfits : n ≤ s.cam.ringFrames * s.cam.iso.isoPpf := by
      have hmul := Nat.mul_le_mul_right s.cam.iso.isoPpf hp.ahead
      rw [Nat.add_mul, Nat.mul_comm (c.reported / _), ← hl.packets] at hmul
      omega
    have hacked : s.cam.isoAckedPackets < 4096 :=
      hp.acked ▸ (Nat.mod_lt _ hp.ppf.1).trans_le hp.ppf.2
    have hrefill : s.cam.onIsoInterrupt n = Transmitter.refill (s.cam.isoAckedPackets + n)
        { s.cam with isoAckedPackets := s.cam.isoAckedPackets + n } := by
      rw [Transmitter.onIsoInterrupt, if_neg (by simp [hrun, hp.ppf.1.ne', hp.ring.1.ne'])]
      dsimp only
      rw [Nat.mod_eq_of_lt (by omega : s.cam.ringFrames * s.cam.iso.isoPpf < 2 ^ 32),
        if_neg (Nat.not_lt.mpr hfits), Nat.mod_eq_of_lt (by omega : s.cam.isoAckedPackets + n < 2 ^ 32)]
    have hlap : Lapping (c.report n) { s.cam with isoAckedPackets := s.cam.isoAckedPackets + n }
        (c.reported / s.cam.iso.isoPpf) := by
      refine ⟨⟨hl.queued, hl.packets, hreport⟩, ?_, hp.transmitted, hp.counter, hp.slot, hp.ahead⟩
      dsimp only [IsoContext.report]
      rw [hp.acked, Nat.mul_comm]
      omega
    rw [hrefill, Option.mem_def.mp hc, Option.getD_some]
    cases hone : s.cam.isoOneshot with
    | false =>
      obtain ⟨⟨done, hdone⟩, hless, hiso, hframes, hrun', hcreated', hone'⟩ :=
        hlap.refill hone hp.ppf.1 le_rfl
      generalize Transmitter.refill (s.cam.isoAckedPackets + n)
        { s.cam with isoAckedPackets := s.cam.isoAckedPackets + n } = out at *
      dsimp only at hless hiso hframes hcreated' hone'
      rw [hcreated', hcreated, if_pos rfl]
      refine ⟨(hcreated'.trans hcreated).symm, ?_, fun _ => ⟨_, rfl, ?_⟩⟩
      · rintro _ ⟨⟩
        exact hdone.lined
      · refine hdone.paced (hiso ▸ hless) (hframes ▸ hp.ring) (hiso ▸ hp.ppf.2) ?_
        rw [hone', hone]
        rintro ⟨⟩
    | true =>
      rcases refill_oneshot (t := { s.cam with isoAckedPackets := s.cam.isoAckedPackets + n })
        hone hp.ppf.1 le_rfl with ⟨hless, hout⟩ | ⟨hcreated', hrun'⟩
      · rw [hout]
        dsimp only
        rw [if_pos hcreated, IsoContext.offer_nil]
        refine ⟨hcreated.symm, ?_, fun _ => ⟨_, rfl, hlap.paced hless hp.ring hp.ppf.2 hp.oneshot⟩⟩
        rintro _ ⟨⟩
        exact hlap.lined
      · rw [hcreated']
        exact .closed hcreated' hrun'

theorem starts_spec {a : Act} {env : Setup} {t' : Transmitter} (h : t.starts a = some (env, t')) :
    (∃ cam, t' = { t with cam := cam, isoOneshot := false }) ∨
      t' = { t.isoStop with isoOneshot := true } := by
  cases a with
  | write off logical env' =>
    simp only [Transmitter.starts] at h
    split_ifs at h
    · cases h
      exact .inl ⟨_, rfl⟩
    · cases h
      exact .inr rfl
  | forceStream bytesPerPacket env' =>
    simp only [Transmitter.starts] at h
    split_ifs at h
    · cases h
      exact .inl ⟨_, rfl⟩
    · obtain ⟨cam, -, h⟩ := Option.map_eq_some_iff.mp h
      cases h
      exact .inl ⟨_, rfl⟩
  | interrupt | error => cases h

theorem completed_of_starts {a : Act} {p : Setup × Transmitter} (h : t.starts a = some p) :
    a.completed = 0 := by
  cases a with
  | interrupt => cases h
  | write | forceStream | error => rfl

/-- A start on a context with nothing queued: it fails before its first frame, or queues its
prefill. -/
theorem isoStart_spec {env : Setup} (hrun : t.isoRunning = false) (c : Option IsoContext)
    (hc : c.getD .fresh = .fresh) : Aired ⟨(t.isoStart env).1,
      if (t.isoStart env).1.isoCreated then
        some ((c.getD .fresh).offer (t.isoStart env).2) else none⟩ ∧
      ((t.isoStart env).1.isoRunning = true → (t.isoStart env).1.isoCreated = true ∧
        (t.isoStart env).2.length = if t.isoOneshot then 1 else (t.isoStart env).1.ringFrames) := by
  rw [hc]
  cases hready : (t.isoSetup env).2 with
  | false =>
    rw [Transmitter.isoStart_of_failed hready]
    have hidle : (t.isoSetup env).1.isoRunning = false := by
      rw [Transmitter.isoSetup_isoRunning, hrun]
    refine ⟨?_, fun hr => by rw [hidle] at hr; cases hr⟩
    rw [IsoContext.offer_nil]
    cases hcreated : (t.isoSetup env).1.isoCreated with
    | false => exact .closed hcreated hidle
    | true =>
      refine ⟨hcreated.symm, ?_, fun hr => by rw [hidle] at hr; cases hr⟩
      rintro _ ⟨⟩
      exact .fresh
  | true =>
    obtain ⟨-, hgeometry, hpos, -⟩ := Transmitter.isoSetup_spec hready
    obtain ⟨hcreated, hmax⟩ := Transmitter.isoSetup_ready hready
    obtain ⟨hppf, hpackets⟩ := Transmitter.isoComputeGeometry_ppf hgeometry
    have hone : (t.isoSetup env).1.isoOneshot = _ := Transmitter.isoSetup_isoOneshot
    have hpre := Transmitter.prefill_le hpos
    unfold Transmitter.isoStart
    simp only [hready, if_true]
    generalize (t.isoSetup env).1 = u at *
    have hsmall : u.prefill ≤ 4 := hpre.2.trans hmax
    -- the prefill queues one frame a slot, in order
    have hlined : Lined (IsoContext.fresh.offer ((List.range u.prefill).map fun slot => u.render slot slot))
        u := by
      refine ⟨?_, ?_, Nat.zero_le _⟩
      · simp only [IsoContext.offer, IsoContext.fresh, List.nil_append, List.length_map,
          List.length_range]
        apply List.map_congr_left
        intro slot hslot
        have hlt := List.mem_range.mp hslot
        rw [Nat.mod_eq_of_lt (hlt.trans_le hpre.2), Nat.mod_eq_of_lt (by omega)]
      · simp [IsoContext.offer, IsoContext.fresh, Transmitter.render, Function.comp_def]
    rw [if_pos hcreated]
    refine ⟨⟨hcreated.symm, ?_, fun _ => ⟨_, rfl, ?_⟩⟩, fun _ => ⟨hcreated, ?_⟩⟩
    · rintro _ ⟨⟩
      exact hlined.keep rfl rfl rfl
    · refine ⟨⟨hpos, hmax⟩, ⟨hppf, hpackets⟩, ?_, ?_, ?_, ?_, ?_, ?_⟩
      · simp [IsoContext.offer, IsoContext.fresh]
      · simp [IsoContext.offer, IsoContext.fresh]
      · simp only [IsoContext.offer, IsoContext.fresh, List.nil_append, List.length_map,
          List.length_range]
        rw [Nat.mod_eq_of_lt (by omega)]
      · simp [IsoContext.offer, IsoContext.fresh]
      · simpa [IsoContext.offer, IsoContext.fresh] using hpre.2
      · intro h1
        simp only [IsoContext.offer, IsoContext.fresh, List.nil_append, List.length_map,
          List.length_range, Transmitter.prefill, show u.isoOneshot = true from h1, if_true]
    · simp only [List.length_map, List.length_range, Transmitter.prefill, hone]

theorem found_fresh (h : s.Aired) {a : Act} {p : Setup × Transmitter} (hf : s.Faithful a)
    (hs : s.cam.starts a = some p) (hrun : p.2.isoRunning = false) :
    (s.found a).getD .fresh = .fresh := by
  cases hfound : s.found a with
  | none => rfl
  | some c =>
    have hc : c ∈ s.context := by
      simp only [found, hs] at hfound
      split_ifs at hfound
      exact hfound
    exact (h.lined c hc).eq_fresh (hf.2 p hs hrun c hfound)

theorem report_zero (c : IsoContext) : c.report 0 = c := rfl

theorem Aired.start (h : s.Aired) {cfg : Config} {a : Act} {env : Setup} (hf : s.Faithful a)
    (hs : s.cam.starts a = some (env, t)) : (s.step cfg a).Aired := by
  have hstep : cfg.step s.cam a = t.isoStart env := by
    simp only [Config.step, hs]
  unfold step
  rw [hstep]
  dsimp only
  rw [completed_of_starts hs, report_zero]
  cases hrun : t.isoRunning with
  | false => exact (isoStart_spec hrun _ (found_fresh h hf hs hrun)).1
  | true =>
    -- the stream goes on, though no longer as a one-shot
    rcases starts_spec hs with ⟨cam, rfl⟩ | rfl
    · have hskip : Transmitter.isoStart env { s.cam with cam := cam, isoOneshot := false } =
          ({ s.cam with cam := cam, isoOneshot := false }, []) := by
        rw [Transmitter.isoStart_of_failed (by rw [Transmitter.isoSetup_of_running hrun]),
          Transmitter.isoSetup_of_running hrun]
      obtain ⟨c, hc, hp⟩ := h.running hrun
      have hcreated : s.cam.isoCreated = true := by
        rw [← h.created, Option.mem_def.mp hc]
        rfl
      have hfound : s.found a = s.context := by
        simp only [found, hs]
        exact if_pos hcreated
      rw [hskip, hfound]
      refine h.plain (t := { s.cam with cam := cam, isoOneshot := false }) rfl
        (fun c hc => (h.lined c hc).keep rfl rfl rfl) fun _ => ⟨c, hc, ?_⟩
      exact ⟨hp.ring, hp.ppf, hp.acked, hp.transmitted, hp.counter, hp.slot, hp.ahead, by rintro ⟨⟩⟩
    · rw [show Transmitter.isoRunning _ = s.cam.isoStop.isoRunning from rfl,
        Transmitter.isoStop_isoRunning] at hrun
      cases hrun

/-- An act that starts nothing and leaves the stream alone. -/
theorem Aired.stays (h : s.Aired) (cam : Camera) (channel speed : ℕ) :
    Aired ⟨{ s.cam with cam := cam, isoChannel := channel, isoSpeed := speed },
      if s.cam.isoCreated then some (((s.context.getD .fresh).report 0).offer []) else none⟩ := by
  refine h.plain (t := { s.cam with cam := cam, isoChannel := channel, isoSpeed := speed }) rfl
    (fun c hc => (h.lined c hc).keep rfl rfl rfl) fun hrun => ?_
  obtain ⟨c, hc, hp⟩ := h.running hrun
  exact ⟨c, hc, hp.ring, hp.ppf, hp.acked, hp.transmitted, hp.counter, hp.slot, hp.ahead, hp.oneshot⟩

theorem setChannel_eq (logical : BitVec 32) : ∃ channel speed,
    t.setChannel logical = { t with isoChannel := channel, isoSpeed := speed } := by
  unfold Transmitter.setChannel
  dsimp only
  split
  · exact ⟨_, _, rfl⟩
  · exact ⟨_, _, rfl⟩

theorem Aired.stopped (c : IsoContext) : Aired ⟨t.isoStop, if t.isoStop.isoCreated then some c else none⟩ := by
  rw [Transmitter.isoStop_isoCreated]
  exact .closed Transmitter.isoStop_isoCreated Transmitter.isoStop_isoRunning

theorem Aired.step (h : s.Aired) {cfg : Config} {a : Act} (hf : s.Faithful a) :
    (s.step cfg a).Aired := by
  cases hs : s.cam.starts a with
  | some p => exact h.start hf hs
  | none =>
    have hstep : cfg.step s.cam a = cfg.otherwise s.cam a := by simp only [Config.step, hs]
    have hfound : s.found a = s.context := by simp only [found, hs]
    cases a with
    | interrupt n => exact h.interrupt hf
    | error =>
      unfold Transmission.step
      rw [hstep, hfound]
      exact .stopped _
    | forceStream bytesPerPacket env =>
      unfold Transmission.step
      rw [hstep, hfound]
      exact h.stays _ _ _
    | write off logical env =>
      unfold Transmission.step
      rw [hstep, hfound]
      dsimp only [Config.otherwise, Act.completed]
      -- the registers that bear on the stream one by one, as the write handler tests them
      by_cases hchannel : off = regIsochChannel
      · rw [if_pos hchannel]
        obtain ⟨channel, speed, heq⟩ := setChannel_eq (t := s.cam) logical
        rw [heq]
        exact h.stays _ _ _
      rw [if_neg hchannel]
      by_cases hstop : off = regIsoEn
      · rw [if_pos hstop]
        exact .stopped _
      rw [if_neg hstop]
      by_cases hshot : off = regOneShot
      · rw [if_pos hshot]
        exact h.stays _ _ _
      rw [if_neg hshot]
      cases cfg.registerWrite s.cam.cam off logical with
      | none => exact h.stays _ _ _
      | some cam => exact h.stays _ _ _

theorem Aired.of_reaches {cfg : Config} {others : ℕ → BitVec 32}
    (h : (machine cfg others).Reaches Faithful s) : s.Aired := by
  refine h.invariant (I := Aired) (.closed rfl rfl) ?_
  rintro s a _ _ hi hf ⟨⟩
  exact hi.step hf

end Transmission

open Transmission in
/-- In every run in which the kernel takes each packet, reports none twice, and no start takes up a
context on which `START_ISO` failed: the frames queued on a context are numbered from zero, each
in the slot that its number gives, a slot is rewritten only once the frame before in it has left,
and the camera has counted every packet the kernel reported. A start that succeeds begins with
exactly its prefill. -/
theorem iso_ring {cfg : Config} {others : ℕ → BitVec 32} {s : Transmission}
    (h : (machine cfg others).Reaches Faithful s) :
    s.context.isSome = s.cam.isoCreated ∧
    (∀ c ∈ s.context, c.queued = (List.range c.queued.length).map fun n =>
        s.cam.render (n % s.cam.ringFrames) (n % 2 ^ 32)) ∧
    (s.cam.isoRunning = true → ∃ c ∈ s.context,
      c.queued.length ≤ c.reported / s.cam.iso.isoPpf + s.cam.ringFrames ∧
      s.cam.isoAckedPackets = c.reported % s.cam.iso.isoPpf ∧
      s.cam.framesTransmitted = c.reported / s.cam.iso.isoPpf % 2 ^ 32 ∧
      (s.cam.isoOneshot = true → c.queued.length = 1)) ∧
    ∀ a env t, s.Faithful a → s.cam.starts a = some (env, t) → t.isoRunning = false →
      (s.step cfg a).cam.isoRunning = true → ∃ c ∈ (s.step cfg a).context, c.reported = 0 ∧
        c.queued.length = if t.isoOneshot then 1 else (s.step cfg a).cam.ringFrames := by
  have ha := Aired.of_reaches h
  refine ⟨ha.created, fun c hc => (ha.lined c hc).queued, fun hrun => ?_, ?_⟩
  · obtain ⟨c, hc, hp⟩ := ha.running hrun
    exact ⟨c, hc, hp.ahead, hp.acked, hp.transmitted, hp.oneshot⟩
  · intro a env t hf hs hrun hstarted
    have hstep : cfg.step s.cam a = t.isoStart env := by simp only [Config.step, hs]
    have hfresh := found_fresh ha hf hs hrun
    unfold Transmission.step at hstarted ⊢
    rw [hstep] at hstarted ⊢
    dsimp only at hstarted ⊢
    obtain ⟨hcreated, hlength⟩ := (isoStart_spec hrun (s.found a) hfresh).2 hstarted
    rw [completed_of_starts hs, report_zero, hfresh, if_pos hcreated]
    exact ⟨_, rfl, rfl, by simpa [IsoContext.offer, IsoContext.fresh] using hlength⟩

/-- Format 7 mode 0 is started, and the packets of its first frame are reported in two parts. -/
def streamRun : List Act :=
  [.write regVideoFormat (selected f7Format) clearSetup, .write regVideoMode 0 clearSetup,
    .write regIsoEn 0x80000000 clearSetup, .interrupt 100, .interrupt 1000]

def streaming : Transmission :=
  (Transmission.machine defaultConfig fun _ => 0).after Transmission.Faithful streamRun

/-- The ring of four is prefilled, and the fifth frame goes to the slot of the first. -/
theorem iso_ring_streaming : streaming.cam.isoRunning = true ∧ ∃ c ∈ streaming.context,
    c.queued.length ≤ c.reported / streaming.cam.iso.isoPpf + streaming.cam.ringFrames ∧
      streaming.cam.isoAckedPackets = 68 ∧ streaming.cam.refillSlot = 1 := by
  have hrun : streaming.cam.isoRunning = true := by decide +kernel
  have hr := (Transmission.machine defaultConfig fun _ => 0).reaches_after Transmission.Faithful streamRun
  obtain ⟨c, hc, hahead, -⟩ := (iso_ring hr).2.2.1 hrun
  exact ⟨hrun, c, hc, hahead, by decide +kernel, by decide +kernel⟩

end Fake
end Photonic
