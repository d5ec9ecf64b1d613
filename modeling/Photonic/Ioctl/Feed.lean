import Photonic.Ioctl.Founded
import Photonic.Session.Feed

namespace Photonic

namespace Device

structure Poised (s : Device) : Prop where
  engine : Engine.machine.Reachable s.eng
  halted : Halted s
  called : Called s.ctl s.eng.pool

theorem Poised.step {s s' : Device} {a : Act} (h : s.Poised) (hm : Moded s) (hs : s.step a = some s') :
    s'.Poised := by
  have hx := Steps.of_step hs
  refine ⟨?_, h.halted.steps hm (.of_reachable h.engine) hx, h.called.steps hx⟩
  rcases hx.engine with he | ⟨x, hx⟩
  · exact he ▸ h.engine
  · exact h.engine.step (a := x) trivial hx

theorem Poised.renew {s : Device} (h : Engine.machine.Reachable s.eng) : s.renew.Poised where
  engine := Engine.renew_reachable h
  halted := ⟨fun _ _ => remains_free _ (fun _ => rfl) fun _ => rfl,
    fun _ => remains_free _ (fun _ => rfl) fun _ => rfl⟩
  called pc hpc x hx := by
    rcases mem_remains hpc with ⟨r, rfl⟩ | ⟨w, rfl⟩ <;> cases hx

end Device

namespace VerbPc

def pumpsNext : VerbPc → Bool
  | .requeue _ | .pump _ => true
  | _ => false

/-- A map that has published nothing yet. -/
def unpublished : VerbPc → Bool
  | .unmap _ _ next => next.maps
  | pc => pc.readies

theorem maps_of_unpublished {pc : VerbPc} (h : pc.unpublished = true) : pc.maps = true := by
  cases pc with
  | unmap i force next => cases next <;> first | rfl | cases h
  | _ => first | rfl | cases h

end VerbPc

namespace IoctlDevice

/-- What the verbs rest on: a stop behind which the slot is walked over, and an empty ring
under a map. -/
structure Supported (s : IoctlDevice) : Prop where
  poised : s.dev.Poised
  owned : s.pc.stops = true ∨ s.pc.maps = true → s.slot ≠ none
  stopped : s.pc.afterStop = true → s.dev.Stopping
  unmapped : s.pc.unpublished = true → ∀ c, s.slot = some c → c.ring.mappedFrameCount = 0

namespace Supported
variable {s s' : IoctlDevice}

/-- A turn to a point that needs nothing. -/
theorem rest (hd : s'.dev.Poised) (hs : s'.pc.stops = false) (hm : s'.pc.maps = false) : s'.Supported where
  poised := hd
  owned := by
    rintro (hf | hf)
    · rw [hs] at hf
      cases hf
    · rw [hm] at hf
      cases hf
  stopped hf := by
    rw [VerbPc.stops_of_afterStop hf] at hs
    cases hs
  unmapped hf := by
    rw [VerbPc.maps_of_unpublished hf] at hm
    cases hm

theorem turn (h : s.Supported) {c : Slot} {pc : VerbPc}
    (hs : pc.afterStop = true → s.pc.afterStop = true)
    (hm : pc.unpublished = true → c.ring.mappedFrameCount = 0) : (s.setSlot c pc).Supported where
  poised := h.poised
  owned _ := Option.some_ne_none c
  stopped hf := h.stopped (hs hf)
  unmapped hf c' hc' := by
    cases hc'
    exact hm hf

theorem setMdls (h : s.Supported) (mdls : Mdls) : { s with mdls }.Supported :=
  ⟨h.poised, h.owned, h.stopped, h.unmapped⟩

theorem goto (h : s.Supported) {pc : VerbPc} (ho : s.slot ≠ none)
    (hs : pc.afterStop = true → s.pc.afterStop = true)
    (hm : pc.unpublished = true → s.pc.unpublished = true) : (s.goto pc).Supported :=
  ⟨h.poised, fun _ => ho, fun hf => h.stopped (hs hf), fun hf => h.unmapped (hm hf)⟩

theorem does (h : s.Supported) (hf : s.Founded) {o : VerbAnswer} (hx : Does s o s.pc s') :
    s'.Supported := by
  have hun := h.unmapped
  have hown := h.owned
  generalize hpc : s.pc = pc at hx hun hown
  have hpoised : ∀ {a dev}, s.dev.step a = some dev → dev.Poised := fun hd => h.poised.step hf.moded hd
  cases hx with
  | ended => exact rest h.poised rfl rfl
  | built => exact rest (.renew h.poised.engine) rfl rfl
  | setOneShot hd | pump hd | start hd | listen hd | finish hd => exact rest (hpoised hd) rfl rfl
  | @setPumpRing c b => cases b <;> exact rest h.poised rfl rfl
  | requeue => exact rest h.poised rfl rfl
  | @pumped next => cases next <;> exact rest h.poised rfl rfl
  | @stop next dev hd =>
    refine ⟨hpoised hd, fun _ => hown (.inl rfl), fun _ => ?_, fun hf => ?_⟩
    · cases Device.Steps.of_step hd with
      | stop => exact .inl rfl
      | data ha => cases ha
    · cases next <;> cases hf
  | quarantine => exact h.goto (hown (.inl rfl)) (fun _ => by rw [hpc]; rfl) (by rintro ⟨⟩)
  | @unmapEmpty c i force next hc =>
    exact h.turn (fun hf => by rw [hpc]; exact hf) fun hf => hun hf c hc
  | unmapHeld hc =>
    exact h.goto (by rw [hc]; exact Option.some_ne_none _) (fun hf => by rw [hpc]; exact hf)
      fun hf => by rw [hpc]; exact hf
  | @unmapFrame c i force next mdl hc =>
    refine setMdls (s := s.setSlot _ _) ?_ _
    exact h.turn (fun hf => by rw [hpc]; exact hf) fun hf => hun hf c hc
  | @unmapDone c i force next =>
    refine h.turn (fun hf => ?_) fun _ => rfl
    rw [hpc]
    cases next <;> first | rfl | cases hf
  | validated hc | allLocked =>
    exact h.goto (hown (.inr rfl)) (by rintro ⟨⟩) fun _ => by rw [hpc]; rfl
  | allocated =>
    refine setMdls (s := s.goto (.lock _ _ _)) ?_ _
    exact h.goto (hown (.inr rfl)) (by rintro ⟨⟩) fun _ => by rw [hpc]; rfl
  | notAllocated | notLocked =>
    exact ⟨h.poised, fun _ => Option.some_ne_none _, by rintro ⟨⟩, by rintro ⟨⟩⟩
  | @locked c args i mdl hc =>
    refine setMdls (s := s.setSlot _ (.allocate _ _)) ?_ _
    exact h.turn (by rintro ⟨⟩) fun _ => hun rfl c hc
  | published =>
    unfold publishStep
    split <;> exact rest h.poised rfl rfl
  | @events c pc pc' a events hc ht he =>
    refine h.turn (fun hf => ?_) fun hf => ?_
    · rw [hpc]
      cases ht <;> first | rfl | cases hf
    · cases ht <;> cases hf
  | @destroy next dev hd => cases next <;> exact rest (hpoised hd) rfl rfl

theorem enters (h : s.Supported) (hf : s.Founded) {registered : Bool} {pc : VerbPc} {dev : Device}
    (he : Enters s pc) (hd : s.dev.step .acquireMutex = some dev) :
    { s with dev, registered, pc }.Supported := by
  have hpoised := h.poised.step hf.moded hd
  cases he.entry with
  | map hc hm =>
    refine ⟨hpoised, fun _ => by rw [hc]; exact Option.some_ne_none _, by rintro ⟨⟩, fun _ c' hc' => ?_⟩
    cases hc.symm.trans hc'
    exact hm
  | stop hs => exact ⟨hpoised, fun _ => hs, by rintro ⟨⟩, by rintro ⟨⟩⟩
  | build => exact rest hpoised rfl rfl
  | plain hm hst => exact rest hpoised hst hm

theorem takes (h : s.Supported) (hf : s.Founded) {a : Act} (hx : Takes s a s') : s'.Supported := by
  cases hx with
  | @slotDev a dev slot hp ha hfeed =>
    have hd := Device.feed_step hfeed
    have hmap := (Device.Feeds.of_feed hfeed).mapped
    have hnone : slot = none ↔ s.slot = none := by
      rw [← Option.map_eq_none_iff (f := fun c : Slot => c.ring.mappedFrameCount), hmap,
        Option.map_eq_none_iff]
    refine ⟨h.poised.step hf.moded hd, fun hpc hs => h.owned hpc (hnone.mp hs), fun hpc => ?_,
      fun hpc c hc => ?_⟩
    · exact (h.stopped hpc).step hf.moded
        (hf.alive (h.owned (.inl (VerbPc.stops_of_afterStop hpc)))) ha hd
    · rw [show slot = some c from hc] at hmap
      obtain ⟨c₀, hc₀, heq⟩ := Option.map_eq_some_iff.mp hmap.symm
      exact heq.symm.trans (h.unmapped hpc c₀ hc₀)
  | pinDev hp ha hd =>
    have hs := hf.pin hp
    refine ⟨h.poised.step hf.moded hd, h.owned, fun hpc => ?_, h.unmapped⟩
    exact absurd hs (h.owned (.inl (VerbPc.stops_of_afterStop hpc)))
  | same => exact h
  | enters hu he hd => exact h.enters hf he hd
  | verb hc hx => exact h.does hf hx
  | @signal a x c events hc hsig he =>
    have hring : events.ring = c.events.ring := by
      obtain ⟨n, e, rest, rfl | rfl⟩ := hsig <;>
      · simp only [Events.step] at he
        split at he <;> cases he
        rfl
    refine ⟨h.poised, fun _ => Option.some_ne_none _, h.stopped, fun hpc c' hc' => ?_⟩
    cases hc'
    exact (congrArg Ring.mappedFrameCount hring).trans (h.unmapped hpc c hc)
  | removed hu hd hd' =>
    have hm := hf.moded.steps (.of_step hd)
    exact rest ((h.poised.step hf.moded hd).step hm hd') rfl rfl
  | pinOpened hu =>
    have hfree : s.dev.renew.step .releaseMutex = some (s.dev.renew.goto .free) := rfl
    have hpoised := (Device.Poised.renew h.poised.engine).step (Founded.renew s.dev).1 hfree
    refine rest hpoised ?_ ?_ <;> exact (congrArg _ hu.1).trans rfl
  | pinClosed hp hpc hc =>
    have hfree : s.dev.step .releaseMutex = some (s.dev.goto .free) := by simp [Device.step, hc]
    refine rest (h.poised.step hf.moded hfree) ?_ ?_ <;> exact (congrArg _ hpc).trans rfl

theorem of_reachable (h : machine.Reachable s) : s.Supported := by
  refine h.invariant (I := Supported) ?_ fun s a s' hr hi _ hs => hi.takes (founded_of_reachable hr) (.of_step hs)
  refine rest ⟨.init, ⟨fun _ _ => Pool.free_zero, fun _ => Pool.free_zero⟩, ?_⟩ rfl rfl
  exact fun pc hpc => absurd hpc (Multiset.notMem_zero pc)

theorem draining (h : s.Supported) (hc : s.dev.ctl = .held) (hpc : s.pc.afterStop = true) :
    s.dev.eng.cap.draining = true := by
  rcases h.stopped hpc with hst | ⟨-, hd⟩
  · rw [hc] at hst
    cases hst
  · exact hd

end Supported

end IoctlDevice

namespace Slot

def source : BufferSource (Option Slot) where
  toCallbacks := callbacks
  settles {f} h := by
    cases f with
    | none => rfl
    | some c =>
      show (c.acquire.2).acquire.1 = none
      rw [c.acquire_none h]
      exact h

theorem ready_iff {f : Option Slot} :
    Fed.Ready source f ↔ ∃ c, f = some c ∧ c.ring.Acquirable := by
  cases f with
  | none => exact iff_of_false Bool.false_ne_true (by rintro ⟨c, ⟨⟩, -⟩)
  | some c =>
    constructor
    · intro h
      obtain ⟨answer, ha⟩ := Option.isSome_iff_exists.mp h
      exact ⟨c, rfl, (acquire_some ha).1⟩
    · rintro ⟨c', hc, ha⟩
      cases hc
      show (c.acquire.1).isSome = true
      simp [acquire, Ring.framesAcquire, ha]

end Slot

namespace IoctlDevice

/-- The engine with the slot as its front-end. A verb that calls the pump next owes it a call. -/
def fed (s : IoctlDevice) (short : Bool) : Fed (Option Slot) :=
  ⟨s.dev, s.slot, s.pc.pumpsNext.toNat, short⟩

/-- A map that fails behind its first frame, at the failure and as long as its frames are
mapped. -/
def unwinds (s : IoctlDevice) (o : VerbAnswer) : Bool :=
  match s.pc with
  | .allocate args i => 0 < i && i < args.frameCount && !o.allocated
  | .lock _ i _ => 0 < i && !ntSuccess o.status
  | .unmap _ _ next =>
    match next with
    | .mapFailed _ _ => s.slot.any fun c => c.ring.mappedFrameCount ≠ 0
    | .unmapped | .map _ | .release _ => false
  | _ => false

/-- The engine takes no frame: it drains, or the start was transmit-only. -/
def TakesNone (s : IoctlDevice) : Prop :=
  s.dev.eng.cap.draining = true ∨ ∀ c ∈ s.slot, c.ring.pumpRingOnStart = false

/-- No step of the device leaves a frame waiting, and no map unwinds frames that a running
engine could take. -/
def NoneWaits (s : IoctlDevice) (short : Bool) : Act → Prop
  | .dev a => (s.fed short).NoneWaits Slot.source a
  | .verb o => s.unwinds o = true → s.TakesNone
  | _ => True

section
variable {s s' : IoctlDevice} {short : Bool}

/-- A turn that neither starts a lap nor makes a frame ready. -/
theorem watched_of_still (h : (s.fed short).Watched Slot.source) (hpc : s.pc.pumpsNext = false)
    (hctl : s.dev.ctl.pumps = false) (heng : s'.dev.eng = s.dev.eng)
    (hready : s.dev.eng.cap.draining = false → Fed.Ready Slot.source s'.slot →
      Fed.Ready Slot.source s.slot) : (s'.fed short).Watched Slot.source := by
  intro hd hr hu
  have hd : s.dev.eng.cap.draining = false := heng ▸ hd
  rcases h hd (hready hd hr) (heng ▸ hu) with howes | hp
  · rw [show (s.fed short).owes = s.pc.pumpsNext.toNat from rfl, hpc] at howes
    cases howes
  · rw [show (s.fed short).dev.ctl = s.dev.ctl from rfl, hctl] at hp
    cases hp

theorem watched_of_pumpsNext (h : s.pc.pumpsNext = true) : (s.fed short).Watched Slot.source := by
  intro _ _ _
  rw [show (s.fed short).owes = s.pc.pumpsNext.toNat from rfl, h]
  exact .inl Nat.one_pos

theorem watched_of_notReady (h : s.dev.eng.cap.draining = false → ¬Fed.Ready Slot.source s.slot) :
    (s.fed short).Watched Slot.source := fun hd hr => absurd hr (h hd)

theorem not_ready_of_unmapped {c : Slot} (h : c.ring.mappedFrameCount = 0) :
    ¬Fed.Ready Slot.source (some c) := by
  rw [Slot.ready_iff]
  rintro ⟨c', hc, ha⟩
  cases hc
  exact ha.2.1 h

theorem not_ready_of_transmits {c : Slot} (h : c.ring.pumpRingOnStart = false) :
    ¬Fed.Ready Slot.source (some c) := by
  rw [Slot.ready_iff]
  rintro ⟨c', hc, ha⟩
  cases hc
  exact absurd (h.symm.trans ha.1) (by decide)

/-- A walk over the ring makes no frame ready: behind a stop the engine drains, under a map
the ring is empty, and behind a failed map the engine takes none. -/
theorem walk_not_ready (hsup : s.Supported) (hheld : s.dev.ctl = .held) {o : VerbAnswer}
    (hn : s.unwinds o = true → s.TakesNone) {i : ℕ} {force : Bool} {next : UnmapNext}
    (hpc : s.pc = .unmap i force next) {c : Slot} (hc : s.slot = some c)
    (hd : s.dev.eng.cap.draining = false) :
    c.ring.mappedFrameCount = 0 ∨ c.ring.pumpRingOnStart = false := by
  have hdrains : s.pc.afterStop = true → False := fun ha => by
    cases hd.symm.trans (hsup.draining hheld ha)
  cases next with
  | unmapped | release => exact (hdrains (by rw [hpc]; rfl)).elim
  | map args => exact .inl (hsup.unmapped (by rw [hpc]; rfl) c hc)
  | mapFailed status error =>
    by_cases hz : c.ring.mappedFrameCount = 0
    · exact .inl hz
    · refine .inr ((hn ?_).resolve_left (Bool.eq_false_iff.mp hd) c hc)
      simp [unwinds, hpc, hc, hz]

theorem watched_of_does (h : (s.fed short).Watched Slot.source) (hsup : s.Supported) (hf : s.Founded)
    (hheld : s.dev.ctl = .held) {o : VerbAnswer} (hn : s.unwinds o = true → s.TakesNone)
    (hx : Does s o s.pc s') : (s'.fed short).Watched Slot.source := by
  have hctl : s.dev.ctl.pumps = false := by rw [hheld]; rfl
  generalize hpc : s.pc = pc at hx
  have hstill : pc.pumpsNext = false → s'.dev.eng = s.dev.eng →
      (s.dev.eng.cap.draining = false → Fed.Ready Slot.source s'.slot → Fed.Ready Slot.source s.slot) →
        (s'.fed short).Watched Slot.source := fun hp => watched_of_still h (hpc ▸ hp) hctl
  cases hx with
  | ended hends =>
    refine hstill ?_ rfl fun _ => id
    cases pc <;> first | rfl | cases hends
  | pumped | quarantine | unmapHeld | validated | allocated | allLocked =>
    exact hstill rfl rfl fun _ => id
  | setOneShot hd | start hd | stop hd | listen hd | finish hd =>
    refine hstill rfl ?_ fun _ => id
    cases Device.Steps.of_step hd with
    | data ha => cases ha
    | _ => rfl
  | built =>
    intro hd
    cases hd
  | @setPumpRing c b =>
    cases b with
    | true => exact watched_of_pumpsNext rfl
    | false => exact watched_of_notReady fun _ => not_ready_of_transmits rfl
  | requeue => exact watched_of_pumpsNext rfl
  | pump hd =>
    -- the call has begun
    intro _ _ hu
    cases Device.Steps.of_step hd with
    | data ha he =>
      cases ha
      cases he
      cases hu.asks.head
  | unmapEmpty hc | unmapFrame hc =>
    refine watched_of_notReady fun hd => ?_
    rcases walk_not_ready hsup hheld hn hpc hc hd with hz | hp
    · exact not_ready_of_unmapped hz
    · exact not_ready_of_transmits hp
  | unmapDone => exact watched_of_notReady fun _ => not_ready_of_unmapped rfl
  | @notAllocated c args i hc hi ho =>
    refine watched_of_notReady fun hd => ?_
    by_cases hz : i = 0
    · exact not_ready_of_unmapped hz
    · refine not_ready_of_transmits ((hn ?_).resolve_left (Bool.eq_false_iff.mp hd) c hc)
      simp [unwinds, hpc, hi, ho, Nat.pos_of_ne_zero hz]
  | @notLocked c args i mdl hc ho =>
    refine watched_of_notReady fun hd => ?_
    by_cases hz : i = 0
    · exact not_ready_of_unmapped hz
    · refine not_ready_of_transmits ((hn ?_).resolve_left (Bool.eq_false_iff.mp hd) c hc)
      simp [unwinds, hpc, ho, Nat.pos_of_ne_zero hz]
  | @locked c args i mdl hc =>
    exact watched_of_notReady fun _ => not_ready_of_unmapped (hsup.unmapped (by rw [hpc]; rfl) c hc)
  | @published c args hc =>
    unfold publishStep
    split
    · exact watched_of_pumpsNext rfl
    · next hrun =>
      -- a stream that does not run belongs to an engine that drains
      have hagrees := (hf.running (by rw [hc]; exact Option.some_ne_none c)).agrees (by rw [hheld]; rfl)
      exact watched_of_notReady fun hd => absurd (hagrees.mpr hd) hrun
  | @events c pc pc' a events hc ht he =>
    refine hstill (by cases ht <;> rfl) rfl fun _ hr => ?_
    rw [Slot.ready_iff] at hr ⊢
    obtain ⟨c', hc', ha⟩ := hr
    cases hc'
    have hring : Slot.ring { c with events } = c.ring := ht.ring he
    exact ⟨c, hc, hring ▸ ha⟩
  | destroy => exact watched_of_notReady fun _ => Bool.false_ne_true

theorem watched_of_dev (h : (s.fed short).Watched Slot.source) (hsup : s.Supported) (hf : s.Founded)
    {a : Device.Act} (hn : s.NoneWaits short (.dev a)) (hx : s.devStep a = some s') :
    (s'.fed ((s.fed short).shorts a)).Watched Slot.source := by
  unfold devStep at hx
  split at hx
  · next hp =>
    -- the stream owns the engine, and no slot is there
    split at hx
    · obtain ⟨dev, -, rfl⟩ := Option.map_eq_some_iff.mp hx
      refine watched_of_notReady fun _ => ?_
      show ¬Fed.Ready Slot.source s.slot
      rw [hf.pin hp]
      exact Bool.false_ne_true
    · cases hx
  · split at hx
    · obtain ⟨p, hfeed, rfl⟩ := Option.map_eq_some_iff.mp hx
      have hstep : (s.fed short).devStep Slot.source a =
          some ⟨p.1, p.2, s.pc.pumpsNext.toNat, (s.fed short).shorts a⟩ :=
        Option.map_eq_some_iff.mpr ⟨p, hfeed, rfl⟩
      by_cases hrun : ∃ pc o, a = .run pc o
      · obtain ⟨pc, o, rfl⟩ := hrun
        exact h.run hsup.poised.engine hsup.poised.halted hsup.poised.called hf.moded hn hstep
      · push Not at hrun
        exact h.quietly hf.moded hrun hstep
    · cases hx

/-- What is left of the steps takes or releases the mutex, or turns to the events. -/
theorem watched_of_takes (h : (s.fed short).Watched Slot.source) (hsup : s.Supported) (hf : s.Founded)
    {a : Act} (ha : ∀ x, a ≠ .dev x) (hn : s.NoneWaits short a) (hx : Takes s a s') :
    (s'.fed short).Watched Slot.source := by
  cases hx with
  | slotDev | pinDev => exact absurd rfl (ha _)
  | same => exact h
  | enters hu he hd =>
    refine watched_of_still h (by rw [hu.1]; rfl) (by rw [hu.2]; rfl) ?_ fun _ => id
    cases Device.Steps.of_step hd with
    | data ha => cases ha
    | acquireMutex => rfl
  | verb hc hx => exact watched_of_does h hsup hf hc hn hx
  | @signal a x c events hc hsig he =>
    have hring : events.ring = c.events.ring := by
      obtain ⟨n, e, rest, rfl | rfl⟩ := hsig <;>
      · simp only [Events.step] at he
        split at he <;> cases he
        rfl
    have hready : Fed.Ready Slot.source (some { c with events }) ↔ Fed.Ready Slot.source s.slot := by
      have hsame : Slot.ring { c with events } = c.ring := hring
      rw [hc, Slot.ready_iff, Slot.ready_iff]
      constructor
      · rintro ⟨c', hc', ha⟩
        cases hc'
        exact ⟨c, rfl, hsame ▸ ha⟩
      · rintro ⟨c', hc', ha⟩
        cases hc'
        exact ⟨_, rfl, hsame.symm ▸ ha⟩
    exact fun hd hr hu => h hd (hready.mp hr) hu
  | removed hu hd hd' =>
    refine watched_of_still h (by rw [hu.1]; rfl) (by rw [hu.2]; rfl) ?_ fun _ => id
    cases Device.Steps.of_step hd with
    | data ha => cases ha
    | acquireMutex =>
      cases Device.Steps.of_step hd' with
      | data ha => cases ha
      | surpriseRemoval => rfl
  | pinOpened hu hs =>
    refine watched_of_notReady fun _ => ?_
    show ¬Fed.Ready Slot.source s.slot
    rw [hs]
    exact Bool.false_ne_true
  | pinClosed hp =>
    refine watched_of_notReady fun _ => ?_
    show ¬Fed.Ready Slot.source s.slot
    rw [hf.pin hp]
    exact Bool.false_ne_true

end
end IoctlDevice

/-- The device with its slot, and whether the last lap has rejected a frame. -/
structure FedSlot where
  device : IoctlDevice
  short : Bool

namespace FedSlot

def fed (s : FedSlot) : Fed (Option Slot) := s.device.fed s.short

def shorts (s : FedSlot) : IoctlDevice.Act → Bool
  | .dev a => s.fed.shorts a
  | _ => s.short

def step (s : FedSlot) (a : IoctlDevice.Act) : Option FedSlot :=
  (s.device.step a).map fun device => ⟨device, s.shorts a⟩

def machine : Machine FedSlot IoctlDevice.Act := ⟨⟨IoctlDevice.create, false⟩, step⟩

def NoneWaits (s : FedSlot) : IoctlDevice.Act → Prop := s.device.NoneWaits s.short

variable {s : FedSlot}

theorem reachable {P : FedSlot → IoctlDevice.Act → Prop} (h : machine.Reaches P s) :
    IoctlDevice.machine.Reachable s.device := by
  refine h.project (N := IoctlDevice.machine) device rfl ?_
  intro s a s' hs hr
  obtain ⟨d, hd, rfl⟩ := Option.map_eq_some_iff.mp hs
  exact hr.step trivial hd

theorem watched_of_reaches (h : machine.Reaches NoneWaits s) : s.fed.Watched Slot.source := by
  refine h.invariant (I := fun s => s.fed.Watched Slot.source) (fun hd => by cases hd) ?_
  intro s a s' hr hi hn hs
  have hsup := IoctlDevice.Supported.of_reachable (reachable hr)
  have hf := IoctlDevice.founded_of_reachable (reachable hr)
  obtain ⟨d, hd, rfl⟩ := Option.map_eq_some_iff.mp hs
  cases a with
  | dev a => exact IoctlDevice.watched_of_dev hi hsup hf hn hd
  | _ => exact IoctlDevice.watched_of_takes hi hsup hf (by rintro x ⟨⟩) hn (.of_step hd)

end FedSlot

/-- While no failed attach, no lap that a rejected buffer brought to its bound, and no map that
unwinds leaves a buffer waiting, no descriptor of a quiescent running engine is idle beside a
ready buffer: a read parked at the stream, or the ring frame whose turn it is. -/
theorem no_stalled_pump (s : Fed (List Read)) (t : FedSlot) (c : Slot) :
    ((Fed.machine Read.frontEnd).Reaches (Fed.Attends Read.frontEnd.toBufferSource) s →
      s.Quiescent → s.dev.eng.cap.draining = false → (∃ r ∈ s.front, r.mdl ≠ none) →
        s.dev.eng.cap.freeList = []) ∧
      (FedSlot.machine.Reaches FedSlot.NoneWaits t → t.fed.Quiescent →
        t.device.dev.eng.cap.draining = false → t.device.slot = some c → c.ring.Acquirable →
          t.device.dev.eng.cap.freeList = []) := by
  refine ⟨fun h hq hd hready => ?_, fun h hq hd hc hready => ?_⟩
  · have heng := Device.engine_reachable (Fed.reachable h)
    refine (Fed.Watched.of_reaches h).freeList_eq_nil heng hq hd ?_
    exact (Read.acquireBuffer_isSome s.front).mpr hready
  · have heng := (IoctlDevice.Supported.of_reachable (FedSlot.reachable h)).poised.engine
    refine (FedSlot.watched_of_reaches h).freeList_eq_nil heng hq hd ?_
    exact Slot.ready_iff.mpr ⟨c, hc, hready⟩

namespace IoctlDevice

theorem takesNone_iff (s : IoctlDevice) : s.TakesNone ↔ s.dev.eng.cap.draining = true ∨
    (s.slot.all fun c => !c.ring.pumpRingOnStart) = true := by
  unfold TakesNone
  cases s.slot <;> simp

instance (s : IoctlDevice) : Decidable s.TakesNone := decidable_of_iff' _ s.takesNone_iff

instance (s : IoctlDevice) (short : Bool) (a : Act) : Decidable (s.NoneWaits short a) :=
  match a with
  | .dev a => inferInstanceAs (Decidable ((s.fed short).NoneWaits Slot.source a))
  | .verb o => inferInstanceAs (Decidable (s.unwinds o = true → s.TakesNone))
  | .request _ _ _ | .pass _ | .fire _ _ _ | .cleanup _ | .surpriseRemoval | .uninit | .openPin
  | .closePin => .isTrue trivial

/-- The step is the device's. -/
def Act.isDev : Act → Bool
  | .dev _ => true
  | _ => false

/-- A step of another than the device, before the first lap. -/
def Quietly (s : IoctlDevice) (a : Act) : Prop := a.isDev = false ∧ s.NoneWaits false a

instance (s : IoctlDevice) (a : Act) : Decidable (s.Quietly a) := inferInstanceAs (Decidable (_ ∧ _))

def prepareFiveRun : List Act :=
  [.request 1 .met (.prepareVideo 5), .goes, .goes, .request 1 .met (.mapVideoFrame ⟨5, 8, 0⟩)]

/-- The map's walk over the empty ring is through. -/
def mappingFive : IoctlDevice :=
  (machine.after Quietly prepareFiveRun).goto (.unmap maxVideoFrames false (.map ⟨5, 8, 0⟩))

theorem mappingFive_reaches : machine.Reaches Quietly mappingFive := by
  have hr := machine.reaches_after Quietly prepareFiveRun
  have hs : (machine.after Quietly prepareFiveRun).slot = some (.fresh 1 8) := rfl
  refine reaches_walk ⟨true, statusSuccess, true, 8, statusSuccess⟩ (fun j => ?_) (by decide) hs
    (by decide) hr (fun _ _ _ => rfl) maxVideoFrames (Nat.zero_add _).le
  exact ⟨rfl, fun hun => by cases hun⟩

end IoctlDevice

namespace FedSlot

instance (s : FedSlot) (a : IoctlDevice.Act) : Decidable (s.NoneWaits a) :=
  inferInstanceAs (Decidable (s.device.NoneWaits s.short a))

/-- No lap rejects a frame while the engine does not run. -/
theorem reaches_of_quietly {s : IoctlDevice} (h : IoctlDevice.machine.Reaches IoctlDevice.Quietly s) :
    machine.Reaches NoneWaits ⟨s, false⟩ := by
  refine h.invariant (I := fun s => machine.Reaches NoneWaits ⟨s, false⟩) .init ?_
  intro s a s' _ hi hn hs
  refine hi.step (a := a) hn.2 ?_
  have hshort : shorts ⟨s, false⟩ a = false := by
    cases a with
    | dev a => cases hn.1
    | _ => rfl
  show (s.step a).map _ = _
  rw [show s.step a = some s' from hs, hshort]
  rfl

def attachRun (d : FrameId) : List Device.Act :=
  [.runs (.pump .control (.claim d)),
    .run (.pump .control (.acquire d d)) ⟨statusSuccess, some (d.val, some 8), true⟩,
    .runs (.pump .control (.publish d d d)), .runs (.pump .control (.beginAttach d d))]

def attachedRun (d : FrameId) (work : List Device.Act) : List Device.Act :=
  [Device.Act.runs (.attachAtBus d), .runs (.attachComplete d statusSuccess d), .runs (.attachLive true),
    .runs (.requestWork .completion .exchange)] ++ work ++ [Device.Act.runs .irpDone]

/-- The five frames are mapped, the video is started, and four of them are attached. -/
def ringRun : List IoctlDevice.Act :=
  List.replicate 15 IoctlDevice.Act.goes ++ .request 1 .met (.startVideo 1) ::
    List.replicate 4 IoctlDevice.Act.goes ++
    IoctlDevice.engineRun [.runs (.pump .handler .elect), .runs (.pump .handler .top),
      .runs (.pump .handler (.claim 0)), .runs (.pump .handler .bottom)] ++
    [IoctlDevice.Act.goes, .goes] ++
    IoctlDevice.engineRun (List.replicate 11 Device.Act.go ++
      [Device.Act.runs (.pump .control .elect), .runs (.pump .control .top)] ++
      (List.finRange captureFrameCount).flatMap attachRun ++
      [Device.Act.runs (.pump .control .bottom)] ++
      attachedRun 0 [.runs (.requestWork .completion .acquireLock),
        .runs (.requestWork .completion .queue)] ++
      [1, 2, 3].flatMap (attachedRun · []) ++ [Device.Act.runs .irpDoneTest] ++
      List.replicate 8 Device.Act.go) ++ [IoctlDevice.Act.goes, .goes]

def ringed : FedSlot := Machine.after ⟨⟨IoctlDevice.mappingFive, false⟩, step⟩ NoneWaits ringRun

theorem ringed_reaches : machine.Reaches NoneWaits ringed :=
  (reaches_of_quietly IoctlDevice.mappingFive_reaches).trans (Machine.reaches_after
    (M := ⟨⟨IoctlDevice.mappingFive, false⟩, step⟩) NoneWaits ringRun) fun _ _ => id

end FedSlot

theorem no_stalled_pump_ringed :
    ((Fed.machine Read.frontEnd).after (Fed.Attends Read.frontEnd.toBufferSource)
        Fed.fourAttachedRun).dev.eng.cap.freeList = [] ∧
      FedSlot.ringed.device.dev.eng.cap.freeList = [] := by
  have hc : (FedSlot.ringed.device.slot.any fun c => c.ring.Acquirable) = true := by decide +kernel
  obtain ⟨c, hc, ha⟩ := (Option.any_eq_true _ _).mp hc
  obtain ⟨hreads, hring⟩ := no_stalled_pump ((Fed.machine Read.frontEnd).after
    (Fed.Attends Read.frontEnd.toBufferSource) Fed.fourAttachedRun) FedSlot.ringed c
  constructor
  · have hr := Machine.reaches_after (M := Fed.machine Read.frontEnd)
      (Fed.Attends Read.frontEnd.toBufferSource) Fed.fourAttachedRun
    exact hreads hr (by decide) (by decide) (by decide)
  · exact hring FedSlot.ringed_reaches (by decide +kernel) (by decide +kernel) hc (by simpa using ha)

namespace IoctlDevice

/-- A video is started with nothing mapped, and two frames are to be mapped. -/
def startEmptyRun : List Act :=
  [.request 1 .met (.prepareVideo 2), .goes, .goes, .request 1 .met (.startVideo 1)] ++
    List.replicate 4 Act.goes ++
    engineRun [.runs (.pump .handler .elect), .runs (.pump .handler .top),
      .runs (.pump .handler (.claim 0)), .runs (.pump .handler .bottom)] ++ [Act.goes, .goes] ++
    engineRun (List.replicate 11 Device.Act.go ++
      [Device.Act.runs (.pump .control .elect), .runs (.pump .control .top),
        .runs (.pump .control (.claim 0)), .runs (.pump .control (.acquire 0 0)),
        .runs (.pump .control (.giveBack 0)), .runs (.pump .control .bottom)] ++
      List.replicate 4 Device.Act.go) ++
    [Act.goes, .goes, .request 1 .met (.mapVideoFrame ⟨2, 8, 0⟩)]

def mappingLive : IoctlDevice :=
  (machine.after (fun _ _ => True) startEmptyRun).goto (.unmap maxVideoFrames false (.map ⟨2, 8, 0⟩))

theorem mappingLive_reaches : machine.Reachable mappingLive := by
  have hr := machine.reaches_after (fun _ _ => True) startEmptyRun
  have hx : ((machine.after (fun _ _ => True) startEmptyRun).slot.any fun c =>
      ∀ k < maxVideoFrames, 0 ≤ k → c.ring.frames k = ⟨none, .queued⟩) = true := by decide +kernel
  obtain ⟨c, hc, hx⟩ := (Option.any_eq_true _ _).mp hx
  exact reaches_walk ⟨true, statusSuccess, true, 8, statusSuccess⟩ (fun _ => trivial)
    (by decide +kernel) hc (by decide +kernel) hr (by simpa using hx) maxVideoFrames
    (Nat.zero_add _).le

/-- The second frame does not lock. -/
def mapFailedRun : List Act :=
  List.replicate 5 Act.goes ++ [.verb ⟨true, statusSuccess, true, 8, statusInsufficientResources⟩]

def unwinding : IoctlDevice := Machine.after ⟨mappingLive, step⟩ (fun _ _ => True) mapFailedRun

end IoctlDevice

/-- Without the condition a failed attach leaves its descriptor idle beside a parked read, and
a failed map shows the running engine a frame that no lap is to take. -/
theorem pump_stalls :
    (¬∀ s, (Fed.machine Read.frontEnd).Reachable s → s.Quiescent → s.dev.eng.cap.draining = false →
      (∃ r ∈ s.front, r.mdl ≠ none) → s.dev.eng.cap.freeList = []) ∧
      ¬∀ s c, IoctlDevice.machine.Reachable s → (s.fed false).Quiescent →
        s.dev.eng.cap.draining = false → s.slot = some c → c.ring.Acquirable →
          s.dev.eng.cap.freeList = [] := by
  constructor
  · intro h
    have hr := Machine.reaches_after (M := Fed.machine Read.frontEnd) (fun _ _ => True) Fed.attachFailedRun
    have hnil := h _ hr (by decide) (by decide) (by decide)
    revert hnil
    decide
  · intro h
    have hr := IoctlDevice.mappingLive_reaches.trans (Machine.reaches_after
      (M := ⟨IoctlDevice.mappingLive, IoctlDevice.step⟩) (fun _ _ => True)
      IoctlDevice.mapFailedRun) fun _ _ => id
    have hc : (IoctlDevice.unwinding.slot.any fun c => c.ring.Acquirable) = true := by decide +kernel
    obtain ⟨c, hc, ha⟩ := (Option.any_eq_true _ _).mp hc
    have hnil := h _ c hr (by decide +kernel) (by decide +kernel) hc (by simpa using ha)
    have hfree : IoctlDevice.unwinding.dev.eng.cap.freeList ≠ [] := by decide +kernel
    exact hfree hnil

end Photonic
