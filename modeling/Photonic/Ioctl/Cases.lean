import Photonic.Device.Projection
import Photonic.Ioctl.Verbs

namespace Photonic

/-- The points at which a verb may have nothing left to do but to complete. -/
def VerbPc.ends : VerbPc → Bool
  | .build _ | .started | .validate _ | .arm => true
  | _ => false

inductive EventTurn : VerbPc → Events.Act → VerbPc → Prop
  | notRegistered {handle type : ℕ} {a r : Bool} {status : NtStatus} {error : PlError} :
      EventTurn (.register handle type) (.register handle type a r) (.finish status error)
  | registered {handle type : ℕ} :
      EventTurn (.register handle type) (.register handle type true true) .insert
  | inserted : EventTurn .insert .insert (.finish statusSuccess .success)
  | notFound {handle type : ℕ} : EventTurn (.unregister handle type) (.unregister handle type)
      (.finish statusNotFound .success)
  | found {handle type : ℕ} : EventTurn (.unregister handle type) (.unregister handle type) .dereference
  | unregistered : EventTurn .dereference .dereference (.finish statusSuccess .success)
  | flushed {next : ReleaseNext} : EventTurn (.flush next) .flush (.flushing next)
  | dropped {next : ReleaseNext} : EventTurn (.flushing next) .dereference (.flushing next)
  | allDropped {next : ReleaseNext} : EventTurn (.flushing next) .dereference (.destroy next)

theorem EventTurn.ring {pc pc' : VerbPc} {a : Events.Act} {e e' : Events} (h : EventTurn pc a pc')
    (hs : e.step a = some e') : e'.ring = e.ring := by
  cases h with
  | notRegistered | registered =>
    simp only [Events.step] at hs
    split at hs
    · split at hs
      · cases hs
        rfl
      split at hs <;> cases hs <;> rfl
    · cases hs
  | inserted | unregistered | dropped | allDropped =>
    simp only [Events.step] at hs
    split at hs <;> cases hs <;> rfl
  | notFound | found =>
    simp only [Events.step] at hs
    split at hs
    · split at hs <;> cases hs <;> rfl
    · cases hs
  | flushed =>
    simp only [Events.step] at hs
    split at hs <;> cases hs
    rfl

namespace IoctlDevice

section
variable (s : IoctlDevice) (c : Slot) (pc : VerbPc)

@[simp] theorem goto_dev : (s.goto pc).dev = s.dev := rfl
@[simp] theorem goto_slot : (s.goto pc).slot = s.slot := rfl
@[simp] theorem goto_pinOpen : (s.goto pc).pinOpen = s.pinOpen := rfl
@[simp] theorem goto_pc : (s.goto pc).pc = pc := rfl
@[simp] theorem goto_mdls : (s.goto pc).mdls = s.mdls := rfl
@[simp] theorem setSlot_dev : (s.setSlot c pc).dev = s.dev := rfl
@[simp] theorem setSlot_slot : (s.setSlot c pc).slot = some c := rfl
@[simp] theorem setSlot_pinOpen : (s.setSlot c pc).pinOpen = s.pinOpen := rfl
@[simp] theorem setSlot_pc : (s.setSlot c pc).pc = pc := rfl
@[simp] theorem setSlot_mdls : (s.setSlot c pc).mdls = s.mdls := rfl

end

inductive Does (s : IoctlDevice) (o : VerbAnswer) : VerbPc → IoctlDevice → Prop
  | ended {pc : VerbPc} {status : NtStatus} {error : PlError} (hpc : pc.ends = true) :
      Does s o pc (s.goto (.finish status error))
  | built {fileObject : ℕ} (hp : s.pinOpen = false) :
      Does s o (.build fileObject) { s with
        dev := s.dev.renew
        slot := some (.fresh fileObject o.imageSize)
        pc := .finish statusSuccess .success }
  | setOneShot {b pumpRing : Bool} {dev : Device} (hd : s.dev.step (.api (.setOneShot b)) = some dev) :
      Does s o (.setOneShot b pumpRing) { s with dev, pc := .setPumpRing pumpRing }
  | setPumpRing {c : Slot} {b : Bool} (hc : s.slot = some c) :
      Does s o (.setPumpRing b) (s.setSlot (c.setRing { c.ring with pumpRingOnStart := b })
        (if b then .requeue .start else .start false))
  | requeue {c : Slot} {next : PumpNext} (hc : s.slot = some c) :
      Does s o (.requeue next) (s.setSlot (c.setRing c.ring.framesRequeue) (.pump next))
  | pump {next : PumpNext} {dev : Device} (hd : s.dev.step .callPump = some dev) :
      Does s o (.pump next) { s with dev, pc := .pumped next }
  | pumped {next : PumpNext} (hp : Pool.Free Pc.handlerPump s.dev.eng.pool) :
      Does s o (.pumped next) (s.goto next.pc)
  | start {pumpRing : Bool} {dev : Device} (hd : s.dev.step (.api (.start pumpRing)) = some dev) :
      Does s o (.start pumpRing) { s with dev, pc := .started }
  | stop {next : StopNext} {dev : Device} (hd : s.dev.step (.api .stop) = some dev) :
      Does s o (.stop next) { s with dev, pc := next.pc }
  | quarantine {next : ReleaseNext} :
      Does s o (.quarantine next)
        (s.goto (.unmap 0 s.dev.eng.cap.hasQuarantinedFrames (.release next)))
  | unmapEmpty {c : Slot} {i : ℕ} {force : Bool} {next : UnmapNext} (hc : s.slot = some c)
      (hi : i < maxVideoFrames) (hm : (c.ring.frames i).mdl = none) :
      Does s o (.unmap i force next)
        (s.setSlot (c.setRing (c.ring.unmapFrame i)) (.unmap (i + 1) force next))
  | unmapHeld {c : Slot} {i : ℕ} {next : UnmapNext} {mdl : Mdl} (hc : s.slot = some c)
      (hi : i < maxVideoFrames) (hm : (c.ring.frames i).mdl = some mdl)
      (hq : s.dev.eng.cap.cookieQuarantined i = true) :
      Does s o (.unmap i false next) (s.goto (.unmap (i + 1) false next))
  | unmapFrame {c : Slot} {i : ℕ} {force : Bool} {next : UnmapNext} {mdl : Mdl} (hc : s.slot = some c)
      (hi : i < maxVideoFrames) (hm : (c.ring.frames i).mdl = some mdl)
      (hq : force = true ∨ s.dev.eng.cap.cookieQuarantined i = false) :
      Does s o (.unmap i force next)
        { s.setSlot (c.setRing (c.ring.unmapFrame i)) (.unmap (i + 1) force next) with
          mdls := s.mdls.record mdl.id [.unlock, .free] }
  | unmapDone {c : Slot} {i : ℕ} {force : Bool} {next : UnmapNext} (hc : s.slot = some c)
      (hi : maxVideoFrames ≤ i) :
      Does s o (.unmap i force next)
        (s.setSlot { c.restart c.ring.reset with shots := if next.maps then [] else c.shots } next.pc)
  | validated {c : Slot} {args : MapArgs} (hc : s.slot = some c) (hpos : 0 < args.frameCount)
      (hle : args.frameCount ≤ maxVideoFrames) (hsize : args.frameSize = c.imageSize) :
      Does s o (.validate args) (s.goto (.allocate args 0))
  | allocated {args : MapArgs} {i : ℕ} (hi : i < args.frameCount) :
      Does s o (.allocate args i)
        { s with mdls := s.mdls.alloc, pc := .lock args i ⟨s.mdls.next, args.frameSize⟩ }
  | notAllocated {c : Slot} {args : MapArgs} {i : ℕ} (hc : s.slot = some c)
      (hi : i < args.frameCount) (ho : o.allocated = false) :
      Does s o (.allocate args i) (s.mapFailed c i statusInsufficientResources .outOfMemory)
  | allLocked {args : MapArgs} {i : ℕ} (hi : args.frameCount ≤ i) :
      Does s o (.allocate args i) (s.goto (.publish args))
  | locked {c : Slot} {args : MapArgs} {i : ℕ} {mdl : Mdl} (hc : s.slot = some c) :
      Does s o (.lock args i mdl)
        { s.setSlot (c.setRing (c.ring.setFrame i ⟨some mdl, .queued⟩)) (.allocate args (i + 1)) with
          mdls := s.mdls.record mdl.id [.lock] }
  | notLocked {c : Slot} {args : MapArgs} {i : ℕ} {mdl : Mdl} (hc : s.slot = some c)
      (ho : ntSuccess o.status = false) :
      Does s o (.lock args i mdl)
        ({ s with mdls := s.mdls.record mdl.id [.free] }.mapFailed c i o.status .lockFailed)
  | published {c : Slot} {args : MapArgs} (hc : s.slot = some c) :
      Does s o (.publish args) (s.publishStep c args)
  | events {c : Slot} {pc pc' : VerbPc} {a : Events.Act} {events : Events} (hc : s.slot = some c)
      (ht : EventTurn pc a pc') (he : c.events.step a = some events) :
      Does s o pc (s.setSlot { c with events } pc')
  | listen {dev : Device} (hd : s.dev.step (.api .ensureListen) = some dev) :
      Does s o .listen { s with dev, pc := .arm }
  | destroy {next : ReleaseNext} {dev : Device} (hd : s.dev.step (.api .destroy) = some dev) :
      Does s o (.destroy next) { s with dev, slot := none, pc := next.pc }
  | finish {status : NtStatus} {error : PlError} {dev : Device}
      (hd : s.dev.step .releaseMutex = some dev) :
      Does s o (.finish status error) { s with dev, pc := .idle }

theorem call_eq {s s' : IoctlDevice} {a : Device.Act} {pc : VerbPc} (h : s.call a pc = some s') :
    ∃ dev, s.dev.step a = some dev ∧ s' = { s with dev, pc } := by
  obtain ⟨dev, hd, rfl⟩ := Option.map_eq_some_iff.mp h
  exact ⟨dev, hd, rfl⟩

theorem eventsStep_eq {s s' : IoctlDevice} {c : Slot} {a : Events.Act} {pc : Events → VerbPc}
    (h : s.eventsStep c a pc = some s') :
    ∃ events, c.events.step a = some events ∧ s' = s.setSlot { c with events } (pc events) := by
  obtain ⟨events, he, rfl⟩ := Option.map_eq_some_iff.mp h
  exact ⟨events, he, rfl⟩

theorem Does.of_build {s s' : IoctlDevice} {o : VerbAnswer} {fileObject : ℕ}
    (h : s.buildStep o fileObject = some s') : Does s o (.build fileObject) s' := by
  unfold buildStep at h
  split at h
  · cases h
    exact .ended rfl
  · next hp =>
    split at h
    · cases h
      exact .ended rfl
    split at h
    · cases h
      exact .ended rfl
    split at h
    · cases h
      exact .ended rfl
    split at h
    · cases h
      exact .ended rfl
    · cases h
      exact .built (by simpa using hp)

theorem Does.of_unmap {s : IoctlDevice} {o : VerbAnswer} {c : Slot} (hc : s.slot = some c) (i : ℕ)
    (force : Bool) (next : UnmapNext) : Does s o (.unmap i force next) (s.unmapStep c i force next) := by
  unfold unmapStep
  split
  · next hi =>
    split
    · next hm => exact .unmapEmpty hc hi hm
    · next mdl hm =>
      split
      · next hq =>
        have hq : force = false ∧ s.dev.eng.cap.cookieQuarantined i = true := by simpa using hq
        obtain ⟨rfl, hq⟩ := hq
        exact .unmapHeld hc hi hm hq
      · next hq =>
        refine .unmapFrame hc hi hm ?_
        cases force with
        | true => exact .inl rfl
        | false => exact .inr (by simpa using hq)
  · next hi => exact .unmapDone hc (Nat.le_of_not_lt hi)

theorem Does.of_validate {s s' : IoctlDevice} {o : VerbAnswer} {c : Slot} {args : MapArgs}
    (hc : s.slot = some c) (h : s.validateStep c args = some s') : Does s o (.validate args) s' := by
  unfold validateStep at h
  split at h
  · cases h
    exact .ended rfl
  · next hcount =>
    split at h
    · cases h
      exact .ended rfl
    · next hsize =>
      split at h
      · cases h
        exact .ended rfl
      · cases h
        exact .validated hc (by omega) (by omega) (not_not.mp hsize)

theorem Does.of_slotStep {s s' : IoctlDevice} {o : VerbAnswer} {c : Slot} {pc : VerbPc}
    (hc : s.slot = some c) (h : s.slotStep c o pc = some s') : Does s o pc s' := by
  cases pc with
  | setPumpRing b =>
    cases h
    exact .setPumpRing hc
  | requeue next =>
    cases h
    exact .requeue hc
  | unmap i force next =>
    cases h
    exact .of_unmap hc i force next
  | validate args => exact .of_validate hc h
  | allocate args i =>
    cases h
    unfold allocateStep
    split
    · next hi =>
      split
      · exact .allocated hi
      · next ho => exact .notAllocated hc hi (by simpa using ho)
    · next hi => exact .allLocked (Nat.le_of_not_lt hi)
  | lock args i mdl =>
    cases h
    unfold lockStep
    split
    · exact .locked hc
    · next ho => exact .notLocked hc (by simpa using ho)
  | publish args =>
    cases h
    exact .published hc
  | register handle type =>
    obtain ⟨events, he, rfl⟩ := eventsStep_eq h
    split
    · exact .events hc .notRegistered he
    · next ha =>
      split
      · exact .events hc .notRegistered he
      · next hr =>
        have ha : o.allocated = true := by simpa using ha
        have hr : ntSuccess o.status = true := by simpa using hr
        rw [ha, hr] at he
        exact .events hc .registered he
  | insert =>
    obtain ⟨events, he, rfl⟩ := eventsStep_eq h
    exact .events hc .inserted he
  | unregister handle type =>
    obtain ⟨events, he, rfl⟩ := eventsStep_eq h
    split
    · exact .events hc .notFound he
    · exact .events hc .found he
  | dereference =>
    obtain ⟨events, he, rfl⟩ := eventsStep_eq h
    exact .events hc .unregistered he
  | flush next =>
    obtain ⟨events, he, rfl⟩ := eventsStep_eq h
    exact .events hc .flushed he
  | flushing next =>
    obtain ⟨events, he, rfl⟩ := eventsStep_eq h
    split
    · exact .events hc .allDropped he
    · exact .events hc .dropped he
  | _ => cases h

theorem Does.of_verbStep {s s' : IoctlDevice} {o : VerbAnswer} (h : s.verbStep o = some s') :
    Does s o s.pc s' := by
  unfold verbStep at h
  split at h
  · cases h
  · next hpc => exact hpc ▸ .of_build h
  · next hpc =>
    obtain ⟨dev, hd, rfl⟩ := call_eq h
    exact hpc ▸ .setOneShot hd
  · next hpc =>
    obtain ⟨dev, hd, rfl⟩ := call_eq h
    exact hpc ▸ .pump hd
  · next hpc =>
    split at h
    · next hp =>
      cases h
      exact hpc ▸ .pumped hp
    · cases h
  · next hpc =>
    obtain ⟨dev, hd, rfl⟩ := call_eq h
    exact hpc ▸ .start hd
  · next hpc =>
    unfold startedStep at h
    rw [hpc]
    split at h
    · cases h
      exact .ended rfl
    · split at h
      · cases h
      · cases h
        exact .ended rfl
  · next hpc =>
    obtain ⟨dev, hd, rfl⟩ := call_eq h
    exact hpc ▸ .stop hd
  · next hpc =>
    cases h
    exact hpc ▸ .quarantine
  · next hpc =>
    obtain ⟨dev, hd, rfl⟩ := call_eq h
    exact hpc ▸ .listen hd
  · next hpc =>
    rw [hpc]
    split at h <;> cases h <;> exact .ended rfl
  · next hpc =>
    obtain ⟨t, ht, rfl⟩ := Option.map_eq_some_iff.mp h
    obtain ⟨dev, hd, rfl⟩ := call_eq ht
    exact hpc ▸ .destroy hd
  · next hpc =>
    obtain ⟨dev, hd, rfl⟩ := call_eq h
    exact hpc ▸ .finish hd
  · obtain ⟨c, hc, h⟩ := Option.bind_eq_some_iff.mp h
    exact .of_slotStep hc h

/-- What brings a verb to work, or completes it at once. -/
inductive Enters (s : IoctlDevice) : VerbPc → Prop
  | request {fileObject : ℕ} {contract : Contract} {verb : Verb} {pc : VerbPc}
      (h : s.deviceControl fileObject contract verb = .goes pc) : Enters s pc
  | release (h : s.slot ≠ none) : Enters s (.stop (.release .finish))
  | nothing : Enters s (.finish statusSuccess .success)

/-- The branches of a step of the machine. -/
inductive Takes (s : IoctlDevice) : Act → IoctlDevice → Prop
  | slotDev {a : Device.Act} {dev : Device} {slot : Option Slot} (hp : s.pinOpen = false)
      (ha : a.shared = true) (h : s.dev.feed Slot.callbacks s.slot a = some (dev, slot)) :
      Takes s (.dev a) { s with dev, slot }
  | pinDev {a : Device.Act} {dev : Device} (hp : s.pinOpen = true)
      (ha : a.shared = true ∨ s.pc = .idle) (h : s.dev.step a = some dev) :
      Takes s (.dev a) { s with dev }
  | same {a : Act} : Takes s a s
  | enters {a : Act} {registered : Bool} {pc : VerbPc} {dev : Device} (hu : s.Unheld)
      (h : Enters s pc) (hd : s.dev.step .acquireMutex = some dev) :
      Takes s a { s with dev, registered, pc }
  | verb {o : VerbAnswer} {s' : IoctlDevice} (hc : s.dev.ctl = .held) (h : Does s o s.pc s') :
      Takes s (.verb o) s'
  | signal {a : Act} {x : Events.Act} {c : Slot} {events : Events} (hc : s.slot = some c)
      (hx : ∃ n e rest, x = .pass n ∨ x = .fire n e rest) (h : c.events.step x = some events) :
      Takes s a { s with slot := some { c with events } }
  | removed {dev dev' : Device} (hu : s.Unheld) (hd : s.dev.step .acquireMutex = some dev)
      (hd' : dev.step (.api .surpriseRemoval) = some dev') :
      Takes s .surpriseRemoval { s with dev := dev', pc := .finish statusSuccess .success }
  | pinOpened (hu : s.Unheld) (hs : s.slot = none) (hp : s.pinOpen = false) :
      Takes s .openPin { s with dev := s.dev.renew.goto .free, pinOpen := true }
  | pinClosed (hp : s.pinOpen = true) (hpc : s.pc = .idle) (hc : s.dev.ctl = .held)
      (hl : s.dev.life ≠ .alive) :
      Takes s .closePin { s with dev := s.dev.goto .free, pinOpen := false }

theorem Takes.of_signal {s s' : IoctlDevice} {a : Act} {x : Events.Act}
    (hx : ∃ n e rest, x = .pass n ∨ x = .fire n e rest) (h : s.signalStep x = some s') :
    Takes s a s' := by
  obtain ⟨c, hc, h⟩ := Option.bind_eq_some_iff.mp h
  obtain ⟨events, he, rfl⟩ := Option.map_eq_some_iff.mp h
  exact .signal hc hx he

theorem Takes.of_cleanup {s s' : IoctlDevice} {fileObject : ℕ} (h : s.cleanupStep fileObject = some s') :
    Takes s (.cleanup fileObject) s' := by
  unfold cleanupStep at h
  split at h
  · cases h
    exact .same
  split at h
  · next hu =>
    split at h
    · next ho =>
      obtain ⟨dev, hd, rfl⟩ := call_eq h
      obtain ⟨c, hc, -⟩ := ho
      refine .enters hu (.release ?_) hd
      rw [Option.mem_def.mp hc]
      nofun
    · cases h
      exact .same
  · cases h

theorem Takes.of_step {s s' : IoctlDevice} {a : Act} (h : s.step a = some s') : Takes s a s' := by
  cases a with
  | dev a =>
    simp only [step, devStep] at h
    split at h
    · next hp =>
      split at h
      · next ha =>
        obtain ⟨dev, hd, rfl⟩ := Option.map_eq_some_iff.mp h
        exact .pinDev hp ha hd
      · cases h
    · next hp =>
      split at h
      · next ha =>
        obtain ⟨p, hf, rfl⟩ := Option.map_eq_some_iff.mp h
        exact .slotDev (by simpa using hp) ha hf
      · cases h
  | request fileObject contract verb =>
    simp only [step] at h
    split at h
    · next hu =>
      split at h
      · cases h
        exact .same
      · next pc hg =>
        obtain ⟨dev, hd, rfl⟩ := call_eq h
        exact .enters hu.2 (.request hg) hd
    · cases h
  | verb o =>
    simp only [step] at h
    split at h
    · next hc => exact .verb hc (.of_verbStep h)
    · cases h
  | pass n => exact .of_signal ⟨n, ⟨0, 0, 0, 0, 0, 0⟩, [], .inl rfl⟩ h
  | fire n e rest => exact .of_signal ⟨n, e, rest, .inr rfl⟩ h
  | cleanup fileObject => exact .of_cleanup h
  | surpriseRemoval =>
    simp only [step] at h
    split at h
    · next hu =>
      obtain ⟨t, ht, h⟩ := Option.bind_eq_some_iff.mp h
      obtain ⟨dev, hd, rfl⟩ := call_eq ht
      obtain ⟨dev', hd', rfl⟩ := call_eq h
      exact .removed hu hd hd'
    · cases h
  | uninit =>
    simp only [step] at h
    split at h
    · next hu =>
      obtain ⟨dev, hd, rfl⟩ := call_eq h
      split
      · exact .enters hu .nothing hd
      · next hs => exact .enters hu (.release hs) hd
    · cases h
  | openPin =>
    simp only [step] at h
    split at h
    · next hu =>
      cases h
      exact .pinOpened hu.1 hu.2.1 hu.2.2.1
    · cases h
  | closePin =>
    simp only [step] at h
    split at h
    · next hp =>
      cases h
      exact .pinClosed hp.1 hp.2.1 hp.2.2.1 hp.2.2.2
    · cases h

end IoctlDevice
end Photonic
