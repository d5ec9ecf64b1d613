import Photonic.Stream.Reads

namespace Photonic

namespace Reads
variable (f : Reads) (srb : Cookie) (n : ℕ) (st : NtStatus) (b : Bool)

@[simp] theorem complete_received : (f.complete srb st).received = f.received := rfl
@[simp] theorem complete_pendingReads : (f.complete srb st).pendingReads = f.pendingReads := rfl
@[simp] theorem complete_ext : (f.complete srb st).ext = f.ext := rfl
@[simp] theorem complete_irpCancel : (f.complete srb st).irpCancel = f.irpCancel := rfl
@[simp] theorem completeRead_received : (f.completeRead srb n st).received = f.received := rfl
@[simp] theorem completeRead_pendingReads :
    (f.completeRead srb n st).pendingReads = f.pendingReads := rfl
@[simp] theorem completeRead_ext : (f.completeRead srb n st).ext = f.ext := rfl
@[simp] theorem completeRead_irpCancel : (f.completeRead srb n st).irpCancel = f.irpCancel := rfl
@[simp] theorem park_received : (f.park srb).received = f.received := rfl
@[simp] theorem park_completed : (f.park srb).completed = f.completed := rfl
@[simp] theorem park_pendingReads : (f.park srb).pendingReads = f.pendingReads ++ [srb] := rfl
@[simp] theorem park_irpCancel : (f.park srb).irpCancel = f.irpCancel := rfl
@[simp] theorem unpark_received : (f.unpark srb).received = f.received := rfl
@[simp] theorem unpark_completed : (f.unpark srb).completed = f.completed := rfl
@[simp] theorem unpark_pendingReads : (f.unpark srb).pendingReads = f.pendingReads.erase srb := rfl
@[simp] theorem unpark_irpCancel : (f.unpark srb).irpCancel = f.irpCancel := rfl

inductive Acquired (f : Reads) : Option (Cookie × Option ℕ) → Reads → Prop
  | none (h : f.pendingReads = []) : Acquired f none f
  | some {srb : Cookie} {rest : List Cookie} (h : f.pendingReads = srb :: rest) :
      Acquired f (some (srb, (f.srbs srb).mdl)) (f.unpark srb)

theorem acquired_acquireBuffer : Acquired f f.acquireBuffer.1 f.acquireBuffer.2 := by
  cases hp : f.pendingReads with
  | nil =>
    have h : f.acquireBuffer = (none, f) := by simp [acquireBuffer, hp]
    rw [h]
    exact .none hp
  | cons srb rest =>
    have h : f.acquireBuffer = (some (srb, (f.srbs srb).mdl), f.unpark srb) := by
      simp [acquireBuffer, hp]
    rw [h]
    exact .some hp

end Reads

namespace Pin

section
variable (s : Pin) (t : Thread) (f : Reads)

@[simp] theorem spawn_dev : (s.spawn t).dev = s.dev := rfl
@[simp] theorem spawn_reads : (s.spawn t).reads = s.reads := rfl
@[simp] theorem spawn_gate : (s.spawn t).gate = s.gate := rfl
@[simp] theorem spawn_closer : (s.spawn t).closer = s.closer := rfl
@[simp] theorem spawn_threads : (s.spawn t).threads = t ::ₘ s.threads := rfl
@[simp] theorem setReads_dev : (s.setReads f).dev = s.dev := rfl
@[simp] theorem setReads_reads : (s.setReads f).reads = f := rfl
@[simp] theorem setReads_gate : (s.setReads f).gate = s.gate := rfl
@[simp] theorem setReads_closer : (s.setReads f).closer = s.closer := rfl
@[simp] theorem setReads_threads : (s.setReads f).threads = s.threads := rfl

end

theorem feed_cases {s s' : Pin} {a : Device.Act} (h : s.feed a = some s') :
    ∃ dev f, s.dev.feed Reads.callbacks s.reads a = some (dev, f) ∧
      s' = { s with dev := dev, reads := f } := by
  obtain ⟨⟨dev, f⟩, hf, rfl⟩ := Option.map_eq_some_iff.mp h
  exact ⟨dev, f, hf, rfl⟩

/-- The branches of one step of a handler. -/
inductive Runs (s : Pin) : Thread → Pin → Prop
  | entered {srb : Cookie} {gate : Stream.Rundown.Gate} {t : Thread} (hr : s.gate.rundown = false)
      (hg : gate.rundown = s.gate.rundown)
      (ht : (t = .init srb ∧ (s.reads.srbs srb).command = .readData) ∨ t = .answer srb) :
      Runs s (.enter srb) ({ s with gate := gate }.spawn t)
  | refused {srb : Cookie} (hr : s.gate.rundown = true) : Runs s (.enter srb) (s.spawn (.refuse srb))
  | refuse {srb : Cookie} :
      Runs s (.refuse srb) (s.setReads (s.reads.complete srb statusCancelled))
  | answer {srb : Cookie} {status : NtStatus} :
      Runs s (.answer srb) ((s.setReads (s.reads.complete srb status)).spawn .leave)
  | init {srb : Cookie} {t : Thread} (ht : t = .reject srb ∨ t = .park srb) :
      Runs s (.init srb) ((s.setReads { s.reads with
        ext := Function.update s.reads.ext srb ⟨false, true⟩ }).spawn t)
  | reject {srb : Cookie} :
      Runs s (.reject srb) ((s.setReads (s.reads.complete srb statusInvalidParameter)).spawn .leave)
  | parkFails {srb : Cookie} {status : NtStatus} : Runs s (.park srb) (s.spawn (.fail srb status))
  | parked {srb : Cookie} (hr : s.dev.ses.removed = false) (hs : s.streamState ≠ .stop)
      (hc : s.reads.irpCancel srb = false) :
      Runs s (.park srb) ((s.setReads (s.reads.park srb)).spawn .pump)
  | fail {srb : Cookie} {status : NtStatus} :
      Runs s (.fail srb status) ((s.setReads (s.reads.completeRead srb 0 status)).spawn .leave)
  | pump {dev : Device} {f : Reads} (hl : s.dev.life = .alive)
      (hf : s.dev.feed Reads.callbacks s.reads .callPump = some (dev, f)) :
      Runs s .pump ({ s with dev := dev, reads := f }.spawn .leave)
  | pumpNone (hl : s.dev.life ≠ .alive) : Runs s .pump (s.spawn .leave)
  | cancelEntered {srb : Cookie} {gate : Stream.Rundown.Gate} (hr : s.gate.rundown = false)
      (hg : gate.rundown = s.gate.rundown) :
      Runs s (.cancelEnter srb) ({ s with gate := gate }.spawn (.claim srb))
  | cancelRefused {srb : Cookie} (hr : s.gate.rundown = true) : Runs s (.cancelEnter srb) s
  | claimed {srb : Cookie} (hq : (s.reads.ext srb).queued = true) (ho : (s.reads.ext srb).own = true) :
      Runs s (.claim srb) ((s.setReads (s.reads.unpark srb)).spawn (.cancelled srb))
  | claimStopped {srb : Cookie} (hq : (s.reads.ext srb).queued = true → (s.reads.ext srb).own = false)
      (hs : s.streamState = .stop) : Runs s (.claim srb) (s.spawn .leave)
  | claimNotify {srb : Cookie} (hq : (s.reads.ext srb).queued = true → (s.reads.ext srb).own = false)
      (hs : s.streamState ≠ .stop) : Runs s (.claim srb) (s.spawn .notify)
  | cancelled {srb : Cookie} :
      Runs s (.cancelled srb)
        ((s.setReads (s.reads.completeRead srb 0 statusCancelled)).spawn .leave)
  | notify {dev : Device} {f : Reads} (hl : s.dev.life = .alive)
      (hf : s.dev.feed Reads.callbacks s.reads .notifyCancel = some (dev, f)) :
      Runs s .notify ({ s with dev := dev, reads := f }.spawn .leave)
  | notifyNone (hl : s.dev.life ≠ .alive) : Runs s .notify (s.spawn .leave)
  | left {gate : Stream.Rundown.Gate} (hg : gate.rundown = s.gate.rundown) :
      Runs s .leave { s with gate := gate }
  | leftLast {gate : Stream.Rundown.Gate} (hg : gate.rundown = s.gate.rundown) :
      Runs s .leave ({ s with gate := gate }.spawn .signal)
  | signal {gate : Stream.Rundown.Gate} (hg : gate.rundown = s.gate.rundown) :
      Runs s .signal { s with gate := gate }
  | skipped {srb : Cookie} :
      Runs s (.skipped srb) (s.setReads (s.reads.completeRead srb 0 statusInvalidParameter))
  | flushDone (hp : s.reads.pendingReads = []) : Runs s .flush s
  | flush {srb : Cookie} {rest : List Cookie} (hp : s.reads.pendingReads = srb :: rest) :
      Runs s .flush ((s.setReads (s.reads.unpark srb)).spawn (.flushed srb))
  | flushed {srb : Cookie} :
      Runs s (.flushed srb) ((s.setReads (s.reads.completeRead srb 0 statusSuccess)).spawn .flush)
  | drained {srb : Cookie} :
      Runs s (.drained srb) (s.setReads (s.reads.completeRead srb 0 statusSuccess))

theorem Runs.of_claim {s : Pin} {srb : Cookie} : Runs s (.claim srb) (s.claimRead srb) := by
  unfold claimRead
  split
  · next h =>
    obtain ⟨hq, ho⟩ := (Bool.and_eq_true_iff).mp h
    exact .claimed hq ho
  · next h =>
    have hq : (s.reads.ext srb).queued = true → (s.reads.ext srb).own = false := by
      intro hq
      simpa [hq] using h
    split
    · next hs => exact .claimStopped hq hs
    · next hs => exact .claimNotify hq hs

theorem Runs.of_park {s : Pin} {srb : Cookie} : Runs s (.park srb) (s.parkRead srb) := by
  unfold parkRead
  split
  · exact .parkFails
  · next hr =>
    split
    · exact .parkFails
    · next hs =>
      split
      · exact .parkFails
      · next hc => exact .parked (by simpa using hr) hs (by simpa using hc)

theorem Runs.of_threadStep {s s' : Pin} {t : Thread} (h : s.threadStep t = some s') :
    Runs s t s' := by
  cases t with
  | enter srb =>
    obtain rfl := Option.some.inj h
    cases hr : s.gate.rundown with
    | true =>
      have he : Stream.Rundown.enterDataPath s.gate = (false, s.gate) := by
        simp [Stream.Rundown.enterDataPath, hr]
      rw [he]
      exact .refused hr
    | false =>
      have he : Stream.Rundown.enterDataPath s.gate =
          (true, { s.gate with dataPathRefs := s.gate.dataPathRefs + 1 }) := by
        simp [Stream.Rundown.enterDataPath, hr]
      rw [he]
      apply Runs.entered hr
      · rfl
      · simp only [Bool.not_true, Bool.false_eq_true, if_false]
        split
        · next hc => exact .inl ⟨rfl, hc⟩
        · exact .inr rfl
  | cancelEnter srb =>
    obtain rfl := Option.some.inj h
    cases hr : s.gate.rundown with
    | true =>
      have he : Stream.Rundown.enterDataPath s.gate = (false, s.gate) := by
        simp [Stream.Rundown.enterDataPath, hr]
      rw [he]
      exact .cancelRefused hr
    | false =>
      have he : Stream.Rundown.enterDataPath s.gate =
          (true, { s.gate with dataPathRefs := s.gate.dataPathRefs + 1 }) := by
        simp [Stream.Rundown.enterDataPath, hr]
      rw [he]
      apply Runs.cancelEntered hr
      rfl
  | refuse srb =>
    cases h
    exact .refuse
  | answer srb =>
    cases h
    exact .answer
  | init srb =>
    cases h
    apply Runs.init
    split
    · exact .inl rfl
    · exact .inr rfl
  | reject srb =>
    cases h
    exact .reject
  | park srb =>
    cases h
    exact .of_park
  | fail srb status =>
    cases h
    exact .fail
  | pump =>
    simp only [threadStep] at h
    split at h
    · next hl =>
      obtain ⟨s₁, hs, rfl⟩ := Option.map_eq_some_iff.mp h
      obtain ⟨dev, f, hf, rfl⟩ := feed_cases hs
      exact .pump hl hf
    · next hl =>
      cases h
      exact .pumpNone hl
  | claim srb =>
    cases h
    exact .of_claim
  | cancelled srb =>
    cases h
    exact .cancelled
  | notify =>
    simp only [threadStep] at h
    split at h
    · next hl =>
      obtain ⟨s₁, hs, rfl⟩ := Option.map_eq_some_iff.mp h
      obtain ⟨dev, f, hf, rfl⟩ := feed_cases hs
      exact .notify hl hf
    · next hl =>
      cases h
      exact .notifyNone hl
  | leave =>
    obtain rfl := Option.some.inj h
    split
    · exact .leftLast rfl
    · exact .left rfl
  | signal =>
    cases h
    exact .signal rfl
  | skipped srb =>
    cases h
    exact .skipped
  | flush =>
    simp only [threadStep] at h
    cases hp : s.reads.pendingReads with
    | nil =>
      simp only [hp] at h
      cases h
      exact .flushDone hp
    | cons srb rest =>
      simp only [hp] at h
      cases h
      exact .flush hp
  | flushed srb =>
    cases h
    exact .flushed
  | drained srb =>
    cases h
    exact .drained

inductive Steps (s : Pin) : Act → Pin → Prop
  | dev {a : Device.Act} {dev : Device} {f : Reads} (ha : s.devAllowed a = true)
      (hf : s.dev.feed Reads.callbacks s.reads a = some (dev, f)) :
      Steps s (.dev a) { s with dev := dev, reads := f }
  | thread {t : Thread} {ts : Multiset Thread} {s' : Pin} (ht : s.threads = t ::ₘ ts)
      (hx : Runs { s with threads := ts } t s') : Steps s (.thread t) s'
  | skip {srb : Cookie} {rest : List Cookie} (ha : s.Acquiring)
      (hp : s.reads.pendingReads = srb :: rest) (hm : (s.reads.srbs srb).mdl = none) :
      Steps s .skip ((s.setReads (s.reads.unpark srb)).spawn (.skipped srb))
  | receive {srb : Cookie} {r : Srb} {garbage : Option Bool} (ho : ¬s.reads.outstanding srb) :
      Steps s (.receive srb r garbage) (s.receive srb r garbage)
  | cancelPacket {srb : Cookie} (ho : s.reads.outstanding srb)
      (hc : (s.reads.srbs srb).command = .readData) :
      Steps s (.cancelPacket srb) ((s.setReads { s.reads with
        irpCancel := Function.update s.reads.irpCancel srb true }).spawn (.cancelEnter srb))
  | cancelOther {srb : Cookie} (ho : s.reads.outstanding srb)
      (hc : (s.reads.srbs srb).command ≠ .readData) :
      Steps s (.cancelPacket srb) (s.setReads { s.reads with
        irpCancel := Function.update s.reads.irpCancel srb true })
  | beginFlush : Steps s .beginFlush (s.spawn .flush)
  | setRun {dev : Device} {f : Reads} {n : BitVec 32} (hc : s.closer = .opened)
      (hn : n = if s.dev.life ≠ .alive ∨ s.dev.eng.cap.draining = true then 0
        else s.reads.frameNumber)
      (hf : s.dev.feed Reads.callbacks { s.reads with frameNumber := n } (.api (.start true)) =
        some (dev, f)) : Steps s .setRun { s with dev := dev, reads := f }
  | drain {srb : Cookie} {rest : List Cookie} (hd : s.draining = true)
      (hp : s.reads.pendingReads = srb :: rest) :
      Steps s .drain ((s.setReads (s.reads.unpark srb)).spawn (.drained srb))
  | close {gate : Stream.Rundown.Gate} {closer : Closer} (ho : s.closer = .opened)
      (hc : s.dev.ctl = .held) (hg : gate.rundown = true) (hw : closer = .waiting ∨ closer = .idle) :
      Steps s .close { s with gate := gate, closer := closer }
  | wake (hc : s.closer = .waiting) : Steps s .wake { s with closer := .idle }
  | closeStop {dev : Device} {f : Reads} (hc : s.closer = .idle)
      (hf : s.dev.feed Reads.callbacks s.reads (.api .stop) = some (dev, f)) :
      Steps s .closeStop { s with dev := dev, reads := f, closer := .stopping }
  | closeDestroy {dev : Device} {f : Reads} (hc : s.closer = .stopping)
      (hf : s.dev.feed Reads.callbacks s.reads (.api .destroy) = some (dev, f)) :
      Steps s .closeDestroy { s with dev := dev, reads := f, closer := .destroyed }
  | closeReturn {dev : Device} {f : Reads} (hc : s.closer = .destroyed) (he : s.drainEnds = true)
      (hf : s.dev.feed Reads.callbacks s.reads .releaseMutex = some (dev, f)) :
      Steps s .closeReturn { s with dev := dev, reads := f, closer := .closed }

theorem headWithoutMdl_eq_some {f : Reads} {srb : Cookie} (h : f.headWithoutMdl = some srb) :
    ∃ rest, f.pendingReads = srb :: rest ∧ (f.srbs srb).mdl = none := by
  obtain ⟨hh, hm⟩ := Option.filter_eq_some_iff.mp h
  obtain ⟨rest, hp⟩ := List.head?_eq_some_iff.mp hh
  exact ⟨rest, hp, by simpa using hm⟩

theorem Steps.of_setRun {s s' : Pin} (h : s.step .setRun = some s') : Steps s .setRun s' := by
  simp only [step] at h
  split at h
  · next hc =>
    obtain ⟨dev, f, hf, rfl⟩ := feed_cases h
    by_cases hr : s.dev.life ≠ .alive ∨ s.dev.eng.cap.draining = true
    · simp only [decide_eq_true_eq, Bool.or_eq_true, hr, if_true, setReads_dev, setReads_reads] at hf ⊢
      exact .setRun (n := 0) hc (by rw [if_pos hr]) hf
    · simp only [decide_eq_true_eq, Bool.or_eq_true, hr, if_false] at hf ⊢
      exact .setRun (n := s.reads.frameNumber) hc (by rw [if_neg hr]) hf
  · cases h

theorem Steps.of_step {s s' : Pin} {a : Act} (h : s.step a = some s') : Steps s a s' := by
  cases a with
  | dev a =>
    simp only [step] at h
    split at h
    · next ha =>
      obtain ⟨dev, f, hf, rfl⟩ := feed_cases h
      exact .dev ha hf
    · cases h
  | thread t =>
    simp only [step] at h
    split at h
    · next ht => exact .thread (Multiset.cons_erase ht).symm (.of_threadStep h)
    · cases h
  | skip =>
    simp only [step] at h
    split at h
    · next hs =>
      obtain ⟨srb, hm, rfl⟩ := Option.map_eq_some_iff.mp h
      obtain ⟨rest, hp, hm⟩ := headWithoutMdl_eq_some hm
      exact .skip hs.1 hp hm
    · cases h
  | receive srb r garbage =>
    simp only [step] at h
    split at h
    · cases h
    · next ho =>
      cases h
      exact .receive ho
  | cancelPacket srb =>
    simp only [step] at h
    split at h
    · next ho =>
      obtain rfl := Option.some.inj h
      split
      · next hc => exact .cancelPacket ho hc
      · next hc => exact .cancelOther ho hc
    · cases h
  | beginFlush =>
    cases h
    exact .beginFlush
  | setRun => exact .of_setRun h
  | drain =>
    simp only [step] at h
    split at h
    · next hd =>
      cases hp : s.reads.pendingReads with
      | nil =>
        simp only [hp] at h
        cases h
      | cons srb rest =>
        simp only [hp] at h
        cases h
        exact .drain hd.1 hp
    · cases h
  | close =>
    simp only [step] at h
    split at h
    · next hc =>
      obtain rfl := Option.some.inj h
      apply Steps.close hc.1 hc.2
      · rfl
      · split
        · exact .inl rfl
        · exact .inr rfl
    · cases h
  | wake =>
    simp only [step] at h
    split at h
    · next hc =>
      cases h
      exact .wake hc.1
    · cases h
  | closeStop =>
    simp only [step] at h
    split at h
    · next hc =>
      obtain ⟨dev, f, hf, rfl⟩ := feed_cases h
      exact .closeStop hc hf
    · cases h
  | closeDestroy =>
    simp only [step] at h
    split at h
    · next hc =>
      obtain ⟨dev, f, hf, rfl⟩ := feed_cases h
      exact .closeDestroy hc hf
    · cases h
  | closeReturn =>
    simp only [step] at h
    split at h
    · next hc =>
      obtain ⟨dev, f, hf, rfl⟩ := feed_cases h
      exact .closeReturn hc.1 hc.2 hf
    · cases h

theorem reachable {P : Pin → Act → Prop} {s : Pin} (h : machine.Reaches P s) :
    Device.machine.Reachable s.dev := by
  refine h.project (N := Device.machine) Pin.dev rfl ?_
  intro s a s' hs hr
  cases Steps.of_step hs with
  | dev ha hf => exact hr.step trivial (Device.feed_step hf)
  | thread ht hx =>
    cases hx with
    | pump hl hf | notify hl hf => exact hr.step trivial (Device.feed_step hf)
    | _ => exact hr
  | setRun hc hn hf => exact hr.step trivial (Device.feed_step hf)
  | closeStop hc hf | closeDestroy hc hf => exact hr.step trivial (Device.feed_step hf)
  | closeReturn hc he hf => exact hr.step trivial (Device.feed_step hf)
  | _ => exact hr

end Pin
end Photonic
