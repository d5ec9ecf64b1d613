import Photonic.Ioctl.Contract
import Photonic.Ioctl.Rotation

namespace Machine
variable {σ α : Type} (M : Machine σ α)

/-- The steps of a run, each with the state it is taken from. -/
def walk : σ → List α → List (σ × α)
  | _, [] => []
  | s, a :: as => (s, a) :: ((M.step s a).elim [] fun s' => walk s' as)

variable {M}

theorem walk_filter {P : σ → α → Prop} [∀ s a, Decidable (P s a)] {q : σ × α → Bool}
    (hq : ∀ s a s', q (s, a) = false → M.step s a = some s' → s' = s) {as : List α} {s t : σ}
    (hr : M.run P s as = some t) :
    M.run P s (((M.walk s as).filter q).map Prod.snd) = some t ∧
      M.walk s (((M.walk s as).filter q).map Prod.snd) = (M.walk s as).filter q := by
  induction as generalizing s with
  | nil => exact ⟨hr, rfl⟩
  | cons a as ih =>
    simp only [Machine.run] at hr
    split at hr
    · next hp =>
      obtain ⟨s', hs, hr⟩ := Option.bind_eq_some_iff.mp hr
      obtain ⟨ihr, iht⟩ := ih hr
      simp only [walk, hs, Option.elim_some]
      cases hqa : q (s, a) with
      | true =>
        rw [List.filter_cons_of_pos hqa, List.map_cons]
        simp only [Machine.run, walk, if_pos hp, hs, Option.bind_some, Option.elim_some, ihr, iht,
          and_self]
      | false =>
        -- the run goes on from the state it was in
        obtain rfl := hq s a s' hqa hs
        rw [List.filter_cons_of_neg (by simp [hqa])]
        exact ⟨ihr, iht⟩
    · cases hr

end Machine

namespace Photonic
namespace IoctlDevice

/-- A request or the cleanup of a file object other than the slot's owner. -/
def foreign (s : IoctlDevice) : Act → Bool
  | .request fileObject _ _ | .cleanup fileObject => s.slot.any fun c => c.fileObject ≠ fileObject
  | _ => false

variable {s t : IoctlDevice} {c : Slot} {fileObject : ℕ}

theorem checkOwner_of_ne (hne : c.fileObject ≠ fileObject) (h : Handling) :
    c.checkOwner fileObject h = reject statusUnsuccessful .success := if_neg hne

/-- The request is completed with an error, or it only reads. -/
def Refuses (verb : Verb) (h : Handling) : Prop :=
  ∃ reply, h = .done reply ∧ (ntSuccess reply.status = false ∨ verb = .getTransferInfo)

theorem refuses_reject {verb : Verb} {status : NtStatus} {error : PlError}
    (h : ntSuccess status = false) : Refuses verb (reject status error) :=
  ⟨_, rfl, .inl h⟩

theorem capturePrepare_refuses {verb : Verb} (hs : s.slot = some c) (hne : c.fileObject ≠ fileObject)
    (allowReprepare : Bool) : Refuses verb (s.capturePrepare fileObject allowReprepare) := by
  unfold capturePrepare
  rw [hs]
  split
  · exact refuses_reject (by decide)
  · dsimp only
    rw [if_pos (by simp [hne])]
    exact refuses_reject (by decide)

theorem captureStart_refuses {verb : Verb} (hs : s.slot = some c) (hne : c.fileObject ≠ fileObject)
    (startValue : ℕ) (pumpRing : Bool) :
    Refuses verb (s.captureStart fileObject startValue pumpRing) := by
  unfold captureStart
  rw [hs]
  split
  · exact refuses_reject (by decide)
  · dsimp only
    rw [checkOwner_of_ne hne]
    exact refuses_reject (by decide)

theorem handler_refuses (hs : s.slot = some c) (hne : c.fileObject ≠ fileObject) (verb : Verb) :
    Refuses verb (s.handler fileObject verb) := by
  cases verb with
  | prepareVideo n =>
    simp only [handler, prepareVideo]
    split
    · exact refuses_reject (by decide)
    · exact capturePrepare_refuses hs hne true
  | prepareImager => exact capturePrepare_refuses hs hne false
  | startVideo flags => exact captureStart_refuses hs hne flags true
  | startImager mode => exact captureStart_refuses hs hne mode false
  | stop | unprepare | unmapVideoFrame | unregisterEvent =>
    simp only [handler, stopRequest, unprepareRequest, unmapVideoFrame, unregisterEvent, hs,
      checkOwner_of_ne hne]
    exact refuses_reject (by decide)
  | mapVideoFrame args =>
    simp only [handler, mapVideoFrame, hs, checkOwner_of_ne hne]
    split <;> exact refuses_reject (by decide)
  | registerEvent handle type =>
    simp only [handler, registerEvent, hs, checkOwner_of_ne hne]
    split <;> exact refuses_reject (by decide)
  | swTrigger =>
    simp only [handler, swTrigger, hs, checkOwner_of_ne hne]
    split <;> exact refuses_reject (by decide)
  | getTransferInfo =>
    simp only [handler, getTransferInfo, hs]
    exact ⟨_, rfl, .inr rfl⟩

theorem deviceControl_refuses (hs : s.slot = some c) (hne : c.fileObject ≠ fileObject)
    (contract : Contract) (verb : Verb) : Refuses verb (s.deviceControl fileObject contract verb) := by
  cases contract with
  | met => exact handler_refuses hs hne verb
  | not32BitCaller | shortBuffer => exact refuses_reject (by decide)

theorem owner_of_foreign {o : Option Slot} (h : (o.any fun c => c.fileObject ≠ fileObject) = true) :
    ∃ c, o = some c ∧ c.fileObject ≠ fileObject := by
  obtain ⟨c, hc, hne⟩ := (Option.any_eq_true ..).mp h
  exact ⟨c, hc, by simpa using hne⟩

theorem step_of_foreign {a : Act} (hf : s.foreign a = true) (h : s.step a = some t) : t = s := by
  cases a with
  | request fileObject contract verb =>
    obtain ⟨c, hs, hne⟩ := owner_of_foreign hf
    obtain ⟨reply, hr, -⟩ := deviceControl_refuses hs hne contract verb
    simp only [step, hr] at h
    split at h <;> cases h
    rfl
  | cleanup fileObject =>
    obtain ⟨c, hs, hne⟩ := owner_of_foreign hf
    have hown : ¬s.IsOwner fileObject := by
      rintro ⟨c', hc', hf'⟩
      rw [hs] at hc'
      cases hc'
      exact hne hf'
    simp only [step, cleanupStep, if_neg hown] at h
    split at h
    · cases h
      rfl
    · split at h <;> cases h
      rfl
  | _ => cases hf

/-- The slot verbs and the cleanups of all file objects but the slot's owner can be left out of a run,
wherever they stand in it and whatever they ask for: the rest of it takes the same steps from the same
states to the same end. Each such verb is completed at once, with an error unless it asks for the
transfer info. The error code it leaves in `LastError` is no part of the slot. -/
theorem nonowner_noninterference {as : List Act} (h : machine.run (fun _ _ => True) s as = some t) :
    let kept := (machine.walk s as).filter fun p => !p.1.foreign p.2
    machine.run (fun _ _ => True) s (kept.map Prod.snd) = some t ∧
      machine.walk s (kept.map Prod.snd) = kept ∧
      ∀ s' fileObject contract verb, (s', .request fileObject contract verb) ∈ machine.walk s as →
        (s', .request fileObject contract verb) ∉ kept →
          ∃ reply, s'.deviceControl fileObject contract verb = .done reply ∧
            (ntSuccess reply.status = false ∨ verb = .getTransferInfo) := by
  have hq : ∀ s a s', (!IoctlDevice.foreign s a) = false → machine.step s a = some s' → s' = s := by
    intro s a s' hf hs
    exact step_of_foreign (by simpa using hf) hs
  obtain ⟨hrun, hwalk⟩ := Machine.walk_filter (q := fun p => !p.1.foreign p.2) hq h
  refine ⟨hrun, hwalk, ?_⟩
  intro s' fileObject contract verb hmem hdrop
  have hf : s'.foreign (.request fileObject contract verb) = true := by
    by_contra hno
    apply hdrop
    simpa [List.mem_filter, hmem] using hno
  obtain ⟨c, hs, hne⟩ := owner_of_foreign hf
  exact deviceControl_refuses hs hne contract verb

/-- The owner prepares a slot and maps a ring. In between another file object tries every verb, and is
closed. -/
def strangerRun : List Act :=
  prepareRun.take 3 ++
    [.request 2 .met (.prepareVideo 1), .request 2 .met .prepareImager,
      .request 2 .met (.startVideo 0), .request 2 .met (.startImager 1), .request 2 .met .stop,
      .request 2 .met .unprepare, .request 2 .met (.mapVideoFrame ⟨1, 8, 0⟩),
      .request 2 .met .unmapVideoFrame, .request 2 .met (.registerEvent 7 0),
      .request 2 .met (.unregisterEvent 7 0), .request 2 .met .swTrigger,
      .request 2 .met .getTransferInfo, .request 2 .shortBuffer .stop, .cleanup 2] ++
    prepareRun.drop 3

theorem nonowner_noninterference_strangerRun :
    (machine.run (fun _ _ => True) machine.init prepareRun).isSome = true ∧
      machine.run (fun _ _ => True) machine.init prepareRun =
        machine.run (fun _ _ => True) machine.init strangerRun := by
  refine ⟨by decide, ?_⟩
  have hrun : machine.run (fun _ _ => True) machine.init strangerRun = _ :=
    Machine.run_eq_after (by decide)
  rw [hrun]
  exact (nonowner_noninterference hrun).1

end IoctlDevice

namespace Ioctl
open Dcam Mailbox Buffered

variable {σ : Type} {host : Host σ}

/-- The slot with its engine and the tables of the driver are those of `host`. -/
def Spared (host : Host σ) (h : Host σ) : Prop :=
  h.core = host.core ∧ h.modes = host.modes ∧ h.csrBaseAddress = host.csrBaseAddress

/-- The camera is left alone as well. -/
def Unreached (host : Host σ) (h : Host σ) : Prop := Spared host h ∧ h.camera = host.camera

def Leaves {α : Type} (J : Host σ → Prop) (x : HandlerBody σ α) (Q : α → Prop) : Prop :=
  Routine.Keeps (fun s => J s.device.host) x Q

section
variable {α β : Type} {J : Host σ → Prop} {x : HandlerBody σ α} {f : α → HandlerBody σ β} {Q : α → Prop}
variable {R : β → Prop}

theorem Leaves.bind (hx : Leaves J x Q) (hf : ∀ a, Q a → Leaves J (f a) R) : Leaves J (x >>= f) R :=
  Routine.Keeps.bind hx hf

theorem Leaves.pure {a : α} (h : Q a) : Leaves J (Pure.pure a : HandlerBody σ α) Q := Routine.Keeps.pure h

theorem Leaves.throw {status : NtStatus} : Leaves J (Routine.throw status : HandlerBody σ α) Q :=
  Routine.Keeps.throw

theorem Leaves.ite {p : Prop} [Decidable p] {y : HandlerBody σ α} (hx : p → Leaves J x Q)
    (hy : ¬p → Leaves J y Q) : Leaves J (if p then x else y) Q :=
  Routine.Keeps.ite hx hy

theorem readByte_leaves {offset : ℕ} : Leaves J (Buffered.readByte offset) fun _ => True :=
  fun _ hs => ⟨hs, fun _ _ => trivial⟩

theorem writeByte_leaves {offset : ℕ} {b : Byte} : Leaves J (Buffered.writeByte offset b) fun _ => True :=
  fun _ hs => ⟨hs, fun _ _ => trivial⟩

theorem setInformation_leaves {n : ℕ} : Leaves J (Buffered.setInformation n) fun _ => True :=
  fun _ hs => ⟨hs, fun _ _ => trivial⟩

theorem copyTo_leaves {offset n : ℕ} {data : List Byte} :
    Leaves J (Buffered.copyTo offset n data) fun _ => True := by
  induction n generalizing offset data with
  | zero => exact .pure trivial
  | succ n ih => exact writeByte_leaves.bind fun _ _ => ih

theorem readBytes_leaves {offset n : ℕ} : Leaves J (Buffered.readBytes offset n) fun _ => True := by
  induction n generalizing offset with
  | zero => exact .pure trivial
  | succ n ih => exact readByte_leaves.bind fun _ _ => ih.bind fun _ _ => .pure trivial

theorem readUshort_leaves {offset : ℕ} : Leaves J (readUshort offset) fun _ => True :=
  readByte_leaves.bind fun _ _ => readByte_leaves.bind fun _ _ => .pure trivial

theorem readUlong_leaves {offset : ℕ} : Leaves J (readUlong offset) fun _ => True :=
  readByte_leaves.bind fun _ _ => readByte_leaves.bind fun _ _ => readByte_leaves.bind fun _ _ =>
    readByte_leaves.bind fun _ _ => .pure trivial

theorem writeUlong_leaves {offset : ℕ} {w : BitVec 32} : Leaves J (writeUlong offset w) fun _ => True :=
  copyTo_leaves

theorem trace_leaves {offsets : List ℕ} : Leaves J (trace offsets) fun _ => True := by
  induction offsets with
  | nil => exact .pure trivial
  | cons offset offsets ih => exact readUlong_leaves.bind fun _ _ => ih

theorem swapUlongsFrom_leaves {offset n : ℕ} : Leaves J (swapUlongsFrom offset n) fun _ => True := by
  induction n generalizing offset with
  | zero => exact .pure trivial
  | succ n ih =>
    exact readUlong_leaves.bind fun _ _ => writeUlong_leaves.bind fun _ _ => ih

theorem extension_leaves : Leaves J extension J := by
  intro s hs
  refine ⟨hs, ?_⟩
  rintro h ⟨⟩
  exact hs

theorem onHost_leaves {y : Routine (Host σ) NtStatus α} (h : ∀ h, J h → J (y h).2) :
    Leaves J (onHost y) fun _ => True :=
  fun s hs => ⟨h s.device.host hs, fun _ _ => trivial⟩

theorem fail_leaves {status : NtStatus} {error : PlReturnCode} :
    Leaves J (fail status error : HandlerBody σ α) Q :=
  Leaves.bind (fun _ hs => ⟨hs, fun _ _ => trivial⟩) fun _ _ => .throw

theorem orFail_leaves {y : Routine (Host σ) NtStatus α} (h : ∀ h, J h → J (y h).2)
    {error : PlReturnCode} : Leaves J (orFail y error) fun _ => True := by
  refine (onHost_leaves (y := y.attempt) h).bind fun r _ => ?_
  cases r with
  | ok a => exact .pure trivial
  | error status => exact fail_leaves

theorem checkRemoved_leaves : Leaves J (checkRemoved : HandlerBody σ Unit) fun _ => True :=
  extension_leaves.bind fun _ _ => .ite (fun _ => fail_leaves) fun _ => .pure trivial

theorem echoStatus_leaves {request : Request} : Leaves J (echoStatus request) fun _ => True :=
  .ite (fun _ => writeUlong_leaves.bind fun _ _ => setInformation_leaves) fun _ => .pure trivial

/-- The routine fails. -/
def Rejects (J : Host σ → Prop) (x : HandlerBody σ α) : Prop :=
  ∀ s, J s.device.host → ∃ status, (x s).1 = .error status ∧ ntSuccess status = false

theorem Rejects.after (hx : Leaves J x Q) (hok : ∀ s, ∃ a, (x s).1 = .ok a)
    (hf : ∀ a, Q a → Rejects J (f a)) : Rejects J (x >>= f) := by
  intro s hs
  obtain ⟨hkeep, hq⟩ := hx s hs
  obtain ⟨a, ha⟩ := hok s
  have hpair : x s = (.ok a, (x s).2) := by rw [← ha]
  rw [Routine.bind_ok hpair]
  exact hf a (hq a ha) _ hkeep

theorem fail_rejects {status : NtStatus} {error : PlReturnCode} (h : ntSuccess status = false) :
    Rejects J (fail status error : HandlerBody σ α) :=
  fun _ _ => ⟨status, rfl, h⟩

end

section
variable {d : Services σ} {request : Request} {J : Host σ → Prop} {c : Slot}

theorem busy_of_slot {h : Host σ} (hh : h.core = host.core) (hs : host.core.slot = some c) :
    h.core.pinOpen = true ∨ h.core.slot.isSome = true := by
  rw [hh, hs]
  exact .inr rfl

theorem handler_fails {h : Host σ} (hh : h.core = host.core) (hslot : host.core.slot = some c)
    (hne : c.fileObject ≠ request.fileObject) {verb : Verb} (hv : verb ≠ .getTransferInfo) :
    ∃ reply, h.core.handler request.fileObject verb = .done reply ∧ ntSuccess reply.status = false := by
  rw [hh]
  obtain ⟨reply, hreply, hfail | hread⟩ := IoctlDevice.handler_refuses hslot hne verb
  · exact ⟨reply, hreply, hfail⟩
  · exact absurd hread hv

theorem slotVerb_leaves (hcore : ∀ h, J h → h.core = host.core) (hslot : host.core.slot = some c)
    (hne : c.fileObject ≠ request.fileObject) {verb : Verb} (hv : verb ≠ .getTransferInfo) :
    Leaves J (slotVerb d verb request) fun _ => True := by
  refine extension_leaves.bind fun s hs => ?_
  obtain ⟨reply, hreply, hfail⟩ := handler_fails (hcore s hs) hslot hne hv
  rw [hreply]
  dsimp only
  rw [if_neg (by simp [hfail])]
  exact fail_leaves

theorem slotVerb_rejects (hcore : ∀ h, J h → h.core = host.core) (hslot : host.core.slot = some c)
    (hne : c.fileObject ≠ request.fileObject) {verb : Verb} (hv : verb ≠ .getTransferInfo) :
    Rejects J (slotVerb d verb request) := by
  refine Rejects.after extension_leaves (fun _ => ⟨_, rfl⟩) fun s hs => ?_
  obtain ⟨reply, hreply, hfail⟩ := handler_fails (hcore s hs) hslot hne hv
  rw [hreply]
  dsimp only
  rw [if_neg (by simp [hfail])]
  exact fail_rejects hfail

/-- The handlers that go to the camera whoever asks: the mailbox and the queries of the format. -/
def cameraCodes : List (BitVec 32) := [0x835, 0x84B, 0x84F, 0x856, 0xDC6].map ctlCode

/-- The slot verbs that do more than read. -/
def slotVerbCodes : List (BitVec 32) :=
  [0x837, 0x838, 0x839, 0x83A, 0x83C, 0x83D, 0x83E, 0x83F, 0x84A, 0x858, 0x859, 0x85A, 0x85B].map ctlCode

/-- What a request to an entry does not do to `host`. -/
structure Confines (host : Host σ) (request : Request) (entry : DispatchEntry σ) : Prop where
  spares : Leaves (Spared host) (entry.handler request) fun _ => True
  unreached : entry.ioControlCode ∉ cameraCodes →
    Leaves (Unreached host) (entry.handler request) fun _ => True
  rejects : entry.ioControlCode ∈ slotVerbCodes → Rejects (Unreached host) (entry.handler request)

def Quiet (host : Host σ) (request : Request) (handler : Handler σ) : Prop :=
  ∀ J : Host σ → Prop, (∀ h, J h → h.core = host.core) →
    (∀ h error, J h → J { h with lastError := error }) → Leaves J (handler request) fun _ => True

theorem Quiet.spares {handler : Handler σ} (h : Quiet host request handler) :
    Leaves (Spared host) (handler request) fun _ => True :=
  h _ (fun _ hs => hs.1) fun _ _ hs => hs

theorem Quiet.unreached {handler : Handler σ} (h : Quiet host request handler) :
    Leaves (Unreached host) (handler request) fun _ => True :=
  h _ (fun _ hs => hs.1.1) fun _ _ hs => hs

variable {code : BitVec 32} {handler : Handler σ} {minIn minOut : ℕ} {is32 : Bool}

theorem Confines.of_quiet (h : Quiet host request handler) (hcode : code ∉ slotVerbCodes) :
    Confines host request ⟨code, handler, minIn, minOut, is32⟩ :=
  ⟨h.spares, fun _ => h.unreached, fun hv => absurd hv hcode⟩

theorem Confines.of_camera (h : Leaves (Spared host) (handler request) fun _ => True)
    (hcode : code ∈ cameraCodes ∧ code ∉ slotVerbCodes) :
    Confines host request ⟨code, handler, minIn, minOut, is32⟩ :=
  ⟨h, fun hc => absurd hcode.1 hc, fun hv => absurd hv hcode.2⟩

/-- The fields of a verb's input are read, and the verb is refused. -/
structure Refused (host : Host σ) (x : HandlerBody σ Unit) : Prop where
  leaves : ∀ J : Host σ → Prop, (∀ h, J h → h.core = host.core) → Leaves J x fun _ => True
  rejects : Rejects (Unreached host) x

theorem Refused.readUlong {offset : ℕ} {f : BitVec 32 → HandlerBody σ Unit}
    (h : ∀ w, Refused host (f w)) : Refused host (readUlong offset >>= f) where
  leaves J hcore := readUlong_leaves.bind fun w _ => (h w).leaves J hcore
  rejects := .after readUlong_leaves (fun _ => ⟨_, rfl⟩) fun w _ => (h w).rejects

theorem slotVerb_refused (hslot : host.core.slot = some c) (hne : c.fileObject ≠ request.fileObject)
    {verb : Verb} (hv : verb ≠ .getTransferInfo) : Refused host (slotVerb d verb request) where
  leaves _ hcore := slotVerb_leaves hcore hslot hne hv
  rejects := slotVerb_rejects (fun _ hs => hs.1.1) hslot hne hv

theorem Confines.of_verb (h : Refused host (handler request)) :
    Confines host request ⟨code, handler, minIn, minOut, is32⟩ :=
  ⟨h.leaves _ fun _ hs => hs.1, fun _ => h.leaves _ fun _ hs => hs.1.1, fun _ => h.rejects⟩

theorem notImplemented_quiet : Quiet host request notImplemented := fun _ _ _ => .throw

theorem invalidateCurrentFormat_quiet : Quiet host request invalidateCurrentFormat :=
  fun _ _ _ => .pure trivial

theorem getLastError_quiet : Quiet host request getLastError := by
  intro J hcore herror
  refine (onHost_leaves ?_).bind fun lastError _ => ?_
  · intro h hh
    dsimp only
    split
    · exact herror h _ hh
    · exact hh
  · exact writeUlong_leaves.bind fun _ _ => setInformation_leaves.bind fun _ _ => trace_leaves

theorem subwindowSet_quiet : Quiet host request subwindowSet := by
  intro J hcore herror
  refine checkRemoved_leaves.bind fun _ _ => readUlong_leaves.bind fun _ _ => ?_
  refine readUlong_leaves.bind fun _ _ => readUlong_leaves.bind fun _ _ => ?_
  refine readUlong_leaves.bind fun _ _ => readUlong_leaves.bind fun _ _ => ?_
  exact extension_leaves.bind fun _ _ => .ite (fun _ => echoStatus_leaves) fun _ => fail_leaves

/-- A selection is refused while a slot is prepared, before the camera is asked. -/
theorem setPixelFormat_quiet (hslot : host.core.slot = some c) :
    Quiet host request (setPixelFormat d) := by
  intro J hcore herror
  refine readUlong_leaves.bind fun _ _ => checkRemoved_leaves.bind fun _ _ => ?_
  refine extension_leaves.bind fun s hs => ?_
  rw [if_pos (busy_of_slot (hcore s hs) hslot)]
  exact fail_leaves

theorem setFrameRate_quiet (hslot : host.core.slot = some c) : Quiet host request (setFrameRate d) := by
  intro J hcore herror
  refine checkRemoved_leaves.bind fun _ _ => readUlong_leaves.bind fun _ _ => ?_
  refine extension_leaves.bind fun s hs => ?_
  rw [if_pos (busy_of_slot (hcore s hs) hslot)]
  exact fail_leaves

theorem getTransferInfo_quiet : Quiet host request getTransferInfo := by
  intro J hcore herror
  refine extension_leaves.bind fun s _ => ?_
  cases s.core.slot with
  | none => exact fail_leaves
  | some c =>
    refine writeUlong_leaves.bind fun _ _ => writeUlong_leaves.bind fun _ _ => ?_
    exact writeUlong_leaves.bind fun _ _ => setInformation_leaves.bind fun _ _ => trace_leaves

theorem subwindowGet_spares : Leaves (Spared host) (subwindowGet d request) fun _ => True := by
  refine checkRemoved_leaves.bind fun _ _ => extension_leaves.bind fun s _ => ?_
  refine (orFail_leaves fun _ hs => hs).bind fun _ _ => ?_
  refine writeUlong_leaves.bind fun _ _ => writeUlong_leaves.bind fun _ _ => ?_
  refine writeUlong_leaves.bind fun _ _ => writeUlong_leaves.bind fun _ _ => ?_
  refine writeUlong_leaves.bind fun _ _ => writeUlong_leaves.bind fun _ _ => ?_
  exact setInformation_leaves.bind fun _ _ => trace_leaves

theorem getPixelFormat_spares : Leaves (Spared host) (getPixelFormat d request) fun _ => True := by
  refine checkRemoved_leaves.bind fun _ _ => extension_leaves.bind fun s _ => ?_
  refine (orFail_leaves fun _ hs => hs).bind fun _ _ => ?_
  exact writeUlong_leaves.bind fun _ _ => setInformation_leaves

theorem intervalToFps_spares {interval offset : ℕ} :
    Leaves (Spared host) (intervalToFps d interval offset) fun _ => True :=
  .ite (fun _ => fail_leaves) fun _ => (orFail_leaves fun _ hs => hs).bind fun _ _ => writeUlong_leaves

theorem enumFrameRate_spares : Leaves (Spared host) (enumFrameRate d request) fun _ => True := by
  refine checkRemoved_leaves.bind fun _ _ => readUlong_leaves.bind fun _ _ => ?_
  refine extension_leaves.bind fun s _ => (onHost_leaves fun _ hs => hs).bind fun r _ => ?_
  cases r with
  | error status =>
    refine .ite (fun _ => ?_) fun _ => fail_leaves
    exact writeUlong_leaves.bind fun _ _ => setInformation_leaves
  | ok interval =>
    refine intervalToFps_spares.bind fun _ _ => writeUlong_leaves.bind fun _ _ => ?_
    exact setInformation_leaves.bind fun _ _ => trace_leaves

theorem getFrameRate_spares : Leaves (Spared host) (getFrameRate d request) fun _ => True := by
  refine checkRemoved_leaves.bind fun _ _ => extension_leaves.bind fun s _ => ?_
  refine (orFail_leaves fun _ hs => hs).bind fun _ _ => intervalToFps_spares.bind fun _ _ => ?_
  exact writeUlong_leaves.bind fun _ _ => writeUlong_leaves.bind fun _ _ => setInformation_leaves

theorem registerAccess_spares (isWrite : Bool) :
    Leaves (Spared host) (registerAccess d isWrite request) fun _ => True := by
  refine .ite (fun _ => fail_leaves) fun _ => readUshort_leaves.bind fun _ _ => ?_
  refine .ite (fun _ => fail_leaves) fun _ => readUlong_leaves.bind fun _ _ => ?_
  cases isWrite with
  | true => exact readUlong_leaves.bind fun _ _ => orFail_leaves fun _ hs => hs
  | false =>
    refine (orFail_leaves fun _ hs => hs).bind fun _ _ => writeUlong_leaves.bind fun _ _ => ?_
    exact setInformation_leaves.bind fun _ _ => trace_leaves

theorem rawPacket_spares : Leaves (Spared host) (rawPacket d request) fun _ => True := by
  refine .ite (fun _ => fail_leaves) fun _ => .ite (fun _ => fail_leaves) fun _ => ?_
  refine swapUlongsFrom_leaves.bind fun _ _ => readBytes_leaves.bind fun _ _ => ?_
  refine (orFail_leaves fun _ hs => hs).bind fun _ _ => .ite (fun _ => ?_) fun _ => .pure trivial
  refine (orFail_leaves fun _ hs => hs).bind fun _ _ => copyTo_leaves.bind fun _ _ => ?_
  exact swapUlongsFrom_leaves.bind fun _ _ => setInformation_leaves

theorem mailbox_spares : Leaves (Spared host) (mailbox d request) fun _ => True := by
  refine readUlong_leaves.bind fun _ _ => checkRemoved_leaves.bind fun _ _ => ?_
  refine .ite (fun _ => .throw) fun _ => ?_
  refine .ite (fun _ => registerAccess_spares true) fun _ => ?_
  refine .ite (fun _ => registerAccess_spares false) fun _ => ?_
  exact .ite (fun _ => rawPacket_spares) fun _ => fail_leaves

theorem ioctlDispatch_confines (hslot : host.core.slot = some c)
    (hne : c.fileObject ≠ request.fileObject) : ∀ entry ∈ ioctlDispatch d, Confines host request entry := by
  have hverb (verb : Verb) (hv : verb ≠ .getTransferInfo) : Refused host (slotVerb d verb request) :=
    slotVerb_refused hslot hne hv
  simp only [ioctlDispatch, List.forall_mem_cons]
  refine ⟨?_, ?_, ?_, ?_, ?_, ?_, ?_, ?_, ?_, ?_, ?_, ?_, ?_, ?_, ?_, ?_, ?_, ?_, ?_, ?_, ?_, ?_, ?_,
    ?_, ?_, ?_, ?_, ?_, ?_, ?_, ?_, ?_, ?_, ?_, ?_, ?_, ?_, ?_, ?_, ?_, fun _ h => absurd h List.not_mem_nil⟩
  iterate 6 exact .of_quiet notImplemented_quiet (by decide)
  · exact .of_camera subwindowGet_spares (by decide)
  · exact .of_quiet subwindowSet_quiet (by decide)
  · exact .of_verb (.readUlong fun _ => hverb _ (by simp))
  · exact .of_verb (hverb _ (by simp))
  · exact .of_verb (.readUlong fun _ => .readUlong fun _ => hverb _ (by simp))
  · exact .of_verb (.readUlong fun _ => .readUlong fun _ => hverb _ (by simp))
  · exact .of_quiet getTransferInfo_quiet (by decide)
  · exact .of_verb (.readUlong fun _ => hverb _ (by simp))
  · exact .of_verb (hverb _ (by simp))
  · exact .of_verb (.readUlong fun _ => .readUlong fun _ => .readUlong fun _ => hverb _ (by simp))
  · exact .of_verb (hverb _ (by simp))
  iterate 5 exact .of_quiet notImplemented_quiet (by decide)
  · exact .of_verb (hverb _ (by simp))
  · exact .of_camera enumFrameRate_spares (by decide)
  · exact .of_quiet (setFrameRate_quiet hslot) (by decide)
  · exact .of_quiet notImplemented_quiet (by decide)
  · exact .of_camera getFrameRate_spares (by decide)
  iterate 2 exact .of_quiet notImplemented_quiet (by decide)
  · exact .of_camera getPixelFormat_spares (by decide)
  · exact .of_quiet (setPixelFormat_quiet hslot) (by decide)
  iterate 2 exact .of_verb (hverb _ (by simp))
  · exact .of_verb (.readUlong fun _ => hverb _ (by simp))
  · exact .of_verb (hverb _ (by simp))
  iterate 2 exact .of_quiet notImplemented_quiet (by decide)
  · exact .of_quiet invalidateCurrentFormat_quiet (by decide)
  · exact .of_quiet getLastError_quiet (by decide)
  · exact .of_camera mailbox_spares (by decide)

theorem Confines.run {entry : DispatchEntry σ} (h : Confines host request entry) (is32BitCaller : Bool) :
    Leaves (Spared host) (entry.run is32BitCaller request) (fun _ => True) ∧
    (entry.ioControlCode ∉ cameraCodes →
      Leaves (Unreached host) (entry.run is32BitCaller request) fun _ => True) ∧
    (entry.ioControlCode ∈ slotVerbCodes →
      Rejects (Unreached host) (entry.run is32BitCaller request)) := by
  refine ⟨?_, fun hc => ?_, fun hv => ?_⟩
  · exact .ite (fun _ => .throw) fun _ => .ite (fun _ => fail_leaves) fun _ => h.spares
  · exact .ite (fun _ => .throw) fun _ => .ite (fun _ => fail_leaves) fun _ => h.unreached hc
  · intro s hs
    unfold DispatchEntry.run
    split
    · exact ⟨_, rfl, by decide⟩
    · split
      · exact fail_rejects (by decide) s hs
      · exact h.rejects hv s hs

theorem commit_eq (s : Issued σ) : s.commit.core = s.host.core ∧ s.commit.modes = s.host.modes ∧
    s.commit.csrBaseAddress = s.host.csrBaseAddress ∧ s.commit.camera = s.host.camera := by
  unfold Issued.commit
  split <;> exact ⟨rfl, rfl, rfl, rfl⟩

theorem deviceControl_confines {is32BitCaller : Bool} {memory : ℕ → Byte} {r : Completion σ}
    (hslot : host.core.slot = some c) (hne : c.fileObject ≠ request.fileObject)
    (h : deviceControl d code is32BitCaller request memory host = some r) :
    Spared host r.host ∧ (code ∉ cameraCodes → r.host.camera = host.camera) ∧
      (code ∈ slotVerbCodes → ntSuccess r.status = false) := by
  unfold deviceControl at h
  split at h
  · cases h
  split at h
  · cases h
  · next entry hentry =>
    split at h
    · cases h
    have hmem := List.mem_of_find?_eq_some hentry
    have hcode : entry.ioControlCode = code := by
      simpa using List.find?_some hentry
    have hconf := (ioctlDispatch_confines hslot hne entry hmem).run is32BitCaller
    rw [hcode] at hconf
    obtain ⟨hspares, hunreached, hrejects⟩ := hconf
    have hhost : Unreached host host := ⟨⟨rfl, rfl, rfl⟩, rfl⟩
    dsimp only at h
    generalize hs : (⟨⟨host, PlError.success.code⟩, memory, [], 0⟩ : Buffered (Issued σ)) = s at h
    obtain rfl : s.device.host = host := by rw [← hs]
    have hspared := (hspares s hhost.1).1
    have hcamera := fun hc => (hunreached hc s hhost).1
    have hfails := fun hv => hrejects hv s hhost
    have hcommit := commit_eq (entry.run is32BitCaller request s).2.device
    generalize entry.run is32BitCaller request s = done at h hspared hcamera hfails hcommit
    obtain ⟨hcore, hmodes, hbase, hcam⟩ := hcommit
    obtain rfl := Option.some.inj h
    refine ⟨⟨hcore.trans hspared.1, hmodes.trans hspared.2.1, hbase.trans hspared.2.2⟩, ?_, ?_⟩
    · exact fun hc => hcam.trans (hcamera hc).2
    · intro hv
      obtain ⟨status, hstatus, hfail⟩ := hfails hv
      dsimp only
      rw [hstatus]
      exact hfail

end

/-- A request as the I/O manager hands it over. -/
structure Irp where
  ioControlCode : BitVec 32
  is32BitCaller : Bool
  request : Request
  memory : ℕ → Byte

/-- The requests one after the other, each with what it is completed with. -/
def serve (d : Services σ) : Host σ → List Irp → List (Irp × Option (Completion σ)) × Host σ
  | host, [] => ([], host)
  | host, i :: is =>
    let r := deviceControl d i.ioControlCode i.is32BitCaller i.request i.memory host
    let (rs, host) := serve d (r.elim host Completion.host) is
    ((i, r) :: rs, host)

/-- Whatever requests the file objects that do not own the slot issue, with any code, lengths and
content of the buffer, and whatever the work of a verb would do: the slot, its ring, its events, its
engine and the driver's tables stay as they are, and every slot verb but the one that reads the
transfer info fails. The camera is reached by the mailbox and the queries of the format only. -/
theorem nonowner_confined (d : Services σ) {host : Host σ} {c : Slot} {is : List Irp}
    (hslot : host.core.slot = some c) (hne : ∀ i ∈ is, c.fileObject ≠ i.request.fileObject) :
    Spared host (serve d host is).2 ∧
      ((∀ i ∈ is, i.ioControlCode ∉ cameraCodes) → (serve d host is).2.camera = host.camera) ∧
      ∀ i r, (i, some r) ∈ (serve d host is).1 →
        i.ioControlCode ∈ slotVerbCodes → ntSuccess r.status = false := by
  induction is generalizing host with
  | nil => exact ⟨⟨rfl, rfl, rfl⟩, fun _ => rfl, fun i r h => absurd h List.not_mem_nil⟩
  | cons i is ih =>
    have hfirst := hne i List.mem_cons_self
    have hrest : ∀ i ∈ is, c.fileObject ≠ i.request.fileObject :=
      fun j hj => hne j (List.mem_cons_of_mem _ hj)
    simp only [serve]
    cases hr : deviceControl d i.ioControlCode i.is32BitCaller i.request i.memory host with
    | none =>
      -- the request is forwarded to the class driver
      obtain ⟨hspared, hcamera, hfails⟩ := ih hslot hrest
      refine ⟨hspared, fun hc => hcamera fun j hj => hc j (List.mem_cons_of_mem _ hj), ?_⟩
      intro j r hj hv
      rcases List.mem_cons.mp hj with hj | hj
      · cases hj
      · exact hfails j r hj hv
    | some r =>
      obtain ⟨hone, hcam, hfail⟩ := deviceControl_confines hslot hfirst hr
      have hnext : r.host.core.slot = some c := by rw [hone.1, hslot]
      obtain ⟨hspared, hcamera, hfails⟩ := ih hnext hrest
      refine ⟨⟨hspared.1.trans hone.1, hspared.2.1.trans hone.2.1, hspared.2.2.trans hone.2.2⟩, ?_, ?_⟩
      · intro hc
        exact (hcamera fun j hj => hc j (List.mem_cons_of_mem _ hj)).trans
          (hcam (hc i List.mem_cons_self))
      · intro j r' hj hv
        rcases List.mem_cons.mp hj with hj | hj
        · cases hj
          exact hfail hv
        · exact hfails j r' hj hv

/-- Another file object unprepares the slot, reads its transfer info, and unmaps a ring. -/
def strangerIrps : List Irp :=
  [⟨ctlCode 0x83D, false, ⟨2, 0, 0⟩, fun _ => 0⟩, ⟨ctlCode 0x83B, false, ⟨2, 0, 12⟩, fun _ => 0⟩,
    ⟨ctlCode 0x83F, false, ⟨2, 0, 0⟩, fun _ => 0⟩]

def preparedHost : Host Unit := { silentHost with core := { IoctlDevice.create with slot := some (.fresh 1 8) } }

theorem nonowner_confined_strangerIrps :
    ((serve silentServices preparedHost strangerIrps).1.map fun p => p.2.map Completion.status) =
      [some statusUnsuccessful, some statusSuccess, some statusUnsuccessful] ∧
    Spared preparedHost (serve silentServices preparedHost strangerIrps).2 := by
  refine ⟨by decide +kernel, ?_⟩
  have hne : ∀ i ∈ strangerIrps, (Slot.fresh 1 8).fileObject ≠ i.request.fileObject := by
    simp [strangerIrps, Slot.fresh]
  exact (nonowner_confined silentServices rfl hne).1

end Ioctl
end Photonic
