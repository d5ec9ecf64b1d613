import Photonic.Ioctl.Handlers
import Photonic.Ioctl.Verbs

namespace Photonic
namespace Ioctl
open Dcam Mailbox Buffered

section
variable {σ α : Type} {inputLength outputLength : ℕ} {K K' : Set ℕ}

theorem confined_last {x : HandlerBody σ α} (h : Confined inputLength outputLength K x K') :
    Confined inputLength outputLength K x ∅ :=
  h.mono subset_rfl (Set.empty_subset _)

theorem report_confined {n : ℕ} (hn : n ≤ outputLength) (h : ∀ i < n, i < inputLength ∨ i ∈ K) :
    Confined inputLength outputLength K (setInformation n : HandlerBody σ _) ∅ :=
  confined_last (Confined.setInformation hn h)

theorem readUshort_confined {offset : ℕ}
    (h : ∀ i, offset ≤ i → i < offset + 2 → i < inputLength ∨ i ∈ K) :
    Confined inputLength outputLength K (readUshort offset : HandlerBody σ _) K := by
  refine (Confined.readByte (h _ le_rfl (by omega))).bind fun _ => ?_
  exact (Confined.readByte (h _ (by omega) (by omega))).bind fun _ => Confined.pure

theorem readUlong_confined {offset : ℕ}
    (h : ∀ i, offset ≤ i → i < offset + 4 → i < inputLength ∨ i ∈ K) :
    Confined inputLength outputLength K (readUlong offset : HandlerBody σ _) K := by
  refine (Confined.readByte (h _ le_rfl (by omega))).bind fun _ => ?_
  refine (Confined.readByte (h _ (by omega) (by omega))).bind fun _ => ?_
  refine (Confined.readByte (h _ (by omega) (by omega))).bind fun _ => ?_
  exact (Confined.readByte (h _ (by omega) (by omega))).bind fun _ => Confined.pure

theorem readUlong_input {offset : ℕ} (h : offset + 4 ≤ inputLength) :
    Confined inputLength outputLength K (readUlong offset : HandlerBody σ _) K :=
  readUlong_confined fun _ _ _ => .inl (by omega)

theorem writeUlong_confined {offset : ℕ} {w : BitVec 32}
    (h : offset + 4 ≤ max inputLength outputLength) :
    Confined inputLength outputLength K (writeUlong offset w : HandlerBody σ _)
      (K ∪ Set.Ico offset (offset + 4)) :=
  Confined.copyTo h

theorem trace_confined {offsets : List ℕ}
    (h : ∀ offset ∈ offsets, ∀ i, offset ≤ i → i < offset + 4 → i < inputLength ∨ i ∈ K) :
    Confined inputLength outputLength K (trace offsets : HandlerBody σ _) K := by
  induction offsets with
  | nil => exact Confined.pure
  | cons offset offsets ih =>
    exact (readUlong_confined (h offset List.mem_cons_self)).bind fun _ =>
      ih fun o ho => h o (List.mem_cons_of_mem _ ho)

theorem onHost_confined {x : Routine (Host σ) NtStatus α} :
    Confined inputLength outputLength K (onHost x) K :=
  Confined.onDevice

theorem extension_confined :
    Confined inputLength outputLength K (extension : HandlerBody σ _) K :=
  onHost_confined

theorem fail_confined {status : NtStatus} {error : PlReturnCode} :
    Confined inputLength outputLength K (fail status error : HandlerBody σ α) K' :=
  Confined.onDevice.bind fun _ => Confined.throw

theorem orFail_confined {x : Routine (Host σ) NtStatus α} {error : PlReturnCode} :
    Confined inputLength outputLength K (orFail x error) K := by
  refine onHost_confined.bind fun r => ?_
  cases r with
  | ok a => exact Confined.pure
  | error status => exact fail_confined

theorem checkRemoved_confined :
    Confined inputLength outputLength K (checkRemoved : HandlerBody σ _) K := by
  refine extension_confined.bind fun s => ?_
  exact Confined.ite (fun _ => fail_confined) fun _ => Confined.pure

theorem intervalToFps_confined {d : Services σ} {interval offset : ℕ}
    (h : offset + 4 ≤ max inputLength outputLength) :
    Confined inputLength outputLength K (intervalToFps d interval offset)
      (K ∪ Set.Ico offset (offset + 4)) :=
  Confined.ite (fun _ => fail_confined) fun _ => orFail_confined.bind fun _ => writeUlong_confined h

theorem swapUlongsFrom_confined {offset n : ℕ}
    (h : ∀ i, offset ≤ i → i < offset + 4 * n →
      (i < inputLength ∨ i ∈ K) ∧ i < max inputLength outputLength) :
    Confined inputLength outputLength K (swapUlongsFrom offset n : HandlerBody σ _) K := by
  induction n generalizing offset with
  | zero => exact Confined.pure
  | succ n ih =>
    have hlast := (h (offset + 3) (by omega) (by omega)).2
    refine (readUlong_confined fun i hi hi' => (h i hi (by omega)).1).bind fun w => ?_
    refine ((writeUlong_confined (by omega)).mono subset_rfl Set.subset_union_left).bind fun _ => ?_
    exact ih fun i hi hi' => h i (by omega) (by omega)

end

section
variable {σ : Type} {d : Services σ} {request : Request}

def Keeps (request : Request) (h : Handler σ) : Prop :=
  Confined request.inputLength request.outputLength ∅ (h request) ∅

theorem echoStatus_confined {K : Set ℕ} :
    Confined request.inputLength request.outputLength K (echoStatus request : HandlerBody σ _) ∅ := by
  refine Confined.ite (fun hout => ?_) fun _ => confined_last Confined.pure
  refine (writeUlong_confined (by omega)).bind fun _ => ?_
  exact report_confined hout fun i hi => .inr (.inr ⟨Nat.zero_le i, hi⟩)

theorem notImplemented_keeps : Keeps request (notImplemented : Handler σ) := Confined.throw

theorem invalidateCurrentFormat_keeps : Keeps request (invalidateCurrentFormat : Handler σ) :=
  Confined.pure

theorem getLastError_keeps (hout : 4 ≤ request.outputLength) :
    Keeps request (getLastError : Handler σ) := by
  refine onHost_confined.bind fun lastError => ?_
  refine (writeUlong_confined (by omega)).bind fun _ => ?_
  have hwritten (i : ℕ) (hi : i < 4) : i < request.inputLength ∨ i ∈ ∅ ∪ Set.Ico 0 (0 + 4) :=
    .inr (.inr ⟨Nat.zero_le i, hi⟩)
  refine (Confined.setInformation hout hwritten).bind fun _ => confined_last (trace_confined ?_)
  intro offset ho i hi hi'
  simp only [List.mem_singleton] at ho
  exact hwritten i (by omega)

theorem subwindowGet_keeps (hout : 24 ≤ request.outputLength) : Keeps request (subwindowGet d) := by
  refine checkRemoved_confined.bind fun _ => extension_confined.bind fun s => ?_
  refine orFail_confined.bind fun w => ?_
  refine (writeUlong_confined (by omega)).bind fun _ => ?_
  refine (writeUlong_confined (by omega)).bind fun _ => ?_
  refine (writeUlong_confined (by omega)).bind fun _ => ?_
  refine (writeUlong_confined (by omega)).bind fun _ => ?_
  refine (writeUlong_confined (by omega)).bind fun _ => ?_
  refine (writeUlong_confined (by omega)).bind fun _ => ?_
  have hwritten (i : ℕ) (hi : i < 24) : i ∈ ∅ ∪ Set.Ico 0x00 (0x00 + 4) ∪ Set.Ico 0x04 (0x04 + 4) ∪
      Set.Ico 0x10 (0x10 + 4) ∪ Set.Ico 0x08 (0x08 + 4) ∪ Set.Ico 0x0C (0x0C + 4) ∪
      Set.Ico 0x14 (0x14 + 4) := by
    simp only [Set.mem_union, Set.mem_Ico]
    omega
  refine (Confined.setInformation hout fun i hi => .inr (hwritten i hi)).bind fun _ => ?_
  refine confined_last (trace_confined fun offset ho i hi hi' => .inr (hwritten i ?_))
  simp only [List.mem_cons, List.not_mem_nil, or_false] at ho
  omega

theorem subwindowSet_keeps (hin : 24 ≤ request.inputLength) :
    Keeps request (subwindowSet : Handler σ) := by
  refine checkRemoved_confined.bind fun _ => ?_
  refine (readUlong_input (by omega)).bind fun scale => ?_
  refine (readUlong_input (by omega)).bind fun width => ?_
  refine (readUlong_input (by omega)).bind fun height => ?_
  refine (readUlong_input (by omega)).bind fun offsetX => ?_
  refine (readUlong_input (by omega)).bind fun offsetY => ?_
  refine extension_confined.bind fun s => ?_
  exact Confined.ite (fun _ => echoStatus_confined) fun _ => fail_confined

theorem getPixelFormat_keeps (hout : 4 ≤ request.outputLength) :
    Keeps request (getPixelFormat d) := by
  refine checkRemoved_confined.bind fun _ => extension_confined.bind fun s => ?_
  refine orFail_confined.bind fun pixelFormat => ?_
  refine (writeUlong_confined (by omega)).bind fun _ => ?_
  exact report_confined hout fun i hi => .inr (.inr ⟨Nat.zero_le i, hi⟩)

theorem setPixelFormat_keeps (hin : 4 ≤ request.inputLength) : Keeps request (setPixelFormat d) := by
  refine (readUlong_input hin).bind fun pixelFormat => ?_
  refine checkRemoved_confined.bind fun _ => extension_confined.bind fun s => ?_
  refine Confined.ite (fun _ => fail_confined) fun _ => onHost_confined.bind fun r => ?_
  cases r with
  | ok u => exact echoStatus_confined
  | error status => exact Confined.ite (fun _ => fail_confined) fun _ => fail_confined

theorem setFrameRate_keeps (hin : 12 ≤ request.inputLength) : Keeps request (setFrameRate d) := by
  refine checkRemoved_confined.bind fun _ => (readUlong_input (by omega)).bind fun index => ?_
  refine extension_confined.bind fun s => ?_
  refine Confined.ite (fun _ => fail_confined) fun _ => onHost_confined.bind fun r => ?_
  cases r with
  | ok u => exact echoStatus_confined
  | error status => exact Confined.ite (fun _ => fail_confined) fun _ => fail_confined

theorem slotVerb_keeps (verb : Verb) : Keeps request (slotVerb d verb) := by
  refine extension_confined.bind fun s => ?_
  cases s.core.handler request.fileObject verb with
  | done reply => exact Confined.ite (fun _ => echoStatus_confined) fun _ => fail_confined
  | goes pc =>
    refine onHost_confined.bind fun r => ?_
    cases r with
    | ok u => exact echoStatus_confined
    | error e => exact fail_confined

theorem prepareVideo_keeps (hin : 8 ≤ request.inputLength) : Keeps request (prepareVideo d) :=
  (readUlong_input (by omega)).bind fun _ => slotVerb_keeps _

theorem startVideo_keeps (hin : 4 ≤ request.inputLength) : Keeps request (startVideo d) :=
  (readUlong_input hin).bind fun _ => slotVerb_keeps _

theorem startImager_keeps (hin : 4 ≤ request.inputLength) : Keeps request (startImager d) :=
  (readUlong_input hin).bind fun _ => slotVerb_keeps _

theorem mapVideoFrame_keeps (hin : 12 ≤ request.inputLength) : Keeps request (mapVideoFrame d) := by
  refine (readUlong_input (by omega)).bind fun frameCount => ?_
  refine (readUlong_input (by omega)).bind fun frameSize => ?_
  exact (readUlong_input (by omega)).bind fun _ => slotVerb_keeps _

theorem registerEvent_keeps (hin : 12 ≤ request.inputLength) : Keeps request (registerEvent d) := by
  refine (readUlong_input (by omega)).bind fun handle => ?_
  exact (readUlong_input (by omega)).bind fun _ => slotVerb_keeps _

theorem unregisterEvent_keeps (hin : 12 ≤ request.inputLength) :
    Keeps request (unregisterEvent d) := by
  refine (readUlong_input (by omega)).bind fun handle => ?_
  exact (readUlong_input (by omega)).bind fun _ => slotVerb_keeps _

theorem getTransferInfo_keeps (hout : 12 ≤ request.outputLength) :
    Keeps request (getTransferInfo : Handler σ) := by
  refine extension_confined.bind fun s => ?_
  cases s.core.slot with
  | none => exact fail_confined
  | some c =>
    refine (writeUlong_confined (by omega)).bind fun _ => ?_
    refine (writeUlong_confined (by omega)).bind fun _ => ?_
    refine (writeUlong_confined (by omega)).bind fun _ => ?_
    have hwritten (i : ℕ) (hi : i < 12) :
        i ∈ ∅ ∪ Set.Ico 4 (4 + 4) ∪ Set.Ico 8 (8 + 4) ∪ Set.Ico 0 (0 + 4) := by
      simp only [Set.mem_union, Set.mem_Ico]
      omega
    refine (Confined.setInformation hout fun i hi => .inr (hwritten i hi)).bind fun _ => ?_
    refine confined_last (trace_confined fun offset ho i hi hi' => .inr (hwritten i ?_))
    simp only [List.mem_cons, List.not_mem_nil, or_false] at ho
    omega

/-- Past the last rate only the status is written: the rest is what the caller brought. -/
theorem enumFrameRate_keeps (hin : 12 ≤ request.inputLength) (hout : 12 ≤ request.outputLength) :
    Keeps request (enumFrameRate d) := by
  have hinput (K : Set ℕ) (i : ℕ) (hi : i < 12) : i < request.inputLength ∨ i ∈ K := .inl (by omega)
  refine checkRemoved_confined.bind fun _ => (readUlong_input (by omega)).bind fun index => ?_
  refine extension_confined.bind fun s => onHost_confined.bind fun r => ?_
  cases r with
  | error status =>
    refine Confined.ite (fun _ => ?_) fun _ => fail_confined
    refine (writeUlong_confined (by omega)).bind fun _ => ?_
    exact report_confined hout (hinput _)
  | ok interval =>
    refine (intervalToFps_confined (by omega)).bind fun _ => ?_
    refine (writeUlong_confined (by omega)).bind fun _ => ?_
    refine (Confined.setInformation hout (hinput _)).bind fun _ => confined_last (trace_confined ?_)
    intro offset ho i hi hi'
    simp only [List.mem_singleton] at ho
    exact hinput _ i (by omega)

/-- No input is asked of the caller, so that all three fields are written. -/
theorem getFrameRate_keeps (hout : 12 ≤ request.outputLength) : Keeps request (getFrameRate d) := by
  refine checkRemoved_confined.bind fun _ => extension_confined.bind fun s => ?_
  refine orFail_confined.bind fun interval => ?_
  refine (intervalToFps_confined (by omega)).bind fun _ => ?_
  refine (writeUlong_confined (by omega)).bind fun _ => ?_
  refine (writeUlong_confined (by omega)).bind fun _ => ?_
  refine report_confined hout fun i hi => .inr ?_
  simp only [Set.mem_union, Set.mem_Ico]
  omega

theorem registerAccess_keeps (isWrite : Bool) : Keeps request (registerAccess d isWrite) := by
  refine Confined.ite (fun _ => fail_confined) fun hlen => ?_
  have hin : 12 ≤ request.inputLength := by cases isWrite <;> simp at hlen <;> omega
  refine (readUshort_confined fun i _ _ => .inl (by omega)).bind fun flags => ?_
  refine Confined.ite (fun _ => fail_confined) fun _ => ?_
  refine (readUlong_input (by omega)).bind fun address => ?_
  cases isWrite with
  | true =>
    have hin' : 16 ≤ request.inputLength := by simpa using hlen
    exact (readUlong_input (by omega)).bind fun value => confined_last orFail_confined
  | false =>
    have hout : 16 ≤ request.outputLength := by simp at hlen; omega
    refine orFail_confined.bind fun value => ?_
    refine (writeUlong_confined (by omega)).bind fun _ => ?_
    have hknown (i : ℕ) (hi : i < 16) : i < request.inputLength ∨ i ∈ ∅ ∪ Set.Ico 12 (12 + 4) := by
      simp only [Set.mem_union, Set.mem_Ico]
      omega
    refine (Confined.setInformation hout hknown).bind fun _ => confined_last (trace_confined ?_)
    intro offset ho i hi hi'
    simp only [List.mem_cons, List.not_mem_nil, or_false] at ho
    exact hknown i (by omega)

/-- The response overwrites the packet, and only the response is swapped back. -/
theorem rawPacket_keeps : Keeps request (rawPacket d) := by
  refine Confined.ite (fun _ => fail_confined) fun _ => ?_
  refine Confined.ite (fun _ => fail_confined) fun _ => ?_
  refine (swapUlongsFrom_confined fun i _ hi => ⟨.inl (by omega), by omega⟩).bind fun _ => ?_
  refine (Confined.readBytes fun i _ hi => .inl (by omega)).bind fun packet => ?_
  refine orFail_confined.bind fun _ => ?_
  refine Confined.ite (fun _ => ?_) fun _ => confined_last Confined.pure
  refine orFail_confined.bind fun data => ?_
  refine (Confined.copyTo (by omega)).bind fun _ => ?_
  have hwritten (i : ℕ) (hi : i < request.outputLength) :
      i ∈ ∅ ∪ Set.Ico 0 (0 + request.outputLength) := .inr ⟨Nat.zero_le i, by omega⟩
  refine (swapUlongsFrom_confined fun i _ hi =>
    ⟨.inr (hwritten i (by omega)), by omega⟩).bind fun _ => ?_
  exact report_confined le_rfl fun i hi => .inr (hwritten i hi)

theorem mailbox_keeps (hin : 4 ≤ request.inputLength) : Keeps request (mailbox d) := by
  refine (readUlong_input hin).bind fun command => checkRemoved_confined.bind fun _ => ?_
  refine Confined.ite (fun _ => Confined.throw) fun _ => ?_
  refine Confined.ite (fun _ => registerAccess_keeps true) fun _ => ?_
  refine Confined.ite (fun _ => registerAccess_keeps false) fun _ => ?_
  exact Confined.ite (fun _ => rawPacket_keeps) fun _ => fail_confined

theorem ioctlDispatch_keeps (request : Request) : ∀ entry ∈ ioctlDispatch d,
    entry.minInputLength ≤ request.inputLength → entry.minOutputLength ≤ request.outputLength →
      Keeps request entry.handler := by
  simp only [ioctlDispatch, List.forall_mem_cons]
  refine ⟨?_, ?_, ?_, ?_, ?_, ?_, ?_, ?_, ?_, ?_, ?_, ?_, ?_, ?_, ?_, ?_, ?_, ?_, ?_, ?_, ?_, ?_, ?_,
    ?_, ?_, ?_, ?_, ?_, ?_, ?_, ?_, ?_, ?_, ?_, ?_, ?_, ?_, ?_, ?_, ?_, nofun⟩ <;> intro hin hout
  iterate 6 exact notImplemented_keeps
  · exact subwindowGet_keeps hout
  · exact subwindowSet_keeps hin
  · exact startVideo_keeps hin
  · exact slotVerb_keeps _
  · exact registerEvent_keeps hin
  · exact unregisterEvent_keeps hin
  · exact getTransferInfo_keeps hout
  · exact prepareVideo_keeps hin
  · exact slotVerb_keeps _
  · exact mapVideoFrame_keeps hin
  · exact slotVerb_keeps _
  iterate 5 exact notImplemented_keeps
  · exact slotVerb_keeps _
  · exact enumFrameRate_keeps hin hout
  · exact setFrameRate_keeps hin
  · exact notImplemented_keeps
  · exact getFrameRate_keeps hout
  iterate 2 exact notImplemented_keeps
  · exact getPixelFormat_keeps hout
  · exact setPixelFormat_keeps hin
  iterate 2 exact slotVerb_keeps _
  · exact startImager_keeps hin
  · exact slotVerb_keeps _
  iterate 2 exact notImplemented_keeps
  · exact invalidateCurrentFormat_keeps
  · exact getLastError_keeps hout
  · exact mailbox_keeps hin

theorem run_confined (request : Request) {entry : DispatchEntry σ} (h : entry ∈ ioctlDispatch d)
    (is32BitCaller : Bool) :
    Confined request.inputLength request.outputLength ∅ (entry.run is32BitCaller request) ∅ := by
  refine Confined.ite (fun _ => Confined.throw) fun _ => ?_
  refine Confined.ite (fun _ => fail_confined) fun hlen => ?_
  exact ioctlDispatch_keeps request entry h (by omega) (by omega)

theorem deviceControl_cases {code : BitVec 32} {is32BitCaller : Bool} {host : Host σ}
    {memory : ℕ → Byte} {r : Completion σ}
    (h : deviceControl d code is32BitCaller request memory host = some r) :
    ∃ entry ∈ ioctlDispatch d, ∀ memory', ∃ r',
      deviceControl d code is32BitCaller request memory' host = some r' ∧
      (memory' = memory → r' = r) ∧
      let issued : Buffered (Issued σ) := ⟨⟨host, PlError.success.code⟩, memory', [], 0⟩
      let done := entry.run is32BitCaller request issued
      r'.status = (match done.1 with
        | .ok _ => statusSuccess
        | .error status => status) ∧
      r'.information = done.2.information ∧ r'.bytes = done.2.bytes ∧
      r'.accesses = done.2.accesses ∧ r'.host = done.2.device.commit := by
  unfold deviceControl at h ⊢
  by_cases htype : code.toNat / 2 ^ 16 ≠ fileDeviceUnknown
  · rw [if_pos htype] at h
    cases h
  · rw [if_neg htype] at h
    cases hentry : ioctlLookup d code with
    | none =>
      rw [hentry] at h
      cases h
    | some entry =>
      simp only [hentry] at h
      by_cases hreg : (!host.core.registered) = true
      · rw [if_pos hreg] at h
        cases h
      · rw [if_neg hreg] at h
        refine ⟨entry, List.mem_of_find?_eq_some hentry, fun memory' => ?_⟩
        simp only [if_neg htype, if_neg hreg]
        refine ⟨_, rfl, ?_, rfl, rfl, rfl, rfl, rfl⟩
        rintro rfl
        exact Option.some.inj h

/-- The buffer contract of the interface. `memory` is the system buffer as the handler gets it:
the caller's input, and behind it what the pool held. The buffer ends at the larger of the two
lengths, at once where both are zero. Unless it is forwarded to the class driver, a request

* reads a byte that it did not write itself only where the byte is input,
* accesses nothing outside the buffer,
* reports no more bytes than there is room for, each of them written or the caller's own,
* and tells the caller, and the device, nothing that depends on the rest of the memory. -/
theorem ioctl_buffer_contract (d : Services σ) (code : BitVec 32) (is32BitCaller : Bool)
    (request : Request) (memory : ℕ → Byte) (host : Host σ) (r : Completion σ)
    (h : deviceControl d code is32BitCaller request memory host = some r) :
    (∀ before after offset, r.accesses = after ++ .read offset :: before →
      offset < request.inputLength ∨ .write offset ∈ before) ∧
    (∀ offset, .read offset ∈ r.accesses ∨ .write offset ∈ r.accesses →
      offset < max request.inputLength request.outputLength) ∧
    r.information ≤ request.outputLength ∧
    (∀ i < r.information,
      .write i ∈ r.accesses ∨ i < request.inputLength ∧ r.bytes i = memory i) ∧
    ∀ memory' : ℕ → Byte, (∀ i < request.inputLength, memory' i = memory i) →
      ∃ r', deviceControl d code is32BitCaller request memory' host = some r' ∧
        r'.status = r.status ∧ r'.information = r.information ∧ r'.host = r.host ∧
        ∀ i < r.information, r'.bytes i = r.bytes i := by
  obtain ⟨entry, hentry, hruns⟩ := deviceControl_cases h
  have hconfined := run_confined request hentry is32BitCaller
  obtain ⟨r₀, -, hr, hstatus, hinfo, hbytes, haccesses, hhost⟩ := hruns memory
  obtain rfl := hr rfl
  let issued (m : ℕ → Byte) : Buffered (Issued σ) := ⟨⟨host, PlError.success.code⟩, m, [], 0⟩
  have hrun (m : ℕ → Byte) (hm : ∀ i < request.inputLength, m i = memory i) :=
    hconfined memory (issued memory) (issued m) (sound_arrived _ _) (alike_arrived _ hm) nofun
  obtain ⟨hsound, -, -, -⟩ := hrun memory fun _ _ => rfl
  refine ⟨?_, ?_, ?_, ?_, ?_⟩
  · intro before after offset he
    rw [haccesses] at he
    exact (he ▸ hsound.order).read
  · intro offset ho
    rw [haccesses] at ho
    exact hsound.order.inside ho
  · rw [hinfo]
    exact hsound.fits
  · intro i hi
    rw [hinfo] at hi
    rw [haccesses, hbytes]
    exact hsound.returned hi
  · intro memory' hm
    obtain ⟨-, halike, hsame, -⟩ := hrun memory' hm
    obtain ⟨r', hr', -, hstatus', hinfo', hbytes', -, hhost'⟩ := hruns memory'
    refine ⟨r', hr', ?_, ?_, ?_, ?_⟩
    · rw [hstatus, hstatus', hsame]
    · rw [hinfo, hinfo', halike.information]
    · rw [hhost, hhost', halike.device]
    · intro i hi
      rw [hinfo] at hi
      rw [hbytes, hbytes']
      exact halike.bytes i (hsound.reported i hi)

/-- A camera that answers nothing. -/
def silentServices : Services Unit where
  registers := ⟨fun _ => Routine.throw statusUnsuccessful, fun _ _ => Routine.throw statusUnsuccessful⟩
  blocks := ⟨fun _ _ s => (statusUnsuccessful, s), fun _ _ s => ((statusUnsuccessful, []), s)⟩
  saveFloatingPointState := pure ()
  fps := fun _ => 0
  carryOut := fun _ => pure ()

def silentHost : Host Unit := ⟨.create, (), 0, [], 0⟩

/-- The last error goes back in four bytes that the handler wrote, whatever the pool held. -/
theorem ioctl_buffer_contract_lastError : ∃ r,
    deviceControl silentServices (ctlCode 0x8FE) false ⟨0, 0, 4⟩ (fun _ => 0xCC) silentHost = some r ∧
      r.information = 4 ∧ ∀ i < 4, .write i ∈ r.accesses := by
  have hrun : (deviceControl silentServices (ctlCode 0x8FE) false ⟨0, 0, 4⟩ (fun _ => 0xCC)
      silentHost).map Completion.information = some 4 := by decide +kernel
  obtain ⟨r, hr, hinfo⟩ := Option.map_eq_some_iff.1 hrun
  refine ⟨r, hr, hinfo, fun i hi => ?_⟩
  have h := ioctl_buffer_contract silentServices (ctlCode 0x8FE) false ⟨0, 0, 4⟩ (fun _ => 0xCC)
    silentHost r hr
  exact (h.2.2.2.1 i (hinfo ▸ hi)).resolve_right fun hin => absurd hin.1 (Nat.not_lt_zero i)

end
end Ioctl
end Photonic
