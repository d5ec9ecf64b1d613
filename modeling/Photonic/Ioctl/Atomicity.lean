import Photonic.Ioctl.Failure

namespace Photonic
namespace IoctlDevice

def Blank (s : IoctlDevice) : Prop :=
  ∀ c, s.slot = some c → c.ring.mappedFrameCount = 0 →
    c.ring.totalFrameCount = 0 ∧ c.ring.currentFrameIndex = -1

namespace Blank
variable {s s' : IoctlDevice}

theorem feed (h : s.Blank) (hph : s.Phased) {a : Device.Act} {dev : Device} {slot : Option Slot}
    (hf : s.dev.feed Slot.callbacks s.slot a = some (dev, slot)) : Blank { s with dev, slot } := by
  intro c' hc' hz
  have hmap := (Device.Feeds.of_feed hf).mapped
  rw [show slot = some c' from hc'] at hmap
  obtain ⟨c, hc, hcz⟩ := Option.map_eq_some_iff.mp hmap.symm
  have hz₀ : c.ring.mappedFrameCount = 0 := hcz.trans hz
  have hold := h c hc hz₀
  rw [hc] at hf
  have hfeeds := Device.Feeds.of_feed hf
  cases hfeeds with
  | acquires | finds =>
    have hsame : c' = c := by
      refine Option.some.inj (hc'.symm.trans ?_)
      exact congrArg some (congrArg Prod.snd (Slot.acquire_unmapped hz₀))
    exact hsame ▸ hold
  | @delivers d hq =>
    obtain ⟨pc, hpc, hd⟩ := hq
    have hfail := (hph.vacant c hc hz₀).delivery hph.sound.engine hpc hd
    obtain rfl : c.deliver s.dev.ses.oneShot d = c' := Option.some.inj hc'
    rw [Slot.deliver_ring]
    unfold Ring.framesDeliver
    split
    · exact hold
    · rw [if_neg (by simp [hfail])]
      exact hold
  | silent => exact Option.some.inj hc' ▸ hold

theorem does (h : s.Blank) (ht : s.Turning) {o : VerbAnswer} (hx : Does s o s.pc s') : s'.Blank := by
  generalize hpc : s.pc = pc at hx
  intro c' hc' hz
  cases hx with
  | ended | pumped | quarantine | unmapHeld | validated | allocated | allLocked => exact h c' hc' hz
  | setOneShot | pump | start | stop | listen | finish => exact h c' hc' hz
  | built =>
    cases hc'
    exact ⟨rfl, rfl⟩
  | setPumpRing hc | requeue hc | unmapEmpty hc | unmapFrame hc | locked hc =>
    have hold := h _ hc
    cases hc'
    exact hold hz
  | unmapDone =>
    cases hc'
    exact ⟨rfl, rfl⟩
  | notAllocated hc | notLocked hc =>
    have hold := h _ hc ((ht _ hc).unmapped (by rw [hpc]; rfl))
    cases hc'
    exact hold
  | published =>
    cases hc'
    exact ⟨rfl, rfl⟩
  | events hc hturn he =>
    have hold := h _ hc
    have hring := hturn.ring he
    cases hc'
    simp only [Slot.ring, hring] at hz ⊢
    exact hold hz
  | destroy => cases hc'

theorem takes (h : s.Blank) (hph : s.Phased) (ht : s.Turning) {a : Act} (hx : Takes s a s') :
    s'.Blank := by
  cases hx with
  | slotDev _ _ hf => exact h.feed hph hf
  | verb _ hx => exact h.does ht hx
  | signal hc hsig he =>
    intro c' hc' hz
    have hold := h _ hc
    cases hc'
    obtain ⟨n, e, rest, rfl | rfl⟩ := hsig <;>
    · simp only [Events.step] at he
      split at he <;> cases he
      exact hold hz
  | _ => exact h

theorem of_reaches (h : machine.Reaches NoLateClaim s) : s.Blank := by
  refine h.invariant (I := Blank) (fun c hc => by cases hc) ?_
  intro s a s' hr hi _ hs
  exact hi.takes (.of_reaches hr) (.of_reaches hr) (.of_step hs)

end Blank
def Unmarked (s : IoctlDevice) : Prop :=
  ∀ c, s.slot = some c → c.ring.mappedFrameCount = 0 ∧ ∀ i, (c.ring.frames i).state = .queued

section
variable {s s' : IoctlDevice} {c : Slot}

theorem Rotating.queued (h : s.Rotating c) (hph : s.Phased) (hm : s.pc.maps = true)
    (hw : c.ring.mappedFrameCount = 0 ∨ maxVideoFrames ≤ s.pc.walked) (i : ℕ) :
    (c.ring.frames i).state = .queued := by
  have htear : s.pc.tearing = false := by
    by_contra ht
    cases hpc : s.pc with
    | unmap j force next =>
      rw [hpc] at ht hm
      obtain rfl : force = true := by simpa [VerbPc.tearing] using ht
      obtain ⟨-, n, rfl⟩ := h.forced hpc
      cases hm
    | flush | flushing | destroy =>
      rw [hpc] at hm
      cases hm
    | _ =>
      rw [hpc] at ht
      exact ht rfl
  by_contra hq
  have hlt := h.turns.limit i hq
  have hclear := h.cleared i (hw.imp id fun hw => Nat.lt_of_lt_of_le hlt hw)
  have hflight := h.none_inFlight hph hm htear i
  cases hs : (c.ring.frames i).state with
  | queued => exact hq hs
  | inFlight => exact hflight hs
  | delivered => exact hclear hs

/-- How a map goes on: one that can still fail leaves nothing marked. -/
def Maps (s : IoctlDevice) : Prop :=
  s.pc.maps = true ∨ s.pc.succeeds = true ∨ s.pc = .idle ∨
    (∃ status error, s.pc = .finish status error) ∧ s.Unmarked

theorem Unmarked.feed (h : s.Unmarked) (hph : s.Phased) {a : Device.Act} {dev : Device}
    {slot : Option Slot} (hf : s.dev.feed Slot.callbacks s.slot a = some (dev, slot)) :
    Unmarked { s with dev, slot } := by
  intro c' hc'
  have hmap := (Device.Feeds.of_feed hf).mapped
  rw [show slot = some c' from hc'] at hmap
  obtain ⟨c, hc, hcz⟩ := Option.map_eq_some_iff.mp hmap.symm
  obtain ⟨hz, hq⟩ := h c hc
  refine ⟨hcz.symm.trans hz, ?_⟩
  rw [hc] at hf
  have hfeeds := Device.Feeds.of_feed hf
  cases hfeeds with
  | acquires | finds =>
    have hsame : c' = c := by
      refine Option.some.inj (hc'.symm.trans ?_)
      exact congrArg some (congrArg Prod.snd (Slot.acquire_unmapped hz))
    exact hsame ▸ hq
  | @delivers d hmem =>
    obtain ⟨pc, hpc, hd⟩ := hmem
    have hfail := (hph.vacant c hc hz).delivery hph.sound.engine hpc hd
    obtain rfl : c.deliver s.dev.ses.oneShot d = c' := Option.some.inj hc'
    intro i
    rw [Slot.deliver_ring]
    by_cases hlt : Ring.index d.cookie < maxVideoFrames
    · rw [Ring.framesDeliver_state _ _ _ hlt, hfail, hq]
      simp
    · rw [Ring.framesDeliver, if_pos (Nat.le_of_not_lt hlt)]
      exact hq i
  | silent => exact Option.some.inj hc' ▸ hq

theorem Maps.does (h : s.Maps) (hph : s.Phased) (ht : s.Turning) {o : VerbAnswer} (hi : s.pc ≠ .idle)
    (hx : Does s o s.pc s') : s'.Maps := by
  obtain h | h | h | ⟨⟨status, error, h⟩, -⟩ := h
  · have hqueued := fun c hc => (ht c hc).queued hph h
    generalize hpc : s.pc = pc at hx h hqueued
    cases hx with
    | ended he =>
      obtain ⟨args, rfl⟩ : ∃ args, pc = .validate args := by
        cases pc with
        | validate args => exact ⟨args, rfl⟩
        | build | started | arm => cases h
        | _ => cases he
      refine .inr (.inr (.inr ⟨⟨_, _, rfl⟩, fun c hc => ?_⟩))
      have hz := (ht c hc).unmapped (by rw [hpc]; rfl)
      exact ⟨hz, hqueued c hc (.inl hz)⟩
    | @unmapDone _ i _ next hc hle =>
      cases next with
      | map args => exact .inl rfl
      | mapFailed status error =>
        have hq := hqueued _ hc (.inr hle)
        refine .inr (.inr (.inr ⟨⟨_, _, rfl⟩, fun c hc' => ?_⟩))
        cases hc'
        exact ⟨rfl, hq⟩
      | unmapped | release => cases h
    | unmapEmpty | unmapHeld | unmapFrame => exact .inl h
    | validated | allocated | allLocked | notAllocated | locked | notLocked => exact .inl rfl
    | published =>
      refine .inr (.inl ?_)
      unfold publishStep
      split <;> rfl
    | events _ hturn => cases hturn <;> cases h
    | _ => cases h
  · exact .inr ((succeeds_does h hx).imp id .inl)
  · exact absurd h hi
  · rw [h] at hx
    cases hx with
    | ended he => cases he
    | finish => exact .inr (.inr (.inl rfl))
    | events _ hturn => cases hturn

theorem Maps.takes (h : s.Maps) (hph : s.Phased) (ht : s.Turning) {a : Act} (hi : s.pc ≠ .idle)
    (hx : Takes s a s') : s'.Maps := by
  cases hx with
  | slotDev _ _ hf => exact h.imp id (.imp id (.imp id fun h => ⟨h.1, h.2.feed hph hf⟩))
  | pinDev hp =>
    refine h.imp id (.imp id (.imp id fun h => ⟨h.1, fun c hc => ?_⟩))
    cases (hph.pin hp).symm.trans hc
  | same => exact h
  | verb _ hx => exact h.does hph ht hi hx
  | signal hc hsig he =>
    refine h.imp id (.imp id (.imp id fun h => ⟨h.1, fun c' hc' => ?_⟩))
    have hq := h.2 _ hc
    cases hc'
    obtain ⟨n, e, rest, rfl | rfl⟩ := hsig <;>
    · simp only [Events.step] at he
      split at he <;> cases he
      exact hq
  | enters h | removed h | pinOpened h => exact absurd h.1 hi
  | pinClosed _ h => exact absurd h hi

end

/-- A request of `verb` in the state `s` is completed with `status`, and `s'` is the state
then: it was rejected, or the steps of the call all met `P`. -/
inductive Returns (P : IoctlDevice → Act → Prop) (s : IoctlDevice) (fileObject : ℕ)
    (contract : Contract) (verb : Verb) : NtStatus → IoctlDevice → Prop
  | rejected {reply : Reply} (h : s.deviceControl fileObject contract verb = .done reply) :
      Returns P s fileObject contract verb reply.status s
  | completed {t s' : IoctlDevice} {status : NtStatus} {error : PlError}
      (hs : s.step (.request fileObject contract verb) = some t)
      (hrun : Machine.Reaches ⟨t, step⟩ (fun u a => u.pc ≠ .idle ∧ P u a) s')
      (hpc : s'.pc = .finish status error) : Returns P s fileObject contract verb status s'

/-- The release and rebuild of the owner's own stopped slot. -/
def Reprepares (s : IoctlDevice) (fileObject : ℕ) (contract : Contract) (verb : Verb) : Prop :=
  s.deviceControl fileObject contract verb = .goes (.stop (.release (.build fileObject)))

section
variable {P : IoctlDevice → Act → Prop} {s s' t : IoctlDevice} {fileObject : ℕ}
  {contract : Contract} {verb : Verb} {status : NtStatus} {error : PlError}

theorem request_cases (h : s.step (.request fileObject contract verb) = some t) :
    t = s ∧ s.pc = .idle ∨ ∃ pc, s.Unheld ∧ s.deviceControl fileObject contract verb = .goes pc ∧
      t = { s with dev := s.dev.goto .held, pc } := by
  simp only [step] at h
  split at h
  · next hu =>
    split at h
    · cases h
      exact .inl ⟨rfl, hu.2.1⟩
    · next pc hg =>
      obtain ⟨dev, hd, rfl⟩ := call_eq h
      refine .inr ⟨pc, hu.2, hg, ?_⟩
      simp only [Device.step, hu.2.2, if_true, Option.some.injEq] at hd
      rw [← hd]
  · cases h

theorem step_request {pc : VerbPc} (hr : s.registered = true) (hu : s.Unheld)
    (hg : s.deviceControl fileObject contract verb = .goes pc) :
    s.step (.request fileObject contract verb) = some { s with dev := s.dev.goto .held, pc } := by
  simp only [step, if_pos (And.intro hr hu), hg, call, Device.step, if_pos hu.2, Option.map_some]

/-- Nothing moves on from a request that was rejected. -/
theorem eq_of_idle (hi : s.pc = .idle)
    (h : Machine.Reaches ⟨s, step⟩ (fun u a => u.pc ≠ .idle ∧ P u a) s') : s' = s := by
  induction h with
  | init => rfl
  | step _ hp _ ih => exact absurd (ih ▸ hi) hp.1

theorem removed_of_modes {pc : VerbPc} (h : s.deviceControl fileObject contract verb = .goes pc)
    (hv : verb.modes.isSome = true) : s.dev.ses.removed = false := by
  have hstart : ∀ v r, s.captureStart fileObject v r = .goes pc → s.dev.ses.removed = false := by
    intro v r h
    unfold captureStart at h
    split at h
    · cases h
    · next hr => simpa using hr
  cases contract with
  | not32BitCaller | shortBuffer => cases h
  | met =>
    cases verb with
    | startVideo | startImager => exact hstart _ _ h
    | _ => cases hv

theorem build_of_goes {pc : VerbPc} (hs : s.slot = none)
    (h : s.deviceControl fileObject contract verb = .goes pc) : pc = .build fileObject := by
  have hprep : ∀ allow, s.capturePrepare fileObject allow = .goes pc → pc = .build fileObject := by
    intro allow h
    unfold capturePrepare at h
    rw [hs] at h
    dsimp only at h
    split at h <;> cases h
    rfl
  cases contract with
  | not32BitCaller | shortBuffer => cases h
  | met =>
    simp only [deviceControl] at h
    cases verb with
    | prepareVideo n =>
      simp only [handler, prepareVideo] at h
      split at h
      · cases h
      · exact hprep _ h
    | prepareImager => exact hprep _ h
    | _ =>
      simp only [handler, captureStart, stopRequest, unprepareRequest, mapVideoFrame,
        unmapVideoFrame, registerEvent, unregisterEvent, swTrigger, getTransferInfo, hs] at h
      first | cases h | (split at h <;> cases h)

/-- A prepare that may still fail has not built its slot. -/
def Builds (s : IoctlDevice) : Prop :=
  s.pc.succeeds = true ∨ s.pc = .idle ∨ s.slot = none ∧
    ((∃ fileObject, s.pc = .build fileObject) ∨ ∃ status error, s.pc = .finish status error)

theorem Builds.takes (h : s.Builds) {a : Act} (hi : s.pc ≠ .idle) (hx : Takes s a s') :
    s'.Builds := by
  cases hx with
  | slotDev _ _ hf =>
    have hmap := (Device.Feeds.of_feed hf).mapped
    refine h.imp id (.imp id fun ⟨hs, h⟩ => ⟨?_, h⟩)
    rw [hs] at hmap
    exact Option.map_eq_none_iff.mp hmap
  | pinDev | same => exact h
  | signal hc => exact h.imp id (.imp id fun ⟨hs, _⟩ => absurd (hs.symm.trans hc) nofun)
  | enters h | removed h | pinOpened h => exact absurd h.1 hi
  | pinClosed _ h => exact absurd h hi
  | verb _ hd =>
    obtain h | h | ⟨hs, ⟨fo, h⟩ | ⟨status, error, h⟩⟩ := h
    · exact (succeeds_does h hd).imp id .inl
    · exact absurd h hi
    · rw [h] at hd
      cases hd with
      | ended => exact .inr (.inr ⟨hs, .inr ⟨_, _, rfl⟩⟩)
      | built => exact .inl rfl
      | events _ hturn => cases hturn
    · rw [h] at hd
      cases hd with
      | ended he => cases he
      | finish => exact .inr (.inl rfl)
      | events _ hturn => cases hturn

theorem under_of_reaches {c : Slot} (h : machine.Reachable s) (hc : s.slot = some c)
    (hre : ¬s.Reprepares fileObject contract verb)
    (hs : s.step (.request fileObject contract verb) = some t)
    (hrun : Machine.Reaches ⟨t, step⟩ (fun u a => u.pc ≠ .idle ∧ P u a) s') :
    s.Under c verb s' := by
  obtain ⟨rfl, hi⟩ | ⟨pc, hu, hg, rfl⟩ := request_cases hs
  · exact .inr (.inl (eq_of_idle hi hrun ▸ hi))
  have hf := founded_of_reachable h
  have ht := h.step (a := Act.request fileObject contract verb) trivial hs
  have hreach : ∀ u, Machine.Reaches ⟨{ s with dev := s.dev.goto .held, pc }, step⟩
      (fun u a => u.pc ≠ .idle ∧ P u a) u → machine.Reachable u :=
    fun u hr => ht.trans hr fun _ _ _ => trivial
  induction hrun with
  | init => exact (Stage.of_goes hc hg fun heq => hre (hg.trans (congrArg _ heq))).imp id fun hst => .inr ⟨c, hst⟩
  | step hr hp hs' ih =>
    exact ih.step (fun hv => removed_of_modes hg hv) (hf.running (by rw [hc]; nofun))
      (founded_of_reachable (hreach _ hr)) hp.1 hs'

theorem builds_of_reaches (hn : s.slot = none)
    (hs : s.step (.request fileObject contract verb) = some t)
    (hrun : Machine.Reaches ⟨t, step⟩ (fun u a => u.pc ≠ .idle ∧ P u a) s') : s'.Builds := by
  obtain ⟨rfl, hi⟩ | ⟨pc, hu, hg, rfl⟩ := request_cases hs
  · exact .inr (.inl (eq_of_idle hi hrun ▸ hi))
  induction hrun with
  | init => exact .inr (.inr ⟨hn, .inl ⟨_, build_of_goes hn hg⟩⟩)
  | step _ hp hs' ih => exact ih.takes hp.1 (.of_step hs')

theorem maps_of_reaches (h : machine.Reaches NoLateClaim s) (hv : verb.maps = true)
    (hs : s.step (.request fileObject contract verb) = some t) (hpc : t.pc ≠ .idle)
    (hrun : Machine.Reaches ⟨t, step⟩ (fun u a => u.pc ≠ .idle ∧ NoLateClaim u a) s') :
    t.pc.maps = true ∧ s'.Maps := by
  have ht := h.step (a := Act.request fileObject contract verb) trivial hs
  have hreach : ∀ u, Machine.Reaches ⟨t, step⟩ (fun u a => u.pc ≠ .idle ∧ NoLateClaim u a) u →
      machine.Reaches NoLateClaim u := fun u hr => ht.trans hr fun _ _ hp => hp.2
  have hmaps : t.pc.maps = true := by
    obtain ⟨rfl, hi⟩ | ⟨pc, hu, hg, rfl⟩ := request_cases hs
    · exact absurd hi hpc
    cases verb with
    | mapVideoFrame args =>
      cases contract with
      | not32BitCaller | shortBuffer => cases hg
      | met =>
        simp only [deviceControl, handler, mapVideoFrame] at hg
        split at hg
        · cases hg
        split at hg
        · cases hg
        · obtain ⟨-, hg⟩ := checkOwner_goes hg
          split at hg
          · cases hg
          split at hg <;> cases hg
          rfl
    | _ => cases hv
  refine ⟨hmaps, ?_⟩
  induction hrun with
  | init => exact .inl hmaps
  | step hr hp hs' ih =>
    have hr' := hreach _ hr
    exact ih.takes (.of_reaches hr') (.of_reaches hr') hp.1 (.of_step hs')

theorem unmarked_of_reaches {c c' : Slot} (h : machine.Reaches NoLateClaim s) (hv : verb.maps = true)
    (hc : s.slot = some c) (hs : s.step (.request fileObject contract verb) = some t)
    (hrun : Machine.Reaches ⟨t, step⟩ (fun u a => u.pc ≠ .idle ∧ NoLateClaim u a) s')
    (hpc : s'.pc = .finish status error) (hf : ntSuccess status = false) (hs' : s'.slot = some c')
    (hm : c'.ring.mappedFrameCount = c.ring.mappedFrameCount) :
    (∀ i, (c'.ring.frames i).state = (c.ring.frames i).state) ∧
      c'.ring.totalFrameCount = c.ring.totalFrameCount ∧
      c'.ring.currentFrameIndex = c.ring.currentFrameIndex := by
  have ht := h.step (a := Act.request fileObject contract verb) trivial hs
  have hidle : t.pc ≠ .idle := fun hi => by
    rw [eq_of_idle hi hrun] at hpc
    cases hi.symm.trans hpc
  obtain ⟨hmaps, hend⟩ := maps_of_reaches h hv hs hidle hrun
  obtain hend | hend | hend | ⟨-, hend⟩ := hend
  · rw [hpc] at hend
    cases hend
  · rw [hpc] at hend
    exact absurd (hf.symm.trans hend) nofun
  · cases hpc.symm.trans hend
  obtain ⟨hz, hq⟩ := hend c' hs'
  have hz₀ := hm.symm.trans hz
  have hslot : t.slot = some c := by
    obtain ⟨rfl, hi⟩ | ⟨pc, -, -, rfl⟩ := request_cases hs
    · exact absurd hi hidle
    · exact hc
  have hq₀ := (Turning.of_reaches ht c hslot).queued (.of_reaches ht) hmaps (.inl hz₀)
  have hend := ht.trans hrun fun _ _ hp => hp.2
  obtain ⟨htotal, hcurrent⟩ := Blank.of_reaches h c hc hz₀
  obtain ⟨htotal', hcurrent'⟩ := Blank.of_reaches hend c' hs' hz
  exact ⟨fun i => (hq i).trans (hq₀ i).symm, htotal'.trans htotal.symm, hcurrent'.trans hcurrent.symm⟩

/-- While the stream is stopped and the engine is not called, the frames in flight are the
quarantined ones. -/
theorem Rotating.inFlight_iff {c : Slot} {i : ℕ} (h : s.Rotating c) (hph : s.Phased)
    (hrun : Running s.dev) (hc : s.dev.ctl = .held) (ht : s.pc.tearing = false)
    (hst : s.dev.ses.streamState = .stop) :
    (c.ring.frames i).state = .inFlight ↔ s.dev.eng.cap.cookieQuarantined i = true := by
  have hdrain : s.dev.eng.cap.draining = true := by
    by_contra hd
    have hr := (hrun.agrees (by rw [hc]; rfl)).mpr (by simpa using hd)
    cases hst.symm.trans hr
  have hv := (hph.sound.drained hdrain (by rw [hc]; rfl)).vacant
  have hheld := hph.held_of_vacant hc hv i
  have hown := h.owned_of ht i
  constructor
  · intro hin
    by_contra hq
    rw [quarantinedCount_eq_zero (by simpa using hq)] at hheld
    rw [if_pos hin] at hown
    omega
  · intro hq
    have hpos := quarantinedCount_pos hq
    by_contra hin
    rw [if_neg hin] at hown
    omega

/-- A slot verb that is completed with a failure, and that is not the release and rebuild of
the owner's stopped slot, has changed nothing where its checks rejected it, and built no slot
where there was none. Where it failed at its work, the slot is its owner's as before, with
the stream state and the mapped frames it had. A start has by then set the two modes it asks
for and, if it pumps the ring, handed the delivered frames back; a trigger on a running
stream has handed them back; no other verb changes the modes or the marks. Beyond that the
marks and the counters differ by what the engine acquired and delivered during the call.
Where no frame callback comes late, what is in flight behind a call on a stopped stream, as
behind every failed start, is quarantined, and behind a map that failed neither the marks nor
the counters differ. -/
theorem failed_verb (h : machine.Reaches P s) (hre : ¬s.Reprepares fileObject contract verb)
    (hret : s.Returns P fileObject contract verb status s') (hf : ntSuccess status = false) :
    s' = s ∨ (s.slot = none ∧ s'.slot = none) ∨ ∃ c c', s.slot = some c ∧ s'.slot = some c' ∧
      s.Left s' verb c c' ∧ ((∀ u a, P u a → u.NoLateClaim a) →
        (s.dev.ses.streamState = .stop → ∀ i,
          ((c'.ring.frames i).state = .inFlight ↔ s'.dev.eng.cap.cookieQuarantined i = true)) ∧
        (verb.maps = true → (∀ i, (c'.ring.frames i).state = (c.ring.frames i).state) ∧
          c'.ring.totalFrameCount = c.ring.totalFrameCount ∧
          c'.ring.currentFrameIndex = c.ring.currentFrameIndex)) := by
  cases hret with
  | rejected => exact .inl rfl
  | @completed t _ _ error hs hrun hpc =>
    refine .inr ?_
    cases hc : s.slot with
    | none =>
      refine .inl ⟨rfl, ?_⟩
      -- without a slot the call can only have been to build one
      obtain hb | hb | hb := builds_of_reaches hc hs hrun
      · rw [hpc] at hb
        exact absurd (hf.symm.trans hb) nofun
      · cases hpc.symm.trans hb
      · exact hb.1
    | some c =>
      refine .inr ?_
      -- a slot: the call stands at a failure, every other point is ruled out by the return
      obtain hu | hu | ⟨c', hu⟩ := under_of_reaches h.reachable hc hre hs hrun
      · rw [hpc] at hu
        exact absurd (hf.symm.trans hu) nofun
      · cases hpc.symm.trans hu
      · rw [hpc] at hu
        cases hu with
        | failed hs' hl hheld =>
          refine ⟨c, c', rfl, hs', hl, fun hP => ?_⟩
          have hr := h.mono hP
          have hrun' := hrun.mono fun u a hp => (⟨hp.1, hP u a hp.2⟩ : u.pc ≠ .idle ∧ u.NoLateClaim a)
          have hend := (hr.step (a := Act.request fileObject contract verb) trivial hs).trans hrun'
            fun _ _ hp => hp.2
          refine ⟨fun hst i => ?_, fun hv => unmarked_of_reaches hr hv hc hs hrun' hpc hf hs' hl.mapped⟩
          have hfounded := founded_of_reachable hend.reachable
          have hruns := hfounded.running (by rw [hs']; exact Option.some_ne_none _)
          exact (Turning.of_reaches hend c' hs').inFlight_iff (.of_reaches hend) hruns hheld
            (by rw [hpc]; rfl) (hl.streamState.trans hst)
        | pump hpc' => rcases hpc' with hpc' | hpc' <;> cases hpc'
        | listen hpc' => rcases hpc' with hpc' | hpc' | hpc' <;> cases hpc'
        | events hpc' => rcases hpc' with hpc' | hpc' <;> cases hpc'
        | maps hpc' => cases hpc'

end

def stopped : IoctlDevice := Machine.after ⟨mapping, step⟩ NoLateClaim (shotRun ++ stopRun .stop)

theorem stopped_reaches : machine.Reaches NoLateClaim stopped :=
  mapping_reaches.trans (Machine.reaches_after (M := ⟨mapping, step⟩) _ _) fun _ _ => id

theorem stopped_slot : ∃ c, stopped.slot = some c ∧ (c.ring.frames 0).state = .delivered ∧
    c.ring.totalFrameCount = 1 := by
  have h : (stopped.slot.any fun c => (c.ring.frames 0).state = .delivered ∧
      c.ring.totalFrameCount = 1) = true := by decide +kernel
  obtain ⟨c, hc, hi⟩ := (Option.any_eq_true _ _).mp h
  exact ⟨c, hc, by simpa using hi⟩

def restarting : IoctlDevice :=
  { stopped with dev := stopped.dev.goto .held, pc := .setOneShot false true }

/-- The camera refuses the mode the start writes. -/
def failedStartRun : List Act :=
  List.replicate 4 Act.goes ++
    engineRun [.runs (.pump .handler .elect), .runs (.pump .handler .top),
      .runs (.pump .handler (.claim 0)), .runs (.pump .handler .bottom)] ++ [Act.goes, .goes] ++
    engineRun ([Device.Act.go, .ctl ⟨.completed statusSuccess, 1, false, true, 8, false⟩] ++
      List.replicate 11 Device.Act.go) ++
    [Act.verb ⟨true, statusSuccess, true, 8, statusUnsuccessful⟩]

def failedStart : IoctlDevice :=
  Machine.after ⟨restarting, step⟩ (fun u a => u.pc ≠ .idle ∧ u.NoLateClaim a) failedStartRun

theorem failedStart_slot : ∃ c, failedStart.slot = some c ∧ (c.ring.frames 0).state = .queued ∧
    c.ring.totalFrameCount = 1 := by
  have h : (failedStart.slot.any fun c => (c.ring.frames 0).state = .queued ∧
      c.ring.totalFrameCount = 1) = true := by decide +kernel
  obtain ⟨c, hc, hi⟩ := (Option.any_eq_true _ _).mp h
  exact ⟨c, hc, by simpa using hi⟩

theorem failedStart_returns :
    stopped.Returns NoLateClaim 1 .met (.startVideo 1) statusUnsuccessful failedStart := by
  have hs : stopped.step (.request 1 .met (.startVideo 1)) = some restarting := by
    refine step_request ?_ ?_ ?_ <;> decide +kernel
  have hpc : failedStart.pc = .finish statusUnsuccessful .hardware := by decide +kernel
  exact .completed hs (Machine.reaches_after (M := ⟨restarting, step⟩) _ failedStartRun) hpc

theorem failed_verb_start : ∃ c c', stopped.slot = some c ∧ failedStart.slot = some c' ∧
    stopped.Left failedStart (.startVideo 1) c c' ∧
    (∀ i, (c'.ring.frames i).state = .inFlight ↔
      failedStart.dev.eng.cap.cookieQuarantined i = true) ∧
    (c.ring.frames 0).state = .delivered ∧ (c'.ring.frames 0).state = .queued ∧
    c.ring.totalFrameCount = 1 ∧ c'.ring.totalFrameCount = 1 := by
  have hpc : failedStart.pc ≠ stopped.pc := by decide +kernel
  have hst : stopped.dev.ses.streamState = .stop := by decide +kernel
  obtain ⟨c₀, hc₀, hmark, htotal⟩ := stopped_slot
  obtain ⟨c₁, hc₁, hmark', htotal'⟩ := failedStart_slot
  obtain heq | ⟨hn, -⟩ | ⟨c, c', hc, hc', hl, hq⟩ :=
    failed_verb stopped_reaches (by unfold Reprepares; decide +kernel) failedStart_returns
      ntSuccess_statusUnsuccessful
  · exact absurd (congrArg IoctlDevice.pc heq) hpc
  · cases hc₀.symm.trans hn
  · cases hc₀.symm.trans hc
    cases hc₁.symm.trans hc'
    exact ⟨c₀, c₁, hc, hc', hl, (hq fun _ _ => id).1 hst, hmark, hmark', htotal, htotal'⟩

/-- A start that fails leaves the mode it asked for behind, and the delivered frames handed
back. -/
theorem failed_start_mode : ¬∀ (s s' : IoctlDevice) (fileObject : ℕ) (contract : Contract)
    (verb : Verb) (status : NtStatus), machine.Reachable s →
      ¬s.Reprepares fileObject contract verb →
      s.Returns NoLateClaim fileObject contract verb status s' → ntSuccess status = false →
      s'.dev.ses.oneShot = s.dev.ses.oneShot ∨ ∀ c c', s.slot = some c → s'.slot = some c' →
        ∀ i, (c'.ring.frames i).state = (c.ring.frames i).state := by
  intro h
  have hkept := h stopped failedStart 1 .met (.startVideo 1) statusUnsuccessful
    stopped_reaches.reachable (by unfold Reprepares; decide +kernel) failedStart_returns
    ntSuccess_statusUnsuccessful
  obtain hmode | hmarks := hkept
  · have hflip : failedStart.dev.ses.oneShot ≠ stopped.dev.ses.oneShot := by decide +kernel
    exact hflip hmode
  · obtain ⟨c, hc, hi, -⟩ := stopped_slot
    obtain ⟨c', hc', hi', -⟩ := failedStart_slot
    have hsame := hmarks c c' hc hc' 0
    rw [hi, hi'] at hsame
    cases hsame

end IoctlDevice
end Photonic
