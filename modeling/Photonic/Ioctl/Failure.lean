import Photonic.Ioctl.Founded

namespace Photonic

namespace Ring

def counts (d : Delivery) : Bool := index d.cookie < maxVideoFrames ∧ ntSuccess d.status = true

def mark (r : Ring) (back : Bool) (i : ℕ) : RingFrameState :=
  if back = true ∧ i < r.mappedFrameCount ∧ (r.frames i).state = .delivered then .queued
  else (r.frames i).state

/-- The marks frame `i` may have once the engine has acquired `as` and delivered `ds`. -/
inductive Marks (r : Ring) (back : Bool) (as : List Cookie) (ds : List Delivery) (i : ℕ) :
    RingFrameState → Prop
  | kept : Marks r back as ds i (r.mark back i)
  | acquired (ha : i ∈ as) : Marks r back as ds i .inFlight
  | delivered {d : Delivery} (hd : d ∈ ds) (hi : index d.cookie = i) (hc : counts d = true) :
      Marks r back as ds i .delivered
  | handedBack {d : Delivery} (hd : d ∈ ds) (hi : index d.cookie = i) : Marks r back as ds i .queued

/-- What has become of the ring `r` while the engine acquired `as` and delivered `ds`.
`back`: the delivered frames were handed back in the meantime. -/
structure Since (r : Ring) (back : Bool) (as : List Cookie) (ds : List Delivery) (r' : Ring) :
    Prop where
  mapped : r'.mappedFrameCount = r.mappedFrameCount
  mdl : ∀ i, (r'.frames i).mdl = (r.frames i).mdl
  marks : ∀ i, r.Marks back as ds i (r'.frames i).state
  total : r'.totalFrameCount = r.totalFrameCount + BitVec.ofNat 32 (ds.countP counts)
  current : r'.currentFrameIndex =
    ((ds.filter counts).getLast?.map fun d => BitVec.ofNat 32 (index d.cookie)).getD
      r.currentFrameIndex

section
variable {r r' : Ring} {back : Bool} {as as' : List Cookie} {ds ds' : List Delivery}

theorem mark_false (r : Ring) (i : ℕ) : r.mark false i = (r.frames i).state :=
  if_neg fun h => Bool.false_ne_true h.1

/-- What the engine has done stays done. -/
theorem Marks.mono {i : ℕ} {m : RingFrameState} (h : r.Marks back as ds i m) (ha : as ⊆ as')
    (hd : ds ⊆ ds') : r.Marks back as' ds' i m := by
  cases h with
  | kept => exact .kept
  | acquired hi => exact .acquired (ha hi)
  | delivered hmem hi hc => exact .delivered (hd hmem) hi hc
  | handedBack hmem hi => exact .handedBack (hd hmem) hi

/-- The delivered frames are handed back, those the engine delivered in the meantime too. -/
theorem Marks.requeue {i : ℕ} (h : r.Marks false as ds i (r'.frames i).state)
    (hm : r'.mappedFrameCount = r.mappedFrameCount) :
    r.Marks true as ds i (r'.framesRequeue.frames i).state := by
  rw [framesRequeue_state, hm]
  generalize (r'.frames i).state = m at h
  cases h with
  | kept =>
    rw [r.mark_false]
    have hk : r.Marks true as ds i (r.mark true i) := .kept
    simpa [mark] using hk
  | acquired hi =>
    rw [if_neg (by rintro ⟨-, ⟨⟩⟩)]
    exact .acquired hi
  | delivered hmem hi hc =>
    split
    · exact .handedBack hmem hi
    · exact .delivered hmem hi hc
  | handedBack hmem hi =>
    rw [ite_self]
    exact .handedBack hmem hi

end

namespace Since
variable {r r' : Ring} {back : Bool} {as : List Cookie} {ds : List Delivery}

theorem refl (r : Ring) : r.Since false [] [] r := by
  refine ⟨rfl, fun _ => rfl, fun i => ?_, by simp, rfl⟩
  rw [← r.mark_false]
  exact .kept

theorem take (h : r.Since back as ds r') : r.Since back (as ++ [r'.nextSubmitIndex]) ds r'.take where
  mapped := h.mapped
  mdl i := by
    rw [← h.mdl i]
    simp only [Ring.take, setState_frames, Function.update_apply]
    split
    · next hi => rw [hi]
    · rfl
  marks i := by
    by_cases hi : i = r'.nextSubmitIndex
    · rw [Ring.take, setState_frames, hi, Function.update_self]
      exact .acquired (List.mem_append_right _ List.mem_cons_self)
    · rw [Ring.take, setState_frames, Function.update_of_ne hi]
      exact (h.marks i).mono (List.subset_append_left _ _) (List.Subset.refl _)
  total := h.total
  current := h.current

theorem deliver (h : r.Since back as ds r') (oneShot : Bool) (d : Delivery) :
    r.Since back as (ds ++ [d]) (r'.framesDeliver oneShot d) where
  mapped := (Events.Timed.framesDeliver_mapped ..).trans h.mapped
  mdl i := (framesDeliver_mdl ..).trans (h.mdl i)
  marks i := by
    have hkeep := (h.marks i).mono (List.Subset.refl _) (List.subset_append_left ds [d])
    have hmem : d ∈ ds ++ [d] := List.mem_append_right _ List.mem_cons_self
    by_cases hlt : index d.cookie < maxVideoFrames
    · rw [framesDeliver_state _ _ _ hlt]
      split
      · next hi =>
        split
        · next hs =>
          rw [Bool.and_eq_true] at hs
          exact .delivered hmem hi.symm (by simp [counts, hlt, hs.1])
        · exact .handedBack hmem hi.symm
      · exact hkeep
    · rw [framesDeliver, if_pos (Nat.le_of_not_lt hlt)]
      exact hkeep
  total := by
    rw [List.countP_append, BitVec.ofNat_add, ← BitVec.add_assoc, ← h.total, List.countP_singleton]
    unfold framesDeliver
    split
    · next hlt => simp [counts, Nat.not_lt.mpr hlt]
    · next hlt =>
      split
      · next hs => simp [counts, Nat.not_le.mp hlt, hs, Ring.count]
      · next hs => simp [counts, hs]
  current := by
    rw [List.filter_append]
    unfold framesDeliver
    split
    · next hlt => simp [counts, Nat.not_lt.mpr hlt, h.current]
    · next hlt =>
      split
      · next hs => simp [counts, Nat.not_le.mp hlt, hs, Ring.count]
      · next hs => simp [counts, hs, h.current]

theorem requeue (h : r.Since false as ds r') : r.Since true as ds r'.framesRequeue where
  mapped := h.mapped
  mdl i := by
    rw [← h.mdl i]
    simp only [framesRequeue]
    split <;> rfl
  marks i := (h.marks i).requeue h.mapped
  total := h.total
  current := h.current

theorem setPumpRing (h : r.Since back as ds r') (b : Bool) :
    r.Since back as ds { r' with pumpRingOnStart := b } :=
  ⟨h.mapped, h.mdl, h.marks, h.total, h.current⟩

end Since
end Ring

namespace Device

/-- Nothing that is not a handler's touches the session while a handler has the executor. -/
theorem Steps.ses_of_shared {s s' : Device} {a : Act} (hs : Steps s a s') (ha : a.shared = true)
    (hc : s.ctl = .held) : s'.ses = s.ses := by
  cases hs with
  | data | lateListen | lateGrant | workMutex => rfl
  | ctl hm =>
    rw [hc] at hm
    cases hm
  | _ => cases ha

theorem Moves.oneShot {s s' : Device} {o : Answer} {c : Ctl} (h : Moves s o c s') :
    s'.ses.oneShot = s.ses.oneShot := by
  cases h with
  | quiesceStop | releaseStop => simp
  | @releaseFree r res =>
    show (s.freeOne o res).ses.oneShot = s.ses.oneShot
    unfold freeOne
    split
    · cases res <;> rfl
    · rfl
  | @startAllocated eb res => cases res <;> rfl
  | _ => rfl

theorem Steps.oneShot_of_shared {s s' : Device} {a : Act} (hs : Steps s a s')
    (ha : a.shared = true) : s'.ses.oneShot = s.ses.oneShot := by
  cases hs with
  | data | lateListen | lateGrant | workMutex => rfl
  | ctl hm => exact hm.oneShot
  | _ => cases ha

end Device

namespace IoctlDevice

/-- A step that is not the verb's: the slot `c` has become `c'`. -/
structure Meanwhile (u u' : IoctlDevice) (c c' : Slot) : Prop where
  pc : u'.pc = u.pc
  dev : u'.dev = u.dev ∨ ∃ a : Device.Act, a.shared = true ∧ u.dev.step a = some u'.dev
  slot : u'.slot = some c'
  owner : c'.fileObject = c.fileObject
  pumpRing : c'.ring.pumpRingOnStart = c.ring.pumpRingOnStart
  mapped : c'.ring.mappedFrameCount = c.ring.mappedFrameCount
  ring : ∃ as ds, u'.dev.eng.acquired = u.dev.eng.acquired ++ as ∧
    u'.dev.eng.delivered = u.dev.eng.delivered ++ ds ∧
    ∀ r back as₀ ds₀, Ring.Since r back as₀ ds₀ c.ring →
      r.Since back (as₀ ++ as) (ds₀ ++ ds) c'.ring

theorem Meanwhile.of_feed {u : IoctlDevice} {c : Slot} {a : Device.Act} {dev : Device}
    {slot : Option Slot} (hc : u.slot = some c) (ha : a.shared = true)
    (h : u.dev.feed Slot.callbacks u.slot a = some (dev, slot)) :
    ∃ c', Meanwhile u { u with dev, slot } c c' := by
  have hdev := Device.feed_step h
  rw [hc] at h
  cases Device.Feeds.of_feed h with
  | acquires hans _ hacq hdel =>
    obtain ⟨-, hcookie, hnew⟩ := Slot.acquire_some hans
    have hring : c.acquire.2.ring = c.ring.take := by rw [hnew]; rfl
    refine ⟨c.acquire.2, rfl, .inr ⟨a, ha, hdev⟩, rfl, by rw [hnew]; rfl, by rw [hring]; rfl,
      c.acquire_mapped, _, [], hacq, hdel.trans (List.append_nil _).symm, fun r back as₀ ds₀ hr => ?_⟩
    rw [hring, hcookie, List.append_nil]
    exact hr.take
  | finds hans hacq hdel =>
    exact ⟨c, rfl, .inr ⟨a, ha, hdev⟩, congrArg some (c.acquire_none hans), rfl, rfl, rfl, [], [],
      hacq.trans (List.append_nil _).symm, hdel.trans (List.append_nil _).symm,
      fun _ _ _ _ hr => by simpa using hr⟩
  | @delivers d _ hacq hdel =>
    refine ⟨c.deliver u.dev.ses.oneShot d, rfl, .inr ⟨a, ha, hdev⟩, rfl, rfl, ?_,
      c.deliver_mapped _ _, [], _, hacq.trans (List.append_nil _).symm, hdel, fun r back as₀ ds₀ hr => ?_⟩
    · rw [Slot.deliver_ring]
      unfold Ring.framesDeliver
      split
      · rfl
      split <;> rfl
    · rw [Slot.deliver_ring, List.append_nil]
      exact hr.deliver _ d
  | silent hacq hdel =>
    exact ⟨c, rfl, .inr ⟨a, ha, hdev⟩, rfl, rfl, rfl, rfl, [], [],
      hacq.trans (List.append_nil _).symm, hdel.trans (List.append_nil _).symm,
      fun _ _ _ _ hr => by simpa using hr⟩

/-- While a verb is under way the other threads only serve the engine and its events. -/
theorem Meanwhile.of_takes {u u' : IoctlDevice} {c : Slot} {a : Act} (hu : u.Founded)
    (hc : u.slot = some c) (hpc : u.pc ≠ .idle) (ha : ∀ o, a ≠ .verb o) (hx : Takes u a u') :
    ∃ c', Meanwhile u u' c c' := by
  have hsame : ∀ r back as ds, Ring.Since r back as ds c.ring →
      r.Since back (as ++ []) (ds ++ []) c.ring := fun _ _ _ _ hr => by simpa using hr
  cases hx with
  | slotDev hp hs hf => exact Meanwhile.of_feed hc hs hf
  | pinDev hp => exact absurd ((hu.pin hp).symm.trans hc) nofun
  | same =>
    exact ⟨c, rfl, .inl rfl, hc, rfl, rfl, rfl, [], [], (List.append_nil _).symm,
      (List.append_nil _).symm, hsame⟩
  | @signal a x c₀ events hc₀ hsig he =>
    cases hc.symm.trans hc₀
    have hring : events.ring = c.events.ring := by
      obtain ⟨n, e, rest, rfl | rfl⟩ := hsig <;>
      · simp only [Events.step] at he
        split at he <;> cases he
        rfl
    refine ⟨{ c with events }, rfl, .inl rfl, rfl, rfl, congrArg _ hring, congrArg _ hring, [], [],
      (List.append_nil _).symm, (List.append_nil _).symm, fun r back as ds hr => ?_⟩
    rw [show Slot.ring { c with events } = c.ring from hring]
    exact hsame _ _ _ _ hr
  | enters h | removed h | pinOpened h => exact absurd h.1 hpc
  | pinClosed _ h => exact absurd h hpc
  | verb => exact absurd rfl (ha _)

end IoctlDevice

namespace Verb

/-- The two modes a start asks for: single-frame transmission, and a ring that is pumped. -/
def modes : Verb → Option (Bool × Bool)
  | .startVideo flags => some (flags = 0, true)
  | .startImager mode => some (mode = 0, false)
  | _ => none

def maps : Verb → Bool
  | .mapVideoFrame _ => true
  | _ => false

end Verb

namespace VerbPc

def succeeds : VerbPc → Bool
  | .stop next => next = .finish ∨ next = .unmap ∨ next = .release .finish
  | .quarantine next | .flush next | .flushing next | .destroy next => next = .finish
  | .unmap _ _ next => next = .unmapped ∨ next = .release .finish
  | .publish _ | .insert | .dereference => true
  | .pump next | .pumped next => next = .mapped
  | .finish status _ => ntSuccess status
  | _ => false

end VerbPc

namespace Device

def Restarts (d : Device) : Prop :=
  (∃ eb, d.ctl = .start eb .enter ∧ d.life = .alive ∧ d.ses.removed = false ∧
    d.eng.cap.draining = false) ∨
  (∃ eb, d.ctl = .start eb .publish) ∨ d.ctl = .held ∧ d.ses.streamState = .run

/-- A start on a stream that runs publishes that it does, and returns. -/
theorem Restarts.step {d d' : Device} {a : Act} (h : d.Restarts) (ha : a.shared = true)
    (hs : d.step a = some d') : d'.Restarts := by
  cases Steps.of_step hs with
  | data hax he =>
    have hd := (Engine.data_sameControl (Act.isData hax) he).draining
    obtain ⟨eb, hc, hl, hr, hdr⟩ | ⟨eb, hc⟩ | ⟨hc, hrun⟩ := h
    · exact .inl ⟨eb, hc, hl, hr, hd.trans hdr⟩
    · exact .inr (.inl ⟨eb, hc⟩)
    · exact .inr (.inr ⟨hc, hrun⟩)
  | lateListen | lateGrant => exact h
  | workMutex hf => obtain ⟨eb, hc, -⟩ | ⟨eb, hc⟩ | ⟨hc, -⟩ := h <;> exact absurd (hf.symm.trans hc) nofun
  | @ctl o =>
    obtain ⟨eb, hc, hl, hr, hdr⟩ | ⟨eb, hc⟩ | ⟨hc, -⟩ := h
    · simp [Device.step, ctlStep, startStep, hc, hl, hr, hdr] at hs
      exact .inr (.inl ⟨eb, by rw [← hs]; rfl⟩)
    · simp [Device.step, ctlStep, startStep, hc] at hs
      exact .inr (.inr (by rw [← hs]; exact ⟨rfl, rfl⟩))
    · simp [Device.step, ctlStep, hc] at hs
  | _ => cases ha

def Listens (d : Device) : Prop := d.ctl = .held ∨ ∃ pc, d.ctl = .listen .trigger pc

theorem Listens.step {d d' : Device} {a : Act} (h : d.Listens) (ha : a.shared = true)
    (hs : d.step a = some d') : d'.Listens ∧ d'.ses.streamState = d.ses.streamState := by
  cases Steps.of_step hs with
  | data | lateListen | lateGrant => exact ⟨h, rfl⟩
  | workMutex hf => obtain hc | ⟨pc, hc⟩ := h <;> exact absurd (hf.symm.trans hc) nofun
  | ctl hm =>
    obtain hc | ⟨pc, hc⟩ := h
    all_goals
      rw [hc] at hm
      cases hm
    all_goals first | exact ⟨.inl rfl, rfl⟩ | exact ⟨.inr ⟨_, rfl⟩, rfl⟩
  | _ => cases ha

end Device

namespace IoctlDevice

def handsBack (s : IoctlDevice) : Verb → Bool
  | .startVideo _ => true
  | .swTrigger => s.dev.ses.streamState = .run
  | _ => false

structure Bound (u : IoctlDevice) (c c' : Slot) (oneShot pumpRing : Bool) : Prop where
  slot : u.slot = some c'
  owner : c'.fileObject = c.fileObject
  oneShot : u.dev.ses.oneShot = oneShot
  pumpRing : c'.ring.pumpRingOnStart = pumpRing

/-- Nothing but the calls of the engine, and the hand-back if `back`, has touched the ring. -/
def Turned (s u : IoctlDevice) (c c' : Slot) (back : Bool) : Prop :=
  ∃ as ds, u.dev.eng.acquired = s.dev.eng.acquired ++ as ∧
    u.dev.eng.delivered = s.dev.eng.delivered ++ ds ∧ c.ring.Since back as ds c'.ring

/-- The holder of the executor has not called the engine, or is back. -/
structure Rests (s u : IoctlDevice) : Prop where
  ctl : u.dev.ctl = .held
  streamState : u.dev.ses.streamState = s.dev.ses.streamState
  removed : u.dev.ses.removed = s.dev.ses.removed

/-- What a call of `verb` that failed after its checks has left of the slot `c`. -/
structure Left (s u : IoctlDevice) (verb : Verb) (c c' : Slot) : Prop where
  owner : c'.fileObject = c.fileObject
  streamState : u.dev.ses.streamState = s.dev.ses.streamState
  stopped : verb.modes.isSome = true → s.dev.ses.streamState = .stop
  oneShot : u.dev.ses.oneShot = (verb.modes.map Prod.fst).getD s.dev.ses.oneShot
  pumpRing : c'.ring.pumpRingOnStart = (verb.modes.map Prod.snd).getD c.ring.pumpRingOnStart
  mapped : c'.ring.mappedFrameCount = c.ring.mappedFrameCount
  ring : verb.maps = false → s.Turned u c c' (s.handsBack verb)

section
variable (s : IoctlDevice) (c : Slot) (verb : Verb) (u : IoctlDevice) (c' : Slot)

/-- What the verb has done by the time it is at a point: `s` is the state it was called in. -/
inductive Stage : VerbPc → Prop
  | setOneShot {o p : Bool} (hv : verb.modes = some (o, p))
      (hb : u.Bound c c' s.dev.ses.oneShot c.ring.pumpRingOnStart) (ht : s.Turned u c c' false)
      (hr : s.Rests u) : Stage (.setOneShot o p)
  | setPumpRing {o p : Bool} (hv : verb.modes = some (o, p))
      (hb : u.Bound c c' o c.ring.pumpRingOnStart) (ht : s.Turned u c c' false)
      (hr : s.Rests u) : Stage (.setPumpRing p)
  | requeue {o : Bool} (hv : verb.modes = some (o, true)) (hb : u.Bound c c' o true)
      (ht : s.Turned u c c' false) (hr : s.Rests u) : Stage (.requeue .start)
  | pump {o : Bool} {pc : VerbPc} (hpc : pc = .pump .start ∨ pc = .pumped .start)
      (hv : verb.modes = some (o, true)) (hb : u.Bound c c' o true) (ht : s.Turned u c c' true)
      (hr : s.Rests u) : Stage pc
  | start {o p : Bool} (hv : verb.modes = some (o, p)) (hb : u.Bound c c' o p)
      (ht : s.Turned u c c' p) (hr : s.Rests u) : Stage (.start p)
  | started {o p : Bool} (hv : verb.modes = some (o, p)) (hb : u.Bound c c' o p)
      (ht : s.Turned u c c' p) (hrun : s.dev.ses.streamState = .run → u.dev.Restarts) :
      Stage .started
  | requeueArm (hv : verb = .swTrigger) (hs : s.dev.ses.streamState = .run)
      (hb : u.Bound c c' s.dev.ses.oneShot c.ring.pumpRingOnStart) (ht : s.Turned u c c' false)
      (hr : s.Rests u) : Stage (.requeue .arm)
  | listen {pc : VerbPc} (hpc : pc = .pump .arm ∨ pc = .pumped .arm ∨ pc = .listen)
      (hv : verb = .swTrigger) (hb : u.Bound c c' s.dev.ses.oneShot c.ring.pumpRingOnStart)
      (ht : s.Turned u c c' (s.handsBack verb)) (hr : s.Rests u) : Stage pc
  | arm (hv : verb = .swTrigger) (hb : u.Bound c c' s.dev.ses.oneShot c.ring.pumpRingOnStart)
      (ht : s.Turned u c c' (s.handsBack verb))
      (hl : u.dev.Listens)
      (hst : u.dev.ses.streamState = s.dev.ses.streamState) : Stage .arm
  | events {pc : VerbPc} {handle type : ℕ} (hpc : pc = .register handle type ∨
      pc = .unregister handle type) (hv : verb.modes = none ∧ s.handsBack verb = false)
      (hb : u.Bound c c' s.dev.ses.oneShot c.ring.pumpRingOnStart) (ht : s.Turned u c c' false)
      (hr : s.Rests u) : Stage pc
  | maps {pc : VerbPc} (hpc : pc.maps = true) (hv : verb.maps = true)
      (hb : u.Bound c c' s.dev.ses.oneShot c.ring.pumpRingOnStart)
      (hz : c.ring.mappedFrameCount = 0)
      (hu : pc.readies = true → c'.ring.mappedFrameCount = 0) (hr : s.Rests u) : Stage pc
  | failed {status : NtStatus} {error : PlError} (hs : u.slot = some c')
      (hl : s.Left u verb c c') (hc : u.dev.ctl = .held) : Stage (.finish status error)

end

namespace Meanwhile
variable {s u u' : IoctlDevice} {c c' c'' : Slot}

theorem held (h : u.Meanwhile u' c' c'') (hc : u.dev.ctl = .held) :
    u'.dev.ctl = .held ∧ u'.dev.ses = u.dev.ses := by
  obtain hd | ⟨a, ha, hd⟩ := h.dev
  · rw [hd]
    exact ⟨hc, rfl⟩
  · have hx := Device.Steps.of_step hd
    exact ⟨(hx.draining_of_shared ha hc).1, hx.ses_of_shared ha hc⟩

theorem bound {o p : Bool} (h : u.Meanwhile u' c' c'') (hb : u.Bound c c' o p) :
    u'.Bound c c'' o p where
  slot := h.slot
  owner := h.owner.trans hb.owner
  oneShot := by
    rw [← hb.oneShot]
    obtain hd | ⟨a, ha, hd⟩ := h.dev
    · rw [hd]
    · exact (Device.Steps.of_step hd).oneShot_of_shared ha
  pumpRing := h.pumpRing.trans hb.pumpRing

theorem turned {back : Bool} (h : u.Meanwhile u' c' c'') (ht : s.Turned u c c' back) :
    s.Turned u' c c'' back := by
  obtain ⟨as, ds, hacq, hdel, hring⟩ := h.ring
  obtain ⟨as₀, ds₀, hacq₀, hdel₀, hring₀⟩ := ht
  refine ⟨as₀ ++ as, ds₀ ++ ds, ?_, ?_, hring _ _ _ _ hring₀⟩
  · rw [hacq, hacq₀, List.append_assoc]
  · rw [hdel, hdel₀, List.append_assoc]

theorem rests (h : u.Meanwhile u' c' c'') (hr : s.Rests u) : s.Rests u' := by
  obtain ⟨hc, hses⟩ := h.held hr.ctl
  exact ⟨hc, hses ▸ hr.streamState, hses ▸ hr.removed⟩

theorem left {verb : Verb} (h : u.Meanwhile u' c' c'') (hc : u.dev.ctl = .held)
    (hl : s.Left u verb c c') : s.Left u' verb c c'' := by
  have hses := (h.held hc).2
  exact ⟨h.owner.trans hl.owner, hses ▸ hl.streamState, hl.stopped, hses ▸ hl.oneShot,
    h.pumpRing.trans hl.pumpRing, h.mapped.trans hl.mapped, fun hm => h.turned (hl.ring hm)⟩

end Meanwhile

/-- The point a verb is at says the same when another thread has taken a step. -/
theorem Stage.meanwhile {s u u' : IoctlDevice} {c c' c'' : Slot} {verb : Verb} {pc : VerbPc}
    (h : Stage s c verb u c' pc) (hm : u.Meanwhile u' c' c'') : Stage s c verb u' c'' pc := by
  cases h with
  | setOneShot hv hb ht hr => exact .setOneShot hv (hm.bound hb) (hm.turned ht) (hm.rests hr)
  | setPumpRing hv hb ht hr => exact .setPumpRing hv (hm.bound hb) (hm.turned ht) (hm.rests hr)
  | requeue hv hb ht hr => exact .requeue hv (hm.bound hb) (hm.turned ht) (hm.rests hr)
  | pump hpc hv hb ht hr => exact .pump hpc hv (hm.bound hb) (hm.turned ht) (hm.rests hr)
  | start hv hb ht hr => exact .start hv (hm.bound hb) (hm.turned ht) (hm.rests hr)
  | started hv hb ht hrun =>
    refine .started hv (hm.bound hb) (hm.turned ht) fun hst => ?_
    obtain hd | ⟨a, ha, hd⟩ := hm.dev
    · exact hd ▸ hrun hst
    · exact (hrun hst).step ha hd
  | requeueArm hv hs hb ht hr => exact .requeueArm hv hs (hm.bound hb) (hm.turned ht) (hm.rests hr)
  | listen hpc hv hb ht hr => exact .listen hpc hv (hm.bound hb) (hm.turned ht) (hm.rests hr)
  | arm hv hb ht hl hst =>
    obtain ⟨hl', hst'⟩ : u'.dev.Listens ∧ u'.dev.ses.streamState = u.dev.ses.streamState := by
      obtain hd | ⟨a, ha, hd⟩ := hm.dev
      · rw [hd]
        exact ⟨hl, rfl⟩
      · exact hl.step ha hd
    exact .arm hv (hm.bound hb) (hm.turned ht) hl' (hst'.trans hst)
  | events hpc hv hb ht hr => exact .events hpc hv (hm.bound hb) (hm.turned ht) (hm.rests hr)
  | maps hpc hv hb hz hu hr =>
    exact .maps hpc hv (hm.bound hb) hz (fun h => hm.mapped.trans (hu h)) (hm.rests hr)
  | failed hs hl hc => exact .failed hm.slot (hm.left hc hl) (hm.held hc).1

theorem Stage.of_goes {s : IoctlDevice} {c : Slot} {fileObject : ℕ} {contract : Contract}
    {verb : Verb} {pc : VerbPc} (hc : s.slot = some c)
    (h : s.deviceControl fileObject contract verb = .goes pc)
    (hre : pc ≠ .stop (.release (.build fileObject))) :
    pc.succeeds = true ∨ Stage s c verb { s with dev := s.dev.goto .held, pc } c pc := by
  have hb : Bound { s with dev := s.dev.goto .held, pc } c c s.dev.ses.oneShot
      c.ring.pumpRingOnStart := ⟨hc, rfl, rfl, rfl⟩
  have ht : s.Turned { s with dev := s.dev.goto .held, pc } c c false :=
    ⟨[], [], (List.append_nil _).symm, (List.append_nil _).symm, .refl _⟩
  have hr : s.Rests { s with dev := s.dev.goto .held, pc } := ⟨rfl, rfl, rfl⟩
  -- a prepare goes on through `build` only, which is set apart by `hre`
  have hprep : ∀ allow, s.capturePrepare fileObject allow = .goes pc → False := by
    intro allow h
    unfold capturePrepare at h
    rw [hc] at h
    dsimp only at h
    split at h
    · cases h
    split at h <;> cases h
    exact hre rfl
  -- both START verbs check the owner and the state before they write `OneShot`
  have hstart : ∀ v r, s.captureStart fileObject v r = .goes pc →
      pc = .setOneShot (v = 0 : Bool) r := by
    intro v r h
    unfold captureStart at h
    rw [hc] at h
    dsimp only at h
    split at h
    · cases h
    · obtain ⟨-, h⟩ := checkOwner_goes h
      split at h <;> cases h
      rfl
  cases contract with
  | not32BitCaller | shortBuffer => cases h
  | met =>
    simp only [deviceControl] at h
    cases verb with
    | prepareVideo n =>
      simp only [handler, prepareVideo] at h
      split at h
      · cases h
      · exact absurd h (hprep _)
    | prepareImager => exact absurd h (hprep _)
    | startVideo flags =>
      obtain rfl := hstart _ _ h
      exact .inr (.setOneShot rfl hb ht hr)
    | startImager mode =>
      obtain rfl := hstart _ _ h
      exact .inr (.setOneShot rfl hb ht hr)
    -- neither can fail any more once it has passed the owner check
    | stop | unprepare =>
      simp only [handler, stopRequest, unprepareRequest, hc] at h
      obtain ⟨-, h⟩ := checkOwner_goes h
      cases h
      exact .inl rfl
    | mapVideoFrame args =>
      simp only [handler, mapVideoFrame, hc] at h
      split at h
      · cases h
      · obtain ⟨-, h⟩ := checkOwner_goes h
        split at h
        · cases h
        · next hm =>
          split at h <;> cases h
          exact .inr (.maps rfl rfl hb (not_not.mp hm) (by rintro ⟨⟩) hr)
    | unmapVideoFrame =>
      simp only [handler, unmapVideoFrame, hc] at h
      obtain ⟨-, h⟩ := checkOwner_goes h
      cases h
      exact .inl rfl
    | registerEvent handle type =>
      simp only [handler, registerEvent, hc] at h
      split at h
      · cases h
      · obtain ⟨-, h⟩ := checkOwner_goes h
        split at h <;> cases h
        exact .inr (.events (.inl rfl) ⟨rfl, rfl⟩ hb ht hr)
    | unregisterEvent handle type =>
      simp only [handler, unregisterEvent, hc] at h
      obtain ⟨-, h⟩ := checkOwner_goes h
      cases h
      exact .inr (.events (.inr rfl) ⟨rfl, rfl⟩ hb ht hr)
    | swTrigger =>
      simp only [handler, swTrigger, hc] at h
      split at h
      · cases h
      · obtain ⟨-, h⟩ := checkOwner_goes h
        split at h
        · next hrun =>
          cases h
          exact .inr (.requeueArm rfl hrun hb ht hr)
        · next hrun =>
          cases h
          refine .inr (.listen (.inr (.inr rfl)) rfl hb ?_ hr)
          rw [show s.handsBack .swTrigger = false by simp [handsBack, hrun]]
          exact ht
    | getTransferInfo =>
      simp only [handler, getTransferInfo, hc] at h
      cases h

section
variable {s u u' : IoctlDevice} {c c' : Slot} {verb : Verb}

theorem Stage.slot {pc : VerbPc} (h : Stage s c verb u c' pc) : u.slot = some c' := by
  cases h with
  | failed hs => exact hs
  | setOneShot _ hb | setPumpRing _ hb | requeue _ hb | pump _ _ hb | start _ hb | started _ hb
  | requeueArm _ _ hb | listen _ _ hb | arm _ hb | events _ _ hb | maps _ _ hb => exact hb.slot

theorem Bound.goto {o p : Bool} (h : u.Bound c c' o p) (pc : VerbPc) : (u.goto pc).Bound c c' o p :=
  ⟨h.slot, h.owner, h.oneShot, h.pumpRing⟩

theorem Rests.goto (h : s.Rests u) (pc : VerbPc) : s.Rests (u.goto pc) :=
  ⟨h.ctl, h.streamState, h.removed⟩

theorem callPump_eq {d d' : Device} (h : d.step .callPump = some d') : d'.ctl = d.ctl ∧
    d'.ses = d.ses ∧ d'.eng.acquired = d.eng.acquired ∧ d'.eng.delivered = d.eng.delivered := by
  have hcalls := Device.calls_of_step h rfl
  cases Device.Steps.of_step h with
  | data => exact ⟨rfl, rfl, hcalls⟩

theorem Bound.pumped {o p : Bool} {dev : Device} {pc : VerbPc} (h : u.Bound c c' o p)
    (hd : u.dev.step .callPump = some dev) : Bound { u with dev, pc } c c' o p :=
  ⟨h.slot, h.owner, (congrArg _ (callPump_eq hd).2.1).trans h.oneShot, h.pumpRing⟩

theorem Turned.pumped {back : Bool} {dev : Device} {pc : VerbPc} (h : s.Turned u c c' back)
    (hd : u.dev.step .callPump = some dev) : s.Turned { u with dev, pc } c c' back := by
  obtain ⟨as, ds, hacq, hdel, hring⟩ := h
  obtain ⟨-, -, ha, hd⟩ := callPump_eq hd
  exact ⟨as, ds, ha.trans hacq, hd.trans hdel, hring⟩

theorem Rests.pumped {dev : Device} {pc : VerbPc} (h : s.Rests u)
    (hd : u.dev.step .callPump = some dev) : s.Rests { u with dev, pc } := by
  obtain ⟨hc, hses, -⟩ := callPump_eq hd
  exact ⟨hc.trans h.ctl, (congrArg _ hses).trans h.streamState, (congrArg _ hses).trans h.removed⟩

theorem Turned.left {o p : Bool} (ht : s.Turned u c c' (s.handsBack verb))
    (hst : u.dev.ses.streamState = s.dev.ses.streamState)
    (hstop : verb.modes.isSome = true → s.dev.ses.streamState = .stop) (hb : u.Bound c c' o p)
    (ho : o = (verb.modes.map Prod.fst).getD s.dev.ses.oneShot)
    (hp : p = (verb.modes.map Prod.snd).getD c.ring.pumpRingOnStart) : s.Left u verb c c' where
  owner := hb.owner
  streamState := hst
  stopped := hstop
  oneShot := hb.oneShot.trans ho
  pumpRing := hb.pumpRing.trans hp
  mapped := by
    obtain ⟨_, _, -, -, hring⟩ := ht
    exact hring.mapped
  ring _ := ht

/-- Where the call has come to, if it may still fail. -/
def Under (s : IoctlDevice) (c : Slot) (verb : Verb) (u : IoctlDevice) : Prop :=
  u.pc.succeeds = true ∨ u.pc = .idle ∨ ∃ c', Stage s c verb u c' u.pc

theorem handsBack_of_modes {o p : Bool} (hv : verb.modes = some (o, p)) : s.handsBack verb = p := by
  cases verb <;> cases hv <;> rfl

theorem Stage.of_started {o : VerbAnswer} (hs : Running s.dev) (hu : Running u.dev)
    (h : Stage s c verb u c' .started) (hpc : u.pc = .started) (hc : u.dev.ctl = .held)
    (hx : u.verbStep o = some u') : s.Under c verb u' := by
  cases h with
  | @started o' p hv hb ht hrun =>
    simp only [verbStep, hpc, startedStep] at hx
    split at hx
    · cases hx
      exact .inl ntSuccess_statusSuccess
    · next hno =>
      split at hx
      · cases hx
      · cases hx
        -- had the stream been running at the call, the start would have found nothing to do
        -- and reported success
        have hstop : s.dev.ses.streamState = .stop := by
          refine hs.either.resolve_right fun hst => ?_
          obtain ⟨eb, hc', -⟩ | ⟨eb, hc'⟩ | ⟨-, hrun'⟩ := hrun hst
          · cases hc.symm.trans hc'
          · cases hc.symm.trans hc'
          · exact hno hrun'
        refine .inr (.inr ⟨c', .failed hb.slot (Turned.left ?_ ?_ (fun _ => hstop) (hb.goto _) ?_ ?_) hc⟩)
        · rw [handsBack_of_modes hv]
          exact ht
        · exact (hu.either.resolve_right hno).trans hstop.symm
        · rw [hv]
          rfl
        · rw [hv]
          rfl
  | pump hpc' => rcases hpc' with hpc' | hpc' <;> cases hpc'
  | listen hpc' => rcases hpc' with hpc' | hpc' | hpc' <;> cases hpc'
  | events hpc' => rcases hpc' with hpc' | hpc' <;> cases hpc'
  | maps hpc' => cases hpc'

theorem Under.maps_does {o : VerbAnswer} {pc : VerbPc} (hpc : pc.maps = true)
    (hv : verb.maps = true) (hb : u.Bound c c' s.dev.ses.oneShot c.ring.pumpRingOnStart)
    (hz : c.ring.mappedFrameCount = 0) (hz' : pc.readies = true → c'.ring.mappedFrameCount = 0)
    (hr : s.Rests u) (hx : Does u o pc u') : s.Under c verb u' := by
  have hmodes : verb.modes = none := by cases verb <;> first | rfl | cases hv
  -- a map that fails leaves the ring without frames, as the call found it
  have hfail : ∀ {c₁ : Slot} {status : NtStatus} {error : PlError},
      c₁.fileObject = c'.fileObject → c₁.ring.pumpRingOnStart = c'.ring.pumpRingOnStart →
      c₁.ring.mappedFrameCount = 0 → s.Under c verb (u.setSlot c₁ (.finish status error)) := by
    intro c₁ status error howner hpump hmapped
    refine .inr (.inr ⟨c₁, .failed rfl ⟨howner.trans hb.owner, hr.streamState, ?_, ?_, ?_,
      hmapped.trans hz.symm, fun hm => by rw [hv] at hm; cases hm⟩ hr.ctl⟩)
    · rw [hmodes]
      rintro ⟨⟩
    · rw [hmodes]
      exact hb.oneShot
    · rw [hmodes]
      exact hpump.trans hb.pumpRing
  -- from one point of a map to the next
  have hnext : ∀ {c₁ : Slot} {mdls : Mdls} {pc₁ : VerbPc},
      c₁.fileObject = c'.fileObject → c₁.ring.pumpRingOnStart = c'.ring.pumpRingOnStart →
      pc₁.maps = true → (pc₁.readies = true → c₁.ring.mappedFrameCount = 0) →
      s.Under c verb { u.setSlot c₁ pc₁ with mdls } :=
    fun howner hpump hm hz₁ => .inr (.inr ⟨_, .maps hm hv
      ⟨rfl, howner.trans hb.owner, hb.oneShot, hpump.trans hb.pumpRing⟩ hz hz₁
      ⟨hr.ctl, hr.streamState, hr.removed⟩⟩)
  have hsame : ∀ pc, u.goto pc = u.setSlot c' pc := fun pc => by
    unfold IoctlDevice.goto setSlot
    rw [← hb.slot]
  cases hx with
  | ended he =>
    rw [hsame]
    refine hfail rfl rfl (hz' ?_)
    cases pc with
    | validate => rfl
    | build | started | arm => cases hpc
    | _ => cases he
  | unmapEmpty hs =>
    cases hb.slot.symm.trans hs
    exact hnext rfl rfl hpc nofun
  | unmapHeld hs =>
    rw [hsame]
    exact hnext rfl rfl hpc nofun
  | unmapFrame hs =>
    cases hb.slot.symm.trans hs
    exact hnext rfl rfl hpc nofun
  | @unmapDone _ _ _ next hs =>
    cases hb.slot.symm.trans hs
    cases next with
    | map args => exact hnext rfl rfl rfl fun _ => rfl
    | mapFailed => exact hfail rfl rfl rfl
    | unmapped | release => cases hpc
  | validated hs | allLocked =>
    rw [hsame]
    exact hnext rfl rfl rfl fun _ => hz' rfl
  | @allocated args i hi =>
    have hlock := @hnext c' u.mdls.alloc (.lock args i ⟨u.mdls.next, args.frameSize⟩)
      rfl rfl rfl fun _ => hz' rfl
    rwa [← hsame] at hlock
  | notAllocated hs | notLocked hs =>
    cases hb.slot.symm.trans hs
    exact hnext rfl rfl rfl nofun
  | locked hs =>
    cases hb.slot.symm.trans hs
    exact hnext rfl rfl rfl fun _ => hz' rfl
  | published =>
    refine .inl ?_
    unfold publishStep
    split <;> rfl
  | events _ hturn => cases hturn <;> cases hpc
  | _ => cases hpc

/-- The points of a call follow each other. -/
theorem Stage.does {o : VerbAnswer} (hrem : verb.modes.isSome = true → s.dev.ses.removed = false)
    (hu : u.Founded) (h : Stage s c verb u c' u.pc) (hpc : u.pc ≠ .started)
    (hc : u.dev.ctl = .held) (hx : Does u o u.pc u') : s.Under c verb u' := by
  generalize hupc : u.pc = pc at h hx hpc
  cases h with
  | @setOneShot o' p hv hb ht hr =>
    cases hx with
    | ended h => cases h
    | setOneShot hd =>
      cases Device.Steps.of_step hd with
      | data hax => cases hax
      | setOneShot => exact .inr (.inr ⟨c', .setPumpRing hv ⟨hb.slot, hb.owner, rfl, hb.pumpRing⟩ ht
          ⟨hr.ctl, hr.streamState, hr.removed⟩⟩)
    | events _ hturn => cases hturn
  | @setPumpRing o' p hv hb ht hr =>
    cases hx with
    | ended h => cases h
    | setPumpRing hs =>
      cases hb.slot.symm.trans hs
      -- the engine took no part in this step, so the calls since the request stand
      obtain ⟨as, ds, hacq, hdel, hring⟩ := ht
      have ht' : s.Turned u c (c'.setRing { c'.ring with pumpRingOnStart := p }) false :=
        ⟨as, ds, hacq, hdel, hring.setPumpRing p⟩
      cases p with
      | true => exact .inr (.inr ⟨_, .requeue hv ⟨rfl, hb.owner, hb.oneShot, rfl⟩ ht'
          ⟨hr.ctl, hr.streamState, hr.removed⟩⟩)
      | false => exact .inr (.inr ⟨_, .start hv ⟨rfl, hb.owner, hb.oneShot, rfl⟩ ht'
          ⟨hr.ctl, hr.streamState, hr.removed⟩⟩)
    | events _ hturn => cases hturn
  | requeue hv hb ht hr =>
    cases hx with
    | ended h => cases h
    | requeue hs =>
      cases hb.slot.symm.trans hs
      obtain ⟨as, ds, hacq, hdel, hring⟩ := ht
      exact .inr (.inr ⟨_, .pump (.inl rfl) hv ⟨rfl, hb.owner, hb.oneShot, hb.pumpRing⟩
        ⟨as, ds, hacq, hdel, hring.requeue⟩ ⟨hr.ctl, hr.streamState, hr.removed⟩⟩)
    | events _ hturn => cases hturn
  | pump hpc hv hb ht hr =>
    obtain rfl | rfl := hpc
    · cases hx with
      | ended h => cases h
      | pump hd =>
        exact .inr (.inr ⟨c', .pump (.inr rfl) hv (hb.pumped hd) (ht.pumped hd) (hr.pumped hd)⟩)
      | events _ hturn => cases hturn
    · cases hx with
      | ended h => cases h
      | pumped => exact .inr (.inr ⟨c', .start hv (hb.goto _) ht (hr.goto _)⟩)
      | events _ hturn => cases hturn
  | start hv hb ht hr =>
    cases hx with
    | ended h => cases h
    | start hd =>
      cases Device.Steps.of_step hd with
      | data hax => cases hax
      | start =>
        refine .inr (.inr ⟨c', .started hv ⟨hb.slot, hb.owner, hb.oneShot, hb.pumpRing⟩ ht fun hst => ?_⟩)
        -- a stream that ran at the call still runs here: only the owner stops it, and the owner
        -- is inside this call
        have hslot : u.slot ≠ none := by
          rw [hb.slot]
          nofun
        have hagrees := (hu.running hslot).agrees (by rw [hc]; rfl)
        exact .inl ⟨_, rfl, hu.alive hslot, hr.removed.trans (hrem (by rw [hv]; rfl)),
          hagrees.mp (hr.streamState.trans hst)⟩
    | events _ hturn => cases hturn
  -- the return from the start is `Stage.of_started`
  | started hv hb ht hrun => exact absurd rfl hpc
  | requeueArm hv hs hb ht hr =>
    cases hx with
    | ended h => cases h
    | requeue hs' =>
      cases hb.slot.symm.trans hs'
      obtain ⟨as, ds, hacq, hdel, hring⟩ := ht
      -- a software trigger on a running stream hands the delivered frames back
      have hback : s.handsBack verb = true := by simp [hv, handsBack, hs]
      refine .inr (.inr ⟨_, .listen (.inl rfl) hv ⟨rfl, hb.owner, hb.oneShot, hb.pumpRing⟩ ?_
        ⟨hr.ctl, hr.streamState, hr.removed⟩⟩)
      rw [hback]
      exact ⟨as, ds, hacq, hdel, hring.requeue⟩
    | events _ hturn => cases hturn
  | listen hpc hv hb ht hr =>
    obtain rfl | rfl | rfl := hpc
    · cases hx with
      | ended h => cases h
      | pump hd =>
        exact .inr (.inr ⟨c', .listen (.inr (.inl rfl)) hv (hb.pumped hd) (ht.pumped hd) (hr.pumped hd)⟩)
      | events _ hturn => cases hturn
    · cases hx with
      | ended h => cases h
      | pumped => exact .inr (.inr ⟨c', .listen (.inr (.inr rfl)) hv (hb.goto _) ht (hr.goto _)⟩)
      | events _ hturn => cases hturn
    · cases hx with
      | ended h => cases h
      | listen hd =>
        cases Device.Steps.of_step hd with
        | data hax => cases hax
        | ensureListen => exact .inr (.inr ⟨c', .arm hv ⟨hb.slot, hb.owner, hb.oneShot, hb.pumpRing⟩ ht
            (.inr ⟨_, rfl⟩) hr.streamState⟩)
      | events _ hturn => cases hturn
  | arm hv hb ht hl hst =>
    cases hx with
    | ended =>
      refine .inr (.inr ⟨c', .failed hb.slot (Turned.left ht hst ?_ (hb.goto _) ?_ ?_) hc⟩)
      · rw [hv]
        rintro ⟨⟩
      · rw [hv]
        rfl
      · rw [hv]
        rfl
    | events _ hturn => cases hturn
  | events hpc hv hb ht hr =>
    have hfail : ∀ {events : Events} {status : NtStatus} {error : PlError},
        events.ring = c'.events.ring →
        s.Under c verb (u.setSlot { c' with events } (.finish status error)) := by
      intro events status error hring
      have ht' : s.Turned (u.setSlot { c' with events } (.finish status error)) c
          { c' with events } (s.handsBack verb) := by
        rw [hv.2]
        obtain ⟨as, ds, hacq, hdel, hsince⟩ := ht
        exact ⟨as, ds, hacq, hdel, by rwa [show Slot.ring { c' with events } = c'.ring from hring]⟩
      refine .inr (.inr ⟨_, .failed rfl (Turned.left ht' hr.streamState ?_
        ⟨rfl, hb.owner, hb.oneShot, (congrArg _ hring).trans hb.pumpRing⟩ ?_ ?_) hr.ctl⟩)
      · rw [hv.1]
        rintro ⟨⟩
      · rw [hv.1]
        rfl
      · rw [hv.1]
        rfl
    obtain rfl | rfl := hpc
    all_goals
      cases hx with
      | ended h => cases h
      | events hs hturn he =>
        cases hb.slot.symm.trans hs
        have hring := hturn.ring he
        cases hturn
        · exact hfail hring
        · exact .inl rfl
  | maps hpc hv hb hz hz' hr => exact .maps_does hpc hv hb hz hz' hr hx
  | failed hs hl hc =>
    cases hx with
    | ended h => cases h
    | finish => exact .inr (.inl rfl)
    | events _ hturn => cases hturn

theorem succeeds_does {o : VerbAnswer} {pc : VerbPc} (h : pc.succeeds = true)
    (hx : Does u o pc u') : u'.pc.succeeds = true ∨ u'.pc = .idle := by
  cases hx with
  | ended he =>
    cases pc with
    | build | started | validate | arm => cases h
    | _ => cases he
  | @pump next => exact .inl h
  | @pumped next =>
    cases next with
    | mapped => exact .inl rfl
    | start | arm => cases h
  | @stop next =>
    cases next with
    | finish | unmap => exact .inl rfl
    | release next =>
      cases next with
      | finish => exact .inl rfl
      | build => simp [VerbPc.succeeds] at h
  | quarantine => exact .inl (by simpa [VerbPc.succeeds] using h)
  | unmapEmpty | unmapHeld | unmapFrame => exact .inl h
  | @unmapDone _ _ _ next =>
    cases next with
    | unmapped => exact .inl rfl
    | release next =>
      obtain rfl : next = .finish := by simpa [VerbPc.succeeds] using h
      exact .inl rfl
    | map | mapFailed => simp [VerbPc.succeeds] at h
  | published =>
    refine .inl ?_
    unfold publishStep
    split <;> rfl
  | events _ hturn =>
    cases hturn with
    | inserted | unregistered => exact .inl rfl
    | flushed | dropped | allDropped => exact .inl h
    | notRegistered | registered | notFound | found => cases h
  | @destroy next =>
    cases next with
    | finish => exact .inl rfl
    | build => simp [VerbPc.succeeds] at h
  | finish => exact .inr rfl
  | _ => cases h

/-- Only the holder of the executor moves on. -/
theorem pc_of_takes {a : Act} (hpc : u.pc ≠ .idle) (ha : ∀ o, a ≠ .verb o) (hx : Takes u a u') :
    u'.pc = u.pc := by
  cases hx with
  | slotDev | pinDev | same | signal => rfl
  | enters h | removed h | pinOpened h => exact absurd h.1 hpc
  | pinClosed _ h => exact absurd h hpc
  | verb => exact absurd rfl (ha _)

theorem Under.step {a : Act} (hrem : verb.modes.isSome = true → s.dev.ses.removed = false)
    (hs : Running s.dev) (hu : u.Founded) (h : s.Under c verb u) (hpc : u.pc ≠ .idle)
    (hx : u.step a = some u') : s.Under c verb u' := by
  have ht := Takes.of_step hx
  by_cases ha : ∃ o, a = .verb o
  · obtain ⟨o, rfl⟩ := ha
    simp only [IoctlDevice.step] at hx
    split at hx
    · next hc =>
      have hd := Does.of_verbStep hx
      obtain h | h | ⟨c', h⟩ := h
      · exact (succeeds_does h hd).imp id .inl
      · exact absurd h hpc
      · by_cases hst : u.pc = .started
        · have hrun := hu.running (by rw [h.slot]; rintro ⟨⟩)
          exact (hst ▸ h).of_started hs hrun hst hc hx
        · exact h.does hrem hu hst hc hd
    · cases hx
  · push Not at ha
    obtain h | h | ⟨c', h⟩ := h
    · exact .inl ((pc_of_takes hpc ha ht).symm ▸ h)
    · exact absurd h hpc
    · obtain ⟨c'', hm⟩ := Meanwhile.of_takes hu h.slot hpc ha ht
      exact .inr (.inr ⟨c'', hm.pc ▸ h.meanwhile hm⟩)

end

end IoctlDevice
end Photonic
