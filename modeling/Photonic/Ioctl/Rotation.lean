import Photonic.Ioctl.Rest
import Photonic.Session.Quarantine

namespace Photonic

theorem Vacant.delivery {e : Engine} {pc : Pc} {d : Delivery} (h : Vacant e)
    (hr : Engine.machine.Reachable e) (hpc : pc ∈ e.pool) (hd : pc.delivery = some d) :
    ntSuccess d.status = false := by
  have howe := Pool.false_of_countP_eq_zero ((Counted.of_reachable hr).eq_zero h.noIrp).2 hpc
  have hlap := h.noLap pc hpc
  cases pc with
  | attachFailed | detachDeliver => cases howe
  | releaseDeliver =>
    cases hd
    exact ntSuccess_statusCancelled
  | pump k pc => cases pc <;> first | (cases hlap; done) | cases hd
  | _ => cases hd

theorem Device.Steps.quarantined {s s' : Device} {a : Device.Act} (hs : Device.Steps s a s')
    (hr : Engine.machine.Reachable s.eng) (hc : s.ctl = .held)
    (hq : s.eng.cap.hasQuarantinedFrames = true) : s'.eng.cap.hasQuarantinedFrames = true := by
  obtain ⟨d, hd⟩ := (s.eng.cap.hasQuarantinedFrames_iff).mp hq
  refine (s'.eng.cap.hasQuarantinedFrames_iff).mpr ⟨d, ?_⟩
  by_contra hd'
  have hpassed := hs.passed_of_released (.of_reachable hr) (.of_reachable hr) hd hd'
  rw [hc] at hpassed
  cases hpassed

namespace Ring
variable (r : Ring) (oneShot : Bool) (d : Delivery)

theorem framesDeliver_mdl (i : ℕ) : ((r.framesDeliver oneShot d).frames i).mdl = (r.frames i).mdl := by
  unfold framesDeliver
  split
  · rfl
  split
  all_goals
    simp only [count_frames, setState_frames, Function.update_apply]
    split
    · next hi => rw [hi]
    · rfl

theorem framesDeliver_state {i : ℕ} (h : index d.cookie < maxVideoFrames) :
    ((r.framesDeliver oneShot d).frames i).state =
      if i = index d.cookie then if ntSuccess d.status && oneShot then .delivered else .queued
      else (r.frames i).state := by
  unfold framesDeliver
  rw [if_neg (Nat.not_le.mpr h)]
  split
  · next hs =>
    simp only [count_frames, setState_frames, Function.update_apply, hs, Bool.true_and]
    split <;> rfl
  · next hs =>
    simp only [setState_frames, Function.update_apply, hs, Bool.false_and]
    split <;> rfl

end Ring

namespace Slot

theorem acquire_some {c : Slot} {answer : Cookie × Option ℕ} (h : c.acquire.1 = some answer) :
    c.ring.Acquirable ∧ answer.1 = c.ring.nextSubmitIndex ∧
      c.acquire.2 = { c.setRing c.ring.take with taken := c.taken ++ [c.ring.nextSubmitIndex] } := by
  by_cases ha : c.ring.Acquirable
  · have hf : c.ring.framesAcquire = some ((c.ring.nextSubmitIndex,
        (c.ring.frames c.ring.nextSubmitIndex).mdl.map (·.byteCount)), c.ring.take) := if_pos ha
    unfold acquire at h ⊢
    rw [hf] at h ⊢
    cases h
    exact ⟨ha, rfl, rfl⟩
  · have hf : c.ring.framesAcquire = none := if_neg ha
    unfold acquire at h
    rw [hf] at h
    cases h

/-- The counters tell the successful deliveries. -/
structure Tallied (c : Slot) : Prop where
  total : c.ring.totalFrameCount = BitVec.ofNat 32 c.shots.length
  current : c.ring.currentFrameIndex = c.shots.getLast?.elim (-1) (BitVec.ofNat 32)

structure Turns (c : Slot) : Prop where
  bound : c.ring.mappedFrameCount ≤ maxVideoFrames
  next : c.ring.nextSubmitIndex = c.taken.length % c.ring.mappedFrameCount
  taken : c.taken = (List.range c.taken.length).map (· % c.ring.mappedFrameCount)
  untaken : c.ring.mappedFrameCount = 0 → c.taken = []
  tally : c.ring.mappedFrameCount ≠ 0 → c.Tallied
  limit : ∀ i, (c.ring.frames i).state ≠ .queued → i < maxVideoFrames
  backed : ∀ i, (c.ring.frames i).state = .inFlight → (c.ring.frames i).mdl ≠ none

namespace Turns
variable {c c' : Slot}

theorem fresh (fileObject imageSize : ℕ) : (Slot.fresh fileObject imageSize).Turns where
  bound := Nat.zero_le _
  next := rfl
  taken := rfl
  untaken _ := rfl
  tally h := absurd rfl h
  limit _ h := absurd rfl h
  backed _ := nofun

theorem keep (h : c.Turns) {r : Ring} (hm : r.mappedFrameCount = c.ring.mappedFrameCount)
    (hn : r.nextSubmitIndex = c.ring.nextSubmitIndex)
    (hc : r.currentFrameIndex = c.ring.currentFrameIndex)
    (ht : r.totalFrameCount = c.ring.totalFrameCount)
    (hl : ∀ i, (r.frames i).state ≠ .queued → (c.ring.frames i).state ≠ .queued)
    (hb : ∀ i, (r.frames i).state = .inFlight →
      (c.ring.frames i).state = .inFlight ∧ (r.frames i).mdl = (c.ring.frames i).mdl) :
    (c.setRing r).Turns where
  bound := hm ▸ h.bound
  next := by rw [setRing_ring, hn, hm]; exact h.next
  taken := by rw [setRing_ring, hm]; exact h.taken
  untaken hz := h.untaken (hm ▸ hz)
  tally hz := ⟨ht.trans (h.tally (hm ▸ hz)).total, hc.trans (h.tally (hm ▸ hz)).current⟩
  limit i hi := h.limit i (hl i hi)
  backed i hi := by
    obtain ⟨hi, hmdl⟩ := hb i hi
    exact (show (r.frames i).mdl = _ from hmdl) ▸ h.backed i hi

theorem acquire (h : c.Turns) (ha : c.ring.Acquirable)
    (hf : (c.ring.frames c.ring.nextSubmitIndex).mdl ≠ none) :
    Turns { c.setRing c.ring.take with taken := c.taken ++ [c.ring.nextSubmitIndex] } where
  bound := h.bound
  next := by
    show (c.ring.nextSubmitIndex + 1) % c.ring.mappedFrameCount = _
    rw [List.length_append, h.next, Nat.mod_add_mod]
    rfl
  taken := by
    show c.taken ++ [c.ring.nextSubmitIndex] =
      (List.range (c.taken ++ [c.ring.nextSubmitIndex]).length).map (· % c.ring.mappedFrameCount)
    rw [List.length_append, List.length_singleton, List.range_succ, List.map_append, ← h.taken,
      h.next]
    rfl
  untaken hz := absurd hz ha.2.1
  tally hz := ⟨(h.tally hz).total, (h.tally hz).current⟩
  limit i hi := by
    by_cases hin : i = c.ring.nextSubmitIndex
    · rw [hin, h.next]
      exact (Nat.mod_lt _ (Nat.pos_of_ne_zero ha.2.1)).trans_le h.bound
    · refine h.limit i fun hq => hi ?_
      exact (congrArg RingFrame.state (Function.update_of_ne hin _ _)).trans hq
  backed i hi := by
    show ((c.ring.take).frames i).mdl ≠ none
    have hi : ((c.ring.take).frames i).state = .inFlight := hi
    simp only [Ring.take, Ring.setState_frames, Function.update_apply] at hi ⊢
    split
    · exact hf
    · next hin =>
      rw [if_neg hin] at hi
      exact h.backed i hi

theorem deliver (h : c.Turns) (oneShot : Bool) {d : Delivery} (hlt : d.cookie < maxVideoFrames) :
    (c.deliver oneShot d).Turns := by
  have hindex : Ring.index d.cookie = d.cookie := Nat.mod_eq_of_lt (hlt.trans (by decide))
  have hring := c.deliver_ring oneShot d
  have hlt' : Ring.index d.cookie < maxVideoFrames := by rwa [hindex]
  have hstate : ∀ i, ((c.deliver oneShot d).ring.frames i).state = _ := fun i =>
    hring ▸ c.ring.framesDeliver_state oneShot d hlt'
  have hmap := c.deliver_mapped oneShot d
  refine ⟨hmap ▸ h.bound, ?_, ?_, fun hz => h.untaken (hmap ▸ hz), fun hz => ?_, fun i hi => ?_,
    fun i hi => ?_⟩
  · rw [hring, Slot.deliver_taken, Events.Timed.framesDeliver_mapped, ← h.next]
    unfold Ring.framesDeliver
    split
    · rfl
    split <;> rfl
  · rw [hmap]
    exact h.taken
  · obtain ⟨htotal, hcurrent⟩ := h.tally (hmap ▸ hz)
    have hshots : (c.deliver oneShot d).shots = if Ring.index d.cookie < maxVideoFrames ∧
        ntSuccess d.status = true then c.shots ++ [Ring.index d.cookie] else c.shots := rfl
    have hdel : c.ring.framesDeliver oneShot d = if ntSuccess d.status = true then
        (c.ring.setState (Ring.index d.cookie) (if oneShot then .delivered else .queued)).count
          (Ring.index d.cookie)
        else c.ring.setState (Ring.index d.cookie) .queued := if_neg (Nat.not_le.mpr hlt')
    by_cases hs : ntSuccess d.status = true
    · rw [if_pos ⟨hlt', hs⟩] at hshots
      rw [if_pos hs] at hdel
      constructor
      · rw [hring, hshots, hdel, List.length_append, List.length_singleton, BitVec.ofNat_add, ← htotal]
        rfl
      · rw [hring, hshots, hdel, List.getLast?_append]
        rfl
    · rw [if_neg fun hn => hs hn.2] at hshots
      rw [if_neg hs] at hdel
      constructor
      · rw [hring, hshots, hdel]
        exact htotal
      · rw [hring, hshots, hdel]
        exact hcurrent
  · by_cases hin : i = Ring.index d.cookie
    · exact hin ▸ hlt'
    · rw [hstate, if_neg hin] at hi
      exact h.limit i hi
  · rw [hring, Ring.framesDeliver_mdl]
    rw [hstate] at hi
    split at hi
    · split at hi <;> cases hi
    · exact h.backed i hi

theorem restart (h : c.Turns) {r : Ring} (hm : r.mappedFrameCount ≤ maxVideoFrames)
    (hn : r.nextSubmitIndex = 0) (hf : r.frames = c.ring.frames) {shots : List ℕ}
    (ht : r.mappedFrameCount ≠ 0 → Tallied { c.restart r with shots }) :
    Turns { c.restart r with shots } where
  bound := hm
  next := hn.trans (Nat.zero_mod _).symm
  taken := rfl
  untaken _ := rfl
  tally := ht
  limit i hi := h.limit i (by rw [← hf]; exact hi)
  backed i hi := by
    show (r.frames i).mdl ≠ none
    rw [hf]
    exact h.backed i (by rw [← hf]; exact hi)

end Turns

theorem Turns.congr {c c' : Slot} (h : c.Turns) (hr : c'.ring = c.ring) (ht : c'.taken = c.taken)
    (hs : c'.shots = c.shots) : c'.Turns := by
  refine ⟨hr ▸ h.bound, hr ▸ ht ▸ h.next, hr ▸ ht ▸ h.taken, fun hz => ht ▸ h.untaken (hr ▸ hz),
    fun hz => ?_, hr ▸ h.limit, hr ▸ h.backed⟩
  obtain ⟨htotal, hcurrent⟩ := h.tally (hr ▸ hz)
  exact ⟨by rw [hr, hs, htotal], by rw [hr, hs, hcurrent]⟩

/-- The frames in flight are those that the engine holds, once each. -/
def Owned (c : Slot) (e : Engine) : Prop :=
  ∀ i, e.acquired.count i = e.deliveredCount i + if (c.ring.frames i).state = .inFlight then 1 else 0

namespace Owned
variable {c c' : Slot} {e e' : Engine}

theorem congr (h : c.Owned e) (ha : e'.acquired = e.acquired) (hd : e'.delivered = e.delivered)
    (hf : ∀ i, (c'.ring.frames i).state = .inFlight ↔ (c.ring.frames i).state = .inFlight) :
    c'.Owned e' := by
  intro i
  simp only [Engine.deliveredCount, ha, hd, hf]
  exact h i

theorem not_inFlight (h : c.Owned e) {i : ℕ} (hi : e.acquired.count i = e.deliveredCount i) :
    (c.ring.frames i).state ≠ .inFlight := by
  intro hf
  have := h i
  rw [if_pos hf] at this
  omega

theorem setFrame (h : c.Owned e) {i : ℕ} {f : RingFrame} (hi : (c.ring.frames i).state ≠ .inFlight)
    (hf : f.state ≠ .inFlight) : (c.setRing (c.ring.setFrame i f)).Owned e := by
  refine h.congr rfl rfl fun k => ?_
  simp only [setRing_ring, Ring.setFrame, Function.update_apply]
  split
  · next hk => exact iff_of_false hf (hk ▸ hi)
  · rfl

theorem acquire (h : c.Owned e) (ha : c.ring.Acquirable)
    (hacq : e'.acquired = e.acquired ++ [c.ring.nextSubmitIndex]) (hd : e'.delivered = e.delivered) :
    Owned { c.setRing c.ring.take with taken := c.taken ++ [c.ring.nextSubmitIndex] } e' := by
  intro i
  have hi := h i
  show _ = _ + if ((c.ring.take).frames i).state = .inFlight then 1 else 0
  rw [hacq, List.count_append, List.count_singleton, Engine.deliveredCount, hd]
  simp only [Ring.take, Ring.setState_frames, Function.update_apply]
  by_cases hin : i = c.ring.nextSubmitIndex
  · subst hin
    rw [ha.2.2, if_neg nofun] at hi
    simpa [Engine.deliveredCount] using hi
  · have hin' : ¬c.ring.nextSubmitIndex = i := fun heq => hin heq.symm
    simpa [Engine.deliveredCount, hin, hin'] using hi

theorem inFlight_of_delivers (h : c.Owned e) (hr : Engine.machine.Reachable e') {d : Delivery}
    (ha : e'.acquired = e.acquired) (hd : e'.delivered = e.delivered ++ [d]) :
    (c.ring.frames d.cookie).state = .inFlight := by
  have hbal := Engine.heldCount_eq hr d.cookie
  have hi := h d.cookie
  rw [ha, Engine.deliveredCount, hd, List.map_append, List.count_append] at hbal
  by_contra hne
  rw [if_neg hne] at hi
  simp only [Engine.deliveredCount, List.map_cons, List.map_nil, List.count_singleton_self] at hi hbal
  omega

theorem deliver (h : c.Owned e) (hr : Engine.machine.Reachable e') {d : Delivery} (oneShot : Bool)
    (hlt : d.cookie < maxVideoFrames) (ha : e'.acquired = e.acquired)
    (hd : e'.delivered = e.delivered ++ [d]) : (c.deliver oneShot d).Owned e' := by
  intro i
  have hindex : Ring.index d.cookie = d.cookie := Nat.mod_eq_of_lt (hlt.trans (by decide))
  have hin := h.inFlight_of_delivers hr ha hd
  have hi := h i
  rw [Slot.deliver_ring, Ring.framesDeliver_state _ _ _ (by rwa [hindex]), hindex, ha,
    Engine.deliveredCount, hd, List.map_append, List.count_append]
  by_cases hid : i = d.cookie
  · subst hid
    rw [if_pos hin, Engine.deliveredCount] at hi
    have hne : (if ntSuccess d.status && oneShot then RingFrameState.delivered else .queued) ≠
        .inFlight := by split <;> nofun
    rw [if_pos rfl, if_neg hne]
    simp only [List.map_cons, List.map_nil, List.count_singleton_self]
    omega
  · rw [if_neg hid, hi, Engine.deliveredCount]
    have : ¬d.cookie = i := fun heq => hid heq.symm
    simp [this]

end Owned
end Slot

namespace VerbPc

/-- How far a walk over the ring has come. -/
def walked : VerbPc → ℕ
  | .unmap i _ _ => i
  | _ => 0

/-- The slot is on its way out, whatever is quarantined. -/
def tearing : VerbPc → Bool
  | .unmap _ force _ => force
  | .flush _ | .flushing _ | .destroy _ => true
  | _ => false

/-- The map has not published its ring yet. -/
def readies : VerbPc → Bool
  | .validate _ | .allocate _ _ | .lock _ _ _ | .publish _ => true
  | _ => false

def unmapped : VerbPc → Bool
  | .flush _ | .flushing _ | .destroy _ => true
  | pc => pc.readies

def Locking (r : Ring) : VerbPc → Prop
  | .allocate args i =>
    i ≤ args.frameCount ∧ args.frameCount ≤ maxVideoFrames ∧ ∀ k < i, (r.frames k).mdl ≠ none
  | .lock args i _ =>
    i < args.frameCount ∧ args.frameCount ≤ maxVideoFrames ∧ ∀ k < i, (r.frames k).mdl ≠ none
  | .publish args =>
    args.frameCount ≤ maxVideoFrames ∧ ∀ k < args.frameCount, (r.frames k).mdl ≠ none
  | _ => True

/-- No walk over the ring is under way. -/
def plain : VerbPc → Bool
  | .unmap i force _ => i = 0 && !force
  | .requeue next => next ≠ .mapped
  | .build _ | .flush _ | .flushing _ | .destroy _ => false
  | pc => !pc.readies

/-- The points that only a device without a slot reaches, or none at all. -/
def slotless : VerbPc → Bool
  | .build _ => true
  | .requeue next => next = .mapped
  | _ => false

theorem plain_spec {pc : VerbPc} (h : pc.plain = true) : pc.walked = 0 ∧ pc.tearing = false ∧
    pc.unmapped = false ∧ (∀ r, pc.Locking r) ∧ pc.slotless = false := by
  cases pc with
  | unmap i force next =>
    simp only [plain, Bool.and_eq_true, decide_eq_true_eq, Bool.not_eq_true'] at h
    exact ⟨h.1, h.2, rfl, fun _ => trivial, rfl⟩
  | requeue next =>
    refine ⟨rfl, rfl, rfl, fun _ => trivial, ?_⟩
    simpa [plain, slotless] using h
  | build | validate | allocate | lock | publish | flush | flushing | destroy => cases h
  | _ => exact ⟨rfl, rfl, rfl, fun _ => trivial, rfl⟩

theorem walks_of_unmap (i : ℕ) (force : Bool) (next : UnmapNext) :
    (unmap i force next).afterStop = true ∨ (unmap i force next).maps = true := by
  cases next <;> first | exact .inl rfl | exact .inr rfl

theorem walks_of_walked {pc : VerbPc} (h : pc.walked ≠ 0 ∨ pc.tearing = true) :
    pc.afterStop = true ∨ pc.maps = true := by
  cases pc with
  | unmap i force next => exact walks_of_unmap i force next
  | flush | flushing | destroy => exact .inl rfl
  | _ => rcases h with h | h <;> first | exact absurd rfl h | cases h

theorem plain_of {pc : VerbPc} (hw : pc.walked = 0) (ht : pc.tearing = false) (hm : pc.maps = false)
    (hs : pc.slotless = false) : pc.plain = true := by
  cases pc with
  | unmap i force next =>
    have hw : i = 0 := hw
    have ht : force = false := ht
    simp [plain, hw, ht]
  | requeue next =>
    simpa [plain, slotless] using hs
  | build => cases hs
  | validate | allocate | lock | publish => cases hm
  | flush | flushing | destroy => cases ht
  | _ => rfl

theorem readies_spec {pc : VerbPc} (h : pc.readies = true) :
    pc.walked = 0 ∧ pc.tearing = false ∧ pc.unmapped = true ∧ pc.maps = true := by
  cases pc <;> first | exact ⟨rfl, rfl, rfl, rfl⟩ | cases h

end VerbPc

namespace IoctlDevice

theorem Entry.atRest {s : IoctlDevice} {pc : VerbPc} (h : Entry s pc) (hs : s.slot ≠ none) :
    pc.plain = true := by
  cases h with
  | map | stop => rfl
  | build hn => exact absurd hn hs
  | plain hm hst hp hr hb =>
    have hw : ¬(pc.walked ≠ 0 ∨ pc.tearing = true) := fun hw => by
      rcases VerbPc.walks_of_walked hw with hw | hw
      · rw [VerbPc.stops_of_afterStop hw] at hst
        cases hst
      · rw [hw] at hm
        cases hm
    push Not at hw
    refine VerbPc.plain_of hw.1 (by simpa using hw.2) hm ?_
    cases pc with
    | build fileObject => exact absurd rfl (hb fileObject)
    | requeue next => exact decide_eq_false fun heq => hr (congrArg _ heq)
    | _ => rfl

/-- The rotation of the slot `c`, wherever the holder of the executor has come to. -/
structure Rotating (s : IoctlDevice) (c : Slot) : Prop where
  turns : c.Turns
  filled : ∀ i, s.pc.walked ≤ i → i < c.ring.mappedFrameCount → (c.ring.frames i).mdl ≠ none
  cleared : ∀ i, c.ring.mappedFrameCount = 0 ∨ i < s.pc.walked → (c.ring.frames i).state ≠ .delivered
  walks : s.pc.walked ≠ 0 ∨ s.pc.tearing = true → s.dev.ctl = .held
  locking : s.pc.Locking c.ring
  unmapped : s.pc.unmapped = true → c.ring.mappedFrameCount = 0
  ready : s.pc.readies = true → c.shots = [] ∧ c.Tallied
  slotted : s.pc.slotless = false
  forced : ∀ {i next}, s.pc = .unmap i true next →
    s.dev.eng.cap.hasQuarantinedFrames = true ∧ ∃ n, next = .release n
  owned : s.pc.tearing = true ∧ s.dev.eng.cap.hasQuarantinedFrames = true ∨ c.Owned s.dev.eng

namespace Rotating
variable {s s' : IoctlDevice} {c c' : Slot}

theorem congr (h : s.Rotating c) (hr : c'.ring = c.ring) (ht : c'.taken = c.taken)
    (hs : c'.shots = c.shots) : s.Rotating c' where
  turns := h.turns.congr hr ht hs
  filled := hr ▸ h.filled
  cleared := hr ▸ h.cleared
  walks := h.walks
  locking := hr ▸ h.locking
  unmapped := hr ▸ h.unmapped
  ready hpc := by
    obtain ⟨hshots, htotal, hcurrent⟩ := h.ready hpc
    exact ⟨hs.trans hshots, by rw [hr, hs, htotal], by rw [hr, hs, hcurrent]⟩
  slotted := h.slotted
  forced := h.forced
  owned := h.owned.imp id fun ho => ho.congr rfl rfl fun i => by rw [hr]

theorem owned_of (h : s.Rotating c) (ht : s.pc.tearing = false) : c.Owned s.dev.eng :=
  h.owned.resolve_left fun ⟨htear, _⟩ => by
    rw [ht] at htear
    cases htear

theorem setMdls (h : s.Rotating c) (mdls : Mdls) : Rotating { s with mdls } c :=
  ⟨h.turns, h.filled, h.cleared, h.walks, h.locking, h.unmapped, h.ready, h.slotted, h.forced, h.owned⟩

theorem of_plain (ht : c'.Turns) (hpc : s'.pc.plain = true)
    (hf : ∀ i < c'.ring.mappedFrameCount, (c'.ring.frames i).mdl ≠ none)
    (hz : c'.ring.mappedFrameCount = 0 → ∀ i, (c'.ring.frames i).state ≠ .delivered)
    (ho : c'.Owned s'.dev.eng) : s'.Rotating c' := by
  obtain ⟨hwalk, htear, hun, hlock, hslot⟩ := VerbPc.plain_spec hpc
  refine ⟨ht, fun i _ => hf i, fun i hi => ?_, fun hw => ?_, hlock _, fun hm => ?_, fun hm => ?_, hslot,
    fun heq => ?_, .inr ho⟩
  · rw [hwalk] at hi
    exact hz (hi.resolve_right (Nat.not_lt_zero i)) i
  · rw [hwalk, htear] at hw
    rcases hw with hw | hw
    · exact absurd rfl hw
    · cases hw
  · rw [hun] at hm
    cases hm
  · have hm : s'.pc.unmapped = true := by
      revert hm
      cases s'.pc <;> simp [VerbPc.readies, VerbPc.unmapped]
    rw [hun] at hm
    cases hm
  · rw [heq] at htear
    cases htear

theorem turn (h : s.Rotating c) (hw : s.pc.walked = 0) (ht : s.pc.tearing = false)
    (hpc : s'.pc.plain = true) (ha : s'.dev.eng.acquired = s.dev.eng.acquired)
    (hd : s'.dev.eng.delivered = s.dev.eng.delivered) : s'.Rotating c := by
  refine .of_plain h.turns hpc (fun i hi => h.filled i (hw ▸ Nat.zero_le i) hi)
    (fun hz i => h.cleared i (.inl hz)) ?_
  exact (h.owned_of ht).congr ha hd fun _ => Iff.rfl

theorem feeds (h : s.Rotating c) {dev : Device} {c' : Slot} (hw : s.pc.walked = 0)
    (ht : s.pc.tearing = false) (hr : Engine.machine.Reachable s.dev.eng)
    (hr' : Engine.machine.Reachable dev.eng)
    (hv : c.ring.mappedFrameCount = 0 → Vacant s.dev.eng)
    (hf : Device.Feeds Slot.callbacks s.dev dev (some c) (some c')) :
    c'.Turns ∧ (∀ i < c'.ring.mappedFrameCount, (c'.ring.frames i).mdl ≠ none) ∧
      (c'.ring.mappedFrameCount = 0 → ∀ i, (c'.ring.frames i).state ≠ .delivered) ∧
      c'.Owned dev.eng := by
  have hfill : ∀ i < c.ring.mappedFrameCount, (c.ring.frames i).mdl ≠ none :=
    fun i => h.filled i (hw ▸ Nat.zero_le i)
  have hzero : c.ring.mappedFrameCount = 0 → ∀ i, (c.ring.frames i).state ≠ .delivered :=
    fun hz i => h.cleared i (.inl hz)
  have hown := h.owned_of ht
  generalize heq : some c' = f' at hf
  cases hf with
  | @acquires answer hans _ ha hd =>
    obtain ⟨hacq, hcookie, hnew⟩ := Slot.acquire_some hans
    have hc' : c' = { c.setRing c.ring.take with taken := c.taken ++ [c.ring.nextSubmitIndex] } :=
      Option.some.inj (heq.trans (congrArg some hnew))
    rw [hcookie] at ha
    have hnext := hfill _ (h.turns.next ▸ Nat.mod_lt _ (Nat.pos_of_ne_zero hacq.2.1))
    subst hc'
    refine ⟨h.turns.acquire hacq hnext, fun i hi => ?_, fun hz => absurd hz hacq.2.1,
      hown.acquire hacq ha hd⟩
    show ((c.ring.take).frames i).mdl ≠ none
    simp only [Ring.take, Ring.setState_frames, Function.update_apply]
    split
    · exact hnext
    · exact hfill i hi
  | finds hans ha hd =>
    have hc' : c' = c := Option.some.inj (heq.trans (congrArg some (c.acquire_none hans)))
    exact hc' ▸ ⟨h.turns, hfill, hzero, hown.congr ha hd fun _ => Iff.rfl⟩
  | @delivers d hq ha hd =>
    have hc' : c' = c.deliver s.dev.ses.oneShot d := Option.some.inj heq
    have hlt := h.turns.limit d.cookie (by rw [hown.inFlight_of_delivers hr' ha hd]; nofun)
    have hindex : Ring.index d.cookie = d.cookie := Nat.mod_eq_of_lt (hlt.trans (by decide))
    subst hc'
    refine ⟨h.turns.deliver _ hlt, fun i hi => ?_, fun hz i => ?_, hown.deliver hr' _ hlt ha hd⟩
    · rw [Slot.deliver_ring, Ring.framesDeliver_mdl]
      exact hfill i (c.deliver_mapped _ d ▸ hi)
    · have hz := (c.deliver_mapped s.dev.ses.oneShot d).symm.trans hz
      obtain ⟨pc, hpc, hdel⟩ := hq
      have hs := (hv hz).delivery hr hpc hdel
      rw [Slot.deliver_ring, Ring.framesDeliver_state _ _ _ (by rwa [hindex]), hs]
      split
      · nofun
      · exact hzero hz i
  | silent ha hd =>
    have hc' : c' = c := Option.some.inj heq
    exact hc' ▸ ⟨h.turns, hfill, hzero, hown.congr ha hd fun _ => Iff.rfl⟩

/-- A verb that walks over the ring is not called, and the others are not under way. -/
theorem calm (h : s.Rotating c) (hph : s.Phased) {a : Device.Act} {dev : Device} {slot : Option Slot}
    (hf : s.dev.feed Slot.callbacks s.slot a = some (dev, slot)) :
    (s.dev.ctl = .held ∧ slot = s.slot ∧ dev.eng.acquired = s.dev.eng.acquired ∧
      dev.eng.delivered = s.dev.eng.delivered) ∨
    (s.pc.walked = 0 ∧ s.pc.tearing = false ∧ s.pc.maps = false) := by
  by_cases hw : s.dev.ctl = .held ∧ (s.pc.afterStop = true ∨ s.pc.maps = true)
  · exact .inl ⟨hw.1, hph.silent hw.1 hw.2 hf⟩
  · have hno : ¬(s.pc.walked ≠ 0 ∨ s.pc.tearing = true) := fun hpc =>
      hw ⟨h.walks hpc, VerbPc.walks_of_walked hpc⟩
    push Not at hno
    refine .inr ⟨hno.1, by simpa using hno.2, ?_⟩
    by_contra hm
    have hm : s.pc.maps = true := by simpa using hm
    exact hw ⟨(hph.mapping hm).1, .inr hm⟩

theorem slotDev (h : s.Rotating c) (hph : s.Phased) (hc : s.slot = some c) {a : Device.Act}
    {dev : Device} {slot : Option Slot} (hpin : s.pinOpen = false) (ha : a.shared = true)
    (hn : s.dev.NoLateClaim a) (hf : s.dev.feed Slot.callbacks s.slot a = some (dev, slot))
    (hc' : slot = some c') : Rotating { s with dev, slot } c' := by
  have hx := Device.Steps.of_step (Device.feed_step hf)
  have hr' := (hph.slotDev hpin ha hn hf).sound.engine
  rcases h.calm hph hf with ⟨hctl, hsame, hacq, hdel⟩ | ⟨hwalk, htear, hmaps⟩
  · have hcc : c' = c := Option.some.inj (hc'.symm.trans (hsame.trans hc))
    have hq := hx.quarantined hph.sound.engine hctl
    subst hcc
    exact ⟨h.turns, h.filled, h.cleared, fun _ => (hx.draining_of_shared ha hctl).1, h.locking,
      h.unmapped, h.ready, h.slotted, fun heq => ⟨hq (h.forced heq).1, (h.forced heq).2⟩,
      h.owned.imp (fun ⟨htear, hq'⟩ => ⟨htear, hq hq'⟩) fun ho => ho.congr hacq hdel fun _ => Iff.rfl⟩
  · rw [hc] at hf
    have hfeeds := Device.Feeds.of_feed hf
    rw [hc'] at hfeeds
    obtain ⟨ht, hfill, hzero, hown⟩ := h.feeds hwalk htear hph.sound.engine hr' (hph.vacant c hc) hfeeds
    exact .of_plain ht (VerbPc.plain_of hwalk htear hmaps h.slotted) hfill hzero hown

theorem none_inFlight (h : s.Rotating c) (hph : s.Phased) (hm : s.pc.maps = true)
    (ht : s.pc.tearing = false) (i : ℕ) : (c.ring.frames i).state ≠ .inFlight := by
  have hown := h.owned_of ht
  obtain ⟨hctl, hbare⟩ := hph.mapping hm
  refine hown.not_inFlight ((hph.held hctl (.inr hm) i).trans ?_)
  rw [hbare.quarantinedCount]
  rfl

theorem unmapFrame (h : s.Rotating c) (hc : s.dev.ctl = .held) {i : ℕ} {force : Bool}
    {next : UnmapNext} (hpc : s.pc = .unmap i force next)
    (ho : force = true ∨ (c.ring.frames i).state ≠ .inFlight) :
    (s.setSlot (c.setRing (c.ring.unmapFrame i)) (.unmap (i + 1) force next)).Rotating
      (c.setRing (c.ring.unmapFrame i)) := by
  have hframe : ∀ k, (c.ring.unmapFrame i).frames k = if k = i then ⟨none, .queued⟩ else c.ring.frames k :=
    fun k => Function.update_apply _ _ _ _
  have hfill := h.filled
  have hclear := h.cleared
  have howned := h.owned
  rw [hpc] at hfill hclear howned
  refine ⟨h.turns.keep rfl rfl rfl rfl (fun k hk => ?_) (fun k hk => ?_), fun k hk hlt => ?_,
    fun k hk => ?_, fun _ => hc, trivial, nofun, nofun, rfl, fun {j n} heq => ?_, ?_⟩
  · rw [hframe] at hk
    split at hk
    · exact absurd rfl hk
    · exact hk
  · rw [hframe] at hk ⊢
    split at hk
    · cases hk
    · next hki => exact ⟨hk, by rw [if_neg hki]⟩
  · have hki : k ≠ i := by
      rintro rfl
      exact absurd hk (Nat.not_le.mpr (Nat.lt_succ_self k))
    rw [Slot.setRing_ring, hframe, if_neg hki]
    exact hfill k (Nat.le_of_succ_le hk) hlt
  · rw [Slot.setRing_ring, hframe]
    split
    · nofun
    · next hki =>
      refine hclear k (hk.imp id fun hlt => ?_)
      have hlt : k < i + 1 := hlt
      show k < i
      omega
  · cases heq
    exact h.forced hpc
  · rcases howned with hq | ho'
    · exact .inl hq
    · rcases ho with rfl | ho
      · exact .inl ⟨rfl, (h.forced hpc).1⟩
      · exact .inr (ho'.setFrame ho nofun)

theorem unmapHeld (h : s.Rotating c) (hph : s.Phased) (hc : s.dev.ctl = .held) {i : ℕ}
    {next : UnmapNext} (hpc : s.pc = .unmap i false next)
    (hq : s.dev.eng.cap.cookieQuarantined i = true) :
    (s.goto (.unmap (i + 1) false next)).Rotating c := by
  have hown := h.owned_of (by rw [hpc]; rfl)
  have hfill := h.filled
  have hclear := h.cleared
  rw [hpc] at hfill hclear
  refine ⟨h.turns, fun k hk => hfill k (Nat.le_of_succ_le hk), fun k hk => ?_, fun _ => hc, trivial,
    nofun, nofun, rfl, nofun, .inr hown⟩
  by_cases hki : k = i
  · have hheld := hph.held hc (hpc ▸ VerbPc.walks_of_unmap i false next) i
    have hpos := quarantinedCount_pos hq
    have hi := hown i
    have hin : (c.ring.frames i).state = .inFlight := by
      by_contra hne
      rw [if_neg hne] at hi
      omega
    rw [hki, hin]
    nofun
  · refine hclear k (hk.imp id fun hlt => ?_)
    have hlt : k < i + 1 := hlt
    show k < i
    omega

/-- Behind the walk nothing is mapped. -/
theorem unmapDone (h : s.Rotating c) (hc : s.dev.ctl = .held) {i : ℕ} {force : Bool}
    {next : UnmapNext} (hpc : s.pc = .unmap i force next) (hi : maxVideoFrames ≤ i) :
    ∃ c', (s.setSlot { c.restart c.ring.reset with
      shots := if next.maps then [] else c.shots } next.pc).slot = some c' ∧
      (s.setSlot { c.restart c.ring.reset with
        shots := if next.maps then [] else c.shots } next.pc).Rotating c' := by
  refine ⟨_, rfl, ?_⟩
  have hclear : ∀ k, (c.ring.frames k).state ≠ .delivered := fun k hk => by
    have hlt := h.turns.limit k (by rw [hk]; nofun)
    exact h.cleared k (.inr (by rw [hpc]; exact hlt.trans_le hi)) hk
  have hown := h.owned
  rw [hpc] at hown
  refine ⟨h.turns.restart (r := c.ring.reset) (Nat.zero_le _) rfl rfl (fun hz => absurd rfl hz), fun k _ hk => ?_,
    fun k _ => hclear k, fun _ => hc, ?_, fun _ => rfl, fun hm => ?_, ?_, ?_, ?_⟩
  · exact absurd hk (Nat.not_lt_zero k)
  · cases next with
    | release next => trivial
    | _ => trivial
  · cases next with
    | map args => exact ⟨rfl, rfl, rfl⟩
    | _ => cases hm
  · cases next <;> rfl
  · intro j n heq
    cases next <;> cases heq
  · rcases hown with ⟨htear, hq⟩ | ho
    · obtain ⟨-, n, rfl⟩ := @Rotating.forced _ _ h i next
        (by rw [hpc]; exact congrArg (VerbPc.unmap i · next) htear)
      exact .inl ⟨rfl, hq⟩
    · exact .inr (ho.congr rfl rfl fun _ => Iff.rfl)

theorem mapFailed (h : s.Rotating c) {i : ℕ} (hr : s.pc.readies = true)
    (hi : i ≤ maxVideoFrames) (hf : ∀ k < i, (c.ring.frames k).mdl ≠ none) (status : NtStatus)
    (error : PlError) {c' : Slot} (hc' : (s.mapFailed c i status error).slot = some c') :
    (s.mapFailed c i status error).Rotating c' := by
  obtain ⟨-, htear, hun, -⟩ := VerbPc.readies_spec hr
  have hz := h.unmapped hun
  obtain ⟨-, htally⟩ := h.ready hr
  have htaken := h.turns.untaken hz
  have hnext : c.ring.nextSubmitIndex = 0 := by rw [h.turns.next, htaken]; exact Nat.zero_mod _
  have hown := h.owned_of htear
  cases hc'
  refine .of_plain ?_ rfl hf (fun _ k => h.cleared k (.inl hz)) (hown.congr rfl rfl fun _ => Iff.rfl)
  refine ⟨hi, ?_, ?_, fun _ => htaken, fun _ => ⟨htally.total, htally.current⟩, h.turns.limit,
    h.turns.backed⟩
  · show c.ring.nextSubmitIndex = c.taken.length % i
    rw [hnext, htaken]
    exact (Nat.zero_mod i).symm
  · show c.taken = (List.range c.taken.length).map (· % i)
    rw [htaken]
    rfl

/-- The map goes on to its next step. -/
theorem readied (h : s.Rotating c) (hr : s.pc.readies = true) (hr' : s'.pc.readies = true)
    (hd : s'.dev = s.dev) (hlock : s'.pc.Locking c.ring) : s'.Rotating c := by
  obtain ⟨hwalk, htear, hun, -⟩ := VerbPc.readies_spec hr
  obtain ⟨hwalk', htear', -, -⟩ := VerbPc.readies_spec hr'
  have hz := h.unmapped hun
  refine ⟨h.turns, fun i _ => h.filled i (hwalk ▸ Nat.zero_le i), fun i _ => h.cleared i (.inl hz),
    fun hw => ?_, hlock, fun _ => hz, fun _ => h.ready hr, ?_, fun heq => ?_,
    .inr (hd ▸ h.owned_of htear)⟩
  · rw [hwalk', htear'] at hw
    rcases hw with hw | hw
    · exact absurd rfl hw
    · cases hw
  · revert hr'
    cases s'.pc <;> first | exact fun _ => rfl | nofun
  · rw [heq] at hr'
    cases hr'

theorem published (h : s.Rotating c) {args : MapArgs} (hpc : s.pc = .publish args) :
    (s.publishStep c args).Rotating (c.restart (c.ring.publish args.frameCount)) := by
  obtain ⟨hle, hf⟩ : args.frameCount ≤ maxVideoFrames ∧
    ∀ k < args.frameCount, (c.ring.frames k).mdl ≠ none := by simpa [hpc, VerbPc.Locking] using h.locking
  obtain ⟨hshots, -⟩ := h.ready (by rw [hpc]; rfl)
  have hz := h.unmapped (by rw [hpc]; rfl)
  refine .of_plain (h.turns.restart (r := c.ring.publish args.frameCount) hle rfl rfl fun _ => ?_) ?_ hf
    (fun _ i => h.cleared i (.inl hz)) ((h.owned_of (by rw [hpc]; rfl)).congr rfl rfl fun _ => Iff.rfl)
  · show Slot.Tallied { c.restart (c.ring.publish args.frameCount) with shots := c.shots }
    rw [hshots]
    exact ⟨rfl, rfl⟩
  · show VerbPc.plain (if _ then _ else _) = true
    split <;> rfl

theorem locked (h : s.Rotating c) (hph : s.Phased) {args : MapArgs} {i : ℕ} {mdl : Mdl}
    (hpc : s.pc = .lock args i mdl) :
    (s.setSlot (c.setRing (c.ring.setFrame i ⟨some mdl, .queued⟩)) (.allocate args (i + 1))).Rotating
      (c.setRing (c.ring.setFrame i ⟨some mdl, .queued⟩)) := by
  have hframe : ∀ k, (c.ring.setFrame i ⟨some mdl, .queued⟩).frames k =
      if k = i then ⟨some mdl, .queued⟩ else c.ring.frames k := fun k => Function.update_apply _ _ _ _
  have hin := h.none_inFlight hph (by rw [hpc]; rfl) (by rw [hpc]; rfl)
  have hz : c.ring.mappedFrameCount = 0 := h.unmapped (by rw [hpc]; rfl)
  obtain ⟨hlt, hle, hf⟩ : i < args.frameCount ∧ args.frameCount ≤ maxVideoFrames ∧
    ∀ k < i, (c.ring.frames k).mdl ≠ none := by simpa [hpc, VerbPc.Locking] using h.locking
  obtain ⟨hshots, htally⟩ := h.ready (by rw [hpc]; rfl)
  have hown := h.owned_of (by rw [hpc]; rfl)
  refine ⟨h.turns.keep rfl rfl rfl rfl (fun k hk => ?_) (fun k hk => ?_), fun k _ hk => ?_,
    fun k _ => ?_, fun hw => ?_, ⟨hlt, hle, fun k hk => ?_⟩, fun _ => hz,
    fun _ => ⟨hshots, htally.total, htally.current⟩, rfl, nofun, .inr (hown.setFrame (hin i) nofun)⟩
  · rw [hframe] at hk
    split at hk
    · exact absurd rfl hk
    · exact hk
  · rw [hframe] at hk
    split at hk
    · cases hk
    · exact absurd hk (hin k)
  · exact absurd (show k < c.ring.mappedFrameCount from hk) (by omega)
  · rw [Slot.setRing_ring, hframe]
    split
    · nofun
    · exact h.cleared k (.inl hz)
  · rcases hw with hw | hw
    · exact absurd rfl hw
    · cases hw
  · rw [Slot.setRing_ring, hframe]
    split
    · nofun
    · next hki => exact hf k (by omega)

end Rotating

def Turning (s : IoctlDevice) : Prop := ∀ c, s.slot = some c → s.Rotating c

namespace Turning
variable {s s' : IoctlDevice}

theorem does (h : s.Turning) (hph : s.Phased) {o : VerbAnswer} (hc : s.dev.ctl = .held)
    (hx : Does s o s.pc s') : s'.Turning := by
  intro c' hc'
  generalize hpc : s.pc = pc at hx
  cases hx with
  | ended hends =>
    refine (h c' hc').turn ?_ ?_ rfl rfl rfl
    all_goals
      rw [hpc]
      cases pc <;> first | rfl | cases hends
  | built =>
    cases hc'
    exact .of_plain (.fresh _ _) rfl (fun i hi => absurd hi (Nat.not_lt_zero i))
      (fun _ _ => by rintro ⟨⟩) fun _ => rfl
  | setOneShot hd | pump hd | start hd | listen hd | finish hd =>
    obtain ⟨ha, hdel⟩ := Device.calls_of_step hd rfl
    exact (h c' hc').turn (by rw [hpc]; rfl) (by rw [hpc]; rfl) rfl ha hdel
  | @stop next dev hd =>
    obtain ⟨ha, hdel⟩ := Device.calls_of_step hd rfl
    exact (h c' hc').turn (by rw [hpc]; rfl) (by rw [hpc]; rfl) (by cases next <;> rfl) ha hdel
  | @pumped next hp =>
    exact (h c' hc').turn (by rw [hpc]; rfl) (by rw [hpc]; rfl) (by cases next <;> rfl) rfl rfl
  | @setPumpRing c b hs =>
    have hr := h c hs
    cases hc'
    refine .of_plain (hr.turns.keep rfl rfl rfl rfl (fun _ => id) fun _ hi => ⟨hi, rfl⟩) ?_
      (fun i hi => hr.filled i (by rw [hpc]; exact Nat.zero_le i) hi)
      (fun hz i => hr.cleared i (.inl hz)) ((hr.owned.resolve_left ?_).congr rfl rfl fun _ => Iff.rfl)
    · cases b <;> rfl
    · rw [hpc]
      rintro ⟨⟨⟩, -⟩
  -- delivered marks turn queued; a mark in flight stays, so the engine keeps its frames
  | @requeue c next hs =>
    have hr := h c hs
    cases hc'
    have hstate := c.ring.framesRequeue_state
    have hmdl : ∀ i, (c.ring.framesRequeue.frames i).mdl = (c.ring.frames i).mdl := fun i => by
      simp only [Ring.framesRequeue]
      split <;> rfl
    refine .of_plain (hr.turns.keep rfl rfl rfl rfl (fun i hi hq => hi ?_) fun i hi => ⟨?_, hmdl i⟩) rfl
      (fun i hi => ?_) (fun hz i => ?_) ((hr.owned.resolve_left ?_).congr rfl rfl fun i => ?_)
    · rw [hstate, hq, if_neg fun hn => by cases hn.2]
    · rw [hstate] at hi
      split at hi
      · cases hi
      · exact hi
    · rw [Slot.setRing_ring, hmdl]
      exact hr.filled i (by rw [hpc]; exact Nat.zero_le i) hi
    · rw [Slot.setRing_ring, hstate]
      split
      · rintro ⟨⟩
      · exact hr.cleared i (.inl hz)
    · rw [hpc]
      rintro ⟨⟨⟩, -⟩
    · rw [Slot.setRing_ring, hstate]
      split
      · next hq => simp [hq.2]
      · rfl
  -- the walk over the ring begins, and whether it forces is settled here
  | quarantine =>
    have hr := h c' hc'
    have hown : c'.Owned s.dev.eng := hr.owned.resolve_left (by rw [hpc]; rintro ⟨⟨⟩, -⟩)
    cases hq : s.dev.eng.cap.hasQuarantinedFrames with
    | false => exact hr.turn (by rw [hpc]; rfl) (by rw [hpc]; rfl) rfl rfl rfl
    | true =>
      refine ⟨hr.turns, fun i _ => hr.filled i (by rw [hpc]; exact Nat.zero_le i), fun i hi => ?_,
        fun _ => hc, trivial, (by rintro ⟨⟩), (by rintro ⟨⟩), rfl, fun heq => ?_, .inl ⟨rfl, hq⟩⟩
      · exact hr.cleared i (hi.imp id fun hlt => absurd hlt (Nat.not_lt_zero i))
      · cases heq
        exact ⟨hq, _, rfl⟩
  | @unmapEmpty c i force next hs hi hm =>
    cases hc'
    exact (h c hs).unmapFrame hc hpc (.inr fun hin => (h c hs).turns.backed i hin hm)
  | unmapHeld hs hi hm hq => exact (h c' hc').unmapHeld hph hc hpc hq
  -- without force a frame is unmapped only where the engine does not hold its buffer
  | @unmapFrame c i force next mdl hs hi hm hq =>
    cases hc'
    refine Rotating.setMdls (s := s.setSlot _ _) ((h c hs).unmapFrame hc hpc ?_) _
    cases force with
    | true => exact .inl rfl
    | false =>
      have hown : c.Owned s.dev.eng := (h c hs).owned.resolve_left (by rw [hpc]; rintro ⟨⟨⟩, -⟩)
      have hheld := hph.held hc (hpc ▸ VerbPc.walks_of_unmap i false next) i
      rw [quarantinedCount_eq_zero (hq.resolve_left (by rintro ⟨⟩)), Nat.add_zero] at hheld
      exact .inr (hown.not_inFlight hheld)
  | @unmapDone c i force next hs hi =>
    obtain ⟨c₁, hc₁, hr⟩ := (h c hs).unmapDone hc hpc hi
    rw [hc'] at hc₁
    cases hc₁
    exact hr
  | @validated c args hs hpos hle =>
    exact (h c' hc').readied (by rw [hpc]; rfl) rfl rfl
      ⟨Nat.zero_le _, hle, fun i hi => absurd hi (Nat.not_lt_zero i)⟩
  | @allocated args i hi =>
    have hr := h c' hc'
    obtain ⟨-, hle, hf⟩ : i ≤ args.frameCount ∧ args.frameCount ≤ maxVideoFrames ∧
      ∀ k < i, (c'.ring.frames k).mdl ≠ none := by simpa [hpc, VerbPc.Locking] using hr.locking
    exact hr.readied (by rw [hpc]; rfl) rfl rfl ⟨hi, hle, hf⟩
  -- the frames locked so far are the ones that the failed map counts and walks back over
  | @notAllocated c args i hs hi =>
    obtain ⟨-, hle, hf⟩ : i ≤ args.frameCount ∧ args.frameCount ≤ maxVideoFrames ∧
      ∀ k < i, (c.ring.frames k).mdl ≠ none := by simpa [hpc, VerbPc.Locking] using (h c hs).locking
    exact (h c hs).mapFailed (by rw [hpc]; rfl) (hi.le.trans hle) hf _ _ hc'
  | @allLocked args i hi =>
    have hr := h c' hc'
    obtain ⟨-, hle, hf⟩ : i ≤ args.frameCount ∧ args.frameCount ≤ maxVideoFrames ∧
      ∀ k < i, (c'.ring.frames k).mdl ≠ none := by simpa [hpc, VerbPc.Locking] using hr.locking
    exact hr.readied (by rw [hpc]; rfl) rfl rfl ⟨hle, fun k hk => hf k (hk.trans_le hi)⟩
  | @locked c args i mdl hs =>
    cases hc'
    exact .setMdls (s := s.setSlot _ _) ((h c hs).locked hph hpc) _
  | @notLocked c args i mdl hs =>
    obtain ⟨hlt, hle, hf⟩ : i < args.frameCount ∧ args.frameCount ≤ maxVideoFrames ∧
      ∀ k < i, (c.ring.frames k).mdl ≠ none := by simpa [hpc, VerbPc.Locking] using (h c hs).locking
    exact ((h c hs).setMdls _).mapFailed (by rw [← hpc.symm]; rfl) (hlt.le.trans hle) hf _ _ hc'
  | published hs =>
    cases hc'
    exact (h _ hs).published hpc
  | @events c pc pc' a events hs ht he =>
    cases hc'
    have hr : s.Rotating { c with events } := (h c hs).congr (ht.ring he) rfl rfl
    cases ht with
    -- a release flushes the events behind the walk, when no frame is left
    | flushed | dropped | allDropped =>
      have hz := hr.unmapped (by rw [hpc]; rfl)
      refine ⟨hr.turns, fun i _ hi => absurd (hz ▸ hi) (Nat.not_lt_zero i),
        fun i _ => hr.cleared i (.inl hz), fun _ => hc, trivial, fun _ => hz,
        (by rintro ⟨⟩), rfl, (by rintro _ _ ⟨⟩),
        hr.owned.imp (fun hq => ⟨rfl, hq.2⟩) fun ho => ho.congr rfl rfl fun _ => Iff.rfl⟩
    | _ => exact hr.turn (by rw [hpc]; rfl) (by rw [hpc]; rfl) rfl rfl rfl
  | destroy => cases hc'

theorem takes (h : s.Turning) (hph : s.Phased) {a : Act} (hn : s.NoLateClaim a) (hx : Takes s a s') :
    s'.Turning := by
  intro c' hc'
  cases hx with
  | @slotDev a dev slot hp ha hf =>
    have hmap := (Device.Feeds.of_feed hf).mapped
    rw [show slot = some c' from hc'] at hmap
    obtain ⟨c, hc, -⟩ := Option.map_eq_some_iff.mp hmap.symm
    exact (h c hc).slotDev hph hc hp ha hn hf hc'
  | pinDev hp =>
    cases (hph.pin hp).symm.trans hc'
  | same => exact h c' hc'
  | enters hu he hd =>
    obtain ⟨ha, hdel⟩ := Device.calls_of_step hd rfl
    exact (h c' hc').turn (by rw [hu.1]; rfl) (by rw [hu.1]; rfl)
      (he.entry.atRest (by rw [show s.slot = some c' from hc']; rintro ⟨⟩)) ha hdel
  | verb hc hx => exact h.does hph hc hx c' hc'
  | @signal a x c events hc hsig he =>
    have hring : events.ring = c.events.ring := by
      obtain ⟨n, e, rest, rfl | rfl⟩ := hsig <;>
      · simp only [Events.step] at he
        split at he <;> cases he
        rfl
    cases hc'
    have hr : s.Rotating { c with events } := (h c hc).congr hring rfl rfl
    exact ⟨hr.turns, hr.filled, hr.cleared, hr.walks, hr.locking, hr.unmapped, hr.ready, hr.slotted,
      hr.forced, hr.owned⟩
  | removed hu hd hd' =>
    obtain ⟨ha, hdel⟩ := Device.calls_of_step hd rfl
    obtain ⟨ha', hdel'⟩ := Device.calls_of_step hd' rfl
    exact (h c' hc').turn (by rw [hu.1]; rfl) (by rw [hu.1]; rfl) rfl (ha'.trans ha) (hdel'.trans hdel)
  | pinOpened hu hs => cases hs.symm.trans hc'
  | pinClosed hp => cases (hph.pin hp).symm.trans hc'

theorem of_reaches (h : machine.Reaches NoLateClaim s) : s.Turning := by
  refine h.invariant (I := Turning) (fun c hc => by cases hc) ?_
  intro s a s' hr hi hn hs
  exact hi.takes (.of_reaches hr) hn (.of_step hs)

end Turning

/-- A step that hands a delivered frame `i` back: the requeue of a video start or of a
trigger, and the unmap of the frame. -/
def HandsBack (s : IoctlDevice) (i : ℕ) : Act → Prop
  | .verb _ => s.pc = .requeue .start ∨ s.pc = .requeue .arm ∨ ∃ force next, s.pc = .unmap i force next
  | _ => False

/-- Frame `i` is delivered, and the engine has acquired it `n` times. -/
def Delivered (s : IoctlDevice) (i n : ℕ) : Prop :=
  ∃ c, s.slot = some c ∧ (c.ring.frames i).state = .delivered ∧ s.dev.eng.acquired.count i = n

namespace Delivered
variable {s s' : IoctlDevice} {i n : ℕ}

theorem feed (h : s.Delivered i n) (hph : s.Phased) (ht : s.Turning) {a : Device.Act} {dev : Device}
    {slot : Option Slot} (hr' : Engine.machine.Reachable dev.eng)
    (hf : s.dev.feed Slot.callbacks s.slot a = some (dev, slot)) : Delivered { s with dev, slot } i n := by
  obtain ⟨c, hc, hi, hn⟩ := h
  rcases (ht c hc).calm hph hf with ⟨-, hsame, hacq, -⟩ | ⟨-, htear, -⟩
  · exact ⟨c, hsame.trans hc, hi, (congrArg _ hacq).trans hn⟩
  rw [hc] at hf
  have hfeeds := Device.Feeds.of_feed hf
  cases hfeeds with
  | @acquires answer hans _ ha =>
    obtain ⟨hacq, hcookie, hnew⟩ := Slot.acquire_some hans
    have hne : i ≠ c.ring.nextSubmitIndex := by
      rintro rfl
      rw [hacq.2.2] at hi
      cases hi
    refine ⟨_, congrArg some hnew, ?_, ?_⟩
    · exact (congrArg RingFrame.state (Function.update_of_ne hne _ _)).trans hi
    · show dev.eng.acquired.count i = n
      rw [ha, hcookie, List.count_append, List.count_singleton, hn,
        if_neg (by simpa using fun heq => hne heq.symm), Nat.add_zero]
  | finds hans ha => exact ⟨c, congrArg some (c.acquire_none hans), hi, (congrArg _ ha).trans hn⟩
  | @delivers d hq ha hd =>
    have hin := ((ht c hc).owned_of htear).inFlight_of_delivers hr' ha hd
    have hlt := (ht c hc).turns.limit d.cookie (by rw [hin]; nofun)
    have hindex : Ring.index d.cookie = d.cookie := Nat.mod_eq_of_lt (hlt.trans (by decide))
    have hne : i ≠ d.cookie := by
      rintro rfl
      rw [hin] at hi
      cases hi
    refine ⟨_, rfl, ?_, (congrArg _ ha).trans hn⟩
    rw [Slot.deliver_ring, Ring.framesDeliver_state _ _ _ (by rwa [hindex]), hindex, if_neg hne]
    exact hi
  | silent ha => exact ⟨c, rfl, hi, (congrArg _ ha).trans hn⟩

theorem does (h : s.Delivered i n) (ht : s.Turning) {o : VerbAnswer} (hb : ¬s.HandsBack i (.verb o))
    (hx : Does s o s.pc s') : s'.Delivered i n := by
  obtain ⟨c, hc, hi, hn⟩ := h
  have hr := ht c hc
  have hno : c.ring.mappedFrameCount ≠ 0 := fun hz => hr.cleared i (.inl hz) hi
  generalize hpc : s.pc = pc at hx
  -- frame `i` is delivered, so the ring has frames and the call is at no point past a walk
  have hmapped : pc.unmapped = false := by
    rw [← hpc]
    by_contra hu
    exact hno (hr.unmapped (by simpa using hu))
  cases hx with
  | ended | pumped | quarantine | unmapHeld => exact ⟨c, hc, hi, hn⟩
  | built =>
    have := hr.slotted
    rw [hpc] at this
    cases this
  | setOneShot hd | pump hd | start hd | stop hd | listen hd | finish hd =>
    exact ⟨c, hc, hi, (congrArg _ (Device.calls_of_step hd rfl).1).trans hn⟩
  | setPumpRing hs =>
    cases hc.symm.trans hs
    exact ⟨_, rfl, hi, hn⟩
  | @requeue _ next hs =>
    cases next with
    | start => exact absurd (.inl hpc) hb
    | arm => exact absurd (.inr (.inl hpc)) hb
    | mapped =>
      have := hr.slotted
      rw [hpc] at this
      cases this
  | @unmapEmpty _ j force next hs | @unmapFrame _ j force next _ hs =>
    cases hc.symm.trans hs
    -- the walk is at another frame
    have hne : i ≠ j := by
      rintro rfl
      exact hb (.inr (.inr ⟨force, next, hpc⟩))
    exact ⟨_, rfl, (congrArg RingFrame.state (Function.update_of_ne hne _ _)).trans hi, hn⟩
  | unmapDone hs =>
    cases hc.symm.trans hs
    exact ⟨_, rfl, hi, hn⟩
  | events hs hturn he =>
    cases hc.symm.trans hs
    exact ⟨_, rfl, (congrArg (fun r : Ring => (r.frames i).state) (hturn.ring he)).trans hi, hn⟩
  | _ => cases hmapped

theorem step (h : s.Delivered i n) (hph : s.Phased) (ht : s.Turning) (hph' : s'.Phased) {a : Act}
    (hb : ¬s.HandsBack i a) (hx : Takes s a s') : s'.Delivered i n := by
  cases hx with
  | slotDev hp ha hf => exact h.feed hph ht hph'.sound.engine hf
  | pinDev hp =>
    obtain ⟨c, hc, -⟩ := h
    cases (hph.pin hp).symm.trans hc
  | same => exact h
  | enters hu he hd =>
    obtain ⟨c, hc, hi, hn⟩ := h
    exact ⟨c, hc, hi, (congrArg _ (Device.calls_of_step hd rfl).1).trans hn⟩
  | verb hc hx => exact h.does ht hb hx
  | signal hc hsig he =>
    obtain ⟨c, hc', hi, hn⟩ := h
    cases hc'.symm.trans hc
    refine ⟨_, rfl, ?_, hn⟩
    obtain ⟨n, e, rest, rfl | rfl⟩ := hsig <;>
    · simp only [Events.step] at he
      split at he <;> cases he
      exact hi
  | removed hu hd hd' =>
    obtain ⟨c, hc, hi, hn⟩ := h
    exact ⟨c, hc, hi, (congrArg _ ((Device.calls_of_step hd' rfl).1.trans
      (Device.calls_of_step hd rfl).1)).trans hn⟩
  | pinOpened hu hs =>
    obtain ⟨c, hc, -⟩ := h
    cases hs.symm.trans hc
  | pinClosed hp =>
    obtain ⟨c, hc, -⟩ := h
    cases (hph.pin hp).symm.trans hc

theorem stays (h : s.Delivered i n) (hr : machine.Reaches NoLateClaim s)
    (ht : Machine.Reaches ⟨s, IoctlDevice.step⟩ (fun t a => t.NoLateClaim a ∧ ¬t.HandsBack i a) s') :
    s'.Delivered i n := by
  induction ht with
  | init => exact h
  | step hreach hp hs ih =>
    have hr₁ := hr.trans hreach fun _ _ hq => hq.1
    exact ih.step (.of_reaches hr₁) (.of_reaches hr₁) (.of_reaches (hr₁.step hp.1 hs)) hp.2 (.of_step hs)

end Delivered

/-- In every run in which no frame callback takes the last attached descriptor late, the
ring turns in the order of its indices, the frames in flight are those that the engine
holds, and the counters tell the deliveries while frames are mapped. -/
theorem ring_rotation {s : IoctlDevice} (h : machine.Reaches NoLateClaim s) {c : Slot}
    (hc : s.slot = some c) :
    (c.ring.mappedFrameCount ≠ 0 → c.ring.nextSubmitIndex < c.ring.mappedFrameCount) ∧
      (s.pc.tearing = true ∧ s.dev.eng.cap.hasQuarantinedFrames = true ∨ ∀ i,
        ((c.ring.frames i).state = .inFlight ↔ s.dev.eng.heldCount i ≠ 0) ∧
          s.dev.eng.heldCount i ≤ 1) ∧
      c.taken = (List.range c.taken.length).map (· % c.ring.mappedFrameCount) ∧
      (c.ring.mappedFrameCount ≠ 0 → c.Tallied) ∧
      ∀ i, (c.ring.frames i).state = .delivered → ∀ s', Machine.Reaches ⟨s, step⟩
        (fun t a => t.NoLateClaim a ∧ ¬t.HandsBack i a) s' →
          s'.Delivered i (s.dev.eng.acquired.count i) := by
  have hr := Turning.of_reaches h c hc
  have he := (Phased.of_reaches h).sound.engine
  refine ⟨fun hz => ?_, ?_, hr.turns.taken, hr.turns.tally, fun i hi s' hs' => ?_⟩
  · rw [hr.turns.next]
    exact Nat.mod_lt _ (Nat.pos_of_ne_zero hz)
  · refine hr.owned.imp id fun ho i => ?_
    have hi := ho i
    rw [Engine.heldCount_eq he i] at hi
    by_cases hin : (c.ring.frames i).state = .inFlight
    · rw [if_pos hin] at hi
      exact ⟨iff_of_true hin (by omega), by omega⟩
    · rw [if_neg hin] at hi
      exact ⟨iff_of_false hin (by omega), by omega⟩
  · exact Delivered.stays ⟨c, hc, hi, rfl⟩ h hs'

def Act.goes : Act := .verb ⟨true, statusSuccess, true, 8, statusSuccess⟩

def engineRun (as : List Device.Act) : List Act := as.map .dev

theorem step_unmap {s : IoctlDevice} {c : Slot} {i : ℕ} {force : Bool} {next : UnmapNext}
    (o : VerbAnswer) (hc : s.dev.ctl = .held) (hs : s.slot = some c) (hpc : s.pc = .unmap i force next) :
    s.step (.verb o) = some (s.unmapStep c i force next) := by
  simp only [step, if_pos hc, verbStep, hpc, hs, Option.bind_some, slotStep]

theorem reaches_walk {P : IoctlDevice → Act → Prop} {s : IoctlDevice} {c : Slot} {force : Bool}
    {next : UnmapNext} (o : VerbAnswer) (hP : ∀ j, P (s.goto (.unmap j force next)) (.verb o))
    (hc : s.dev.ctl = .held)
    (hs : s.slot = some c) {i : ℕ} (hpc : s.pc = .unmap i force next) (h : machine.Reaches P s)
    (hb : ∀ k < maxVideoFrames, i ≤ k → c.ring.frames k = ⟨none, .queued⟩) (n : ℕ)
    (hn : i + n ≤ maxVideoFrames) : machine.Reaches P (s.goto (.unmap (i + n) force next)) := by
  induction n with
  | zero =>
    rw [Nat.add_zero, ← hpc]
    exact h
  | succ n ih =>
    have hlt : i + n < maxVideoFrames := by omega
    have hk := hb (i + n) hlt (Nat.le_add_right i n)
    refine (ih hlt.le).step (hP _) ?_
    have hring : c.setRing (c.ring.unmapFrame (i + n)) = c := by
      have hsame : Function.update c.ring.frames (i + n) ⟨none, .queued⟩ = c.ring.frames := by
        rw [← hk, Function.update_eq_self]
      show { c with events := { c.events with ring := { c.ring with
        frames := Function.update c.ring.frames (i + n) ⟨none, .queued⟩ } } } = c
      rw [hsame]
      rfl
    refine (step_unmap (s := s.goto (.unmap (i + n) force next)) o hc hs rfl).trans ?_
    unfold unmapStep
    rw [if_pos hlt, hk]
    dsimp only
    rw [hring]
    show some { s with slot := some c, pc := .unmap (i + n + 1) force next } = _
    rw [← hs]
    rfl

def prepareRun : List Act :=
  [.request 1 .met (.prepareVideo 1), .goes, .goes, .request 1 .met (.mapVideoFrame ⟨1, 8, 0⟩)]

/-- The map's walk over the empty ring is through. -/
def mapping : IoctlDevice :=
  (machine.after NoLateClaim prepareRun).goto (.unmap maxVideoFrames false (.map ⟨1, 8, 0⟩))

theorem mapping_reaches : machine.Reaches NoLateClaim mapping := by
  have hr := machine.reaches_after NoLateClaim prepareRun
  have hs : (machine.after NoLateClaim prepareRun).slot = some (.fresh 1 8) := rfl
  exact reaches_walk ⟨true, statusSuccess, true, 8, statusSuccess⟩ (fun _ => trivial) (by decide) hs
    (by decide) hr (fun _ _ _ => rfl) maxVideoFrames (Nat.zero_add _).le

/-- The frame is mapped, the video is started in single-frame mode, and the engine
delivers the frame. -/
def shotRun : List Act :=
  List.replicate 7 Act.goes ++ .request 1 .met (.startVideo 0) :: List.replicate 4 Act.goes ++
    engineRun [.runs (.pump .handler .elect), .runs (.pump .handler .top),
      .runs (.pump .handler (.claim 0)), .runs (.pump .handler .bottom)] ++ [Act.goes, .goes] ++
    engineRun (List.replicate 11 Device.Act.go ++ Device.lapRun .control 0 1 0 ++
      [Device.Act.runs (.attachAtBus 0), .runs (.attachComplete 0 statusSuccess 0), .runs (.attachLive true),
        .runs (.requestWork .completion .exchange), .runs (.requestWork .completion .acquireLock),
        .runs (.requestWork .completion .queue), .runs .irpDone, .runs .irpDoneTest] ++
      List.replicate 8 Device.Act.go) ++ [Act.goes, .goes] ++
    engineRun [.callback 0 statusSuccess, .runs (.beginDetach .handler 0), .runs (.detachAtBus 0),
      .runs (.detachComplete 0 statusSuccess 0 8 statusSuccess), .runs (.detachDeliver 0 8 statusSuccess)]

def shot : IoctlDevice := Machine.after ⟨mapping, step⟩ NoLateClaim shotRun

theorem ring_rotation_shot : ∃ c, shot.slot = some c ∧ (c.ring.frames 0).state = .delivered ∧
    c.taken = [0] ∧ c.taken = (List.range c.taken.length).map (· % c.ring.mappedFrameCount) := by
  have h : (shot.slot.any fun c => (c.ring.frames 0).state = .delivered ∧ c.taken = [0]) = true := by
    decide +kernel
  obtain ⟨c, hc, hi⟩ := (Option.any_eq_true _ _).mp h
  obtain ⟨hi, ht⟩ : (c.ring.frames 0).state = .delivered ∧ c.taken = [0] := by simpa using hi
  have hr := mapping_reaches.trans (Machine.reaches_after (M := ⟨mapping, step⟩) NoLateClaim shotRun)
    fun _ _ => id
  exact ⟨c, hc, hi, ht, (ring_rotation hr hc).2.2.1⟩

/-- The lap behind the delivery finds nothing queued, and a verb of the owner stops the
stream. -/
def stopRun (verb : Verb) : List Act :=
  engineRun [.runs (.pump .completion .elect), .runs (.pump .completion .top),
    .runs (.pump .completion (.claim 0)), .runs (.pump .completion (.acquire 0 1)),
    .runs (.pump .completion (.giveBack 1)), .runs (.pump .completion .bottom), .runs .irpDone] ++
    [Act.request 1 .met verb, .goes] ++ engineRun (List.replicate 25 Device.Act.go) ++ [Act.goes]

def unmapRun : List Act := stopRun .unmapVideoFrame

def unmapping : IoctlDevice := Machine.after ⟨mapping, step⟩ NoLateClaim (shotRun ++ unmapRun)

/-- An unmap resets the counters of the deliveries since the map. -/
theorem tally_reset : ¬∀ s c, machine.Reaches NoLateClaim s → s.slot = some c → c.Tallied := by
  intro h
  have hx : (unmapping.slot.any fun c => c.shots = [0] ∧
      ∀ k < maxVideoFrames, 1 ≤ k → c.ring.frames k = ⟨none, .queued⟩) = true := by decide +kernel
  obtain ⟨c, hc, hx⟩ := (Option.any_eq_true _ _).mp hx
  obtain ⟨hshots, hb⟩ : c.shots = [0] ∧
    ∀ k < maxVideoFrames, 1 ≤ k → c.ring.frames k = ⟨none, .queued⟩ := by simpa using hx
  have hr := mapping_reaches.trans (Machine.reaches_after (M := ⟨mapping, step⟩) NoLateClaim
    (shotRun ++ unmapRun)) fun _ _ => id
  have hheld : unmapping.dev.ctl = .held := by decide +kernel
  have hw := reaches_walk ⟨true, statusSuccess, true, 8, statusSuccess⟩ (fun _ => trivial) hheld hc
    (show unmapping.pc = .unmap 1 false .unmapped by decide +kernel) hr hb 255 (by decide)
  have hdone := step_unmap (s := unmapping.goto (.unmap (1 + 255) false .unmapped))
    ⟨true, statusSuccess, true, 8, statusSuccess⟩ hheld hc rfl
  have htally := (h _ _ (hw.step (a := Act.goes) trivial hdone) rfl).total
  rw [show Slot.shots { c.restart c.ring.reset with shots := c.shots } = [0] from hshots] at htally
  cases htally

end IoctlDevice
end Photonic
