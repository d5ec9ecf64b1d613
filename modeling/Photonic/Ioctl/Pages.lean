import Photonic.Ioctl.Rotation

namespace Photonic

/-- The MDL of a ring index. -/
def Slot.mdl (c : Slot) (i : ℕ) : Option Mdl := (c.ring.frames i).mdl

section
variable (c : Slot) (i : ℕ)

theorem Ring.framesRequeue_mdl (r : Ring) : (r.framesRequeue.frames i).mdl = (r.frames i).mdl := by
  simp only [framesRequeue]
  split <;> rfl

theorem Slot.acquire_mdl : c.acquire.2.mdl i = c.mdl i := by
  unfold acquire Ring.framesAcquire
  split
  · rfl
  · next heq =>
    split at heq <;> cases heq
    show ((c.ring.setState c.ring.nextSubmitIndex .inFlight).frames i).mdl = c.mdl i
    rw [Ring.setState_frames, Function.update_apply]
    split
    · next hi =>
      subst hi
      rfl
    · rfl

theorem Slot.deliver_mdl (b : Bool) (d : Delivery) : (c.deliver b d).mdl i = c.mdl i := by
  unfold mdl
  rw [deliver_ring, Ring.framesDeliver_mdl]

end

def VerbPc.empties : VerbPc → ℕ → Bool
  | .unmap i _ next, j =>
    match next with
    | .unmapped => false
    | .map _ | .mapFailed _ _ | .release _ => j < i
  | .validate _, _ => true
  | .allocate _ i, j => i ≤ j
  | .lock _ i _, j => i ≤ j
  | .flush _, _ | .flushing _, _ | .destroy _, _ | .build _, _ => true
  | _, _ => false

def VerbPc.unforced : VerbPc → Bool
  | .unmap _ force next =>
    match next with
    | .release _ => !force
    | _ => false
  | _ => false

def VerbPc.mapCount : VerbPc → ℕ
  | .allocate args _ | .lock args _ _ => args.frameCount
  | _ => 0

def VerbPc.hand : VerbPc → Option ℕ
  | .lock _ _ mdl => some mdl.id
  | _ => none

namespace IoctlDevice

/-- The MDL the ring records at an index. -/
def ringMdl (s : IoctlDevice) (i : ℕ) : Option Mdl := s.slot.bind (·.mdl i)

/-- What was done with an MDL fits where it is: not yet locked in a map's hand, locked in the ring, or
freed. -/
structure Pages (s : IoctlDevice) : Prop where
  fresh : ∀ id, s.mdls.next ≤ id → s.mdls.history id = []
  hand : ∀ id, s.pc.hand = some id ↔ id < s.mdls.next ∧ s.mdls.history id = []
  locked : ∀ id, s.mdls.history id = [.lock] ↔ ∃ i m, s.ringMdl i = some m ∧ m.id = id
  states : ∀ id, s.mdls.history id = [] ∨ s.mdls.history id = [.lock] ∨
    s.mdls.history id = [.lock, .unlock, .free] ∨ s.mdls.history id = [.free]
  inj : ∀ i j m m', s.ringMdl i = some m → s.ringMdl j = some m' → m.id = m'.id → i = j
  bound : ∀ i m, s.ringMdl i = some m → i < maxVideoFrames
  empty : ∀ i, s.pc.empties i = true → s.ringMdl i = none
  unforced : s.pc.unforced = true → s.dev.ctl = .held ∧ s.dev.eng.cap.hasQuarantinedFrames = false
  count : s.pc.mapCount ≤ maxVideoFrames
  index : ∀ args i mdl, s.pc = .lock args i mdl → i < args.frameCount

theorem feeds_mdl {d d' : Device} {f f' : Option Slot} (h : Device.Feeds Slot.callbacks d d' f f')
    (i : ℕ) : (f'.bind fun c => c.mdl i) = f.bind fun c => c.mdl i := by
  cases h with
  | acquires | finds =>
    cases f with
    | none => rfl
    | some c => exact c.acquire_mdl i
  | delivers =>
    cases f with
    | none => rfl
    | some c => exact c.deliver_mdl i _ _
  | silent => rfl

namespace Pages
variable {s s' : IoctlDevice}

theorem turn (h : s.Pages) (hm : s'.mdls = s.mdls) (hr : ∀ i, s'.ringMdl i = s.ringMdl i)
    (hh : s'.pc.hand = s.pc.hand) (he : ∀ i, s'.pc.empties i = true → s.ringMdl i = none)
    (hu : s'.pc.unforced = true → s'.dev.ctl = .held ∧ s'.dev.eng.cap.hasQuarantinedFrames = false)
    (hc : s'.pc.mapCount ≤ maxVideoFrames)
    (hi : ∀ args i mdl, s'.pc = .lock args i mdl → i < args.frameCount) : s'.Pages where
  fresh := by
    rw [hm]
    exact h.fresh
  hand := by
    rw [hm, hh]
    exact h.hand
  locked := by
    simp only [hm, hr]
    exact h.locked
  states := by
    rw [hm]
    exact h.states
  inj := by
    simp only [hr]
    exact h.inj
  bound := by
    simp only [hr]
    exact h.bound
  empty i hi := (hr i).trans (he i hi)
  unforced := hu
  count := hc
  index := hi

theorem goOn (h : s.Pages) (hm : s'.mdls = s.mdls) (hr : ∀ i, s'.ringMdl i = s.ringMdl i)
    (hh : s.pc.hand = none) (hh' : s'.pc.hand = none) (he : ∀ i, s'.pc.empties i = false)
    (hu : s'.pc.unforced = false) (hc : s'.pc.mapCount = 0) : s'.Pages := by
  refine h.turn hm hr (hh'.trans hh.symm) ?_ ?_ (hc ▸ Nat.zero_le _) ?_
  · intro i hi
    rw [he i] at hi
    cases hi
  · intro hx
    rw [hu] at hx
    cases hx
  · intro args i mdl hpc
    rw [hpc] at hh'
    cases hh'

theorem unmaps (h : s.Pages) {i : ℕ} {mdl : Mdl} (hi : s.ringMdl i = some mdl)
    (hm : s'.mdls = s.mdls.record mdl.id [.unlock, .free])
    (hr : ∀ j, s'.ringMdl j = if j = i then none else s.ringMdl j)
    (hh : s.pc.hand = none) (hh' : s'.pc.hand = none)
    (he : ∀ j, s'.pc.empties j = true → j = i ∨ s.pc.empties j = true)
    (hu : s'.pc.unforced = true → s'.dev.ctl = .held ∧ s'.dev.eng.cap.hasQuarantinedFrames = false)
    (hc : s'.pc.mapCount ≤ maxVideoFrames) : s'.Pages := by
  -- an MDL in the ring has been locked and nothing else
  have hlock : s.mdls.history mdl.id = [.lock] := (h.locked mdl.id).mpr ⟨i, mdl, hi, rfl⟩
  have hlt : mdl.id < s.mdls.next := by
    by_contra hn
    rw [h.fresh mdl.id (Nat.le_of_not_lt hn)] at hlock
    cases hlock
  -- no frame but `i` loses its MDL
  have hsome : ∀ j m, s'.ringMdl j = some m → j ≠ i ∧ s.ringMdl j = some m := by
    intro j m hj
    rw [hr j] at hj
    split_ifs at hj with hji
    exact ⟨hji, hj⟩
  have hist : ∀ id, s'.mdls.history id =
      if id = mdl.id then [.lock, .unlock, .free] else s.mdls.history id := by
    intro id
    rw [hm]
    by_cases hid : id = mdl.id
    · subst hid
      simp [Mdls.record, hlock]
    · simp [Mdls.record, hid]
  have hnext : s'.mdls.next = s.mdls.next := by rw [hm]; rfl
  constructor
  · intro id hid
    rw [hnext] at hid
    rw [hist, if_neg (by omega)]
    exact h.fresh id hid
  · intro id
    rw [hh', hnext, hist]
    have := h.hand id
    rw [hh] at this
    split_ifs with hid
    · simp
    · simpa using this
  · intro id
    rw [hist]
    constructor
    · intro hx
      by_cases hid : id = mdl.id
      · rw [if_pos hid] at hx
        cases hx
      rw [if_neg hid] at hx
      obtain ⟨j, m, hj, hmid⟩ := (h.locked id).mp hx
      refine ⟨j, m, ?_, hmid⟩
      rw [hr, if_neg]
      · exact hj
      · rintro rfl
        rw [hi] at hj
        cases hj
        exact hid hmid.symm
    · rintro ⟨j, m, hj, hmid⟩
      obtain ⟨hji, hj⟩ := hsome j m hj
      rw [if_neg]
      · exact (h.locked id).mpr ⟨j, m, hj, hmid⟩
      · rintro rfl
        exact hji (h.inj j i m mdl hj hi hmid)
  · intro id
    rw [hist]
    split_ifs with hid
    · exact .inr (.inr (.inl rfl))
    · exact h.states id
  · intro j k m m' hj hk
    exact h.inj j k m m' (hsome j m hj).2 (hsome k m' hk).2
  · intro j m hj
    exact h.bound j m (hsome j m hj).2
  · intro j hj
    rw [hr]
    split_ifs with hji
    · rfl
    · exact h.empty j ((he j hj).resolve_left hji)
  · exact hu
  · exact hc
  · intro args j m hpc
    rw [hpc] at hh'
    cases hh'

theorem allocates (h : s.Pages) {args : MapArgs} {i : ℕ} (hpc : s.pc = .allocate args i)
    (hi : i < args.frameCount) :
    Pages { s with mdls := s.mdls.alloc, pc := .lock args i ⟨s.mdls.next, args.frameSize⟩ } := by
  have hnew : s.mdls.history s.mdls.next = [] := h.fresh _ le_rfl
  constructor
  · intro id hid
    exact h.fresh id (Nat.le_of_succ_le hid)
  · intro id
    have hold := h.hand id
    rw [hpc] at hold
    simp only [VerbPc.hand, Option.some.injEq, Mdls.alloc, reduceCtorEq, false_iff, not_and] at hold ⊢
    constructor
    · rintro rfl
      exact ⟨Nat.lt_succ_self _, hnew⟩
    · rintro ⟨hlt, hid⟩
      by_contra hne
      exact hold (by omega) hid
  · exact h.locked
  · exact h.states
  · exact h.inj
  · exact h.bound
  · intro j hj
    apply h.empty j
    rw [hpc]
    exact hj
  · intro hx
    cases hx
  · have := h.count
    rw [hpc] at this
    exact this
  · rintro _ _ _ ⟨⟩
    exact hi

theorem hand_of_record {id : ℕ} {ops : List MdlOp} (h : s.Pages) {args : MapArgs} {i : ℕ} {mdl : Mdl}
    (hpc : s.pc = .lock args i mdl) (hops : ops ≠ []) :
    id < s.mdls.next ∧ (s.mdls.record mdl.id ops).history id = [] ↔ False := by
  have hhand := h.hand
  rw [hpc] at hhand
  simp only [iff_false, not_and]
  intro hlt hid
  by_cases hne : id = mdl.id
  · subst hne
    simp only [Mdls.record, Function.update_self, List.append_eq_nil_iff] at hid
    exact hops hid.2
  · simp only [Mdls.record, Function.update_of_ne hne] at hid
    have := (hhand id).mpr ⟨hlt, hid⟩
    simp only [VerbPc.hand, Option.some.injEq] at this
    exact hne this.symm

theorem locks (h : s.Pages) {args : MapArgs} {i : ℕ} {mdl : Mdl} (hpc : s.pc = .lock args i mdl)
    (hm : s'.mdls = s.mdls.record mdl.id [.lock])
    (hr : ∀ j, s'.ringMdl j = if j = i then some mdl else s.ringMdl j)
    (hpc' : s'.pc = .allocate args (i + 1)) : s'.Pages := by
  obtain ⟨hlt, hnil⟩ := (h.hand mdl.id).mp (by rw [hpc]; rfl)
  have hi := h.index args i mdl hpc
  have hcount := h.count
  have hempty := h.empty
  rw [hpc] at hcount hempty
  have hother : ∀ id, id ≠ mdl.id → s'.mdls.history id = s.mdls.history id := by
    intro id hid
    rw [hm]
    exact Function.update_of_ne hid _ _
  have hself : s'.mdls.history mdl.id = [.lock] := by simp [hm, Mdls.record, hnil]
  have hnext : s'.mdls.next = s.mdls.next := by rw [hm]; rfl
  -- the MDL in hand has no history yet, so no frame of the ring refers to it
  have hnone : ∀ j m, s.ringMdl j = some m → m.id ≠ mdl.id := by
    intro j m hj hid
    have := (h.locked mdl.id).mpr ⟨j, m, hj, hid⟩
    rw [hnil] at this
    cases this
  constructor
  · intro id hid
    rw [hnext] at hid
    rw [hother id (by rintro rfl; omega)]
    exact h.fresh id hid
  · intro id
    rw [hpc', hm, show id < (s.mdls.record mdl.id [.lock]).next ∧ _ ↔ False from
      h.hand_of_record hpc (by simp)]
    simp [VerbPc.hand]
  · intro id
    simp only [hr]
    by_cases hid : id = mdl.id
    · subst hid
      exact iff_of_true hself ⟨i, mdl, by simp, rfl⟩
    · rw [hother id hid, h.locked id]
      constructor
      · rintro ⟨j, m, hj, hmid⟩
        refine ⟨j, m, ?_, hmid⟩
        rw [if_neg]
        · exact hj
        · rintro rfl
          rw [hempty j (by simp [VerbPc.empties])] at hj
          cases hj
      · rintro ⟨j, m, hj, hmid⟩
        split_ifs at hj with hji
        · cases hj
          exact absurd hmid.symm hid
        · exact ⟨j, m, hj, hmid⟩
  · intro id
    by_cases hid : id = mdl.id
    · subst hid
      exact .inr (.inl hself)
    · rw [hother id hid]
      exact h.states id
  · intro j k m m' hj hk hmid
    rw [hr] at hj hk
    split_ifs at hj hk with hji hki hki
    · rw [hji, hki]
    · cases hj
      exact absurd hmid.symm (hnone k m' hk)
    · cases hk
      exact absurd hmid (hnone j m hj)
    · exact h.inj j k m m' hj hk hmid
  · intro j m hj
    rw [hr] at hj
    split_ifs at hj with hji
    · rw [hji]
      exact lt_of_lt_of_le hi hcount
    · exact h.bound j m hj
  · intro j hj
    rw [hpc'] at hj
    have hlt : i + 1 ≤ j := by simpa [VerbPc.empties] using hj
    rw [hr, if_neg (by omega)]
    exact hempty j (by simp [VerbPc.empties]; omega)
  · intro hx
    rw [hpc'] at hx
    cases hx
  · rw [hpc']
    exact hcount
  · intro args' j m hx
    rw [hpc'] at hx
    cases hx

theorem notLocks (h : s.Pages) {args : MapArgs} {i : ℕ} {mdl : Mdl} (hpc : s.pc = .lock args i mdl)
    (hm : s'.mdls = s.mdls.record mdl.id [.free]) (hr : ∀ j, s'.ringMdl j = s.ringMdl j)
    (hh : s'.pc.hand = none) (he : ∀ j, s'.pc.empties j = false) (hu : s'.pc.unforced = false)
    (hc : s'.pc.mapCount = 0) : s'.Pages := by
  obtain ⟨hlt, hnil⟩ := (h.hand mdl.id).mp (by rw [hpc]; rfl)
  have hother : ∀ id, id ≠ mdl.id → s'.mdls.history id = s.mdls.history id := by
    intro id hid
    rw [hm]
    exact Function.update_of_ne hid _ _
  have hself : s'.mdls.history mdl.id = [.free] := by simp [hm, Mdls.record, hnil]
  have hnext : s'.mdls.next = s.mdls.next := by rw [hm]; rfl
  constructor
  · intro id hid
    rw [hnext] at hid
    rw [hother id (by rintro rfl; omega)]
    exact h.fresh id hid
  · intro id
    rw [hh, hm, show id < (s.mdls.record mdl.id [.free]).next ∧ _ ↔ False from
      h.hand_of_record hpc (by simp)]
    simp
  · intro id
    simp only [hr]
    by_cases hid : id = mdl.id
    · subst hid
      rw [hself, ← h.locked mdl.id, hnil]
      simp
    · rw [hother id hid]
      exact h.locked id
  · intro id
    by_cases hid : id = mdl.id
    · subst hid
      exact .inr (.inr (.inr hself))
    · rw [hother id hid]
      exact h.states id
  · simp only [hr]
    exact h.inj
  · simp only [hr]
    exact h.bound
  · intro j hj
    rw [he j] at hj
    cases hj
  · intro hx
    rw [hu] at hx
    cases hx
  · rw [hc]
    exact Nat.zero_le _
  · intro args j m hpc'
    rw [hpc'] at hh
    cases hh

theorem none_of_empties (h : s.Pages) (he : ∀ i < maxVideoFrames, s.pc.empties i = true) (i : ℕ) :
    s.ringMdl i = none := by
  cases hi : s.ringMdl i with
  | none => rfl
  | some m =>
    rw [h.empty i (he i (h.bound i m hi))] at hi
    cases hi

theorem not_held (h : s.Pages) (hph : s.Phased) {i j : ℕ} {next : UnmapNext}
    (hpc : s.pc = .unmap i false next) (hn : next ≠ .unmapped) :
    s.dev.eng.cap.cookieQuarantined j = false := by
  have hq : s.dev.eng.cap.hasQuarantinedFrames = false := by
    cases next with
    | unmapped => exact absurd rfl hn
    | map | mapFailed => exact (hph.mapping (by rw [hpc]; rfl)).2.noQuarantine
    | release => exact (h.unforced (by rw [hpc]; rfl)).2
  by_contra hne
  simp only [Capture.cookieQuarantined, Bool.not_eq_false, List.any_eq_true, List.mem_finRange,
    true_and, Bool.and_eq_true, decide_eq_true_eq] at hne
  obtain ⟨d, hd, -⟩ := hne
  rw [s.dev.eng.cap.hasQuarantinedFrames_iff.mpr ⟨d, hd⟩] at hq
  cases hq

theorem empties_succ {i j : ℕ} {force : Bool} {next : UnmapNext}
    (h : (VerbPc.unmap (i + 1) force next).empties j = true) :
    j = i ∨ (VerbPc.unmap i force next).empties j = true := by
  cases next with
  | unmapped => cases h
  | map | mapFailed | release =>
    have hlt : j < i + 1 := by simpa [VerbPc.empties] using h
    have hcase : j = i ∨ j < i := by omega
    simpa [VerbPc.empties] using hcase

theorem ringMdl_of_slot {c : Slot} (hc : s.slot = some c) (i : ℕ) : s.ringMdl i = c.mdl i := by
  rw [ringMdl, hc]
  rfl

theorem setSlot_ringMdl {c c' : Slot} (hc : s.slot = some c) (pc : VerbPc)
    (h : ∀ i, c'.mdl i = c.mdl i) (i : ℕ) : (s.setSlot c' pc).ringMdl i = s.ringMdl i := by
  rw [ringMdl_of_slot hc, ringMdl_of_slot (setSlot_slot s c' pc), h]

theorem unmapFrame_ringMdl {c : Slot} (hc : s.slot = some c) (i : ℕ) (pc : VerbPc) (j : ℕ) :
    (s.setSlot (c.setRing (c.ring.unmapFrame i)) pc).ringMdl j =
      if j = i then none else s.ringMdl j := by
  rw [ringMdl_of_slot hc, ringMdl_of_slot (setSlot_slot s _ pc)]
  simp only [Slot.mdl, Slot.setRing_ring, Ring.unmapFrame, Ring.setFrame, Function.update_apply]
  split <;> rfl

theorem unmapDone (h : s.Pages) {c c' : Slot} {i : ℕ} {force : Bool} {next : UnmapNext}
    (hpc : s.pc = .unmap i force next) (hi : maxVideoFrames ≤ i) (hc : s.slot = some c)
    (hc' : ∀ j, c'.mdl j = c.mdl j) : (s.setSlot c' next.pc).Pages := by
  refine h.turn rfl (setSlot_ringMdl hc _ hc') ?_ ?_ ?_ ?_ ?_
  · rw [hpc]
    cases next <;> rfl
  · intro j hj
    refine h.none_of_empties (fun k hk => ?_) j
    rw [hpc]
    cases next with
    | unmapped => cases hj
    | map | mapFailed | release =>
      have : k < i := by omega
      simpa [VerbPc.empties] using this
  · intro hx
    cases next <;> cases hx
  · cases next <;> exact Nat.zero_le _
  · intro args j m hx
    cases next <;> cases hx

theorem does (h : s.Pages) (hph : s.Phased) {o : VerbAnswer} (hc : s.dev.ctl = .held)
    (hx : Does s o s.pc s') : s'.Pages := by
  generalize hpc : s.pc = pc at hx
  cases hx with
  | ended hends =>
    refine h.goOn rfl (fun _ => rfl) ?_ rfl (fun _ => rfl) rfl rfl
    rw [hpc]
    cases pc <;> first | rfl | cases hends
  | built =>
    have hnone : ∀ i, s.ringMdl i = none := fun i => h.empty i (by rw [hpc]; rfl)
    refine h.goOn rfl (fun i => ?_) (by rw [hpc]; rfl) rfl (fun _ => rfl) rfl rfl
    rw [hnone i]
    rfl
  | setOneShot | pump | start | listen | finish =>
    exact h.goOn rfl (fun _ => rfl) (by rw [hpc]; rfl) rfl (fun _ => rfl) rfl rfl
  | @pumped next =>
    refine h.goOn rfl (fun _ => rfl) (by rw [hpc]; rfl) ?_ (fun i => ?_) ?_ ?_
    all_goals cases next <;> rfl
  | @setPumpRing c b hs =>
    refine h.goOn rfl (setSlot_ringMdl hs _ fun _ => rfl) (by rw [hpc]; rfl) ?_ (fun i => ?_) ?_ ?_
    all_goals
      cases b <;> rfl
  | @requeue c next hs =>
    exact h.goOn rfl (setSlot_ringMdl hs _ fun i => c.ring.framesRequeue_mdl i) (by rw [hpc]; rfl) rfl
      (fun _ => rfl) rfl rfl
  | @stop next =>
    refine h.goOn rfl (fun _ => rfl) (by rw [hpc]; rfl) ?_ (fun i => ?_) ?_ ?_
    all_goals cases next <;> rfl
  | quarantine =>
    refine h.turn rfl (fun _ => rfl) (by rw [hpc]; rfl) ?_ (fun hx => ⟨hc, ?_⟩) (Nat.zero_le _) ?_
    · intro i hi
      cases (of_decide_eq_true hi : i < 0)
    · simpa [VerbPc.unforced] using hx
    · rintro _ _ _ ⟨⟩
  | @unmapEmpty c i force next hs _ hm =>
    have hi : s.ringMdl i = none := (ringMdl_of_slot hs i).trans hm
    refine h.turn rfl (fun j => ?_) (by rw [hpc]; rfl) (fun j hj => ?_) (fun hx => ?_) (Nat.zero_le _) ?_
    · rw [unmapFrame_ringMdl hs]
      split_ifs with hji
      · rw [hji, hi]
      · rfl
    · rcases empties_succ hj with rfl | hj
      · exact hi
      · exact h.empty j (by rw [hpc]; exact hj)
    · exact h.unforced (by rw [hpc]; exact hx)
    · rintro _ _ _ ⟨⟩
  | @unmapHeld c i next _ _ _ _ hq =>
    by_cases hn : next = .unmapped
    · subst hn
      exact h.goOn rfl (fun _ => rfl) (by rw [hpc]; rfl) rfl (fun _ => rfl) rfl rfl
    · rw [h.not_held hph hpc hn] at hq
      cases hq
  | @unmapFrame c i force next mdl hs _ hm =>
    refine h.unmaps ((ringMdl_of_slot hs i).trans hm) rfl (unmapFrame_ringMdl hs i (.unmap (i + 1) force next))
      (by rw [hpc]; rfl) rfl (fun j hj => ?_) (fun hx => ?_) (Nat.zero_le _)
    · rw [hpc]
      exact empties_succ hj
    · exact h.unforced (by rw [hpc]; exact hx)
  | unmapDone hs hi => exact h.unmapDone hpc hi hs fun _ => rfl
  | @validated _ args hs _ hle =>
    refine h.turn rfl (fun _ => rfl) (by rw [hpc]; rfl) (fun i _ => ?_) (by rintro ⟨⟩) hle ?_
    · exact h.empty i (by rw [hpc]; rfl)
    · rintro _ _ _ ⟨⟩
  | allocated hi => exact h.allocates hpc hi
  | notAllocated hs =>
    refine h.turn rfl (setSlot_ringMdl hs _ fun _ => rfl) (by rw [hpc]; rfl) ?_ (by rintro ⟨⟩) (Nat.zero_le _) ?_
    · intro i hi
      cases (of_decide_eq_true hi : i < 0)
    · rintro _ _ _ ⟨⟩
  | allLocked => exact h.goOn rfl (fun _ => rfl) (by rw [hpc]; rfl) rfl (fun _ => rfl) rfl rfl
  | @locked c args i mdl hs =>
    refine h.locks hpc rfl (fun j => ?_) rfl
    rw [ringMdl_of_slot hs, ringMdl_of_slot rfl]
    simp only [Slot.mdl, Slot.setRing_ring, Ring.setFrame, Function.update_apply]
    split <;> rfl
  | @notLocked c args i mdl hs =>
    refine h.notLocks hpc rfl (fun j => ?_) rfl ?_ rfl rfl
    · rw [ringMdl_of_slot hs]
      rfl
    · intro j
      simp [mapFailed, VerbPc.empties]
  | published hs =>
    refine h.goOn rfl (setSlot_ringMdl hs _ fun _ => rfl) (by rw [hpc]; rfl) ?_ (fun i => ?_) ?_ ?_
    all_goals
      dsimp only [publishStep, setSlot_pc]
      split <;> rfl
  | @events c _ pc' a events hs ht he =>
    have hring : ∀ i, Slot.mdl { c with events } i = c.mdl i := by
      intro i
      exact congrArg (fun r : Ring => (r.frames i).mdl) (ht.ring he)
    refine h.turn rfl (setSlot_ringMdl hs _ hring) ?_ (fun i hi => ?_) (fun hx => ?_) ?_ ?_
    · rw [hpc]
      cases ht <;> rfl
    · apply h.empty i
      rw [hpc]
      cases ht <;> first | rfl | cases hi
    · cases ht <;> cases hx
    · cases ht <;> exact Nat.zero_le _
    · rintro _ _ _ rfl
      cases ht
  | @destroy next =>
    have hnone : ∀ i, s.ringMdl i = none := fun i => h.empty i (by rw [hpc]; rfl)
    refine h.turn rfl (fun i => (hnone i).symm) ?_ (fun i _ => hnone i) ?_ ?_ ?_
    · rw [hpc]
      cases next <;> rfl
    · intro hx
      cases next <;> cases hx
    · cases next <;> exact Nat.zero_le _
    · intro _ _ _ hx
      cases next <;> cases hx

theorem noQuarantine_of_shared {d d' : Device} {a : Device.Act} (hv : Vacant d.eng)
    (hr : Engine.machine.Reachable d.eng) (hc : d.ctl = .held) (ha : a.shared = true)
    (hd : d.step a = some d') (hq : d.eng.cap.hasQuarantinedFrames = false) :
    d'.eng.cap.hasQuarantinedFrames = false := by
  cases Device.Steps.of_step hd with
  | data hx he => exact hv.noQuarantine hr (Device.Act.isData hx) he hq
  | lateListen | lateGrant => exact hq
  | workMutex hf =>
    rw [hc] at hf
    cases hf
  | ctl hm =>
    rw [hc] at hm
    cases hm
  | _ => cases ha

/-- A step in which no verb moves. -/
theorem others (h : s.Pages) (hm : s'.mdls = s.mdls) (hr : ∀ i, s'.ringMdl i = s.ringMdl i)
    (hpc : s'.pc = s.pc)
    (hu : s.pc.unforced = true → s'.dev.ctl = .held ∧ s'.dev.eng.cap.hasQuarantinedFrames = false) :
    s'.Pages := by
  refine h.turn hm hr (by rw [hpc]) (fun i hi => ?_) (fun hx => ?_) ?_ fun args i mdl hx => ?_
  · rw [hpc] at hi
    exact h.empty i hi
  · rw [hpc] at hx
    exact hu hx
  · rw [hpc]
    exact h.count
  · rw [hpc] at hx
    exact h.index args i mdl hx

theorem slotDev (h : s.Pages) (hph : s.Phased) {a : Device.Act} {dev : Device} {slot : Option Slot}
    (ha : a.shared = true) (hf : s.dev.feed Slot.callbacks s.slot a = some (dev, slot)) :
    Pages { s with dev, slot } := by
  have hd := Device.feed_step hf
  refine h.others rfl (feeds_mdl (Device.Feeds.of_feed hf)) rfl fun hx => ?_
  obtain ⟨hc, hq⟩ := h.unforced hx
  have hrest : s.pc.afterStop = true := by
    generalize s.pc = pc at hx
    cases pc with
    | unmap _ _ next => cases next <;> first | rfl | cases hx
    | _ => cases hx
  refine ⟨((Device.Steps.of_step hd).draining_of_shared ha hc).1, ?_⟩
  exact noQuarantine_of_shared (hph.rests hc (.inl hrest)).1 hph.sound.engine hc ha hd hq

theorem enters (h : s.Pages) {registered : Bool} {pc : VerbPc} {dev : Device} (hu : s.Unheld)
    (he : Enters s pc) : Pages { s with dev, registered, pc } := by
  have hh : s.pc.hand = none := by
    rw [hu.1]
    rfl
  cases he.entry with
  | map =>
    refine h.turn rfl (fun _ => rfl) hh.symm (fun i hi => ?_) (by rintro ⟨⟩) (Nat.zero_le _) ?_
    · cases (of_decide_eq_true hi : i < 0)
    · rintro _ _ _ ⟨⟩
  | stop => exact h.goOn rfl (fun _ => rfl) hh rfl (fun _ => rfl) rfl rfl
  | build hs =>
    refine h.turn rfl (fun _ => rfl) hh.symm (fun i _ => ?_) (by rintro ⟨⟩) (Nat.zero_le _) ?_
    · rw [ringMdl, hs]
      rfl
    · rintro _ _ _ ⟨⟩
  | plain hm hs _ _ hb =>
    -- a request that neither maps, stops nor builds begins at no point of the ring's walks
    cases pc with
    | build fileObject => exact absurd rfl (hb fileObject)
    | unmap _ _ next =>
      cases next with
      | unmapped | release => cases hs
      | map | mapFailed => cases hm
    | flush | flushing | destroy | quarantine => cases hs
    | validate | allocate | lock | publish => cases hm
    | _ => exact h.goOn rfl (fun _ => rfl) hh rfl (fun _ => rfl) rfl rfl

theorem takes (h : s.Pages) (hph : s.Phased) {a : Act} (hx : Takes s a s') : s'.Pages := by
  have hidle : s.Unheld → s.pc.unforced = false := by
    rintro ⟨hpc, -⟩
    rw [hpc]
    rfl
  cases hx with
  | slotDev _ ha hf => exact h.slotDev hph ha hf
  | pinDev hp =>
    refine h.others rfl (fun _ => rfl) rfl fun hx => ?_
    have hs : s.pc.stops = true := by
      generalize s.pc = pc at hx
      cases pc with
      | unmap _ _ next => cases next <;> first | rfl | cases hx
      | _ => cases hx
    exact absurd (hph.pin hp) (hph.owned (.inl hs))
  | same => exact h
  | enters hu he => exact h.enters hu he
  | verb hc hx => exact h.does hph hc hx
  | @signal a x c events hs hsig he =>
    refine h.others rfl (fun i => ?_) rfl h.unforced
    have hring : events.ring = c.events.ring := by
      obtain ⟨n, e, rest, rfl | rfl⟩ := hsig <;>
      · simp only [Events.step] at he
        split at he <;> cases he
        rfl
    rw [ringMdl_of_slot hs]
    exact congrArg (fun r : Ring => (r.frames i).mdl) hring
  | removed hu =>
    exact h.goOn rfl (fun _ => rfl) (by rw [hu.1]; rfl) rfl (fun _ => rfl) rfl rfl
  | pinOpened hu | pinClosed _ hu =>
    refine h.others rfl (fun _ => rfl) rfl fun hx => ?_
    first
    | rw [hidle hu] at hx
    | rw [hu] at hx
    cases hx

theorem of_reaches (h : machine.Reaches NoLateClaim s) : s.Pages := by
  have hboth : s.Phased ∧ s.Pages := by
    refine h.invariant (I := fun s => s.Phased ∧ s.Pages) ⟨.of_reaches .init, ?_⟩ ?_
    · refine ⟨fun _ _ => rfl, fun id => ?_, fun id => ?_, fun _ => .inl rfl, (by rintro _ _ _ _ ⟨⟩),
        (by rintro _ _ ⟨⟩), (by rintro _ ⟨⟩), (by rintro ⟨⟩), Nat.zero_le _, (by rintro _ _ _ ⟨⟩)⟩
      · simp [machine, create, VerbPc.hand, Mdls.empty]
      · simp [machine, create, ringMdl, Mdls.empty]
    · rintro s a s' _ ⟨hph, hp⟩ hn hs
      exact ⟨hph.takes hn (.of_step hs), hp.takes hph (.of_step hs)⟩
  exact hboth.2

end Pages

theorem Does.unlocks {s s' : IoctlDevice} {o : VerbAnswer} {pc : VerbPc} {id : ℕ} (hx : Does s o pc s')
    (hold : .unlock ∉ s.mdls.history id) (hnew : .unlock ∈ s'.mdls.history id) :
    ∃ i m force next, pc = .unmap i force next ∧ s.ringMdl i = some m ∧ m.id = id ∧
      (force = true ∨ s.dev.eng.cap.cookieQuarantined i = false) := by
  have other : ∀ {m : ℕ} {op : MdlOp}, op ≠ .unlock → .unlock ∉ (s.mdls.record m [op]).history id := by
    intro m op hop hin
    by_cases hid : id = m
    · subst hid
      simp [Mdls.record, hold, hop.symm] at hin
    · simp [Mdls.record, hid, hold] at hin
  cases hx with
  | @unmapFrame c i force next mdl hs _ hm hq =>
    refine ⟨i, mdl, force, next, rfl, (Pages.ringMdl_of_slot hs i).trans hm, ?_, hq⟩
    by_contra hne
    simp only [Mdls.record, Function.update_of_ne (Ne.symm hne)] at hnew
    exact hold hnew
  | locked => exact absurd hnew (other (by decide))
  | notLocked => exact absurd hnew (other (by decide))
  | published =>
    dsimp only [publishStep, setSlot_mdls] at hnew
    exact absurd hnew hold
  | _ => exact absurd hnew hold

/-- The user ring leaks no page lock and drops none early. An MDL is locked exactly while one index
of the ring records it. Once the slot is gone every MDL is freed, and unlocked before if it was
locked. An unlock meets an index that the engine holds no more, unless the release of a slot with
quarantined frames takes it by force. -/
theorem page_locks_balance {s : IoctlDevice} (h : machine.Reaches NoLateClaim s) :
    (∀ id, s.mdls.history id = [] ∨ s.mdls.history id = [.lock] ∨
      s.mdls.history id = [.lock, .unlock, .free] ∨ s.mdls.history id = [.free]) ∧
    (∀ id, s.mdls.history id = [.lock] ↔ ∃! i, ∃ m, s.ringMdl i = some m ∧ m.id = id) ∧
    (s.slot = none → ∀ id < s.mdls.next, .free ∈ s.mdls.history id) ∧
    ∀ a s' id, s.step a = some s' → .unlock ∉ s.mdls.history id → .unlock ∈ s'.mdls.history id →
      ∃ i m force next, s.pc = .unmap i force next ∧ s.ringMdl i = some m ∧ m.id = id ∧
        (force = true → s.dev.eng.cap.hasQuarantinedFrames = true ∧ ∃ n, next = .release n) ∧
        (force = false → s.dev.eng.heldCount i = 0) := by
  have hp := Pages.of_reaches h
  have hph := Phased.of_reaches h
  refine ⟨hp.states, fun id => ?_, fun hs id hid => ?_, fun a s' id hs hold hnew => ?_⟩
  · rw [hp.locked id]
    constructor
    · rintro ⟨i, m, hi, hm⟩
      refine ⟨i, ⟨m, hi, hm⟩, ?_⟩
      rintro j ⟨m', hj, hm'⟩
      exact hp.inj j i m' m hj hi (hm'.trans hm.symm)
    · rintro ⟨i, ⟨m, hi, hm⟩, -⟩
      exact ⟨i, m, hi, hm⟩
  · rcases hp.states id with hx | hx | hx | hx
    · -- an MDL in the hand of a map has a slot to go to
      have hhand := (hp.hand id).mpr ⟨hid, hx⟩
      refine absurd hs (hph.owned (.inr ?_))
      generalize s.pc = pc at hhand
      cases pc with
      | lock => rfl
      | _ => cases hhand
    · obtain ⟨i, m, hi, -⟩ := (hp.locked id).mp hx
      rw [ringMdl, hs] at hi
      cases hi
    all_goals
      rw [hx]
      decide
  · have hx : ∃ o, s.dev.ctl = .held ∧ Does s o s.pc s' := by
      cases Takes.of_step hs with
      | verb hc hx => exact ⟨_, hc, hx⟩
      | _ => exact absurd hnew hold
    obtain ⟨o, hc, hx⟩ := hx
    obtain ⟨i, m, force, next, hpc, hi, hm, hq⟩ := hx.unlocks hold hnew
    refine ⟨i, m, force, next, hpc, hi, hm, ?_, ?_⟩
    · rintro rfl
      cases hslot : s.slot with
      | none =>
        rw [ringMdl, hslot] at hi
        cases hi
      | some c => exact (Turning.of_reaches h c hslot).forced hpc
    · rintro rfl
      have hzero := quarantinedCount_eq_zero (hq.resolve_left (by simp))
      have hrest : s.pc.afterStop = true ∨ s.pc.maps = true := by
        rw [hpc]
        cases next <;> first | exact .inl rfl | exact .inr rfl
      have hheld := hph.held hc hrest i
      rw [Engine.heldCount_eq hph.sound.engine i, hzero] at hheld
      omega

/-- The unmap of `unmapRun` is about to meet the frame that was delivered. -/
def unlocking : IoctlDevice := Machine.after ⟨mapping, step⟩ NoLateClaim (shotRun ++ unmapRun.dropLast)

theorem page_locks_balance_unlocking : ∃ i m force next, unlocking.pc = .unmap i force next ∧
    unlocking.ringMdl i = some m ∧ m.id = 0 ∧
    (force = true → unlocking.dev.eng.cap.hasQuarantinedFrames = true ∧ ∃ n, next = .release n) ∧
    (force = false → unlocking.dev.eng.heldCount i = 0) := by
  have hr := mapping_reaches.trans (Machine.reaches_after (M := ⟨mapping, step⟩) NoLateClaim
    (shotRun ++ unmapRun.dropLast)) fun _ _ => id
  have hs : (unlocking.step Act.goes).any (fun s' => .unlock ∈ s'.mdls.history 0) = true := by
    decide +kernel
  obtain ⟨s', hs, hnew⟩ := (Option.any_eq_true _ _).mp hs
  have hold : .unlock ∉ unlocking.mdls.history 0 := by decide +kernel
  exact (page_locks_balance hr).2.2.2 Act.goes s' 0 hs hold (of_decide_eq_true hnew)

end IoctlDevice
end Photonic
