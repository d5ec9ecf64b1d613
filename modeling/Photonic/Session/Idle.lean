import Photonic.Session.Delivery

namespace Photonic

def Pc.lapHolds : Pc → Bool
  | .pump _ .elect | .pump _ .top | .pump _ (.claim _) | .pump _ .bottom => false
  | .pump _ _ => true
  | _ => false

structure Still (c : Capture) : Prop where
  draining : c.draining = true
  nonePending : c.pendingList = []
  noIrp : c.inFlightIrps = 0

abbrev LapsIdle (pool : Multiset Pc) : Prop := Pool.Free Pc.lapHolds pool

theorem LapsIdle.exec {e e' : Engine} {pc : Pc} (h : LapsIdle (pc ::ₘ e.pool))
    (hd : e.cap.draining = true) (hx : Engine.Exec e pc e') : LapsIdle e'.pool := by
  have hpc := h.head
  have ht := h.tail
  cases hx with
  | claimed hn _ => rw [hd] at hn; cases hn
  | acquiredNone | acquiredShort | acquired | gaveBack | rejected | rejectDelivered | publishDraining
  | published | handedBack | attachBegun => cases hpc
  | electLost _ | lapDone _ | workQueued _ | workQueue | workUndone => exact Engine.free_ret ht rfl
  | irpDoneMore | irpDoneRunning | irpDoneSignal | releaseDeliver => exact ht
  | _ => exact ht.add rfl

theorem Still.no_owner {c : Capture} {pool : Multiset Pc} (h : Still c) (hp : Placed c pool)
    (hc : Counted c pool) {pc : Pc} (hpc : pc ∈ pool) (d : FrameId) :
    pc.owns ≠ some (d, .attach) ∧ pc.owns ≠ some (d, .detach) := by
  obtain ⟨pool, rfl⟩ := Multiset.exists_cons_of_mem hpc
  have hb := not_atBus_of_framesAtBus_eq_zero (hc.eq_zero h.noIrp).1 d
  refine ⟨fun ho => ?_, fun ho => ?_⟩
  · rw [hp.atBus (.inl ho)] at hb
    cases hb
  · rw [hp.atBus (.inr ho)] at hb
    cases hb

theorem Still.not_owing {c : Capture} {pool : Multiset Pc} (h : Still c) (hc : Counted c pool)
    {pc : Pc} (hpc : pc ∈ pool) : pc.owesDecrement = false := by
  simpa using Multiset.countP_eq_zero.mp (hc.eq_zero h.noIrp).2 pc hpc

theorem Still.exec {e e' : Engine} {pc : Pc} (h : Still e.cap) (hp : Placed e.cap (pc ::ₘ e.pool))
    (hc : Counted e.cap (pc ::ₘ e.pool)) (hx : Engine.Exec e pc e') : Still e'.cap := by
  have hmem := Multiset.mem_cons_self pc e.pool
  have hown := h.no_owner hp hc hmem
  have howe := h.not_owing hc hmem
  cases hx with
  | @attachFailed d _ _ _ | @attachFrameDone d _ _ _ _ | @attachDraining d _ _ _ _ _
  | @attachPublished d _ _ _ _ _ => exact absurd rfl (hown d).1
  | @detachFailed d _ _ _ _ _ | @detachDone d _ _ _ _ _ => exact absurd rfl (hown d).2
  | irpDoneLast | irpDoneMore => cases howe
  | published hn =>
    rw [h.draining] at hn
    cases hn
  | electLost _ | lapDone _ | workQueued _ | workQueue | workUndone =>
    rw [Engine.ret_cap]
    exact ⟨h.draining, h.nonePending, h.noIrp⟩
  | _ => exact ⟨h.draining, h.nonePending, h.noIrp⟩

theorem Still.callback {e e' : Engine} {d : FrameId} {st : NtStatus} (h : Still e.cap)
    (hp : Placed e.cap e.pool) (hc : Counted e.cap e.pool) (hx : Engine.Callback e d st e') :
    Still e'.cap := by
  cases hx with
  | recycling hs => exact absurd hs ((hp d).not_pending h.nonePending)
  | deferred hs =>
    have := not_atBus_of_framesAtBus_eq_zero (hc.eq_zero h.noIrp).1 d
    rw [hs] at this
    cases this
  | alreadyTaken => exact ⟨h.draining, h.nonePending, h.noIrp⟩

theorem Still.data {e e' : Engine} {x : Engine.Act} (h : Still e.cap) (hp : Placed e.cap e.pool)
    (hc : Counted e.cap e.pool) (hx : x.IsData) (hs : e.step x = some e') : Still e'.cap := by
  cases x with
  | run pc o =>
    obtain ⟨pool, hpool, hx⟩ := Engine.run_cases hs
    rw [hpool] at hp hc
    exact Still.exec (e := { e with pool := pool }) h hp hc hx
  | callback d st => exact h.callback hp hc (Engine.callback_cases hs).2
  | callPump k | callRequestWork k | startWork =>
    simp only [Engine.step] at hs
    split at hs <;> cases hs
    exact h
  | control r => cases hx

theorem LapsIdle.data {e e' : Engine} {x : Engine.Act} (h : LapsIdle e.pool)
    (hd : e.cap.draining = true) (hx : x.IsData) (hs : e.step x = some e') : LapsIdle e'.pool := by
  cases x with
  | run pc o =>
    obtain ⟨pool, hpool, hx⟩ := Engine.run_cases hs
    rw [hpool] at h
    exact LapsIdle.exec (e := { e with pool := pool }) h hd hx
  | callback d st =>
    obtain ⟨-, hx⟩ := Engine.callback_cases hs
    cases hx with
    | recycling => exact h.add rfl
    | deferred => exact h
    | alreadyTaken => exact h
  | callPump k | callRequestWork k | startWork =>
    simp only [Engine.step] at hs
    split at hs <;> cases hs
    exact h.add rfl
  | control r => cases hx

def NoAttach (c : Capture) : Prop :=
  ∀ d, (c.frames d).state ≠ .attaching ∧ (c.frames d).state ≠ .completedWhileAttaching

theorem NoAttach.update {c c' : Capture} {d : FrameId} {f : Frame} (h : NoAttach c)
    (hf : c'.frames = Function.update c.frames d f)
    (hd : f.state ≠ .attaching ∧ f.state ≠ .completedWhileAttaching) : NoAttach c' := by
  intro d'
  rw [hf]
  by_cases hne : d' = d
  · subst hne
    simpa using hd
  · rw [Function.update_of_ne hne]
    exact h d'

theorem Counted.noAttach {c : Capture} {pool : Multiset Pc} (h : Counted c pool)
    (h0 : c.inFlightIrps = 0) : NoAttach c := by
  intro d
  have := not_atBus_of_framesAtBus_eq_zero (h.eq_zero h0).1 d
  constructor <;> intro hs <;> rw [hs] at this <;> cases this

def Engine.TakesLast (e : Engine) (d : FrameId) : Prop :=
  (e.cap.frames d).state = .pending ∧ e.cap.pendingList = [d]

instance (e : Engine) (d : FrameId) : Decidable (e.TakesLast d) :=
  inferInstanceAs (Decidable (_ ∧ _))

/-- What the quiesce has established between its last poll of `InFlightIrps` and its
look at the pending list. -/
structure Polled (c : Capture) : Prop where
  noAttach : NoAttach c
  noIrp : c.pendingList = [] → c.inFlightIrps = 0

theorem Polled.still {c : Capture} (h : Polled c) (hd : c.draining = true) (hp : c.pendingList = []) :
    Still c := ⟨hd, hp, h.noIrp hp⟩

theorem NoAttach.exec {e e' : Engine} {pc : Pc} (h : NoAttach e.cap) (hd : e.cap.draining = true)
    (hx : Engine.Exec e pc e') : NoAttach e'.cap := by
  cases hx with
  | attachFailed | attachFrameDone | attachDraining | attachPublished | detachFailed | detachDone
  | gaveBack | rejected | publishDraining => exact h.update rfl ⟨by simp, by simp⟩
  | @acquired k i d cookie => exact h.update rfl (h d)
  | published hn =>
    rw [hd] at hn
    cases hn
  | electLost _ | lapDone _ | workQueued _ | workQueue | workUndone =>
    rw [Engine.ret_cap]
    exact h
  | _ => exact h

theorem NoAttach.pending_exec {e e' : Engine} {pc : Pc} (h : NoAttach e.cap)
    (hp : Placed e.cap (pc ::ₘ e.pool)) (hd : e.cap.draining = true) (hx : Engine.Exec e pc e') :
    e'.cap.pendingList = e.cap.pendingList := by
  cases hx with
  | @attachFailed d _ _ _ | @attachFrameDone d _ _ _ _ =>
    rcases ((hp d).owned_attach rfl).1 with hs | hs
    · exact absurd hs (h d).1
    · exact absurd hs (h d).2
  | published hn =>
    rw [hd] at hn
    cases hn
  | electLost _ | lapDone _ | workQueued _ | workQueue | workUndone => rw [Engine.ret_cap]
  | _ => rfl

theorem Polled.exec {e e' : Engine} {pc : Pc} (h : Polled e.cap)
    (hp : Placed e.cap (pc ::ₘ e.pool)) (hc : Counted e.cap (pc ::ₘ e.pool))
    (hd : e.cap.draining = true) (hx : Engine.Exec e pc e') : Polled e'.cap := by
  refine ⟨h.noAttach.exec hd hx, fun hl => ?_⟩
  rw [h.noAttach.pending_exec hp hd hx] at hl
  exact ((h.still hd hl).exec hp hc hx).noIrp

theorem Polled.callback {e e' : Engine} {d : FrameId} {st : NtStatus} (h : Polled e.cap)
    (hp : Placed e.cap e.pool) (hlast : ¬e.TakesLast d) (hx : Engine.Callback e d st e') : Polled e'.cap := by
  cases hx with
  | recycling hs =>
    refine ⟨h.noAttach.update rfl ⟨by simp, by simp⟩, fun hl => ?_⟩
    have hl : e.cap.pendingList.erase d = [] := hl
    rcases List.erase_eq_nil_iff.mp hl with hl | hl
    · exact absurd hs ((hp d).not_pending hl)
    · exact absurd ⟨hs, hl⟩ hlast
  | deferred hs => exact absurd hs (h.noAttach d).1
  | alreadyTaken => exact h

theorem Polled.data {e e' : Engine} {x : Engine.Act} (h : Polled e.cap) (hd : e.cap.draining = true)
    (hp : Placed e.cap e.pool) (hc : Counted e.cap e.pool) (hx : x.IsData)
    (hlast : ∀ d st, x = .callback d st → ¬e.TakesLast d) (hs : e.step x = some e') :
    Polled e'.cap := by
  cases x with
  | run pc o =>
    obtain ⟨pool, hpool, hx⟩ := Engine.run_cases hs
    rw [hpool] at hp hc
    exact Polled.exec (e := { e with pool := pool }) h hp hc hd hx
  | callback d st => exact h.callback hp (hlast d st rfl) (Engine.callback_cases hs).2
  | callPump k | callRequestWork k | startWork =>
    simp only [Engine.step] at hs
    split at hs <;> cases hs
    exact h
  | control r => cases hx

/-- The quiesce has not seen the pump idle yet. -/
def Ctl.quiescing : Ctl → Bool
  | .quiesce _ pc =>
    match pc with
    | .enter | .clearFirst => false
    | _ => true
  | _ => false

def Ctl.closing : Ctl → Bool
  | .quiesce _ .check => true
  | .quiesce _ .pumpIdle => true
  | _ => false

/-- The quiesce looks at the pending list next. -/
def Ctl.checking : Ctl → Bool
  | .quiesce _ .check => true
  | _ => false

/-- No frame callback takes the last attached descriptor after the quiesce's last poll
and before its look at the pending list. -/
def Device.NoLateClaim (s : Device) : Device.Act → Prop
  | .callback d _ => s.ctl.checking = true → ¬s.eng.TakesLast d
  | _ => True

instance (s : Device) (a : Device.Act) : Decidable (s.NoLateClaim a) :=
  match a with
  | .callback d _ => inferInstanceAs (Decidable (s.ctl.checking = true → ¬s.eng.TakesLast d))
  | .run _ _ | .startWork | .callPump | .notifyCancel | .lateListen _ | .lateGrant _ _ | .acquireMutex
  | .workMutex | .api _ | .ctl _ | .releaseMutex => .isTrue trivial

structure Drains (s : Device) : Prop where
  check : ∀ r, s.ctl = .quiesce r .check → Polled s.eng.cap
  pumpIdle : ∀ r, s.ctl = .quiesce r .pumpIdle → Still s.eng.cap
  idle : s.eng.cap.draining = true → s.ctl.quiescing = false → Still s.eng.cap ∧ LapsIdle s.eng.pool

theorem Drains.data {s : Device} {e : Engine} {x : Engine.Act} {ses : Session} {bus : Bus}
    (h : Drains s) (hm : Moded s) (hp : Placed s.eng.cap s.eng.pool)
    (hc : Counted s.eng.cap s.eng.pool) (hx : x.IsData)
    (hlast : ∀ d st, x = .callback d st → s.ctl.checking = true → ¬s.eng.TakesLast d)
    (hs : s.eng.step x = some e) : Drains { s with eng := e, ses := ses, bus := bus } where
  check r hr := by
    have hd : s.eng.cap.draining = true := hm.mode true (by rw [show s.ctl = _ from hr]; rfl)
    exact (h.check r hr).data hd hp hc hx (fun d st hx => hlast d st hx (by rw [show s.ctl = _ from hr]; rfl)) hs
  pumpIdle r hr := (h.pumpIdle r hr).data hp hc hx hs
  idle hd hq := by
    have hd' : s.eng.cap.draining = true := (Engine.data_sameControl hx hs).draining ▸ hd
    obtain ⟨hstill, hlaps⟩ := h.idle hd' hq
    exact ⟨hstill.data hp hc hx hs, hlaps.data hd' hx hs⟩

theorem Drains.keep {s s' : Device} (h : Drains s) (hd : s'.eng.cap.draining = s.eng.cap.draining)
    (hl : s'.eng.cap.pendingList = s.eng.cap.pendingList)
    (hi : s'.eng.cap.inFlightIrps = s.eng.cap.inFlightIrps) (hp : LapsIdle s.eng.pool → LapsIdle s'.eng.pool)
    (hq : s.eng.cap.draining = true → s'.ctl.quiescing = false → s.ctl.quiescing = false)
    (hc : s'.ctl.closing = false) : Drains s' := by
  have hno : ∀ r, s'.ctl ≠ .quiesce r .check ∧ s'.ctl ≠ .quiesce r .pumpIdle := by
    intro r
    constructor <;> intro hr <;> rw [hr] at hc <;> cases hc
  refine ⟨fun r hr => absurd hr (hno r).1, fun r hr => absurd hr (hno r).2, fun hd' hq' => ?_⟩
  rw [hd] at hd'
  obtain ⟨hstill, hlaps⟩ := h.idle hd' (hq hd' hq')
  exact ⟨⟨hd.trans hd', hl.trans hstill.nonePending, hi.trans hstill.noIrp⟩, hp hlaps⟩

theorem lapsIdle_of_runners_eq_zero {pool : Multiset Pc} (h : runners pool = 0) : LapsIdle pool := by
  intro pc hpc
  have := Multiset.countP_eq_zero.mp h pc hpc
  cases pc with
  | pump k pc => cases pc <;> simp_all [Pc.lapHolds]
  | _ => rfl

theorem Drains.moves {s s' : Device} {o : Answer} (h : Drains s) (hm : Moded s)
    (hc : Counted s.eng.cap s.eng.pool) (he : Elected s.eng.cap s.eng.pool)
    (hx : Device.Moves s o s.ctl s') : Drains s' := by
  have hmode := hm.mode
  generalize hctl : s.ctl = c at hx
  rw [hctl] at hmode
  cases hx with
  | quiesceDrain hd =>
    refine ⟨fun r hr => ?_, fun r hr => ?_, fun _ hq => ?_⟩
    · split at hr <;> cases hr
    · split at hr <;> cases hr
    · split at hq <;> cases hq
  | quiesceClaim hf => exact ⟨nofun, nofun, nofun⟩
  | quiesceDrained h0 => exact ⟨fun r hr => ⟨hc.noAttach h0, fun _ => h0⟩, nofun, nofun⟩
  | quiesceEmpty hl => exact ⟨nofun, fun r hr => (h.check _ hctl).still (hmode true rfl) hl, nofun⟩
  | quiescePumpIdle hidle =>
    refine ⟨nofun, nofun, fun _ _ => ⟨h.pumpIdle _ hctl, lapsIdle_of_runners_eq_zero ?_⟩⟩
    have : runners s.eng.pool = _ := he
    rwa [hidle] at this
  | startUndrain | workResume => exact ⟨nofun, nofun, nofun⟩
  | quiesceStop | releaseStop | releaseFree =>
    refine h.keep (by simp) (by simp) (by simp) (by simp) ?_ rfl
    simp_all [Ctl.quiescing]
  | @startAllocated eb res ho hv =>
    cases res <;> exact h.keep rfl rfl rfl id (fun _ _ => by rw [hctl]; rfl) rfl
  | startPump | workPump | workRequest | releaseQuarantined =>
    exact h.keep rfl rfl rfl (fun hl => hl.add rfl) (fun _ _ => by rw [hctl]; rfl) rfl
  | startChunks =>
    refine h.keep rfl rfl rfl id (fun _ _ => by rw [hctl]; rfl) ?_
    simp only [Device.setCap_ctl]
    split <;> rfl
  | @quiesceSettled r _ | @quiesceReturns r | @releaseHeld r _ | @releaseReturns r
  | @shutdownReturns r =>
    refine h.keep rfl rfl rfl id (fun _ _ => by rw [hctl]; rfl) ?_
    cases r <;> rfl
  | @listenNothing r _ _ _ | @listenTimeout r _ | @listenFailed r _ | @listenSet r =>
    refine h.keep rfl rfl rfl id (fun _ _ => by rw [hctl]; rfl) ?_
    cases r <;> rfl
  | _ =>
    refine h.keep rfl rfl rfl id ?_ rfl
    simp_all [Ctl.quiescing]

theorem Drains.steps {s s' : Device} {a : Device.Act} (h : Drains s) (hm : Moded s)
    (hr : Engine.machine.Reachable s.eng) (hn : s.NoLateClaim a) (hs : Device.Steps s a s') :
    Drains s' := by
  have hp := Placed.of_reachable hr
  have hc := Counted.of_reachable hr
  cases hs with
  | @data a x e ha hx =>
    refine h.data hm hp hc (Device.Act.isData ha) ?_ hx
    rintro d st rfl
    cases a <;> cases ha
    exact hn
  | notifyCancel _ hx => exact h.data hm hp hc (x := .callRequestWork .handler) rfl nofun hx
  | lateListen | lateGrant => exact ⟨h.check, h.pumpIdle, h.idle⟩
  | workMutex hctl he =>
    simp only [Engine.region] at he
    split at he <;> cases he
    refine h.keep rfl rfl rfl ?_ (fun _ _ => by rw [hctl]; rfl) rfl
    exact fun hl => hl.mono (Multiset.erase_subset _ _)
  | ctl hx => exact h.moves hm hc (.of_reachable hr) hx
  | destroyNone => exact h
  | destroyLeak | setState | setOneShot => exact ⟨h.check, h.pumpIdle, h.idle⟩
  | destroy hctl => exact h.keep rfl rfl rfl id (fun _ hq => hq) (by rw [show _ = Ctl.held from hctl]; rfl)
  | acquireMutex hctl | releaseMutex hctl | start hctl | stop hctl | ensureListen hctl _
  | surpriseRemoval hctl => exact h.keep rfl rfl rfl id (fun _ _ => by rw [hctl]; rfl) rfl

theorem Drains.of_reaches {P : Device → Device.Act → Prop} (hP : ∀ s a, P s a → s.NoLateClaim a)
    {s : Device} (h : Device.machine.Reaches P s) : Drains s := by
  refine h.invariant (I := Drains) ?_ ?_
  · exact ⟨nofun, nofun, fun _ _ => ⟨⟨rfl, rfl, rfl⟩, Pool.free_zero⟩⟩
  · intro s a s' hr hi hp hs
    exact hi.steps (.of_reaches hr) (Device.engine_reachable hr) (hP s a hp) (.of_step hs)

end Photonic
