import Photonic.Device.Projection

namespace Photonic

theorem Engine.Exec.pending_subset {e e' : Engine} {pc : Pc} (h : Engine.Exec e pc e')
    (hd : e.cap.draining = true) : e'.cap.pendingList ⊆ e.cap.pendingList := by
  cases h with
  | attachFailed | attachFrameDone => exact List.erase_subset
  | published hn =>
    rw [hd] at hn
    cases hn
  | electLost _ | lapDone _ | workQueued _ | workQueue | workUndone =>
    rw [Engine.ret_cap]
    exact List.Subset.refl _
  | _ => exact List.Subset.refl _

theorem Engine.data_pending_subset {e e' : Engine} {x : Engine.Act} (hx : x.IsData)
    (h : e.step x = some e') (hd : e.cap.draining = true) :
    e'.cap.pendingList ⊆ e.cap.pendingList := by
  cases x with
  | run pc o =>
    obtain ⟨pool, -, hx⟩ := Engine.run_cases h
    exact hx.pending_subset hd
  | callback d st =>
    obtain ⟨-, hx⟩ := Engine.callback_cases h
    cases hx with
    | recycling => exact List.erase_subset
    | deferred => exact List.Subset.refl _
    | alreadyTaken => exact List.Subset.refl _
  | callPump k | callRequestWork k | startWork =>
    simp only [Engine.step] at h
    split at h <;> cases h
    exact List.Subset.refl _
  | control r => cases hx

namespace Ctl

/-- What `Draining` is when the executor is at a point, where that is fixed. -/
def mode : Ctl → Option Bool
  | .free => none
  | .held => none
  | .start _ pc =>
    match pc with
    | .enter => none
    | .pump | .pumped | .enable | .publish => some false
    | _ => some true
  | .stop pc =>
    match pc with
    | .publish | .test => none
    | _ => some true
  | .shutdown _ pc =>
    match pc with
    | .drainReads => some true
    | _ => none
  | .quiesce _ pc =>
    match pc with
    | .enter => none
    | _ => some true
  | .release _ _ => some true
  | .listen r _ =>
    match r with
    | .start _ => some false
    | _ => none
  | .work pc =>
    match pc with
    | .decide => some true
    | .pump | .pumped => some false
    | _ => none

/-- The claim-and-wait loop of the quiesce, where the pending list need not be empty. -/
def inLoop : Ctl → Bool
  | .quiesce _ pc =>
    match pc with
    | .enter | .pumpIdle | .clearFirst => false
    | _ => true
  | _ => false

end Ctl

/-- `Draining` fits the point the executor is at, and outside the claim-and-wait loop
a draining engine has nothing pending. -/
structure Moded (s : Device) : Prop where
  mode : ∀ b, s.ctl.mode = some b → s.eng.cap.draining = b
  settled : s.eng.cap.draining = true → s.ctl.inLoop = false → s.eng.cap.pendingList = []

theorem Moded.data {s : Device} {e : Engine} {x : Engine.Act} (h : Moded s) (hx : x.IsData)
    (hs : s.eng.step x = some e) {ses : Session} {bus : Bus} :
    Moded { s with eng := e, ses := ses, bus := bus } := by
  have hc := Engine.data_sameControl hx hs
  refine ⟨fun b hb => hc.draining.trans (h.mode b hb), fun hd hl => ?_⟩
  have hd' : s.eng.cap.draining = true := hc.draining ▸ hd
  have := Engine.data_pending_subset hx hs hd'
  rw [h.settled hd' hl] at this
  exact List.subset_nil.mp this

theorem Moded.keep {s s' : Device} (h : Moded s) (hd : s'.eng.cap.draining = s.eng.cap.draining)
    (hp : s'.eng.cap.pendingList = s.eng.cap.pendingList)
    (hm : ∀ b, s'.ctl.mode = some b → s.eng.cap.draining = b)
    (hl : s.eng.cap.draining = true → s'.ctl.inLoop = false → s.ctl.inLoop = false) : Moded s' where
  mode b hb := hd.trans (hm b hb)
  settled hd' hl' := by
    rw [hp]
    rw [hd] at hd'
    exact h.settled hd' (hl hd' hl')

theorem Moded.moves {s s' : Device} {o : Answer} (h : Moded s)
    (hm : Device.Moves s o s.ctl s') : Moded s' := by
  generalize hc : s.ctl = c at hm
  have hmode := h.mode
  have hset := h.settled
  rw [hc] at hmode hset
  cases hm with
  | quiesceDrain hd =>
    refine ⟨fun b hb => ?_, fun _ hl => ?_⟩
    · split at hb <;> exact Option.some.inj hb
    · split at hl <;> cases hl
  | quiesceClaim hf =>
    exact ⟨fun b hb => (hmode true rfl).trans (Option.some.inj hb), fun _ hl => by cases hl⟩
  -- the loop is left with the list empty
  | quiesceEmpty hp =>
    exact ⟨fun b hb => (hmode true rfl).trans (Option.some.inj hb), fun _ _ => hp⟩
  -- `Draining` is cleared, so nothing is said of the list any more
  | startUndrain | workResume => exact ⟨fun b hb => Option.some.inj hb, fun hd => by cases hd⟩
  | quiesceStop | releaseStop | releaseFree =>
    refine h.keep (by simp) (by simp) ?_ ?_
    · simp_all [Ctl.mode]
    · simp_all [Ctl.inLoop]
  | @startAllocated eb res ho hv =>
    refine h.keep (by cases res <;> rfl) (by cases res <;> rfl) ?_ ?_
    · cases res <;> simp_all [Ctl.mode, Device.afterAllocate]
    · cases res <;> simp_all [Ctl.inLoop, Device.afterAllocate]
  | startChunks =>
    refine h.keep rfl rfl ?_ ?_
    · split <;> simp_all [Ctl.mode]
    · split <;> simp_all [Ctl.inLoop]
  | startNotConfigured hpc =>
    refine h.keep rfl rfl ?_ ?_ <;> rcases hpc with rfl | rfl
    all_goals simp_all [Ctl.mode, Ctl.inLoop]
  | @listenNothing r _ hpc _ =>
    refine h.keep rfl rfl ?_ ?_ <;> rcases hpc with rfl | rfl <;> cases r
    all_goals simp_all [Ctl.mode, Ctl.inLoop, Device.listenReturn]
  | @listenTimeout r _ | @listenFailed r _ | @listenSet r =>
    refine h.keep rfl rfl ?_ ?_ <;> cases r
    all_goals simp_all [Ctl.mode, Ctl.inLoop, Device.listenReturn]
  | @quiesceSettled r _ | @quiesceReturns r =>
    refine h.keep rfl rfl ?_ ?_ <;> cases r
    all_goals simp_all [Ctl.mode, Ctl.inLoop, Device.quiesceReturn]
  | @releaseHeld r _ | @releaseReturns r =>
    refine h.keep rfl rfl ?_ ?_ <;> cases r
    all_goals simp_all [Ctl.mode, Ctl.inLoop, Device.releaseReturn]
  | @shutdownReturns r =>
    refine h.keep rfl rfl ?_ ?_ <;> cases r
    all_goals simp_all [Ctl.mode, Ctl.inLoop, Device.shutdownReturn]
  | _ =>
    refine h.keep rfl rfl ?_ ?_
    · simp_all [Ctl.mode]
    · simp_all [Ctl.inLoop]

theorem Moded.steps {s s' : Device} {a : Device.Act} (h : Moded s) (hs : Device.Steps s a s') :
    Moded s' := by
  cases hs with
  | data ha hx => exact h.data (Device.Act.isData ha) hx
  | notifyCancel _ hx => exact h.data (x := .callRequestWork .handler) rfl hx
  | lateListen | lateGrant => exact ⟨h.mode, h.settled⟩
  | workMutex hc he =>
    simp only [Engine.region] at he
    split at he <;> cases he
    refine h.keep rfl rfl ?_ ?_
    · simp_all [Ctl.mode]
    · simp_all [Ctl.inLoop]
  | ctl hm => exact h.moves hm
  | destroyNone => exact h
  | destroyLeak => exact ⟨h.mode, h.settled⟩
  | destroy => exact ⟨h.mode, h.settled⟩
  | setState | setOneShot => exact ⟨h.mode, h.settled⟩
  | acquireMutex hc | releaseMutex hc | start hc | stop hc | ensureListen hc _ | surpriseRemoval hc =>
    refine h.keep rfl rfl ?_ ?_
    · simp_all [Ctl.mode]
    · simp_all [Ctl.inLoop]

theorem Moded.create : Moded Device.create where
  mode b hb := by cases hb
  settled _ _ := rfl

theorem Moded.of_reaches {P : Device → Device.Act → Prop} {s : Device}
    (h : Device.machine.Reaches P s) : Moded s :=
  h.invariant (I := Moded) .create fun _ _ _ _ hi _ hs => hi.steps (.of_step hs)

/-- The executor has found the engine allocated. -/
def Ctl.usesEngine : Ctl → Bool
  | .free => false
  | .held => false
  | .start _ pc =>
    match pc with
    | .enter => false
    | _ => true
  | .stop pc =>
    match pc with
    | .publish => false
    | _ => true
  | .work pc =>
    match pc with
    | .enter => false
    | _ => true
  | .shutdown _ _ => true
  | .quiesce _ _ => true
  | .release _ _ => true
  | .listen _ _ => true

def Device.Alive (s : Device) : Prop := s.ctl.usesEngine = true → s.life = .alive

theorem Device.Alive.moves {s s' : Device} {o : Answer} (h : s.Alive)
    (hm : Device.Moves s o s.ctl s') : s'.Alive := by
  have hl : ∀ t : Device, t.life = s.life → s.ctl.usesEngine = true → t.Alive :=
    fun t ht hc _ => ht.trans (h hc)
  generalize hctl : s.ctl = c at hm hl
  cases hm with
  | startRetry ha | startFresh ha | startRunning ha | stopPublish ha | workEnter ha => exact fun _ => ha
  | startRefused | stopNoEngine | workNoEngine => exact fun hc => by cases hc
  | startNotConfigured hpc => rcases hpc with rfl | rfl <;> exact hl _ rfl rfl
  | listenNothing hpc => exact hl _ rfl rfl
  | quiesceStop | releaseStop | releaseFree | startAllocated => exact hl _ (by simp) rfl
  | _ => exact hl _ rfl rfl

theorem Device.Alive.steps {s s' : Device} {a : Device.Act} (h : s.Alive)
    (hs : Device.Steps s a s') : s'.Alive := by
  cases hs with
  | data | notifyCancel | lateListen | lateGrant | destroyNone | setState | setOneShot => exact h
  | destroyLeak hc | destroy hc => exact fun hu => by simp [hc, Ctl.usesEngine] at hu
  | ensureListen _ hl => exact fun _ => hl
  | ctl hm => exact h.moves hm
  | _ => exact fun hu => by cases hu

theorem Device.Alive.of_reaches {P : Device → Device.Act → Prop} {s : Device}
    (h : Device.machine.Reaches P s) : s.Alive :=
  h.invariant (fun _ => rfl) fun _ _ _ _ hi _ hs => hi.steps (.of_step hs)

/-- A destroyed engine is a settled one. -/
def Device.Retired (s : Device) : Prop := s.life ≠ .alive → s.eng.cap.draining = true

theorem Device.Retired.moves {s s' : Device} {o : Answer} (h : s.Retired) (ha : s.Alive)
    (hm : Device.Moves s o s.ctl s') : s'.Retired := by
  have hl : ∀ t : Device, t.life = s.life → s.ctl.usesEngine = true → t.Retired :=
    fun t ht hc hn => absurd (ht.trans (ha hc)) hn
  generalize hctl : s.ctl = c at hm hl
  cases hm with
  | startUndrain | workResume => exact hl _ rfl rfl
  | quiesceDrain => exact fun _ => rfl
  | quiesceStop | releaseStop | releaseFree => exact hl _ (by simp) rfl
  | @startAllocated eb res => exact hl _ (by simp) rfl
  | _ => exact h

theorem Device.Retired.steps {s s' : Device} {a : Device.Act} (h : s.Retired) (ha : s.Alive)
    (hs : Device.Steps s a s') : s'.Retired := by
  cases hs with
  | data hx hy => exact fun hn => ((Engine.data_sameControl (Device.Act.isData hx) hy).draining).trans (h hn)
  | notifyCancel _ hy =>
    exact fun hn => (Engine.data_sameControl (a := .callRequestWork .handler) rfl hy).draining.trans (h hn)
  | destroyLeak _ _ hd | destroy _ _ hd => exact fun _ => hd
  | ctl hm => exact h.moves ha hm
  | workMutex _ he =>
    simp only [Engine.region] at he
    split at he <;> cases he
    exact h
  | _ => exact h

theorem Device.Retired.of_reaches {P : Device → Device.Act → Prop} {s : Device}
    (h : Device.machine.Reaches P s) : s.Retired := by
  refine h.invariant (I := Retired) (fun hn => absurd rfl hn) ?_
  intro s a s' hr hi _ hs
  exact hi.steps (.of_reaches hr) (.of_step hs)

end Photonic
