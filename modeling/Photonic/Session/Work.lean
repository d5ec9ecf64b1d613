import Photonic.Engine.Coalescing
import Photonic.Session.Completion
import Photonic.Session.Enable

namespace Photonic

namespace Pc

/-- An activity of the engine that goes on to request a run, or is a run that waits. -/
def brings : Pc → Bool
  | .attachLive needListen => needListen
  | .requestWork k .exchange => k ≠ .handler
  | .worker .wait => true
  | _ => false

end Pc

namespace Engine

/-- A run of the work item is coming: the flag is set, or the engine brings a run about. -/
def Owed (e : Engine) : Prop :=
  e.work.controlWorkQueued = true ∨ ∃ pc ∈ e.pool, pc.brings = true

instance (e : Engine) : Decidable e.Owed :=
  have : Decidable (∃ pc ∈ e.pool, pc.brings = true) := Multiset.decidableExistsMultiset
  inferInstanceAs (Decidable (_ ∨ _))

theorem Owed.mono {e e' : Engine} (h : e.Owed) (hw : e'.work = e.work) (hp : e.pool ⊆ e'.pool) :
    e'.Owed := by
  rcases h with h | ⟨pc, hpc, hb⟩
  · exact .inl (by rw [hw, h])
  · exact .inr ⟨pc, hp hpc, hb⟩

theorem Owed.tail {e : Engine} {pc : Pc} (h : Owed { e with pool := pc ::ₘ e.pool })
    (hn : pc.brings = false) : e.Owed := by
  rcases h with h | ⟨pc', hpc', hb⟩
  · exact .inl h
  · rcases Multiset.mem_cons.mp hpc' with rfl | hpc'
    · rw [hn] at hb
      cases hb
    · exact .inr ⟨pc', hpc', hb⟩

theorem owed_ret {e : Engine} {k : Caller} (h : e.Owed) : (e.ret k).Owed := by
  cases k with
  | completion => exact h.mono rfl fun _ => Multiset.mem_cons_of_mem
  | handler => exact h
  | control => exact h

/-- A run that is coming stays so until it has the mutex, unless the remove lock refuses. -/
theorem Owed.exec {e e' : Engine} {pc : Pc} (h : Owed { e with pool := pc ::ₘ e.pool })
    (hc : Coalesced e.work (pc ::ₘ e.pool)) (hr : e'.work.refused = false) (hx : Exec e pc e') :
    e'.Owed := by
  have hcons : ∀ x, e.pool ⊆ x ::ₘ e.pool := fun _ _ => Multiset.mem_cons_of_mem
  cases hx with
  | attachNeedsListen => exact .inr ⟨_, Multiset.mem_cons_self _ _, rfl⟩
  | workerClear => exact .inr ⟨_, Multiset.mem_cons_self _ _, rfl⟩
  | workQueued hf => exact .inl (by rw [ret_work, hf])
  | workTaken => exact .inl rfl
  | workRefused => cases hr
  | workUndone =>
    rw [ret_work] at hr
    exact absurd (hc.undoes hr).head nofun
  | electLost | lapDone => exact owed_ret ((h.tail rfl).mono rfl fun _ => id)
  | workQueue =>
    rcases h.tail rfl with hf | ⟨pc, hpc, hb⟩
    · exact owed_ret (.inl hf)
    · exact owed_ret (.inr ⟨pc, hpc, hb⟩)
  | irpDoneMore | irpDoneRunning | irpDoneSignal | releaseDeliver =>
    exact (h.tail rfl).mono rfl fun _ => id
  | attachBegun =>
    exact (h.tail rfl).mono rfl fun _ hm => Multiset.mem_cons_of_mem (Multiset.mem_cons_of_mem hm)
  | _ => exact (h.tail rfl).mono rfl (hcons _)

theorem data_refused {e e' : Engine} {x : Act} (hx : x.IsData) (hs : e.step x = some e')
    (hr : e'.work.refused = false) : e.work.refused = false := by
  cases x with
  | run pc o =>
    obtain ⟨pool, -, hx⟩ := run_cases hs
    cases hx with
    | electLost | lapDone | workQueued | workQueue | workUndone => rwa [ret_work] at hr
    | workRefused => cases hr
    | _ => exact hr
  | callback d st =>
    obtain ⟨-, hx⟩ := callback_cases hs
    cases hx <;> exact hr
  | callPump k | callRequestWork k | startWork =>
    simp only [step] at hs
    split at hs <;> cases hs
    exact hr
  | control r => cases hx

theorem Owed.data {e e' : Engine} {x : Act} (h : e.Owed) (hc : Coalesced e.work e.pool)
    (hx : x.IsData) (hs : e.step x = some e') (hr : e'.work.refused = false) : e'.Owed := by
  cases x with
  | run pc o =>
    obtain ⟨pool, hpool, hx⟩ := run_cases hs
    rw [hpool] at hc
    refine Owed.exec (e := { e with pool := pool }) ?_ hc hr hx
    rwa [← hpool]
  | callback d st =>
    obtain ⟨-, hx⟩ := callback_cases hs
    cases hx with
    | recycling => exact h.mono rfl fun _ => Multiset.mem_cons_of_mem
    | deferred => exact h.mono rfl fun _ => id
    | alreadyTaken => exact h.mono rfl fun _ => id
  | callPump k | callRequestWork k =>
    simp only [step] at hs
    split at hs <;> cases hs
    exact h.mono rfl fun _ => Multiset.mem_cons_of_mem
  | startWork =>
    simp only [step] at hs
    split at hs <;> cases hs
    exact h.imp id fun hx => hx.imp fun _ hpc => ⟨Multiset.mem_cons_of_mem hpc.1, hpc.2⟩
  | control r => cases hx

/-- A buffer becomes Pending in a running engine by an attach completion that asks for a
listen if nothing listens. -/
theorem data_pending {e e' : Engine} {x : Act} {d : FrameId} (hx : x.IsData)
    (hs : e.step x = some e') (hd : e.cap.draining = false)
    (hp : (e'.cap.frames d).state = .pending) :
    (e.cap.frames d).state = .pending ∨ Pc.attachLive (!e.cap.listening) ∈ e'.pool := by
  -- a descriptor written to anything else did not become pending here
  have hother : ∀ d₀ f, f.state ≠ .pending → (Function.update e.cap.frames d₀ f d).state = .pending →
      (e.cap.frames d).state = .pending := by
    intro d₀ f hf h
    by_cases hne : d = d₀
    · subst hne
      rw [Function.update_self] at h
      exact absurd h hf
    · rwa [Function.update_of_ne hne] at h
  cases x with
  | run pc o =>
    obtain ⟨pool, -, hx⟩ := run_cases hs
    cases hx with
    -- the attach routine that made the frame pending goes on to see whether a listen is due
    | attachPublished => exact .inr (Multiset.mem_cons_self _ _)
    | attachDraining _ _ hdr =>
      rw [hd] at hdr
      cases hdr
    | attachFailed | attachFrameDone | detachFailed | detachDone | gaveBack | rejected
    | publishDraining | published => exact .inl (hother _ _ (fun h => by cases h) hp)
    | @acquired k i d₀ cookie =>
      refine .inl ?_
      by_cases hne : d = d₀
      · subst hne
        simpa using hp
      · simpa [hne] using hp
    | electLost | lapDone | workQueued | workQueue | workUndone =>
      rw [ret_cap] at hp
      exact .inl hp
    | _ => exact .inl hp
  | callback d₀ st =>
    obtain ⟨-, hx⟩ := callback_cases hs
    cases hx with
    | recycling => exact .inl (hother _ _ (fun h => by cases h) hp)
    | deferred => exact .inl (hother _ _ (fun h => by cases h) hp)
    | alreadyTaken => exact .inl hp
  | callPump k | callRequestWork k | startWork =>
    simp only [step] at hs
    split at hs <;> cases hs
    exact .inl hp
  | control r => cases hx

end Engine

namespace Ctl

/-- A run of the work item that has yet to look for something to retry. -/
def inRun : Ctl → Bool
  | .work pc => pc ≠ .requested
  | .listen r _ => r = .work
  | .quiesce r _ => r = .work ∨ r = .shutdown .work
  | .release r _ => r = .shutdown .work
  | .shutdown r _ => r = .work
  | _ => false

def accepted : Ctl → Bool
  | .listen r .set => r = .trigger
  | _ => false

/-- A software trigger's next step is the listen request. -/
def triggers : Ctl → Bool
  | .listen r .submit => r = .trigger
  | _ => false

end Ctl

namespace Device

/-- The engine runs on a device that is neither removed nor being torn down. -/
structure Active (s : Device) : Prop where
  alive : s.life = .alive
  running : s.eng.cap.draining = false
  present : s.ses.removed = false
  granted : s.eng.work.refused = false

/-- A run of the work item is under way or coming, or the retries are used up. -/
def Attended (s : Device) : Prop :=
  controlRetryMax ≤ s.ses.controlRetries ∨ s.eng.Owed ∨ s.ctl.inRun = true

/-- A software trigger's listen is accepted with the enable wanted only while a run of the
work item is coming or the retries are used up. -/
def TriggersOwed (s : Device) : Act → Prop
  | .ctl o => s.ctl.triggers = true → o.irb.succeeded = true → s.ses.enableWanted = true →
      controlRetryMax ≤ s.ses.controlRetries ∨ s.eng.Owed
  | _ => True

instance (s : Device) (a : Act) : Decidable (s.TriggersOwed a) :=
  match a with
  | .ctl _ => inferInstanceAs (Decidable (_ = true → _ = true → _ = true → _ ∨ _))
  | .run _ _ | .callback _ _ | .startWork | .callPump | .notifyCancel | .lateListen _ | .lateGrant _ _
  | .acquireMutex | .workMutex | .api _ | .releaseMutex => .isTrue trivial

end Device

/-- Every duty of the work item is attended to. -/
structure Watched (s : Device) : Prop where
  listen : s.Active → s.eng.cap.listening = false → ∀ d, (s.eng.cap.frames d).state = .pending →
    s.Attended
  enable : s.Active → s.eng.cap.listening = true ∨ s.ctl.accepted = true →
    s.ses.enableWanted = true → s.Attended

theorem Watched.of_draining {s : Device} (h : s.eng.cap.draining = true) : Watched s := by
  constructor <;> intro ha
  all_goals
    have := ha.running
    rw [h] at this
    cases this

theorem Watched.of_inRun {s : Device} (h : s.ctl.inRun = true) : Watched s :=
  ⟨fun _ _ _ _ => .inr (.inr h), fun _ _ _ => .inr (.inr h)⟩

theorem Watched.data {s : Device} {e : Engine} {x : Engine.Act} {cancelPending : Bool}
    (h : Watched s) (hc : Coalesced s.eng.work s.eng.pool) (hx : x.IsData)
    (hs : s.eng.step x = some e) :
    Watched { s with eng := e, ses := { s.ses with cancelPending := cancelPending } } := by
  have hsame := Engine.data_sameControl hx hs
  have hactive : e.work.refused = false → e.cap.draining = false → s.life = .alive →
      s.ses.removed = false → s.Active := fun hr hd hl hp =>
    ⟨hl, hsame.draining ▸ hd, hp, Engine.data_refused hx hs hr⟩
  have hatt : e.work.refused = false → s.Attended →
      Device.Attended { s with eng := e, ses := { s.ses with cancelPending := cancelPending } } :=
    fun hr ha => ha.imp id fun ha => ha.imp (fun ho => ho.data hc hx hs hr) id
  refine ⟨fun ha hl d hp => ?_, fun ha hl hw => ?_⟩
  · have hact := hactive ha.granted ha.running ha.alive ha.present
    have hl : s.eng.cap.listening = false := hsame.listening ▸ hl
    rcases Engine.data_pending hx hs hact.running hp with hp | hm
    · exact hatt ha.granted (h.listen hact hl d hp)
    · exact .inr (.inl (.inr ⟨_, hm, by simp [Pc.brings, hl]⟩))
  · have hact := hactive ha.granted ha.running ha.alive ha.present
    exact hatt ha.granted (h.enable hact (hl.imp (fun h => hsame.listening ▸ h) id) hw)

theorem Watched.moves {s s' : Device} {o : Answer} (h : Watched s) (hm : Moded s) (hd : Disabled s)
    (hp : Placed s.eng.cap s.eng.pool) (ht : s.TriggersOwed (.ctl o))
    (hx : Device.Moves s o s.ctl s') : Watched s' := by
  have hmode := hm.mode
  have hset := hm.settled
  have hoff := hd.off
  generalize hctl : s.ctl = c at hx hmode hset hoff
  have back : ∀ t : Device, t.Active → t.life = s.life → t.eng.cap.draining = s.eng.cap.draining →
      t.eng.work = s.eng.work → t.ses.removed = s.ses.removed → s.Active :=
    fun t ha hl hd hw hr => ⟨hl ▸ ha.alive, hd ▸ ha.running, hr ▸ ha.present, hw ▸ ha.granted⟩
  have forth : ∀ t : Device, t.eng.work = s.eng.work → s.eng.pool ⊆ t.eng.pool →
      t.ses.controlRetries = s.ses.controlRetries → (c.inRun = true → t.ctl.inRun = true) →
      s.Attended → t.Attended := by
    rintro t hw hpool hn hin (ha | ha | ha)
    · exact .inl (by rwa [hn])
    · exact .inr (.inl (ha.mono hw hpool))
    · exact .inr (.inr (hin (hctl ▸ ha)))
  -- a step of the executor that changes nothing the duties depend on
  have keep : ∀ t : Device, t.life = s.life → t.eng.cap = s.eng.cap → t.eng.work = s.eng.work →
      s.eng.pool ⊆ t.eng.pool → t.ses.removed = s.ses.removed →
      t.ses.enableWanted = s.ses.enableWanted → t.ses.controlRetries = s.ses.controlRetries →
      (c.inRun = true → t.ctl.inRun = true) → t.ctl.accepted = false → Watched t := by
    intro t hl hc hw hpool hr he hn hin hacc
    have hact := fun ha => back t ha hl (congrArg Capture.draining hc) hw hr
    have hatt := forth t hw hpool hn hin
    refine ⟨fun ha hl d hd => ?_, fun ha hl hwant => ?_⟩
    · rw [hc] at hl hd
      exact hatt (h.listen (hact ha) hl d hd)
    · rw [hc] at hl
      rw [he] at hwant
      refine hatt (h.enable (hact ha) (.inl (hl.resolve_right ?_)) hwant)
      rw [hacc]
      nofun
  cases hx with
  | quiesceDrain => exact .of_draining rfl
  | quiesceSettled hd | stopSettled hd | workSettled hd | startRetry _ _ hd | startFresh _ _ hd =>
    exact .of_draining hd
  | quiesceStop | releaseStop | releaseFree => exact .of_draining (by simpa using hmode true rfl)
  | @startAllocated eb res =>
    refine .of_draining ?_
    cases res <;> exact hmode true rfl
  | startNotConfigured hpc => rcases hpc with rfl | rfl <;> exact .of_draining (hmode true rfl)
  | quiesceClearListening | quiesceNoneLeft | quiesceClaim | quiesceClaimed | quiesceClearEvent
  | quiesceDrained | quiesceBusy | quiesceWait | quiesceEmpty | quiesceAgain | quiescePumpIdle
  | quiesceReturns | releaseListening | releaseStopped | releaseClearListening | releaseNothing
  | releaseHeld | releaseGuarded | releaseQuarantined | releaseSkip | releaseScanned
  | releaseDelivered | releaseReturns | shutdownReturns | stopPumpIdle | stopRetry | stopNoRetry
  | stopReturns | startQuarantined | startRetried | startConfigured | startChunks
  | startNotAllocated | startChannelSet | startChannelNotSet | startClearFirst | startClearCancel
  | workShutdown => exact .of_draining (hmode true rfl)
  | startUndrain =>
    -- nothing is attached yet, and no enable is on record
    have hnone := hset (hmode true rfl) rfl
    refine ⟨fun _ _ d hpend => absurd hpend ((hp d).not_pending hnone), fun _ _ hw => ?_⟩
    have hno : s.ses.enableWanted = false := (hoff rfl).1
    rw [show s.ses.enableWanted = true from hw] at hno
    cases hno
  | workEnter | workCancel | workNoCancel | workQuiesce | workResume | workPump | workPumped
  | workEnabled | workNotEnabled => exact .of_inRun rfl
  | workNoEngine hl =>
    constructor <;> intro ha
    all_goals exact absurd ha.alive hl
  | workRequest =>
    constructor <;> intros
    all_goals exact .inr (.inl (.inr ⟨_, Multiset.mem_cons_self _ _, rfl⟩))
  | workGiveUp hc =>
    constructor <;> intros
    all_goals exact .inl hc
  | workDone hdone =>
    have hnot : s.ses.removed = false → s.retryListen = false ∧ s.retryEnable = false := by
      intro hr
      rw [hr] at hdone
      exact hdone.resolve_right nofun
    refine ⟨fun ha hl d hpend => ?_, fun ha hl hw => ?_⟩
    · have hno := (hnot ha.present).1
      have hdr : s.eng.cap.draining = false := ha.running
      have hls : s.eng.cap.listening = false := hl
      have hnone : s.eng.cap.pendingList = [] := by simpa [Device.retryListen, hdr, hls] using hno
      exact absurd hpend ((hp d).not_pending hnone)
    · have hno := (hnot ha.present).2
      have hls : s.eng.cap.listening = true := hl.resolve_right nofun
      have hw : s.ses.enableWanted = true := hw
      simp [Device.retryEnable, hls, hw] at hno
  | workRequested => exact keep _ rfl rfl rfl (fun _ => id) rfl rfl rfl nofun rfl
  | @shutdownPublish r => exact keep _ rfl rfl rfl (fun _ => id) rfl rfl rfl id rfl
  | @shutdownDisable r =>
    refine ⟨fun ha hl d hpend => ?_, fun _ _ hw => by cases hw⟩
    refine forth _ rfl (fun _ => id) rfl (fun hin => ?_) (h.listen (back _ ha rfl rfl rfl rfl) hl d hpend)
    cases r <;> simp_all [Ctl.inRun]
  | stopPublish | stopNoEngine | stopRunning =>
    exact keep _ rfl rfl rfl (fun _ => id) rfl rfl rfl nofun rfl
  | @listenSubmit r hok =>
    cases r with
    | start eb => exact keep _ rfl rfl rfl (fun _ => id) rfl rfl rfl nofun rfl
    | work => exact .of_inRun rfl
    | trigger =>
      refine ⟨fun ha hl d hpend => ?_, fun ha _ hw => ?_⟩
      · exact forth _ rfl (fun _ => id) rfl nofun (h.listen (back _ ha rfl rfl rfl rfl) hl d hpend)
      · exact (ht (by rw [hctl]; rfl) hok hw).imp id .inl
  | @listenSet r =>
    cases r with
    | start eb =>
      refine ⟨fun _ hl => (by cases hl), fun _ _ hw => ?_⟩
      have hno : s.ses.enableWanted = false := (hoff rfl).1
      rw [show s.ses.enableWanted = true from hw] at hno
      cases hno
    | work => exact .of_inRun rfl
    | trigger =>
      refine ⟨fun _ hl => (by cases hl), fun ha _ hw => ?_⟩
      have hatt := h.enable (back _ ha rfl rfl rfl rfl) (.inr (by rw [hctl]; rfl)) hw
      exact forth _ rfl (fun _ => id) rfl nofun hatt
  | @listenNothing r _ hpc | @listenTimeout r | @listenFailed r =>
    cases r with
    | start eb => exact keep _ rfl rfl rfl (fun _ => id) rfl rfl rfl nofun rfl
    | work => exact .of_inRun rfl
    | trigger => exact keep _ rfl rfl rfl (fun _ => id) rfl rfl rfl nofun rfl
  | listenCheck | listenSignalled | listenRecheck =>
    exact keep _ rfl rfl rfl (fun _ => id) rfl rfl rfl id rfl
  | startRefused | startRunning | startPumped | startOneShot | startEnabled | startNotEnabled
  | startPublish => exact keep _ rfl rfl rfl (fun _ => id) rfl rfl rfl nofun rfl
  | startPump =>
    exact keep _ rfl rfl rfl (fun _ => Multiset.mem_cons_of_mem) rfl rfl rfl nofun rfl
  | startDeferred _ hls =>
    refine ⟨fun ha hl d hpend => ?_, fun _ hl _ => ?_⟩
    · exact forth _ rfl (fun _ => id) rfl nofun (h.listen (back _ ha rfl rfl rfl rfl) hl d hpend)
    · have hl : s.eng.cap.listening = true := hl.resolve_right nofun
      rw [hls] at hl
      cases hl

theorem Watched.keep {s s' : Device} (h : Watched s) (hl : s'.life = s.life) (he : s'.eng = s.eng)
    (hr : s'.ses.removed = s.ses.removed) (hw : s'.ses.enableWanted = s.ses.enableWanted)
    (hn : s'.ses.controlRetries = s.ses.controlRetries) (hin : s.ctl.inRun = true → s'.ctl.inRun = true)
    (hacc : s'.ctl.accepted = true → s.ctl.accepted = true) : Watched s' := by
  have hact : s'.Active → s.Active := fun ha =>
    ⟨hl ▸ ha.alive, he ▸ ha.running, hr ▸ ha.present, he ▸ ha.granted⟩
  have hatt : s.Attended → s'.Attended := by
    rintro (ha | ha | ha)
    · exact .inl (by rwa [hn])
    · exact .inr (.inl (he ▸ ha))
    · exact .inr (.inr (hin ha))
  refine ⟨fun ha hls d hd => ?_, fun ha hls hwant => ?_⟩
  · rw [he] at hls hd
    exact hatt (h.listen (hact ha) hls d hd)
  · rw [he] at hls
    rw [hw] at hwant
    exact hatt (h.enable (hact ha) (hls.imp id hacc) hwant)

theorem Watched.steps {s s' : Device} {a : Device.Act} (h : Watched s) (hm : Moded s)
    (hd : Disabled s) (he : Engine.machine.Reachable s.eng) (ht : s.TriggersOwed a)
    (hs : Device.Steps s a s') : Watched s' := by
  have hc := Coalesced.of_reachable he
  cases hs with
  | data ha hx => exact h.data hc (Device.Act.isData ha) hx
  | notifyCancel _ hx => exact h.data hc (x := .callRequestWork .handler) rfl hx
  | workMutex => exact .of_inRun rfl
  | destroyLeak | destroy =>
    constructor <;> intro ha
    all_goals exact absurd ha.alive nofun
  | surpriseRemoval =>
    constructor <;> intro ha
    all_goals exact absurd ha.present nofun
  | destroyNone => exact h
  | lateListen | lateGrant | setState | setOneShot => exact h.keep rfl rfl rfl rfl rfl id id
  | acquireMutex hctl | releaseMutex hctl | start hctl | stop hctl | ensureListen hctl =>
    exact h.keep rfl rfl rfl rfl rfl (by rw [hctl]; nofun) nofun
  | ctl hx => exact h.moves hm hd (.of_reachable he) ht hx

namespace Device

theorem watched_of_reaches {s : Device} (h : machine.Reaches TriggersOwed s) : Watched s := by
  refine h.invariant (I := Watched) (Watched.of_draining rfl) ?_
  intro s a s' hr hi hp hs
  exact hi.steps (.of_reaches hr) (.of_reaches hr) (engine_reachable hr) hp (.of_step hs)

end Device

def Pc.works : Pc → Bool
  | .worker _ => true
  | _ => false

namespace Device

/-- No pump lap, completion routine or worker runs, no attach or detach IRP is
outstanding, and no work item is queued. -/
structure Quiescent (s : Device) : Prop where
  noLap : s.eng.cap.pumpActive = false
  noRoutine : Pool.Free Pc.inCompletion s.eng.pool
  noWorker : Pool.Free Pc.works s.eng.pool ∧ s.ctl.inRun = false ∧ s.ctl ≠ .work .requested
  noItem : s.eng.work.controlWorkQueued = false ∧ s.eng.work.workItems = 0

theorem Quiescent.retries_of_attended {s : Device} (h : s.Quiescent) (hc : Called s.ctl s.eng.pool)
    (ha : s.Attended) : controlRetryMax ≤ s.ses.controlRetries := by
  rcases ha with ha | (ha | ⟨pc, hpc, hb⟩) | ha
  · exact ha
  · rw [h.noItem.1] at ha
    cases ha
  · have hno := h.noRoutine pc hpc
    cases pc with
    | attachLive => cases hno
    | worker => exact absurd (h.noWorker.1 _ hpc) nofun
    | requestWork k pc =>
      cases k with
      | completion => cases hno
      | handler => cases pc <;> cases hb
      | control =>
        -- the worker is still inside its own request
        have hctl := hc _ hpc .requestWork rfl
        refine absurd ?_ h.noWorker.2.2
        revert hctl
        generalize s.ctl = c
        intro hctl
        cases c with
        | work pc => cases pc <;> first | rfl | cases hctl
        | start eb pc | quiesce r pc | release r pc => cases pc <;> cases hctl
        | _ => cases hctl
    | _ => cases hb
  · rw [h.noWorker.2.1] at ha
    cases ha

def requeues (s s' : Device) : ℕ := if s.ctl = .work .retry ∧ s'.ctl = .work .requested then 1 else 0

/-- A run that finds nothing left to retry, or a start, is about to reset the counter. -/
def Succeeds (s : Device) : Prop :=
  (s.ctl = .work .retry ∧ ((s.retryListen = false ∧ s.retryEnable = false) ∨ s.ses.removed = true)) ∨
    ∃ eb, s.ctl = .start eb .clearFirst

/-- Steps from `s` that never lower the retry counter, with `n` runs that queued
themselves again among them. -/
inductive Stall (s : Device) : ℕ → Device → Prop
  | refl : Stall s 0 s
  | step {n : ℕ} {t t' : Device} {a : Act} : Stall s n t → machine.step t a = some t' →
      t.ses.controlRetries ≤ t'.ses.controlRetries → Stall s (n + t.requeues t') t'

inductive Counts (s s' : Device) : Prop
  | same (h : s'.ses.controlRetries = s.ses.controlRetries) (hr : s.requeues s' = 0)
  | again (hn : s.ses.controlRetries < controlRetryMax)
      (h : s'.ses.controlRetries = s.ses.controlRetries + 1) (hr : s.requeues s' = 1)
  | reset (h : s'.ses.controlRetries = 0) (hs : s.Succeeds) (hr : s.requeues s' = 0)

theorem Moves.counts {s s' : Device} {o : Answer} (hx : Moves s o s.ctl s') : s.Counts s' := by
  generalize hctl : s.ctl = c at hx
  -- only the retry test of the work item goes on behind its own request
  have same : ∀ t : Device, t.ses.controlRetries = s.ses.controlRetries → t.ctl ≠ .work .requested →
      s.Counts t := fun t h ht => .same h (if_neg fun hr => ht hr.2)
  cases hx with
  | workRequest _ _ hc => exact .again hc rfl (if_pos ⟨hctl, rfl⟩)
  | workDone h => exact .reset rfl (.inl ⟨hctl, h⟩) (if_neg fun hr => by cases hr.2)
  | startClearFirst => exact .reset rfl (.inr ⟨_, hctl⟩) (if_neg fun hr => by cases hr.2)
  | quiesceStop | releaseStop => exact same _ (by simp) (by rintro ⟨⟩)
  | @releaseFree r res =>
    refine same _ ?_ (by cases res <;> rintro ⟨⟩)
    simp only [goto_ses, freeOne]
    split
    · cases res <;> rfl
    · rfl
  | @startAllocated eb res => cases res <;> exact same _ rfl (by rintro ⟨⟩)
  | quiesceDrain | startChunks =>
    refine same _ rfl ?_
    simp only [setCap_ctl]
    split <;> rintro ⟨⟩
  | @quiesceSettled r _ | @quiesceReturns r | @releaseHeld r _ | @releaseReturns r
  | @shutdownReturns r | @listenNothing r _ _ _ | @listenTimeout r _ | @listenFailed r _
  | @listenSet r => exact same _ rfl (by cases r <;> rintro ⟨⟩)
  | _ => exact same _ rfl (by rintro ⟨⟩)

theorem Steps.counts {s s' : Device} {a : Act} (hs : Steps s a s') : s.Counts s' := by
  have same : ∀ t : Device, t.ses.controlRetries = s.ses.controlRetries →
      s.ctl ≠ .work .retry ∨ t.ctl ≠ .work .requested → s.Counts t := by
    intro t h ht
    refine .same h (if_neg fun hr => ?_)
    exact ht.elim (fun h => h hr.1) (fun h => h hr.2)
  have still : ∀ c : Ctl, c ≠ .work .retry ∨ c ≠ .work .requested := by
    intro c
    by_cases hc : c = .work .retry
    · exact .inr (by rw [hc]; nofun)
    · exact .inl hc
  cases hs with
  | ctl hx => exact hx.counts
  | data | notifyCancel | lateListen | lateGrant | destroyNone | destroyLeak | destroy | setState
  | setOneShot =>
    exact same _ rfl (still s.ctl)
  | _ => exact same _ rfl (.inr nofun)

theorem retries_le {P : Device → Act → Prop} {s : Device} (h : machine.Reaches P s) :
    s.ses.controlRetries ≤ controlRetryMax := by
  refine h.invariant (I := fun s => s.ses.controlRetries ≤ controlRetryMax) (Nat.zero_le _) ?_
  intro s a s' _ hi _ hs
  cases (Steps.of_step hs).counts with
  | same h => omega
  | again hn h => omega
  | reset h => omega

theorem Stall.retries {s t : Device} {n : ℕ} (h : Stall s n t) :
    t.ses.controlRetries = s.ses.controlRetries + n := by
  induction h with
  | refl => rfl
  | step _ hs hle ih =>
    cases (Steps.of_step hs).counts with
    | same h hr => omega
    | again hn h hr => omega
    | reset h _ hr => omega

theorem Stall.reaches {P : Device → Act → Prop} {s t : Device} {n : ℕ} (hs : machine.Reaches P s)
    (h : Stall s n t) : machine.Reachable t := by
  induction h with
  | refl => exact hs.reachable
  | step _ hs _ ih => exact ih.step trivial hs

theorem Moves.work_eq {s s' : Device} {o : Answer} {c : Ctl} (hx : Moves s o c s') :
    s'.eng.work = s.eng.work := by
  cases hx with
  | quiesceStop | releaseStop => simp
  | @releaseFree r res => simp
  | @startAllocated eb res => cases res <;> rfl
  | _ => rfl

theorem Steps.flag {s s' : Device} {a : Act} (hs : Steps s a s')
    (h : Coalesced s.eng.work s.eng.pool) (hf : s.eng.work.controlWorkQueued = true)
    (hr : s'.eng.work.refused = false) :
    s'.eng.work.controlWorkQueued = true ∨ .worker .wait ∈ s'.eng.pool := by
  cases hs with
  | data _ hx | notifyCancel _ hx => exact Engine.Coalesced.flag_step h hf hx hr
  | ctl hx => exact .inl (by rw [hx.work_eq, hf])
  | workMutex _ he =>
    simp only [Engine.region] at he
    split at he <;> cases he
    exact .inl hf
  | _ => exact .inl hf

/-- A request for the work item is never dropped: behind the exchange of a granted
request a run that has not begun is to come, and it stays so until a worker that waits
for the mutex takes it over. -/
theorem runOwed_of_exchange {s s' : Device} {k : Caller} {o : Oracle} (h : machine.Reachable s)
    (hs : machine.step s (.run (.requestWork k .exchange) o) = some s')
    (hr : s'.eng.work.refused = false) : s'.eng.RunOwed := by
  have he : Engine.machine.Reachable s'.eng := engine_reachable (h.step trivial hs)
  obtain ⟨e, hx, rfl⟩ := data_eq hs
  refine Engine.Coalesced.runOwed (Coalesced.of_reachable he) ?_ hr
  obtain ⟨pool, -, hx⟩ := Engine.run_cases hx
  cases hx with
  | workQueued hf => rw [Engine.ret_work, hf]
  | workTaken => rfl

theorem runOwed_step {s s' : Device} {a : Act} (h : machine.Reachable s) (ho : s.eng.RunOwed)
    (hs : machine.step s a = some s') (hr : s'.eng.work.refused = false) :
    s'.eng.RunOwed ∨ .worker .wait ∈ s'.eng.pool := by
  have hc : Coalesced s.eng.work s.eng.pool := .of_reachable (engine_reachable h)
  refine ((Steps.of_step hs).flag hc (Engine.Coalesced.flag hc ho) hr).imp (fun hf => ?_) id
  exact Engine.Coalesced.runOwed (.of_reachable (engine_reachable (h.step trivial hs))) hf hr

/-- In every run whose triggers find a run coming or no enable wanted, a quiescent running
engine listens if a buffer is attached and wants no enable if it listens, until the
retries are used up; a request for the work item brings a run that has not begun, which
stays to come until a worker waits for the mutex; and without a success in between no more runs than the cap queue themselves again. -/
theorem no_lost_work {s : Device} (h : machine.Reaches TriggersOwed s) :
    (s.Quiescent → s.Active → s.ses.controlRetries < controlRetryMax →
      (∀ d, (s.eng.cap.frames d).state = .pending → s.eng.cap.listening = true) ∧
        (s.eng.cap.listening = true → s.ses.enableWanted = false)) ∧
      (∀ k o s', machine.step s (.run (.requestWork k .exchange) o) = some s' →
        s'.eng.work.refused = false → s'.eng.RunOwed) ∧
      (∀ a s', s.eng.RunOwed → machine.step s a = some s' → s'.eng.work.refused = false →
        s'.eng.RunOwed ∨ .worker .wait ∈ s'.eng.pool) ∧
      (∀ n t, Stall s n t → n ≤ controlRetryMax) ∧
      ∀ a s', machine.step s a = some s' → s'.ses.controlRetries < s.ses.controlRetries →
        s.Succeeds := by
  refine ⟨fun hq ha hn => ?_, fun k o s' hs hr => runOwed_of_exchange h.reachable hs hr,
    fun a s' ho hs hr => runOwed_step h.reachable ho hs hr, ?_, ?_⟩
  · have hw := watched_of_reaches h
    -- at rest nobody attends to the engine, unless the retries are used up
    have hno : ¬s.Attended := fun hatt => by
      have := hq.retries_of_attended (.of_reaches h) hatt
      omega
    refine ⟨fun d hd => ?_, fun hl => ?_⟩
    · by_contra hl
      exact hno (hw.listen ha (by simpa using hl) d hd)
    · by_contra he
      exact hno (hw.enable ha (.inl hl) (by simpa using he))
  · intro n t hst
    have hle := retries_le (hst.reaches h)
    have heq := hst.retries
    omega
  · intro a s' hs hlt
    cases (Steps.of_step hs).counts with
    | same heq => omega
    | again hn heq => omega
    | reset heq hsucc => exact hsucc

/-- A start whose listen is given up on, so that the enable is left to the work item. -/
def deferredRun : List Act :=
  startRun ++ [Act.runs (.attachAtBus 0), .runs (.attachComplete 0 statusSuccess 7),
    .runs (.attachLive true), .runs (.requestWork .completion .exchange),
    .runs (.requestWork .completion .acquireLock), .runs (.requestWork .completion .queue),
    .runs .irpDone, .runs .irpDoneTest] ++ List.replicate 4 Act.go ++ [Act.goWith .abandoned, .go, .go,
    .releaseMutex]

theorem no_lost_work_listeningRun :
    let s := machine.after TriggersOwed (listeningRun ++
      [.startWork, .runs (.worker .clear), .workMutex] ++ List.replicate 5 .go)
    (∀ d, (s.eng.cap.frames d).state = .pending → s.eng.cap.listening = true) ∧
      (s.eng.cap.listening = true → s.ses.enableWanted = false) := by
  intro s
  have hctl : s.ctl = .free := by decide
  have hpool : s.eng.pool = 0 := by decide
  have hq : s.Quiescent :=
    ⟨by decide, hpool ▸ Pool.free_zero, ⟨hpool ▸ Pool.free_zero, by rw [hctl]; rfl, by rw [hctl]; nofun⟩,
      by decide⟩
  have ha : s.Active := ⟨by decide, by decide, by decide, by decide⟩
  exact (no_lost_work (machine.reaches_after TriggersOwed _)).1 hq ha (by decide)

/-- The given-up listen takes effect and the first frame completes, a run of the work item
finds no buffer attached, and a trigger listens while the next attach is at the bus. -/
def lostEnableRun : List Act :=
  deferredRun ++ [Act.lateListen 1, .callback 0 statusSuccess, .runs (.beginDetach .handler 0),
    .runs (.detachAtBus 0), .runs (.detachComplete 0 statusSuccess 7 8 statusSuccess),
    .runs (.detachDeliver 7 8 statusSuccess), .runs (.pump .completion .elect),
    .runs (.pump .completion .top), .runs (.pump .completion (.claim 0)),
    .runs (.pump .completion (.acquire 0 1)), .runs (.pump .completion (.giveBack 1)),
    .runs (.pump .completion .bottom), .runs .irpDone, .runs .irpDoneTest, .startWork,
    .runs (.worker .clear), .workMutex] ++ List.replicate 5 Act.go ++ [Act.callPump] ++ lapRun .handler 1 2 9 ++
    [Act.acquireMutex, .api .ensureListen] ++ List.replicate 5 Act.go ++
    [Act.releaseMutex, .runs (.attachAtBus 1), .runs (.attachComplete 1 statusSuccess 9),
      .runs (.attachLive false), .runs .irpDone, .runs .irpDoneTest]

/-- The engine listens, and nothing will enable the camera. -/
theorem enable_lost : ¬∀ s, machine.Reaches HeedsStop s → s.Quiescent → s.Active →
    s.ses.controlRetries < controlRetryMax → s.eng.cap.listening = true →
      s.ses.enableWanted = false := by
  intro h
  have hctl : (machine.after HeedsStop lostEnableRun).ctl = .free := by decide
  have hpool : (machine.after HeedsStop lostEnableRun).eng.pool = 0 := by decide
  have hq : (machine.after HeedsStop lostEnableRun).Quiescent :=
    ⟨by decide, hpool ▸ Pool.free_zero, ⟨hpool ▸ Pool.free_zero, by rw [hctl]; rfl, by rw [hctl]; nofun⟩,
      by decide⟩
  have ha : (machine.after HeedsStop lostEnableRun).Active :=
    ⟨by decide, by decide, by decide, by decide⟩
  have := h _ (machine.reaches_after HeedsStop lostEnableRun) hq ha (by decide) (by decide)
  exact absurd this (by decide)

end Device
end Photonic
