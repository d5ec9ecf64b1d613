import Photonic.Session.Binding
import Photonic.Session.Quiesce

namespace Photonic

namespace Ctl

/-- Points on the way to a running engine, or of a quiesce that the engine resumes from. -/
def opened : Ctl → Bool
  | .start _ pc =>
    match pc with
    | .clearFirst | .clearCancel | .undrain => true
    | _ => false
  | .quiesce r _ => r = .work
  | .work .decide => true
  | _ => false

def pastStop : Ctl → Bool
  | .quiesce _ pc =>
    match pc with
    | .clearListening | .claim | .claimed | .clearEvent | .poll | .wait | .check => true
    | .enter | .isochStop | .pumpIdle | .clearFirst => false
  | _ => false

theorem pastStop_of_awaits {c : Ctl} (h : c.awaits = some .detach) : c.pastStop = true := by
  cases c with
  | quiesce r pc => cases pc <;> first | rfl | cases h
  | start eb pc | release r pc | work pc => cases pc <;> cases h
  | _ => cases h

def isStop : Ctl → Bool
  | .quiesce _ .isochStop => true
  | _ => false

end Ctl

namespace Device

def Opened (s : Device) : Prop :=
  s.eng.cap.draining = false ∨ s.ctl.opened = true → s.ses.resourceAllocated = true

theorem Opened.moves {s s' : Device} {o : Answer} (h : s.Opened) (hm : Moded s)
    (hx : Moves s o s.ctl s') : s'.Opened := by
  have hmode := hm.mode
  have keep : ∀ t : Device, t.eng.cap.draining = s.eng.cap.draining →
      t.ses.resourceAllocated = s.ses.resourceAllocated →
      (t.ctl.opened = true → s.eng.cap.draining = false ∨ s.ctl.opened = true) → t.Opened := by
    intro t hd hr ho hopen
    rw [hr]
    refine h (hopen.elim (fun h => .inl (hd ▸ h)) ho)
  have hopen : s.ctl.opened = true → s.ses.resourceAllocated = true := fun hc => h (.inr hc)
  generalize s.ctl = c at hx hmode keep hopen
  cases hx with
  | quiesceDrain hd => exact fun _ => h (.inl hd)
  | startUndrain | workResume => exact fun _ => hopen rfl
  -- the handle is freed in a release, which only a draining engine comes to
  | @releaseFree r res flushed =>
    intro ho
    have hd : s.eng.cap.draining = true := hmode true rfl
    rcases ho with ho | ho
    · simp [hd] at ho
    · cases res <;> cases ho
  | @startAllocated eb res =>
    cases res with
    | handle => exact fun _ => rfl
    | channel | bandwidth => exact keep _ rfl rfl nofun
  | quiesceStop | releaseStop =>
    exact keep _ (by simp) (by simp) fun ho => .inr ho
  | workQuiesce hd => exact keep _ rfl rfl fun _ => .inl hd
  | startChunks =>
    refine keep _ rfl rfl fun ho => ?_
    simp only [setCap_ctl] at ho
    split at ho <;> cases ho
  | @quiesceSettled r _ | @quiesceReturns r =>
    cases r with
    | shutdown r => exact keep _ rfl rfl nofun
    | work => exact keep _ rfl rfl fun _ => .inr rfl
  | @releaseHeld r _ | @releaseReturns r | @shutdownReturns r | @listenNothing r _ _ _
  | @listenTimeout r _ | @listenFailed r _ | @listenSet r =>
    cases r <;> exact keep _ rfl rfl nofun
  | startNotConfigured | workShutdown => exact keep _ rfl rfl nofun
  | _ => exact keep _ rfl rfl fun ho => .inr ho

theorem Opened.steps {s s' : Device} {a : Act} (h : s.Opened) (hm : Moded s) (hs : Steps s a s') :
    s'.Opened := by
  cases hs with
  | data ha hx =>
    have hd := (Engine.data_sameControl (Act.isData ha) hx).draining
    exact fun ho => h (ho.imp (fun h => hd ▸ h) id)
  | notifyCancel _ hx =>
    have hd := (Engine.data_sameControl (a := .callRequestWork .handler) rfl hx).draining
    exact fun ho => h (ho.imp (fun h => hd ▸ h) id)
  | workMutex _ he =>
    simp only [Engine.region] at he
    split at he <;> cases he
    exact fun ho => h (ho.imp id (by rintro ⟨⟩))
  | ctl hx => exact h.moves hm hx
  | acquireMutex | releaseMutex | start | stop | ensureListen | surpriseRemoval =>
    exact fun ho => h (ho.imp id (by rintro ⟨⟩))
  | _ => exact h

theorem Opened.of_reaches {P : Device → Act → Prop} {s : Device} (h : machine.Reaches P s) :
    s.Opened :=
  h.invariant (by rintro (h | h) <;> cases h) fun _ _ _ hr hi _ hs =>
    hi.steps (.of_reaches hr) (.of_step hs)

end Device

theorem Engine.Exec.control_detach {e e' : Engine} {pc : Pc} {d : FrameId} (hx : Engine.Exec e pc e')
    (h : Pc.beginDetach .control d ∈ e'.pool) : Pc.beginDetach .control d ∈ e.pool := by
  cases hx with
  | electLost | lapDone | workQueued | workQueue | workUndone =>
    rw [Engine.ret_pool] at h
    split at h <;> simpa using h
  | irpDoneMore | irpDoneRunning | irpDoneSignal | releaseDeliver => exact h
  | attachBegun => simpa using h
  | _ => simpa using h

theorem Engine.data_control_detach {e e' : Engine} {x : Engine.Act} {d : FrameId} (hx : x.IsData)
    (hs : e.step x = some e') (h : Pc.beginDetach .control d ∈ e'.pool) :
    Pc.beginDetach .control d ∈ e.pool := by
  cases x with
  | run pc o =>
    obtain ⟨pool, hpool, hx⟩ := Engine.run_cases hs
    rw [hpool]
    exact Multiset.mem_cons_of_mem (hx.control_detach h)
  | callback d₀ st =>
    obtain ⟨-, hx⟩ := Engine.callback_cases hs
    cases hx with
    | recycling => simpa using h
    | deferred => exact h
    | alreadyTaken => exact h
  | callPump k | callRequestWork k | startWork =>
    simp only [Engine.step] at hs
    split at hs <;> cases hs
    simpa using h
  | control r => cases hx

namespace Device

/-- The buffers the quiesce is detaching are attached to the current handle. -/
def DetachesBound (s : Device) : Prop :=
  ∀ d, Pc.beginDetach .control d ∈ s.eng.pool → s.eng.Bound d

theorem Moves.claims {s s' : Device} {o : Answer} {c : Ctl} (hx : Moves s o c s')
    (ha : s'.ctl.awaits = some .detach) :
    ∃ r d, s.eng.cap.firstPending = some d ∧ s' = s.claim d (.quiesce r .claimed) := by
  cases hx with
  | @quiesceClaim r d hf => exact ⟨r, d, hf, rfl⟩
  | @startAllocated eb res => cases res <;> cases ha
  | @quiesceSettled r _ | @quiesceReturns r | @releaseHeld r _ | @releaseReturns r
  | @shutdownReturns r | @listenNothing r _ _ _ | @listenTimeout r _ | @listenFailed r _
  | @listenSet r => cases r <;> cases ha
  | @releaseFree r res | @releaseNothing r res => cases res <;> cases ha
  | quiesceDrain | startChunks =>
    simp only [setCap_ctl] at ha
    split at ha <;> cases ha
  | _ => cases ha

theorem DetachesBound.of_not_awaits {s : Device} (hc : Called s.ctl s.eng.pool)
    (ha : s.ctl.awaits ≠ some .detach) : s.DetachesBound :=
  fun _ hm => absurd (hc _ hm .detach rfl) ha

theorem DetachesBound.steps {s s' : Device} {a : Act} (h : s.DetachesBound)
    (hc : Called s.ctl s.eng.pool) (ht : Tied s.eng)
    (hi : Informed s.eng.cap.frames s.eng.bus s.eng.pool) (hs : Steps s a s') : s'.DetachesBound := by
  have hc' := hc.steps hs
  cases hs with
  | data ha hx =>
    exact fun d hm => Engine.data_keeps_bound (Act.isData ha) hx
      (h d (Engine.data_control_detach (Act.isData ha) hx hm))
  | notifyCancel _ hx =>
    exact fun d hm => Engine.data_keeps_bound (x := .callRequestWork .handler) rfl hx
      (h d (Engine.data_control_detach (x := .callRequestWork .handler) rfl hx hm))
  | ctl hx =>
    -- the control path detaches what it has just claimed, or nothing
    by_cases ha : s'.ctl.awaits = some .detach
    · obtain ⟨r, d₀, hf, rfl⟩ := hx.claims ha
      intro d hm
      have hb : s.eng.Bound d := by
        rcases Multiset.mem_cons.mp hm with heq | hm
        · cases heq
          exact ht.bound hi (.inl (Capture.state_of_firstPending hf))
        · exact h d hm
      exact ⟨hb.handle, hb.chunkEpoch⟩
    · exact .of_not_awaits hc' ha
  | lateListen | lateGrant | destroyNone | destroyLeak => exact h
  | destroy hctl | setState hctl | setOneShot hctl =>
    exact .of_not_awaits hc' (by rw [show _ = Ctl.held from hctl]; nofun)
  | _ => exact .of_not_awaits hc' nofun

theorem DetachesBound.of_reaches {P : Device → Act → Prop} {s : Device} (h : machine.Reaches P s) :
    s.DetachesBound := by
  refine h.invariant (I := DetachesBound) (fun d hm => absurd hm (Multiset.notMem_zero _)) ?_
  intro s a s' hr hi _ hs
  exact hi.steps (.of_reaches hr) (.of_reaches hr) (.of_reachable (engine_reachable hr)) (.of_step hs)

/-- The quiesce's stop request succeeds unless nothing listens, and no listen that was
given up on takes effect behind it. -/
def StopsFirst (s : Device) : Act → Prop
  | .ctl o => s.ctl.isStop = true → o.irb.succeeded = true ∨ s.eng.cap.resourceHandle ∉ s.bus.listening
  | .lateListen h => s.ctl.pastStop = true → h ≠ s.eng.cap.resourceHandle
  | _ => True

instance (s : Device) (a : Act) : Decidable (s.StopsFirst a) :=
  match a with
  | .ctl o => inferInstanceAs (Decidable
      (s.ctl.isStop = true → o.irb.succeeded = true ∨ s.eng.cap.resourceHandle ∉ s.bus.listening))
  | .lateListen h => inferInstanceAs (Decidable (s.ctl.pastStop = true → h ≠ s.eng.cap.resourceHandle))
  | .run _ _ | .callback _ _ | .startWork | .callPump | .notifyCancel | .lateGrant _ _ | .acquireMutex
  | .workMutex | .api _ | .releaseMutex => .isTrue trivial

/-- Past its stop request the quiesce finds the context idle. -/
def Stopped (s : Device) : Prop :=
  s.ctl.pastStop = true → s.eng.cap.resourceHandle ∉ s.bus.listening

theorem Stopped.moves {s s' : Device} {o : Answer} (h : s.Stopped) (ho : s.Opened)
    (hp : s.StopsFirst (.ctl o)) (hx : Moves s o s.ctl s') : s'.Stopped := by
  have keep : ∀ t : Device, t.eng.cap.resourceHandle = s.eng.cap.resourceHandle →
      t.bus.listening = s.bus.listening → s.ctl.pastStop = true → t.Stopped := by
    intro t hh hl hc _
    rw [hh, hl]
    exact h hc
  generalize hctl : s.ctl = c at hx keep
  cases hx with
  | quiesceStop =>
    intro _
    have hp := hp (by rw [hctl]; rfl)
    unfold isochStop
    split
    · simp [Bus.stop]
    · next hno => exact hp.resolve_left hno
  -- with resources allocated the quiesce goes to its stop request first
  | quiesceDrain hd =>
    intro hc
    simp [ho (.inl hd), Ctl.pastStop] at hc
  | quiesceClearListening | quiesceNoneLeft | quiesceClaim | quiesceClaimed | quiesceClearEvent
  | quiesceDrained | quiesceBusy | quiesceWait | quiesceAgain => exact keep _ rfl rfl rfl
  | @startAllocated eb res => cases res <;> exact nofun
  | startChunks =>
    intro hc
    simp only [setCap_ctl] at hc
    split at hc <;> cases hc
  | @quiesceSettled r _ | @quiesceReturns r | @releaseHeld r _ | @releaseReturns r
  | @shutdownReturns r | @listenNothing r _ _ _ | @listenTimeout r _ | @listenFailed r _
  | @listenSet r => cases r <;> exact nofun
  | _ => exact nofun

theorem Stopped.steps {s s' : Device} {a : Act} (h : s.Stopped) (ho : s.Opened)
    (hp : s.StopsFirst a) (hs : Steps s a s') : s'.Stopped := by
  cases hs with
  | data ha hx =>
    have hc := Engine.data_sameControl (Act.isData ha) hx
    exact fun hp => hc.resourceHandle ▸ h hp
  | notifyCancel _ hx =>
    have hc := Engine.data_sameControl (a := .callRequestWork .handler) rfl hx
    exact fun hp => hc.resourceHandle ▸ h hp
  | lateListen =>
    intro hc hm
    rcases List.mem_cons.mp hm with heq | hm
    · exact hp hc heq.symm
    · exact h hc hm
  | ctl hx => exact h.moves ho hp hx
  | lateGrant | destroyNone | destroyLeak | destroy | setState | setOneShot => exact h
  | _ => exact nofun

theorem Stopped.of_reaches {s : Device} (h : machine.Reaches StopsFirst s) : s.Stopped :=
  h.invariant nofun fun _ _ _ hr hi hp hs => hi.steps (.of_reaches hr) hp (.of_step hs)

/-- In every run whose quiesces stop what listens, and in which no listen that was given
up on takes effect behind such a stop, a detach request for a buffer whose frame has not
completed is issued for an idle context only. -/
theorem stops_before_detach {s s' : Device} {k : Caller} {d : FrameId} {o : Oracle}
    (h : machine.Reaches StopsFirst s) (hs : machine.step s (.run (.beginDetach k d) o) = some s')
    (hf : (s.eng.bus d).frameDone = false) : (s.eng.bus d).handle ∉ s.bus.listening := by
  have he := engine_reachable h
  have hm : Pc.beginDetach k d ∈ s.eng.pool := by
    obtain ⟨e, hx, -⟩ := data_eq hs
    obtain ⟨pool, hpool, -⟩ := Engine.run_cases hx
    exact hpool ▸ Multiset.mem_cons_self _ _
  -- elsewhere a frame is detached once it has completed
  have hk : k = .control := by
    by_contra hk
    have := ((Informed.of_reachable he).knows _ hm d .detach rfl hk).2
    rw [hf] at this
    cases this
  subst hk
  have hctl := (Called.of_reaches h) _ hm .detach rfl
  rw [(DetachesBound.of_reaches h d hm).handle]
  exact Stopped.of_reaches h (Ctl.pastStop_of_awaits hctl)

def claimRun (irb : IrbOutcome) : List Act :=
  listeningRun ++ [Act.acquireMutex, .api .stop] ++ List.replicate 5 Act.go ++ [Act.goWith irb, .go, .go]

theorem stops_before_detach_claimRun :
    let s := machine.after StopsFirst (claimRun (.completed statusSuccess))
    (s.eng.bus 0).frameDone = false ∧ (s.eng.bus 0).handle ∉ s.bus.listening := by
  have hs : (machine.step (machine.after StopsFirst (claimRun (.completed statusSuccess)))
      (.runs (.beginDetach .control 0))).isSome = true := by decide
  obtain ⟨s', hs⟩ := Option.isSome_iff_exists.mp hs
  have hf : ((machine.after StopsFirst (claimRun (.completed statusSuccess))).eng.bus 0).frameDone =
      false := by decide
  exact ⟨hf, stops_before_detach (machine.reaches_after StopsFirst _) hs hf⟩

/-- The stop request finds no memory, and the quiesce detaches from the running context. -/
theorem detaches_from_listening : ¬∀ s s' k d o, machine.Reaches HeedsStop s →
    machine.step s (.run (.beginDetach k d) o) = some s' → (s.eng.bus d).frameDone = false →
    (s.eng.bus d).handle ∉ s.bus.listening := by
  intro h
  have hs : (machine.step (machine.after HeedsStop (claimRun .noMemory))
      (.runs (.beginDetach .control 0))).isSome = true := by decide
  obtain ⟨s', hs⟩ := Option.isSome_iff_exists.mp hs
  have hm : ((machine.after HeedsStop (claimRun .noMemory)).eng.bus 0).handle ∈
      (machine.after HeedsStop (claimRun .noMemory)).bus.listening := by decide
  exact h _ s' .control 0 _ (machine.reaches_after HeedsStop _) hs (by decide) hm

end Device
end Photonic
