import Photonic.Session.Quiesce

namespace Photonic

namespace Pc

/-- A completion routine behind its decrement: it still reads `Draining` and may still
set the event. -/
@[simp] def lastTouch : Pc → Bool
  | .irpDoneTest => true
  | .irpDoneSignal => true
  | _ => false

/-- An IRP whose completion routine is to come, or a routine that has not returned. -/
def inCompletion : Pc → Bool
  | .attachAtBus _ => true
  | .detachAtBus _ => true
  | .attachComplete _ _ _ => true
  | .attachFailed _ _ => true
  | .attachLive _ => true
  | .irpDone => true
  | .irpDoneTest => true
  | .irpDoneSignal => true
  | .beginDetach _ _ => true
  | .detachComplete _ _ _ _ _ => true
  | .detachDeliver _ _ _ => true
  | .releaseDeliver _ => false
  | .pump k _ => k = .completion
  | .requestWork k _ => k = .completion
  | .worker _ => false

theorem inCompletion_cases {pc : Pc} (h : pc.inCompletion = true) :
    (∃ d, pc.owns = some (d, .attach) ∨ pc.owns = some (d, .detach)) ∨ pc.owesDecrement = true ∨
      pc.lastTouch = true := by
  cases pc with
  | attachAtBus d | attachComplete d _ _ => exact .inl ⟨d, .inl rfl⟩
  | detachAtBus d | beginDetach _ d | detachComplete d _ _ _ _ => exact .inl ⟨d, .inr rfl⟩
  | irpDoneTest | irpDoneSignal => exact .inr (.inr rfl)
  | attachFailed | attachLive | irpDone | detachDeliver => exact .inr (.inl rfl)
  | pump | requestWork => exact .inr (.inl h)
  | releaseDeliver | worker => cases h

end Pc

theorem Still.noCompletion {c : Capture} {pool : Multiset Pc} (h : Still c) (hp : Placed c pool)
    (hc : Counted c pool) (hl : Pool.Free Pc.lastTouch pool) : Pool.Free Pc.inCompletion pool := by
  intro pc hpc
  by_contra hin
  rcases Pc.inCompletion_cases (by simpa using hin) with ⟨d, ho⟩ | ho | ho
  · have := h.no_owner hp hc hpc d
    tauto
  · rw [h.not_owing hc hpc] at ho
    cases ho
  · rw [hl pc hpc] at ho
    cases ho

theorem Engine.Exec.noLastTouch {e e' : Engine} {pc : Pc} (h : Pool.Free Pc.lastTouch (pc ::ₘ e.pool))
    (ho : pc.owesDecrement = false) (hx : Engine.Exec e pc e') : Pool.Free Pc.lastTouch e'.pool := by
  have hpc := h.head
  have ht := h.tail
  cases hx with
  | irpDoneLast | irpDoneMore => cases ho
  | irpDoneDraining | irpDoneRunning | irpDoneSignal => cases hpc
  | electLost | lapDone | workQueued | workQueue | workUndone => exact Engine.free_ret ht rfl
  | rejectDelivered hn => exact ht.add (by cases hn <;> rfl)
  | attachBegun hn => exact (ht.add rfl).add (by cases hn <;> rfl)
  | releaseDeliver => exact ht
  | _ => exact ht.add rfl

theorem Still.noLastTouch_data {e e' : Engine} {x : Engine.Act} (hs : Still e.cap)
    (hc : Counted e.cap e.pool) (h : Pool.Free Pc.lastTouch e.pool) (hx : x.IsData)
    (hstep : e.step x = some e') : Pool.Free Pc.lastTouch e'.pool := by
  cases x with
  | run pc o =>
    obtain ⟨pool, hpool, hx⟩ := Engine.run_cases hstep
    rw [hpool] at h hc
    have ho := hs.not_owing hc (Multiset.mem_cons_self pc pool)
    exact Engine.Exec.noLastTouch (e := { e with pool := pool }) h ho hx
  | callback d st =>
    obtain ⟨-, hx⟩ := Engine.callback_cases hstep
    cases hx with
    | recycling => exact h.add rfl
    | deferred => exact h
    | alreadyTaken => exact h
  | callPump k | callRequestWork k | startWork =>
    simp only [Engine.step] at hstep
    split at hstep <;> cases hstep
    exact h.add rfl
  | control r => cases hx

/-- Between the last poll and the look at the pending list the list does not become
empty. -/
theorem Polled.nonePending_data {e e' : Engine} {x : Engine.Act} (h : Polled e.cap)
    (hd : e.cap.draining = true) (hp : Placed e.cap e.pool) (hx : x.IsData)
    (hlast : ∀ d st, x = .callback d st → ¬e.TakesLast d) (hs : e.step x = some e')
    (hl : e'.cap.pendingList = []) : e.cap.pendingList = [] := by
  cases x with
  | run pc o =>
    obtain ⟨pool, hpool, hx⟩ := Engine.run_cases hs
    rw [hpool] at hp
    have := h.noAttach.pending_exec (e := { e with pool := pool }) hp hd hx
    exact this ▸ hl
  | callback d st =>
    obtain ⟨-, hx⟩ := Engine.callback_cases hs
    cases hx with
    | recycling hst =>
      rcases List.erase_eq_nil_iff.mp (show e.cap.pendingList.erase d = [] from hl) with hl | hl
      · exact hl
      · exact absurd ⟨hst, hl⟩ (hlast d st rfl)
    | deferred hst => exact absurd hst (h.noAttach d).1
    | alreadyTaken => exact hl
  | callPump k | callRequestWork k | startWork =>
    simp only [Engine.step] at hs
    split at hs <;> cases hs
    exact hl
  | control r => cases hx

/-- The quiesce reads `InFlightIrps` next. -/
def Ctl.polling : Ctl → Bool
  | .quiesce _ .poll => true
  | _ => false

namespace Device

/-- The quiesce does not read zero while a completion routine is still behind its
decrement. -/
def NoLateSignal (s : Device) : Act → Prop
  | .ctl _ => s.ctl.polling = true → s.eng.cap.inFlightIrps = 0 → Pool.Free Pc.lastTouch s.eng.pool
  | _ => True

instance (s : Device) (a : Act) : Decidable (s.NoLateSignal a) :=
  match a with
  | .ctl _ => inferInstanceAs (Decidable (_ = true → _ = (0 : ℤ) → ∀ pc ∈ s.eng.pool, _ = false))
  | .run _ _ | .callback _ _ | .startWork | .callPump | .notifyCancel | .lateListen _ | .lateGrant _ _
  | .acquireMutex | .workMutex | .api _ | .releaseMutex => .isTrue trivial

/-- What is known of the routines behind their decrement from the last poll on. -/
structure Signalled (s : Device) : Prop where
  closing : s.ctl.closing = true → s.eng.cap.pendingList = [] → Pool.Free Pc.lastTouch s.eng.pool
  idle : s.eng.cap.draining = true → s.ctl.quiescing = false → Pool.Free Pc.lastTouch s.eng.pool

end Device

theorem Ctl.closing_cases {c : Ctl} (h : c.closing = true) :
    (∃ r, c = .quiesce r .check) ∨ ∃ r, c = .quiesce r .pumpIdle := by
  cases c with
  | quiesce r pc =>
    cases pc with
    | check => exact .inl ⟨r, rfl⟩
    | pumpIdle => exact .inr ⟨r, rfl⟩
    | _ => cases h
  | _ => cases h

namespace Device

theorem Signalled.data {s : Device} {e : Engine} {x : Engine.Act} {ses : Session} {bus : Bus}
    (h : Signalled s) (hm : Moded s) (hdr : Drains s) (hp : Placed s.eng.cap s.eng.pool)
    (hc : Counted s.eng.cap s.eng.pool) (hx : x.IsData)
    (hlast : ∀ d st, x = .callback d st → s.ctl.checking = true → ¬s.eng.TakesLast d)
    (hs : s.eng.step x = some e) : Signalled { s with eng := e, ses := ses, bus := bus } where
  closing hcl hl := by
    rcases Ctl.closing_cases hcl with ⟨r, hr⟩ | ⟨r, hr⟩
    · have hr : s.ctl = _ := hr
      have hd : s.eng.cap.draining = true := hm.mode true (by rw [hr]; rfl)
      have hpoll := hdr.check r hr
      have hl : s.eng.cap.pendingList = [] :=
        hpoll.nonePending_data hd hp hx (fun d st hx => hlast d st hx (by rw [hr]; rfl)) hs hl
      exact (hpoll.still hd hl).noLastTouch_data hc (h.closing (by rw [hr]; rfl) hl) hx hs
    · have hr : s.ctl = _ := hr
      have hstill := hdr.pumpIdle r hr
      exact hstill.noLastTouch_data hc (h.closing (by rw [hr]; rfl) hstill.nonePending) hx hs
  idle hd hq := by
    have hd' : s.eng.cap.draining = true := (Engine.data_sameControl hx hs).draining ▸ hd
    exact (hdr.idle hd' hq).1.noLastTouch_data hc (h.idle hd' hq) hx hs

theorem Signalled.keep {s s' : Device} (h : Signalled s)
    (hd : s'.eng.cap.draining = s.eng.cap.draining)
    (hp : Pool.Free Pc.lastTouch s.eng.pool → Pool.Free Pc.lastTouch s'.eng.pool)
    (hq : s.eng.cap.draining = true → s'.ctl.quiescing = false → s.ctl.quiescing = false)
    (hc : s'.ctl.closing = false) : Signalled s' where
  closing hcl := by
    rw [hc] at hcl
    cases hcl
  idle hd' hq' := by
    rw [hd] at hd'
    exact hp (h.idle hd' (hq hd' hq'))

theorem Signalled.moves {s s' : Device} {o : Answer} (h : Signalled s) (hdr : Drains s)
    (hn : s.NoLateSignal (.ctl o)) (hx : Moves s o s.ctl s') : Signalled s' := by
  generalize hctl : s.ctl = c at hx
  cases hx with
  | quiesceDrain hd =>
    refine ⟨fun hcl => ?_, fun _ hq => ?_⟩
    · simp only [setCap_ctl] at hcl
      split at hcl <;> cases hcl
    · simp only [setCap_ctl] at hq
      split at hq <;> cases hq
  | quiesceDrained h0 => exact ⟨fun _ _ => hn (by rw [hctl]; rfl) h0, nofun⟩
  | quiesceEmpty hl => exact ⟨fun _ hl => h.closing (by rw [hctl]; rfl) hl, nofun⟩
  | quiescePumpIdle =>
    exact ⟨nofun, fun _ _ => h.closing (by rw [hctl]; rfl) (hdr.pumpIdle _ hctl).nonePending⟩
  | startUndrain | workResume => exact ⟨nofun, nofun⟩
  | quiesceClaim => exact ⟨nofun, nofun⟩
  | quiesceStop | releaseStop | releaseFree =>
    refine h.keep (by simp) (by simp) ?_ rfl
    simp_all [Ctl.quiescing]
  | @startAllocated eb res ho hv =>
    cases res <;> exact h.keep rfl id (fun _ _ => by rw [hctl]; rfl) rfl
  | startPump | workPump | workRequest | releaseQuarantined =>
    exact h.keep rfl (fun hl => hl.add rfl) (fun _ _ => by rw [hctl]; rfl) rfl
  | startChunks =>
    refine h.keep rfl id (fun _ _ => by rw [hctl]; rfl) ?_
    simp only [setCap_ctl]
    split <;> rfl
  | @quiesceSettled r _ | @quiesceReturns r | @releaseHeld r _ | @releaseReturns r
  | @shutdownReturns r =>
    refine h.keep rfl id (fun _ _ => by rw [hctl]; rfl) ?_
    cases r <;> rfl
  | @listenNothing r _ _ _ | @listenTimeout r _ | @listenFailed r _ | @listenSet r =>
    refine h.keep rfl id (fun _ _ => by rw [hctl]; rfl) ?_
    cases r <;> rfl
  | _ =>
    refine h.keep rfl id ?_ rfl
    simp_all [Ctl.quiescing]

theorem Signalled.steps {s s' : Device} {a : Act} (h : Signalled s) (hm : Moded s) (hdr : Drains s)
    (hr : Engine.machine.Reachable s.eng) (hc : s.NoLateClaim a) (hn : s.NoLateSignal a)
    (hs : Steps s a s') : Signalled s' := by
  have hp := Placed.of_reachable hr
  have hcount := Counted.of_reachable hr
  cases hs with
  | @data a x e ha hx =>
    refine h.data hm hdr hp hcount (Act.isData ha) ?_ hx
    rintro d st rfl
    cases a <;> cases ha
    exact hc
  | notifyCancel _ hx => exact h.data hm hdr hp hcount (x := .callRequestWork .handler) rfl nofun hx
  | lateListen | lateGrant => exact ⟨h.closing, h.idle⟩
  | workMutex hctl he =>
    simp only [Engine.region] at he
    split at he <;> cases he
    exact h.keep rfl (fun hl => hl.mono (Multiset.erase_subset _ _)) (fun _ _ => by rw [hctl]; rfl) rfl
  | ctl hx => exact h.moves hdr hn hx
  | destroyNone => exact h
  | destroyLeak | setState | setOneShot | destroy => exact ⟨h.closing, h.idle⟩
  | acquireMutex hctl | releaseMutex hctl | start hctl | stop hctl | ensureListen hctl _
  | surpriseRemoval hctl => exact h.keep rfl id (fun _ _ => by rw [hctl]; rfl) rfl

/-- Both windows of the quiesce stay shut. -/
def NoLateTouch (s : Device) (a : Act) : Prop := s.NoLateClaim a ∧ s.NoLateSignal a

instance (s : Device) (a : Act) : Decidable (s.NoLateTouch a) := inferInstanceAs (Decidable (_ ∧ _))

theorem Signalled.of_reaches {s : Device} (h : machine.Reaches NoLateTouch s) : Signalled s := by
  refine h.invariant (I := Signalled) ?_ ?_
  · exact ⟨nofun, fun _ _ => Pool.free_zero⟩
  · intro s a s' hr hi hp hs
    exact hi.steps (.of_reaches hr) (.of_reaches (fun _ _ hp => hp.1) hr) (engine_reachable hr) hp.1
      hp.2 (.of_step hs)

/-- In every run whose polls of zero find no completion routine behind its decrement, and
in which no frame callback takes the last attached descriptor behind such a poll, no
completion routine is left once the quiesce has returned. -/
theorem no_completion_after_quiesce {s : Device} (h : machine.Reaches NoLateTouch s)
    (hd : s.eng.cap.draining = true) (hq : s.ctl.inQuiesce = false) :
    Pool.Free Pc.inCompletion s.eng.pool := by
  have he := engine_reachable h
  have hq := Ctl.not_quiescing_of_not_inQuiesce hq
  have hstill := ((Drains.of_reaches (fun _ _ hp => hp.1) h).idle hd hq).1
  exact hstill.noCompletion (.of_reachable he) (.of_reachable he) ((Signalled.of_reaches h).idle hd hq)

theorem no_completion_after_quiesce_stopRun :
    Pool.Free Pc.inCompletion (machine.after NoLateTouch stopRun).eng.pool :=
  no_completion_after_quiesce (machine.reaches_after NoLateTouch stopRun) (by decide) (by decide)

/-- The quiesce polls zero behind the decrement of the last detach, the stop returns and
the stream is closed. -/
def lateSignalRun : List Act :=
  frameRun ++ [Act.acquireMutex, .api .stop] ++ List.replicate 10 Act.go ++
    [Act.runs (.attachAtBus 1), .runs (.attachComplete 1 statusSuccess 9), .runs .irpDone,
      .runs .irpDoneTest, .runs .irpDoneSignal] ++ List.replicate 4 Act.go ++
    [Act.runs (.beginDetach .control 1), .go, .go, .go, .runs (.detachAtBus 1),
      .runs (.detachComplete 1 statusSuccess 9 0 statusCancelled),
      .runs (.detachDeliver 9 0 statusCancelled), .runs (.pump .completion .elect),
      .runs (.pump .completion .top), .runs (.pump .completion (.claim 0)),
      .runs (.pump .completion .bottom), .runs .irpDone] ++ List.replicate 16 Act.go ++ [Act.api .destroy]

/-- The engine is freed, and a completion routine has yet to read `Draining` in it. -/
theorem completion_outlives_destroy : ¬∀ s, machine.Reaches HeedsStop s →
    s.eng.cap.draining = true → s.ctl.inQuiesce = false → Pool.Free Pc.inCompletion s.eng.pool := by
  intro h
  have hm : Pc.irpDoneTest ∈ (machine.after HeedsStop lateSignalRun).eng.pool := by decide
  have := h _ (machine.reaches_after HeedsStop lateSignalRun) (by decide) (by decide) _ hm
  cases this

end Device
end Photonic
