import Photonic.Engine.Step

namespace Photonic

namespace Capture
section
variable (c : Capture) (d : FrameId) (state : FrameState) (st : NtStatus) (cookie : Cookie)

@[simp] theorem setState_frames : (c.setState d state).frames =
    Function.update c.frames d { c.frames d with state := state } := rfl
@[simp] theorem unlinkPending_frames : (c.unlinkPending d).frames = c.frames := rfl
@[simp] theorem recycle_frames : (c.recycle d).frames =
    Function.update c.frames d { c.frames d with state := .free, cookie := 0 } := rfl
@[simp] theorem putBack_frames : (c.putBack d).frames =
    Function.update c.frames d { c.frames d with state := .free } := rfl
@[simp] theorem takeForDetach_frames : (c.takeForDetach d st).frames =
    Function.update c.frames d { c.frames d with state := .detaching, completionStatus := st } := rfl
@[simp] theorem publish_frames : (c.publish d).frames =
    Function.update c.frames d { c.frames d with state := .attaching } := rfl
@[simp] theorem countIrp_frames : c.countIrp.frames = c.frames := rfl
@[simp] theorem prime_frames : (Engine.prime c d cookie).frames =
    Function.update c.frames d { c.frames d with cookie := cookie, completionStatus := statusSuccess } :=
  rfl

end
end Capture

namespace Engine

section
variable (e : Engine) (pc : Pc) (d : FrameId) (b : BusFrame) (cookie : Cookie) (n : ℕ) (st : NtStatus)

@[simp] theorem spawn_cap : (e.spawn pc).cap = e.cap := rfl
@[simp] theorem spawn_work : (e.spawn pc).work = e.work := rfl
@[simp] theorem spawn_bus : (e.spawn pc).bus = e.bus := rfl
@[simp] theorem spawn_acquired : (e.spawn pc).acquired = e.acquired := rfl
@[simp] theorem spawn_delivered : (e.spawn pc).delivered = e.delivered := rfl
@[simp] theorem spawn_pool : (e.spawn pc).pool = pc ::ₘ e.pool := rfl
@[simp] theorem deliver_cap : (e.deliver cookie n st).cap = e.cap := rfl
@[simp] theorem deliver_work : (e.deliver cookie n st).work = e.work := rfl
@[simp] theorem deliver_bus : (e.deliver cookie n st).bus = e.bus := rfl
@[simp] theorem deliver_acquired : (e.deliver cookie n st).acquired = e.acquired := rfl
@[simp] theorem deliver_delivered :
    (e.deliver cookie n st).delivered = e.delivered ++ [⟨cookie, n, st⟩] := rfl
@[simp] theorem deliver_pool : (e.deliver cookie n st).pool = e.pool := rfl
@[simp] theorem setBus_cap : (e.setBus d b).cap = e.cap := rfl
@[simp] theorem setBus_work : (e.setBus d b).work = e.work := rfl
@[simp] theorem setBus_bus : (e.setBus d b).bus = Function.update e.bus d b := rfl
@[simp] theorem setBus_acquired : (e.setBus d b).acquired = e.acquired := rfl
@[simp] theorem setBus_delivered : (e.setBus d b).delivered = e.delivered := rfl
@[simp] theorem setBus_pool : (e.setBus d b).pool = e.pool := rfl

end

section
variable (e : Engine) (k : Caller)

@[simp] theorem ret_cap : (e.ret k).cap = e.cap := by cases k <;> rfl
@[simp] theorem ret_work : (e.ret k).work = e.work := by cases k <;> rfl
@[simp] theorem ret_bus : (e.ret k).bus = e.bus := by cases k <;> rfl
@[simp] theorem ret_acquired : (e.ret k).acquired = e.acquired := by cases k <;> rfl
@[simp] theorem ret_delivered : (e.ret k).delivered = e.delivered := by cases k <;> rfl

theorem ret_pool : (e.ret k).pool = if k = .completion then .irpDone ::ₘ e.pool else e.pool := by
  cases k <;> rfl

end

theorem free_ret {e : Engine} {k : Caller} {p : Pc → Bool} (h : Pool.Free p e.pool)
    (hp : p .irpDone = false) : Pool.Free p (e.ret k).pool := by
  cases k with
  | completion => exact h.add hp
  | handler => exact h
  | control => exact h

/-- Where a lap can be after its iteration `i`. -/
inductive LapNext (i : ℕ) : PumpPc → Prop
  | bottom (h : captureFrameCount ≤ i + 1) : LapNext i .bottom
  | claim (h : i + 1 < captureFrameCount) : LapNext i (.claim (i + 1))

theorem lapNext_cases (i : ℕ) : LapNext i (lapNext i) := by
  unfold lapNext
  split
  · next h => exact .claim h
  · next h => exact .bottom (Nat.le_of_not_lt h)

/-- The branches of one step of an activity. -/
inductive Exec (e : Engine) : Pc → Engine → Prop
  | attachAccepted {d : FrameId} {st : NtStatus} (hst : ntSuccess st = true) :
      Exec e (.attachAtBus d) (e.spawn (.attachComplete d st (e.cap.frames d).cookie))
  | attachRefused {d : FrameId} {st : NtStatus} (hst : ntSuccess st = false)
      (hf : (e.bus d).frameDone = false) :
      Exec e (.attachAtBus d) ((e.setBus d { e.bus d with armed := false }).spawn
        (.attachComplete d st (e.cap.frames d).cookie))
  | detachAtBus {d : FrameId} {st : NtStatus} {bytes : ℕ}
      (hb : bytes = if ntSuccess (e.cap.frames d).completionStatus then e.cap.frameBytes else 0) :
      Exec e (.detachAtBus d) (e.spawn
        (.detachComplete d st (e.cap.frames d).cookie bytes (e.cap.frames d).completionStatus))
  | attachFailed {d : FrameId} {st : NtStatus} {cookie : Cookie} (hst : ntSuccess st = false) :
      Exec e (.attachComplete d st cookie)
        ({ e with cap := (e.cap.unlinkPending d).recycle d }.spawn (.attachFailed cookie st))
  | attachFrameDone {d : FrameId} {st : NtStatus} {cookie : Cookie} (hst : ntSuccess st = true)
      (hs : (e.cap.frames d).state = .completedWhileAttaching) :
      Exec e (.attachComplete d st cookie)
        ({ e with cap := e.cap.takeForDetach d (Capture.frameCompletion (e.bus d).frameStatus) }.spawn
          (.beginDetach .completion d))
  | attachDraining {d : FrameId} {st : NtStatus} {cookie : Cookie} (hst : ntSuccess st = true)
      (hs : (e.cap.frames d).state ≠ .completedWhileAttaching) (hd : e.cap.draining = true) :
      Exec e (.attachComplete d st cookie)
        ({ e with cap := e.cap.setState d .pending }.spawn .irpDone)
  | attachPublished {d : FrameId} {st : NtStatus} {cookie : Cookie} (hst : ntSuccess st = true)
      (hs : (e.cap.frames d).state ≠ .completedWhileAttaching) (hd : e.cap.draining = false) :
      Exec e (.attachComplete d st cookie)
        ({ e with cap := e.cap.setState d .pending }.spawn (.attachLive !e.cap.listening))
  | attachFailedDeliver {cookie : Cookie} {st : NtStatus} :
      Exec e (.attachFailed cookie st) ((e.deliver cookie 0 st).spawn .irpDone)
  | attachNeedsListen :
      Exec e (.attachLive true) ({ e with cap := { e.cap with firstAttachDone := true } }.spawn
        (.requestWork .completion .exchange))
  | attachListening :
      Exec e (.attachLive false) ({ e with cap := { e.cap with firstAttachDone := true } }.spawn .irpDone)
  | irpDoneLast (h : e.cap.inFlightIrps - 1 = 0) :
      Exec e .irpDone ({ e with cap := { e.cap with inFlightIrps := e.cap.inFlightIrps - 1 } }.spawn
        .irpDoneTest)
  | irpDoneMore (h : e.cap.inFlightIrps - 1 ≠ 0) :
      Exec e .irpDone { e with cap := { e.cap with inFlightIrps := e.cap.inFlightIrps - 1 } }
  | irpDoneDraining (hd : e.cap.draining = true) : Exec e .irpDoneTest (e.spawn .irpDoneSignal)
  | irpDoneRunning (hd : e.cap.draining = false) : Exec e .irpDoneTest e
  | irpDoneSignal : Exec e .irpDoneSignal { e with cap := { e.cap with drainDone := true } }
  | beginDetach {k : Caller} {d : FrameId} :
      Exec e (.beginDetach k d) ((e.setBus d { e.bus d with armed := false }).spawn (.detachAtBus d))
  | detachFailed {d : FrameId} {st : NtStatus} {cookie : Cookie} {bytes : ℕ} {completion : NtStatus}
      (hst : ntSuccess st = false) :
      Exec e (.detachComplete d st cookie bytes completion)
        ({ e with cap := e.cap.setState d .detachFailed }.spawn .irpDone)
  | detachDone {d : FrameId} {st : NtStatus} {cookie : Cookie} {bytes : ℕ} {completion : NtStatus}
      (hst : ntSuccess st = true) :
      Exec e (.detachComplete d st cookie bytes completion)
        ({ e with cap := e.cap.recycle d }.spawn (.detachDeliver cookie bytes completion))
  | detachDeliver {cookie : Cookie} {bytes : ℕ} {completion : NtStatus} :
      Exec e (.detachDeliver cookie bytes completion)
        ((e.deliver cookie bytes completion).spawn (.pump .completion .elect))
  | releaseDeliver {cookie : Cookie} :
      Exec e (.releaseDeliver cookie) (e.deliver cookie 0 statusCancelled)
  | electLost {k : Caller} (h : e.cap.pumpActive = true) :
      Exec e (.pump k .elect) ({ e with cap := { e.cap with pumpAgain := true } }.ret k)
  | electWon {k : Caller} (h : e.cap.pumpActive = false) :
      Exec e (.pump k .elect) ({ e with cap := { e.cap with pumpActive := true } }.spawn (.pump k .top))
  | lapTop {k : Caller} :
      Exec e (.pump k .top) ({ e with cap := { e.cap with pumpAgain := false } }.spawn
        (.pump k (.claim 0)))
  | claimNone {k : Caller} {i : ℕ} (h : e.cap.draining = true ∨ e.cap.freeList = []) :
      Exec e (.pump k (.claim i)) (e.spawn (.pump k .bottom))
  | claimed {k : Caller} {i : ℕ} {d : FrameId} {rest : List FrameId} (hd : e.cap.draining = false)
      (h : e.cap.freeList = d :: rest) :
      Exec e (.pump k (.claim i))
        ({ e with cap := { e.cap with freeList := rest } }.spawn (.pump k (.acquire i d)))
  | acquiredNone {k : Caller} {i : ℕ} {d : FrameId} :
      Exec e (.pump k (.acquire i d)) (e.spawn (.pump k (.giveBack d)))
  | acquiredShort {k : Caller} {i : ℕ} {d : FrameId} {cookie : Cookie} :
      Exec e (.pump k (.acquire i d))
        ({ e with acquired := e.acquired ++ [cookie] }.spawn (.pump k (.reject i d cookie)))
  | acquired {k : Caller} {i : ℕ} {d : FrameId} {cookie : Cookie} :
      Exec e (.pump k (.acquire i d))
        ({ e with acquired := e.acquired ++ [cookie], cap := prime e.cap d cookie }.spawn
          (.pump k (.publish i d cookie)))
  | gaveBack {k : Caller} {d : FrameId} :
      Exec e (.pump k (.giveBack d)) ({ e with cap := e.cap.putBack d }.spawn (.pump k .bottom))
  | rejected {k : Caller} {i : ℕ} {d : FrameId} {cookie : Cookie} :
      Exec e (.pump k (.reject i d cookie))
        ({ e with cap := e.cap.putBack d }.spawn (.pump k (.rejectDeliver i cookie)))
  | rejectDelivered {k : Caller} {i : ℕ} {cookie : Cookie} {next : PumpPc} (hn : LapNext i next) :
      Exec e (.pump k (.rejectDeliver i cookie))
        ((e.deliver cookie 0 statusInvalidParameter).spawn (.pump k next))
  | publishDraining {k : Caller} {i : ℕ} {d : FrameId} {cookie : Cookie} (hd : e.cap.draining = true) :
      Exec e (.pump k (.publish i d cookie))
        ({ e with cap := e.cap.putBack d }.spawn (.pump k (.handBack cookie)))
  | published {k : Caller} {i : ℕ} {d : FrameId} {cookie : Cookie} (hd : e.cap.draining = false) :
      Exec e (.pump k (.publish i d cookie))
        ({ e with cap := (e.cap.publish d).countIrp }.spawn (.pump k (.beginAttach i d)))
  | handedBack {k : Caller} {cookie : Cookie} :
      Exec e (.pump k (.handBack cookie))
        ((e.deliver cookie 0 statusCancelled).spawn (.pump k .bottom))
  | attachBegun {k : Caller} {i : ℕ} {d : FrameId} {next : PumpPc} (hn : LapNext i next) :
      Exec e (.pump k (.beginAttach i d))
        (((e.setBus d ⟨true, false, statusSuccess, e.cap.resourceHandle, e.cap.chunkEpoch⟩).spawn
          (.attachAtBus d)).spawn (.pump k next))
  | lapAgain {k : Caller} (h : e.cap.pumpAgain = true) :
      Exec e (.pump k .bottom) (e.spawn (.pump k .top))
  | lapDone {k : Caller} (h : e.cap.pumpAgain = false) :
      Exec e (.pump k .bottom) ({ e with cap := { e.cap with pumpActive := false } }.ret k)
  | workQueued {k : Caller} (h : e.work.controlWorkQueued = true) :
      Exec e (.requestWork k .exchange) (e.ret k)
  | workTaken {k : Caller} (h : e.work.controlWorkQueued = false) :
      Exec e (.requestWork k .exchange)
        ({ e with work := { e.work with controlWorkQueued := true } }.spawn (.requestWork k .acquireLock))
  | workGranted {k : Caller} :
      Exec e (.requestWork k .acquireLock) (e.spawn (.requestWork k .queue))
  | workRefused {k : Caller} :
      Exec e (.requestWork k .acquireLock)
        ({ e with work := { e.work with refused := true } }.spawn (.requestWork k .undo))
  | workQueue {k : Caller} :
      Exec e (.requestWork k .queue)
        ({ e with work := { e.work with workItems := e.work.workItems + 1 } }.ret k)
  | workUndone {k : Caller} :
      Exec e (.requestWork k .undo)
        ({ e with work := { e.work with controlWorkQueued := false } }.ret k)
  | workerClear :
      Exec e (.worker .clear)
        ({ e with work := { e.work with controlWorkQueued := false } }.spawn (.worker .wait))

theorem Exec.of_pump {e e' : Engine} {o : Oracle} {k : Caller} {pc : PumpPc}
    (h : e.pump o k pc = e') : Exec e (.pump k pc) e' := by
  subst h
  cases pc with
  | elect =>
    simp only [pump]
    split
    · next h => exact .electLost h
    · next h => exact .electWon (by simpa using h)
  | top => exact .lapTop
  | claim i =>
    simp only [pump]
    split
    · next h => exact .claimNone (.inl h)
    · next hd =>
      split
      · next h => exact .claimNone (.inr h)
      · next h => exact .claimed (by simpa using hd) h
  | acquire i d =>
    simp only [pump]
    unfold lapAcquire
    split
    · exact .acquiredNone
    · dsimp only
      split
      · exact .acquiredShort
      · exact .acquired
  | giveBack d => exact .gaveBack
  | reject i d cookie => exact .rejected
  | rejectDeliver i cookie => exact .rejectDelivered (lapNext_cases i)
  | publish i d cookie =>
    simp only [pump]
    split
    · next h => exact .publishDraining h
    · next h => exact .published (by simpa using h)
  | handBack cookie => exact .handedBack
  | beginAttach i d => exact .attachBegun (lapNext_cases i)
  | bottom =>
    simp only [pump]
    split
    · next h => exact .lapAgain h
    · next h => exact .lapDone (by simpa using h)

theorem Exec.of_requestWork {e e' : Engine} {o : Oracle} {k : Caller} {pc : RequestPc}
    (h : e.requestWork o k pc = e') : Exec e (.requestWork k pc) e' := by
  subst h
  cases pc with
  | exchange =>
    simp only [requestWork]
    split
    · next h => exact .workQueued h
    · next h => exact .workTaken (by simpa using h)
  | acquireLock =>
    simp only [requestWork]
    split
    · exact .workGranted
    · exact .workRefused
  | queue => exact .workQueue
  | undo => exact .workUndone

theorem Exec.of_attachAtBus {e e' : Engine} {d : FrameId} {st : NtStatus}
    (h : e.attachAtBus d st = some e') : Exec e (.attachAtBus d) e' := by
  unfold attachAtBus at h
  split at h
  · next hst =>
    cases h
    exact .attachAccepted hst
  · next hst =>
    split at h
    · cases h
    · next hf =>
      cases h
      exact .attachRefused (by simpa using hst) (by simpa using hf)

theorem Exec.of_attachComplete {e e' : Engine} {d : FrameId} {st : NtStatus} {cookie : Cookie}
    (h : e.attachComplete d st cookie = e') : Exec e (.attachComplete d st cookie) e' := by
  subst h
  unfold attachComplete
  split
  · next hst => exact .attachFailed (by simpa using hst)
  · next hst =>
    split
    · next hs => exact .attachFrameDone (by simpa using hst) hs
    · next hs =>
      split
      · next hd => exact .attachDraining (by simpa using hst) hs hd
      · next hd => exact .attachPublished (by simpa using hst) hs (by simpa using hd)

theorem Exec.of_exec {e e' : Engine} {o : Oracle} {pc : Pc} (h : e.exec o pc = some e') :
    Exec e pc e' := by
  cases pc with
  | attachAtBus d => exact .of_attachAtBus h
  | detachAtBus d =>
    cases h
    exact .detachAtBus rfl
  | attachComplete d st cookie => exact .of_attachComplete (Option.some.inj h)
  | attachFailed cookie st =>
    cases h
    exact .attachFailedDeliver
  | attachLive needListen =>
    cases h
    cases needListen
    · exact .attachListening
    · exact .attachNeedsListen
  | irpDone =>
    cases h
    unfold irpDone
    dsimp only
    split
    · next h => exact .irpDoneLast h
    · next h => exact .irpDoneMore h
  | irpDoneTest =>
    cases h
    unfold irpDoneTest
    split
    · next h => exact .irpDoneDraining h
    · next h => exact .irpDoneRunning (by simpa using h)
  | irpDoneSignal =>
    cases h
    exact .irpDoneSignal
  | beginDetach k d =>
    cases h
    exact .beginDetach
  | detachComplete d st cookie bytes completion =>
    cases h
    unfold detachComplete
    split
    · next hst => exact .detachFailed (by simpa using hst)
    · next hst => exact .detachDone (by simpa using hst)
  | detachDeliver cookie bytes completion =>
    cases h
    exact .detachDeliver
  | releaseDeliver cookie =>
    cases h
    exact .releaseDeliver
  | pump k pc => exact .of_pump (Option.some.inj h)
  | requestWork k pc => exact .of_requestWork (Option.some.inj h)
  | worker pc =>
    cases pc with
    | clear =>
      cases h
      exact .workerClear
    | wait => cases h

theorem run_cases {e e' : Engine} {pc : Pc} {o : Oracle} (h : e.step (.run pc o) = some e') :
    ∃ pool, e.pool = pc ::ₘ pool ∧ Exec { e with pool := pool } pc e' := by
  simp only [step] at h
  split at h
  · next hmem => exact ⟨e.pool.erase pc, (Multiset.cons_erase hmem).symm, .of_exec h⟩
  · cases h

inductive Callback (e : Engine) (d : FrameId) (st : NtStatus) : Engine → Prop
  | recycling (hs : (e.cap.frames d).state = .pending) :
      Callback e d st ({ e.setBus d { e.bus d with armed := false, frameDone := true, frameStatus := st } with
        cap := (e.cap.takeForDetach d (Capture.frameCompletion st)).countIrp }.spawn
          (.beginDetach .handler d))
  | deferred (hs : (e.cap.frames d).state = .attaching) :
      Callback e d st { e.setBus d { e.bus d with armed := false, frameDone := true, frameStatus := st } with
        cap := e.cap.setState d .completedWhileAttaching }
  | alreadyTaken (hp : (e.cap.frames d).state ≠ .pending) (ha : (e.cap.frames d).state ≠ .attaching) :
      Callback e d st (e.setBus d { e.bus d with armed := false, frameDone := true, frameStatus := st })

theorem callback_cases {e e' : Engine} {d : FrameId} {st : NtStatus}
    (h : e.isochCallback d st = some e') : (e.bus d).armed = true ∧ Callback e d st e' := by
  unfold isochCallback at h
  split at h
  · cases h
  · next ha =>
    refine ⟨by simpa using ha, ?_⟩
    dsimp only [setBus_cap] at h
    split at h
    · next hs =>
      cases h
      exact .recycling hs
    · next hs =>
      cases h
      exact .deferred hs
    · next hp ha =>
      cases h
      exact .alreadyTaken hp ha

/-- An activity goes on or stays where it is. -/
theorem Exec.subset {e e' : Engine} {pc : Pc} (h : Exec e pc e') : e.pool ⊆ e'.pool := by
  cases h with
  | electLost | lapDone | workQueued | workQueue | workUndone =>
    rw [ret_pool]
    split
    · exact Multiset.subset_cons _ _
    · exact Multiset.Subset.refl _
  | irpDoneMore | irpDoneRunning | irpDoneSignal | releaseDeliver => exact Multiset.Subset.refl _
  | attachBegun =>
    exact fun _ hm => Multiset.mem_cons_of_mem (Multiset.mem_cons_of_mem hm)
  | _ => exact Multiset.subset_cons _ _

/-- An activity stays in the pool until it is run, but for a worker that waits for
`InterfaceMutex`. -/
theorem mem_step {e e' : Engine} {x : Act} {pc : Pc} (hw : pc ≠ .worker .wait)
    (hr : ∀ o, x ≠ .run pc o) (hm : pc ∈ e.pool) (h : e.step x = some e') : pc ∈ e'.pool := by
  cases x with
  | run pc' o =>
    obtain ⟨pool, hpool, hx⟩ := run_cases h
    rw [hpool] at hm
    rcases Multiset.mem_cons.mp hm with rfl | hm
    · exact absurd rfl (hr o)
    · exact hx.subset hm
  | callback d st =>
    obtain ⟨-, hx⟩ := callback_cases h
    cases hx with
    | recycling => exact Multiset.mem_cons_of_mem hm
    | deferred => exact hm
    | alreadyTaken => exact hm
  | callPump k | callRequestWork k | startWork =>
    simp only [step] at h
    split at h <;> cases h
    exact Multiset.mem_cons_of_mem hm
  | control r =>
    cases r with
    | claimPending =>
      cases h
      unfold claimPending
      split
      · exact hm
      · exact Multiset.mem_cons_of_mem hm
    | releaseQuarantined d =>
      simp only [step, region] at h
      split at h <;> cases h
      exact Multiset.mem_cons_of_mem hm
    | takeWorker =>
      simp only [step, region] at h
      split at h <;> cases h
      exact (Multiset.mem_erase_of_ne hw).mpr hm
    | setDraining | clearDraining | setListening _ | clearFirstAttachDone | clearDrainDone
    | setGeometry _ | setResourceHandle _ | freeChunkMdls =>
      cases h
      exact hm

end Engine
end Photonic
