import Photonic.Engine.Placement

namespace Photonic

/-- The states of a descriptor whose IRP is counted. -/
def FrameState.atBus : FrameState → Bool
  | .attaching | .completedWhileAttaching | .detaching => true
  | _ => false

namespace FrameState

@[simp] theorem atBus_free : free.atBus = false := rfl
@[simp] theorem atBus_attaching : attaching.atBus = true := rfl
@[simp] theorem atBus_completedWhileAttaching : completedWhileAttaching.atBus = true := rfl
@[simp] theorem atBus_pending : pending.atBus = false := rfl
@[simp] theorem atBus_detaching : detaching.atBus = true := rfl
@[simp] theorem atBus_detachFailed : detachFailed.atBus = false := rfl

end FrameState

/-- The descriptors whose IRP is counted. -/
def framesAtBus (frames : FrameId → Frame) : ℕ := ∑ d, ((frames d).state.atBus).toNat

theorem framesAtBus_update (frames : FrameId → Frame) (d : FrameId) (f : Frame) :
    framesAtBus (Function.update frames d f) + (frames d).state.atBus.toNat =
      framesAtBus frames + f.state.atBus.toNat :=
  Pool.sum_update frames (fun f => f.state.atBus.toNat) d f

/-- A completion routine that has moved its descriptor on and not yet decremented the
count. -/
@[simp] def Pc.owesDecrement : Pc → Bool
  | .attachAtBus _ => false
  | .detachAtBus _ => false
  | .attachComplete _ _ _ => false
  | .attachFailed _ _ => true
  | .attachLive _ => true
  | .irpDone => true
  | .irpDoneTest => false
  | .irpDoneSignal => false
  | .beginDetach _ _ => false
  | .detachComplete _ _ _ _ _ => false
  | .detachDeliver _ _ _ => true
  | .releaseDeliver _ => false
  | .pump k _ => k = .completion
  | .requestWork k _ => k = .completion
  | .worker _ => false

def owing (pool : Multiset Pc) : ℕ := pool.countP (·.owesDecrement = true)

@[simp] theorem owing_zero : owing 0 = 0 := rfl

@[simp] theorem owing_cons (pool : Multiset Pc) (pc : Pc) :
    owing (pc ::ₘ pool) = owing pool + if pc.owesDecrement = true then 1 else 0 := by
  simp only [owing, Multiset.countP_cons]

@[simp] theorem Engine.owing_ret (e : Engine) (k : Caller) :
    owing (e.ret k).pool = owing e.pool + if k = .completion then 1 else 0 := by
  cases k <;> simp [Engine.ret]

/-- `InFlightIrps` is the number of counted descriptors and owing routines. -/
def Counted (c : Capture) (pool : Multiset Pc) : Prop :=
  c.inFlightIrps = (framesAtBus c.frames + owing pool : ℕ)

theorem Placed.atBus {c : Capture} {pool : Multiset Pc} {pc : Pc} {d : FrameId}
    (h : Placed c (pc ::ₘ pool)) (ho : pc.owns = some (d, .attach) ∨ pc.owns = some (d, .detach)) :
    (c.frames d).state.atBus = true := by
  rcases ho with ho | ho
  · rcases ((h d).owned_attach ho).1 with hs | hs <;> exact congrArg FrameState.atBus hs
  · exact congrArg FrameState.atBus ((h d).owned_detach ho).1

theorem Placed.lap_free {c : Capture} {pool : Multiset Pc} {pc : Pc} {d : FrameId}
    (h : Placed c (pc ::ₘ pool)) (ho : pc.owns = some (d, .lap)) : (c.frames d).state = .free :=
  ((h d).owned_lap ho).1

theorem Counted.exec {e e' : Engine} {pc : Pc} (h : Counted e.cap (pc ::ₘ e.pool))
    (hp : Placed e.cap (pc ::ₘ e.pool)) (hx : Engine.Exec e pc e') : Counted e'.cap e'.pool := by
  unfold Counted at h ⊢
  have hu := fun d f => framesAtBus_update e.cap.frames d f
  cases hx with
  | @attachFailed d st cookie hst =>
    have hs := hp.atBus (d := d) (.inl rfl)
    have := hu d { e.cap.frames d with state := .free, cookie := 0 }
    simp [hs, Capture.recycle, Capture.setFrame, Capture.unlinkPending] at this h ⊢
    omega
  | @attachFrameDone d st cookie hst hs =>
    have := hu d { e.cap.frames d with
      state := .detaching, completionStatus := Capture.frameCompletion (e.bus d).frameStatus }
    simp [hs, Capture.takeForDetach, Capture.setFrame, Capture.unlinkPending] at this h ⊢
    omega
  | @attachDraining d _ _ _ _ _ | @attachPublished d _ _ _ _ _ =>
    have hs := hp.atBus (d := d) (.inl rfl)
    have := hu d { e.cap.frames d with state := .pending }
    simp [hs, Capture.setState, Capture.setFrame] at this h ⊢
    omega
  | @detachFailed d st cookie bytes completion hst =>
    have hs := hp.atBus (d := d) (.inr rfl)
    have := hu d { e.cap.frames d with state := .detachFailed }
    simp [hs, Capture.setState, Capture.setFrame] at this h ⊢
    omega
  | @detachDone d st cookie bytes completion hst =>
    have hs := hp.atBus (d := d) (.inr rfl)
    have := hu d { e.cap.frames d with state := .free, cookie := 0 }
    simp [hs, Capture.recycle, Capture.setFrame] at this h ⊢
    omega
  | @acquired k i d cookie =>
    have := hu d { e.cap.frames d with cookie := cookie, completionStatus := statusSuccess }
    simp [Engine.prime, Capture.setFrame] at this h ⊢
    omega
  | @gaveBack _ d | @rejected _ _ d _ | @publishDraining _ _ d _ _ =>
    have hs := hp.lap_free (d := d) rfl
    have := hu d { e.cap.frames d with state := .free }
    simp [hs, Capture.putBack, Capture.setState, Capture.setFrame] at this h ⊢
    omega
  | @published k i d cookie hdr =>
    have hs := hp.lap_free (d := d) rfl
    have := hu d { e.cap.frames d with state := .attaching }
    simp [hs, Capture.publish, Capture.countIrp, Capture.setState, Capture.setFrame] at this h ⊢
    omega
  | rejectDelivered | attachBegun => simpa using h
  | _ =>
    simp at h ⊢
    omega

theorem Counted.takeForDetach {c : Capture} {pool : Multiset Pc} {d : FrameId} {st : NtStatus}
    {k : Caller} (h : Counted c pool) (hs : (c.frames d).state = .pending) :
    Counted (c.takeForDetach d st).countIrp (.beginDetach k d ::ₘ pool) := by
  have := framesAtBus_update c.frames d
    { c.frames d with state := .detaching, completionStatus := st }
  unfold Counted at h ⊢
  simp [hs, Capture.takeForDetach, Capture.countIrp, Capture.setFrame, Capture.unlinkPending] at this h ⊢
  omega

theorem Counted.callback {e e' : Engine} {d : FrameId} {st : NtStatus} (h : Counted e.cap e.pool)
    (hx : Engine.Callback e d st e') : Counted e'.cap e'.pool := by
  cases hx with
  | recycling hs => exact h.takeForDetach hs
  | deferred hs =>
    have := framesAtBus_update e.cap.frames d { e.cap.frames d with state := .completedWhileAttaching }
    unfold Counted at h ⊢
    simp [hs, Capture.setState, Capture.setFrame] at this h ⊢
    omega
  | alreadyTaken hp ha => exact h

theorem Counted.region {e e' : Engine} {r : Engine.Region} (h : Counted e.cap e.pool)
    (hx : e.region r = some e') : Counted e'.cap e'.pool := by
  cases r with
  | claimPending =>
    cases hx
    unfold Engine.claimPending
    split
    · exact h
    · next d hc => exact h.takeForDetach (Capture.state_of_firstPending hc)
  | releaseQuarantined d =>
    simp only [Engine.region] at hx
    split at hx
    · next hs =>
      cases hx
      have := framesAtBus_update e.cap.frames d { e.cap.frames d with state := .free, cookie := 0 }
      unfold Counted at h ⊢
      simp [hs, Capture.recycle, Capture.setFrame] at this h ⊢
      omega
    · cases hx
  | takeWorker =>
    simp only [Engine.region] at hx
    split at hx
    · next hm =>
      cases hx
      unfold Counted at h ⊢
      rw [← Multiset.cons_erase hm] at h
      simpa using h
    · cases hx
  | setDraining | clearDraining | setListening _ | clearFirstAttachDone | clearDrainDone
  | setGeometry _ | setResourceHandle _ | freeChunkMdls =>
    cases hx
    exact h

theorem Counted.step {e e' : Engine} {a : Engine.Act} (h : Counted e.cap e.pool)
    (hp : Placed e.cap e.pool) (hx : e.step a = some e') : Counted e'.cap e'.pool := by
  cases a with
  | run pc o =>
    obtain ⟨pool, hpool, hx⟩ := Engine.run_cases hx
    rw [hpool] at h hp
    exact Counted.exec (e := { e with pool := pool }) h hp hx
  | callback d st => exact h.callback (Engine.callback_cases hx).2
  | callPump k | callRequestWork k =>
    simp only [Engine.step] at hx
    split at hx
    · cases hx
    · next hk =>
      cases hx
      simpa [Counted, hk] using h
  | startWork =>
    simp only [Engine.step] at hx
    split at hx <;> cases hx
    simpa [Counted] using h
  | control r => exact h.region hx

theorem Counted.of_reachable {e : Engine} (h : Engine.machine.Reachable e) : Counted e.cap e.pool := by
  refine h.invariant (I := fun e => Counted e.cap e.pool) ?_ ?_
  · simp [Counted, Engine.machine, Engine.create, framesAtBus]
  · intro s a s' hr hc _ hs
    exact hc.step (.of_reachable hr) hs

/-- The elected runner of the pump. -/
@[simp] def Pc.runs : Pc → Bool
  | .attachAtBus _ => false
  | .detachAtBus _ => false
  | .attachComplete _ _ _ => false
  | .attachFailed _ _ => false
  | .attachLive _ => false
  | .irpDone => false
  | .irpDoneTest => false
  | .irpDoneSignal => false
  | .beginDetach _ _ => false
  | .detachComplete _ _ _ _ _ => false
  | .detachDeliver _ _ _ => false
  | .releaseDeliver _ => false
  | .pump _ .elect => false
  | .pump _ .top => true
  | .pump _ (.claim _) => true
  | .pump _ (.acquire _ _) => true
  | .pump _ (.giveBack _) => true
  | .pump _ (.reject _ _ _) => true
  | .pump _ (.rejectDeliver _ _) => true
  | .pump _ (.publish _ _ _) => true
  | .pump _ (.handBack _) => true
  | .pump _ (.beginAttach _ _) => true
  | .pump _ .bottom => true
  | .requestWork _ _ => false
  | .worker _ => false

def runners (pool : Multiset Pc) : ℕ := pool.countP (·.runs = true)

@[simp] theorem runners_zero : runners 0 = 0 := rfl

@[simp] theorem runners_cons (pool : Multiset Pc) (pc : Pc) :
    runners (pc ::ₘ pool) = runners pool + if pc.runs = true then 1 else 0 := by
  simp only [runners, Multiset.countP_cons]

@[simp] theorem Engine.runners_ret (e : Engine) (k : Caller) :
    runners (e.ret k).pool = runners e.pool := by
  cases k <;> simp [Engine.ret]

/-- There is one runner when `PumpActive` is set, and none otherwise. -/
def Elected (c : Capture) (pool : Multiset Pc) : Prop := runners pool = c.pumpActive.toNat

theorem Elected.runners_le_one {c : Capture} {pool : Multiset Pc} (h : Elected c pool) :
    runners pool ≤ 1 :=
  (h : runners pool = _) ▸ Bool.toNat_le c.pumpActive

theorem Elected.exec {e e' : Engine} {pc : Pc} (h : Elected e.cap (pc ::ₘ e.pool))
    (hx : Engine.Exec e pc e') : Elected e'.cap e'.pool := by
  unfold Elected at h ⊢
  cases hx with
  | attachFailed | attachFrameDone | attachDraining | attachPublished | detachFailed | detachDone
  | acquired | gaveBack | rejected | publishDraining | published =>
    simp only [Engine.spawn_pool, Engine.spawn_cap, runners_cons, Pc.runs] at h ⊢
    exact h
  | electWon hn => simpa [hn] using h
  | lapDone hn =>
    have := Bool.toNat_le e.cap.pumpActive
    simp at h ⊢
    omega
  | rejectDelivered hn | attachBegun hn => cases hn <;> simpa using h
  | _ => simpa using h

theorem Elected.region {e e' : Engine} {r : Engine.Region} (h : Elected e.cap e.pool)
    (hx : e.region r = some e') : Elected e'.cap e'.pool := by
  cases r with
  | claimPending =>
    cases hx
    unfold Engine.claimPending
    split
    · exact h
    · simp only [Elected, Engine.spawn_pool, Engine.spawn_cap, runners_cons, Pc.runs]
      exact h
  | releaseQuarantined d =>
    simp only [Engine.region] at hx
    split at hx
    · cases hx
      simp only [Elected, Engine.spawn_pool, Engine.spawn_cap, runners_cons, Pc.runs]
      exact h
    · cases hx
  | takeWorker =>
    simp only [Engine.region] at hx
    split at hx
    · next hm =>
      cases hx
      unfold Elected at h ⊢
      rw [← Multiset.cons_erase hm] at h
      simpa using h
    · cases hx
  | setDraining | clearDraining | setListening _ | clearFirstAttachDone | clearDrainDone
  | setGeometry _ | setResourceHandle _ | freeChunkMdls =>
    cases hx
    exact h

theorem Elected.step {e e' : Engine} {a : Engine.Act} (h : Elected e.cap e.pool)
    (hx : e.step a = some e') : Elected e'.cap e'.pool := by
  cases a with
  | run pc o =>
    obtain ⟨pool, hpool, hx⟩ := Engine.run_cases hx
    rw [hpool] at h
    exact Elected.exec (e := { e with pool := pool }) h hx
  | callback d st =>
    obtain ⟨-, hx⟩ := Engine.callback_cases hx
    cases hx with
    | recycling hs =>
      simp only [Elected, Engine.spawn_pool, Engine.spawn_cap, runners_cons, Pc.runs]
      exact h
    | deferred hs => exact h
    | alreadyTaken hp ha => exact h
  | callPump k | callRequestWork k | startWork =>
    simp only [Engine.step] at hx
    split at hx <;> cases hx
    simpa [Elected] using h
  | control r => exact h.region hx

theorem Elected.of_reachable {e : Engine} (h : Engine.machine.Reachable e) : Elected e.cap e.pool :=
  h.invariant (I := fun e => Elected e.cap e.pool) (by simp [Elected, Engine.machine, Engine.create])
    fun _ _ _ _ hi _ hs => hi.step hs

end Photonic
