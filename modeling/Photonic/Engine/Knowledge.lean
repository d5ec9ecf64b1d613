import Photonic.Engine.Placement

namespace Photonic

/-- What an activity knows about the descriptor it owns. -/
def Pc.Knows (f : Frame) (b : BusFrame) : Pc → Prop
  | .attachComplete _ status cookie =>
    cookie = f.cookie ∧ (ntSuccess status = false → b.armed = false ∧ f.state = .attaching)
  | .detachAtBus _ => b.armed = false
  | .detachComplete _ _ cookie _ completion =>
    cookie = f.cookie ∧ completion = f.completionStatus ∧ b.armed = false
  | .beginDetach k _ => k ≠ .control → b.armed = false ∧ b.frameDone = true
  | .pump _ (.publish _ _ cookie) => cookie = f.cookie
  | .pump _ (.beginAttach _ _) => b.armed = false ∧ f.state = .attaching
  | _ => True

/-- What the bus driver can still do with the buffer of a descriptor. -/
def Frame.Fits (f : Frame) (b : BusFrame) : Prop :=
  match f.state with
  | .free | .detachFailed => b.armed = false
  | .completedWhileAttaching => b.armed = false ∧ b.frameDone = true
  | _ => True

structure Informed (frames : FrameId → Frame) (bus : FrameId → BusFrame) (pool : Multiset Pc) :
    Prop where
  knows : ∀ pc ∈ pool, ∀ d st, pc.owns = some (d, st) → pc.Knows (frames d) (bus d)
  fits : ∀ d, (frames d).Fits (bus d)

section
variable {frames : FrameId → Frame} {bus : FrameId → BusFrame} {pool : Multiset Pc}

theorem Informed.mono {pool' : Multiset Pc} (h : Informed frames bus pool) (hsub : pool' ⊆ pool) :
    Informed frames bus pool' :=
  ⟨fun pc hpc => h.knows pc (hsub hpc), h.fits⟩

theorem Informed.tail {pc : Pc} (h : Informed frames bus (pc ::ₘ pool)) : Informed frames bus pool :=
  h.mono fun _ => Multiset.mem_cons_of_mem

theorem Informed.add {pc : Pc} (h : Informed frames bus pool)
    (hk : ∀ d st, pc.owns = some (d, st) → pc.Knows (frames d) (bus d)) :
    Informed frames bus (pc ::ₘ pool) where
  knows pc' hpc' := by
    rcases Multiset.mem_cons.mp hpc' with rfl | hpc'
    · exact hk
    · exact h.knows pc' hpc'
  fits := h.fits

theorem Informed.write {d : FrameId} (h : Informed frames bus pool) (hh : ∀ st, held pool d st = 0)
    {f : Frame} {b : BusFrame} (hd : f.Fits b) :
    Informed (Function.update frames d f) (Function.update bus d b) pool where
  knows pc hpc d' st ho := by
    have hne : d' ≠ d := by
      rintro rfl
      exact absurd (hh st) (held_pos_of_mem hpc ho).ne'
    rw [Function.update_of_ne hne, Function.update_of_ne hne]
    exact h.knows pc hpc d' st ho
  fits d' := by
    by_cases hne : d' = d
    · subst hne
      simpa using hd
    · rw [Function.update_of_ne hne, Function.update_of_ne hne]
      exact h.fits d'

theorem Informed.writeFrame {d : FrameId} (h : Informed frames bus pool)
    (hh : ∀ st, held pool d st = 0) {f : Frame} (hd : f.Fits (bus d)) :
    Informed (Function.update frames d f) bus pool := by
  have := h.write hh hd
  rwa [Function.update_eq_self] at this

theorem Informed.writeBus {d : FrameId} (h : Informed frames bus pool)
    (hh : ∀ st, held pool d st = 0) {b : BusFrame} (hd : (frames d).Fits b) :
    Informed frames (Function.update bus d b) pool := by
  have := h.write hh hd
  rwa [Function.update_eq_self] at this

end

theorem Engine.informed_ret {e : Engine} {k : Caller} (h : Informed e.cap.frames e.bus e.pool) :
    Informed (e.ret k).cap.frames (e.ret k).bus (e.ret k).pool := by
  cases k with
  | completion => exact h.add (by simp)
  | handler => exact h
  | control => exact h

theorem Informed.exec {e e' : Engine} {pc : Pc}
    (hi : Informed e.cap.frames e.bus (pc ::ₘ e.pool)) (hp : Placed e.cap (pc ::ₘ e.pool))
    (hx : Engine.Exec e pc e') : Informed e'.cap.frames e'.bus e'.pool := by
  have hk := hi.knows pc (Multiset.mem_cons_self pc e.pool)
  cases hx with
  | attachAccepted hst => exact hi.tail.add (by simp [Pc.Knows, hst])
  -- an attach that was refused has had no callback, so the mark is still `attaching`
  | @attachRefused d st hst hf =>
    obtain ⟨hs, -, -, hh⟩ := (hp d).owned_attach rfl
    have hfits := hi.fits d
    have hatt : (e.cap.frames d).state = .attaching := by
      rcases hs with hs | hs
      · exact hs
      · have hs' : (e.cap.frames d).state = .completedWhileAttaching := hs
        simp [Frame.Fits, hs', hf] at hfits
    refine (hi.tail.writeBus hh (b := { e.bus d with armed := false }) ?_).add ?_
    · simp [Frame.Fits, hatt]
    · simp [Pc.Knows, hatt]
  | detachAtBus hb =>
    have := hk _ _ rfl
    exact hi.tail.add (by simpa [Pc.Knows] using this)
  | @attachFailed d st cookie hst =>
    obtain ⟨-, -, -, hh⟩ := (hp d).owned_attach rfl
    obtain ⟨-, hb⟩ := hk _ _ rfl
    exact (hi.tail.writeFrame hh (by simp [Frame.Fits, (hb hst).1])).add (by simp)
  | @attachFrameDone d st cookie hst hs =>
    obtain ⟨-, -, -, hh⟩ := (hp d).owned_attach rfl
    have hfits := hi.fits d
    simp only [Frame.Fits, hs] at hfits
    exact (hi.tail.writeFrame hh (by simp [Frame.Fits])).add (by simp [Pc.Knows, hfits])
  -- both leave the descriptor pending: `draining` only keeps the pump away
  | @attachDraining d _ _ _ _ _ | @attachPublished d _ _ _ _ _ =>
    obtain ⟨-, -, -, hh⟩ := (hp d).owned_attach rfl
    exact (hi.tail.writeFrame hh (by simp [Frame.Fits])).add (by simp)
  | @beginDetach k d =>
    obtain ⟨hs, -, -, hh⟩ := (hp d).owned_detach rfl
    have hs' : (e.cap.frames d).state = .detaching := hs
    exact (hi.tail.writeBus hh (by simp [Frame.Fits, hs'])).add (by simp [Pc.Knows])
  | @detachFailed d st cookie bytes completion hst =>
    obtain ⟨-, -, -, hh⟩ := (hp d).owned_detach rfl
    obtain ⟨-, -, hb⟩ := hk _ _ rfl
    exact (hi.tail.writeFrame hh (by simp [Frame.Fits, hb])).add (by simp)
  | @detachDone d st cookie bytes completion hst =>
    obtain ⟨-, -, -, hh⟩ := (hp d).owned_detach rfl
    obtain ⟨-, -, hb⟩ := hk _ _ rfl
    exact (hi.tail.writeFrame hh (by simp [Frame.Fits, hb])).add (by simp)
  | @acquired k i d cookie =>
    obtain ⟨hs, -, -, hh⟩ := (hp d).owned_lap rfl
    have hs' : (e.cap.frames d).state = .free := hs
    have hfits := hi.fits d
    simp only [Frame.Fits, hs'] at hfits
    exact (hi.tail.writeFrame hh (by simp [Frame.Fits, hs', hfits])).add (by simp [Pc.Knows])
  | @gaveBack _ d | @rejected _ _ d _ | @publishDraining _ _ d _ _ =>
    obtain ⟨hs, -, -, hh⟩ := (hp d).owned_lap rfl
    have hs' : (e.cap.frames d).state = .free := hs
    have hfits := hi.fits d
    simp only [Frame.Fits, hs'] at hfits
    exact (hi.tail.writeFrame hh (by simp [Frame.Fits, hfits])).add (by simp)
  | @published k i d cookie hdr =>
    obtain ⟨hs, -, -, hh⟩ := (hp d).owned_lap rfl
    have hs' : (e.cap.frames d).state = .free := hs
    have hfits := hi.fits d
    simp only [Frame.Fits, hs'] at hfits
    exact (hi.tail.writeFrame hh (by simp [Frame.Fits])).add (by simp [Pc.Knows, hfits])
  -- the attach goes out while the pump moves on: one routine becomes two
  | @attachBegun k i d next hn =>
    obtain ⟨-, -, -, hh⟩ := (hp d).owned_attach rfl
    obtain ⟨-, hatt⟩ := hk _ _ rfl
    refine ((hi.tail.writeBus hh ?_).add ?_).add ?_
    · simp [Frame.Fits, hatt]
    · simp [Pc.Knows]
    · cases hn <;> simp
  | rejectDelivered hn => exact hi.tail.add (by cases hn <;> simp)
  | electLost _ | lapDone _ | workQueued _ | workQueue | workUndone =>
    exact Engine.informed_ret hi.tail
  | irpDoneMore _ | irpDoneRunning _ | irpDoneSignal | releaseDeliver => exact hi.tail
  | _ => exact hi.tail.add (by simp [Pc.Knows])

/-- A frame callback surprises no owner: whoever could be is past the point where it
relied on the buffer. -/
theorem Pc.Knows.callback {f f' : Frame} {b : BusFrame} {pc : Pc} (h : pc.Knows f b)
    (ha : b.armed = true) (hc : f'.cookie = f.cookie) (st : NtStatus) :
    pc.Knows f' { b with armed := false, frameDone := true, frameStatus := st } := by
  cases pc with
  | attachComplete d status cookie =>
    refine ⟨h.1.trans hc.symm, fun hst => ?_⟩
    have := (h.2 hst).1
    simp [ha] at this
  | detachAtBus d => rfl
  | detachComplete d status cookie bytes completion =>
    have := h.2.2
    simp [ha] at this
  | beginDetach k d => exact fun _ => ⟨rfl, rfl⟩
  | pump k pc =>
    cases pc with
    | publish i d cookie => exact Eq.trans h hc.symm
    | beginAttach i d =>
      have := h.1
      simp [ha] at this
    | _ => trivial
  | _ => trivial

theorem Informed.callback {e e' : Engine} {d : FrameId} {st : NtStatus}
    (hi : Informed e.cap.frames e.bus e.pool) (ha : (e.bus d).armed = true)
    (hx : Engine.Callback e d st e') : Informed e'.cap.frames e'.bus e'.pool := by
  -- every owner stays informed of a frame that keeps its cookie
  have hall : ∀ f : Frame, f.cookie = (e.cap.frames d).cookie → ∀ pc ∈ e.pool, ∀ d' st',
      pc.owns = some (d', st') → pc.Knows (Function.update e.cap.frames d f d') (Function.update e.bus d
        { e.bus d with armed := false, frameDone := true, frameStatus := st } d') := by
    intro f hf pc hpc d' st' ho
    have hk := hi.knows pc hpc d' st' ho
    by_cases hd : d' = d
    · subst hd
      simpa using hk.callback ha hf st
    · simpa [hd] using hk
  have hfit : ∀ f : Frame, f.Fits { e.bus d with armed := false, frameDone := true, frameStatus := st } →
      ∀ d', (Function.update e.cap.frames d f d').Fits (Function.update e.bus d
        { e.bus d with armed := false, frameDone := true, frameStatus := st } d') := by
    intro f hf d'
    by_cases hd : d' = d
    · subst hd
      simpa using hf
    · simpa [hd] using hi.fits d'
  cases hx with
  | recycling hs =>
    exact Informed.add ⟨hall _ rfl, hfit _ (by simp [Frame.Fits])⟩ (by simp [Pc.Knows, Capture.countIrp, Capture.takeForDetach, Capture.setFrame])
  | deferred hs => exact ⟨hall _ rfl, hfit _ (by simp [Frame.Fits])⟩
  | alreadyTaken hp hat =>
    have hself : Informed (Function.update e.cap.frames d (e.cap.frames d)) (Function.update e.bus d
        { e.bus d with armed := false, frameDone := true, frameStatus := st }) e.pool := by
      refine ⟨hall _ rfl, hfit _ ?_⟩
      unfold Frame.Fits
      split <;> trivial
    rwa [Function.update_eq_self] at hself

theorem Informed.region {e e' : Engine} {r : Engine.Region}
    (hi : Informed e.cap.frames e.bus e.pool) (hp : Placed e.cap e.pool) (hx : e.region r = some e') :
    Informed e'.cap.frames e'.bus e'.pool := by
  cases r with
  | claimPending =>
    cases hx
    unfold Engine.claimPending
    split
    · exact hi
    · next d hc =>
      obtain ⟨-, -, hh⟩ := (hp d).of_pending (Capture.state_of_firstPending hc)
      exact (hi.writeFrame hh (by simp [Frame.Fits])).add (by simp [Pc.Knows])
  | releaseQuarantined d =>
    simp only [Engine.region] at hx
    split at hx
    · next hs =>
      cases hx
      have hfits := hi.fits d
      simp only [Frame.Fits, hs] at hfits
      have hh := (hp d).of_detachFailed hs
      exact (hi.writeFrame hh (by simp [Frame.Fits, hfits])).add (by simp)
    · cases hx
  | takeWorker =>
    simp only [Engine.region] at hx
    split at hx
    · cases hx
      exact hi.mono (Multiset.erase_subset _ _)
    · cases hx
  | setDraining | clearDraining | setListening _ | clearFirstAttachDone | clearDrainDone
  | setGeometry _ | setResourceHandle _ | freeChunkMdls =>
    cases hx
    exact hi

theorem Informed.step {e e' : Engine} {a : Engine.Act} (hi : Informed e.cap.frames e.bus e.pool)
    (hp : Placed e.cap e.pool) (hx : e.step a = some e') :
    Informed e'.cap.frames e'.bus e'.pool := by
  cases a with
  | run pc o =>
    obtain ⟨pool, hpool, hx⟩ := Engine.run_cases hx
    rw [hpool] at hi hp
    exact Informed.exec (e := { e with pool := pool }) hi hp hx
  | callback d st =>
    obtain ⟨ha, hx⟩ := Engine.callback_cases hx
    exact hi.callback ha hx
  | callPump k =>
    simp only [Engine.step] at hx
    split at hx <;> cases hx
    exact hi.add (by simp)
  | callRequestWork k =>
    simp only [Engine.step] at hx
    split at hx <;> cases hx
    exact hi.add (by simp)
  | startWork =>
    simp only [Engine.step] at hx
    split at hx <;> cases hx
    exact hi.add (by simp)
  | control r => exact hi.region hp hx

theorem Informed.of_reachable {e : Engine} (h : Engine.machine.Reachable e) :
    Informed e.cap.frames e.bus e.pool := by
  refine h.invariant (I := fun e => Informed e.cap.frames e.bus e.pool) ?_ ?_
  · exact ⟨fun pc hpc => absurd hpc (Multiset.notMem_zero pc), fun d => rfl⟩
  · intro s a s' hr hi _ hs
    exact hi.step (Placed.of_reachable hr) hs

end Photonic
