import Photonic.Engine.Cases

namespace Photonic

/-- Which kind of activity owns a descriptor. -/
inductive Stage
  | lap
  | attach
  | detach
  deriving DecidableEq, Repr

namespace Pc

@[simp] def owns : Pc → Option (FrameId × Stage)
  | .attachAtBus d => some (d, .attach)
  | .detachAtBus d => some (d, .detach)
  | .attachComplete d _ _ => some (d, .attach)
  | .attachFailed _ _ => none
  | .attachLive _ => none
  | .irpDone => none
  | .irpDoneTest => none
  | .irpDoneSignal => none
  | .beginDetach _ d => some (d, .detach)
  | .detachComplete d _ _ _ _ => some (d, .detach)
  | .detachDeliver _ _ _ => none
  | .releaseDeliver _ => none
  | .pump _ .elect => none
  | .pump _ .top => none
  | .pump _ (.claim _) => none
  | .pump _ (.acquire _ d) => some (d, .lap)
  | .pump _ (.giveBack d) => some (d, .lap)
  | .pump _ (.reject _ d _) => some (d, .lap)
  | .pump _ (.rejectDeliver _ _) => none
  | .pump _ (.publish _ d _) => some (d, .lap)
  | .pump _ (.handBack _) => none
  | .pump _ (.beginAttach _ d) => some (d, .attach)
  | .pump _ .bottom => none
  | .requestWork _ _ => none
  | .worker _ => none

end Pc

/-- How many activities own `d` at a stage. -/
def held (pool : Multiset Pc) (d : FrameId) (st : Stage) : ℕ :=
  pool.countP (·.owns = some (d, st))

@[simp] theorem held_zero (d : FrameId) (st : Stage) : held 0 d st = 0 := rfl

@[simp] theorem held_cons (pool : Multiset Pc) (pc : Pc) (d : FrameId) (st : Stage) :
    held (pc ::ₘ pool) d st = held pool d st + if pc.owns = some (d, st) then 1 else 0 := by
  simp only [held, Multiset.countP_cons]

theorem held_pos_of_mem {pool : Multiset Pc} {pc : Pc} {d : FrameId} {st : Stage} (h : pc ∈ pool)
    (ho : pc.owns = some (d, st)) : 0 < held pool d st :=
  Multiset.countP_pos.mpr ⟨pc, h, ho⟩

/-- The part of the memory that concerns one descriptor's place. -/
structure Spot where
  state : FrameState
  onFree : ℕ
  onPending : ℕ

def Capture.spot (c : Capture) (d : FrameId) : Spot :=
  ⟨(c.frames d).state, c.freeList.count d, c.pendingList.count d⟩

/-- The owners and the lists a descriptor in each state must have. -/
def Spot.Fits (s : Spot) (lap attach detach : ℕ) : Prop :=
  match s.state with
  | .free => s.onFree + lap = 1 ∧ s.onPending = 0 ∧ attach = 0 ∧ detach = 0
  | .attaching | .completedWhileAttaching =>
    s.onFree + lap = 0 ∧ s.onPending = 1 ∧ attach = 1 ∧ detach = 0
  | .pending => s.onFree + lap = 0 ∧ s.onPending = 1 ∧ attach = 0 ∧ detach = 0
  | .detaching => s.onFree + lap = 0 ∧ s.onPending = 0 ∧ attach = 0 ∧ detach = 1
  | .detachFailed => s.onFree + lap = 0 ∧ s.onPending = 0 ∧ attach = 0 ∧ detach = 0

/-- Descriptor `d` is where its state says. -/
def PlacedAt (c : Capture) (pool : Multiset Pc) (d : FrameId) : Prop :=
  (c.spot d).Fits (held pool d .lap) (held pool d .attach) (held pool d .detach)

def Placed (c : Capture) (pool : Multiset Pc) : Prop := ∀ d, PlacedAt c pool d

namespace Capture
section
variable (c : Capture) (d d' : FrameId)

@[simp] theorem spot_setState (s : FrameState) : (c.setState d s).spot d' =
    if d' = d then { c.spot d with state := s } else c.spot d' := by
  by_cases h : d' = d
  · subst h
    simp [spot, setState, setFrame]
  · simp [spot, setState, setFrame, h]

@[simp] theorem spot_recycle : (c.recycle d).spot d' =
    if d' = d then ⟨.free, (c.spot d).onFree + 1, (c.spot d).onPending⟩ else c.spot d' := by
  by_cases h : d' = d
  · subst h
    simp [spot, recycle, setFrame]
  · simp [spot, recycle, setFrame, h, Ne.symm h]

@[simp] theorem spot_unlinkPending : (c.unlinkPending d).spot d' =
    if d' = d then { c.spot d with onPending := (c.spot d).onPending - 1 } else c.spot d' := by
  by_cases h : d' = d
  · subst h
    simp [spot, unlinkPending]
  · simp [spot, unlinkPending, h]

@[simp] theorem spot_putBack : (c.putBack d).spot d' =
    if d' = d then ⟨.free, (c.spot d).onFree + 1, (c.spot d).onPending⟩ else c.spot d' := by
  by_cases h : d' = d
  · subst h
    simp [spot, putBack, setState, setFrame]
  · simp [spot, putBack, setState, setFrame, h, Ne.symm h]

@[simp] theorem spot_takeForDetach (st : NtStatus) : (c.takeForDetach d st).spot d' =
    if d' = d then ⟨.detaching, (c.spot d).onFree, (c.spot d).onPending - 1⟩ else c.spot d' := by
  by_cases h : d' = d
  · subst h
    simp [spot, takeForDetach, unlinkPending, setFrame]
  · simp [spot, takeForDetach, unlinkPending, setFrame, h]

@[simp] theorem spot_publish : (c.publish d).spot d' =
    if d' = d then ⟨.attaching, (c.spot d).onFree, (c.spot d).onPending + 1⟩ else c.spot d' := by
  by_cases h : d' = d
  · subst h
    simp [spot, publish, setState, setFrame]
  · simp [spot, publish, setState, setFrame, h, Ne.symm h]

@[simp] theorem spot_prime (cookie : Cookie) : (Engine.prime c d cookie).spot d' = c.spot d' := by
  by_cases h : d' = d
  · subst h
    simp [spot, Engine.prime, setFrame]
  · simp [spot, Engine.prime, setFrame, h]

@[simp] theorem spot_countIrp : c.countIrp.spot d' = c.spot d' := rfl

end
end Capture

@[simp] theorem Engine.held_ret (e : Engine) (k : Caller) (d : FrameId) (st : Stage) :
    held (e.ret k).pool d st = held e.pool d st := by
  cases k <;> simp [Engine.ret]

theorem PlacedAt.of_spot {c c' : Capture} {pool pool' : Multiset Pc} {d : FrameId}
    (h : PlacedAt c pool d) (hs : c'.spot d = c.spot d)
    (hp : ∀ st, held pool' d st = held pool d st) : PlacedAt c' pool' d := by
  simpa only [PlacedAt, hs, hp] using h

section
variable {c : Capture} {pool : Multiset Pc} {pc : Pc} {d : FrameId}

theorem PlacedAt.owned_lap (h : PlacedAt c (pc ::ₘ pool) d) (ho : pc.owns = some (d, .lap)) :
    (c.spot d).state = .free ∧ (c.spot d).onFree = 0 ∧ (c.spot d).onPending = 0 ∧
      ∀ st, held pool d st = 0 := by
  simp only [PlacedAt, Spot.Fits, held_cons, ho] at h
  split at h <;> simp at h
  next hs =>
    refine ⟨hs, by omega, by omega, ?_⟩
    rintro (_ | _ | _) <;> omega

theorem PlacedAt.owned_attach (h : PlacedAt c (pc ::ₘ pool) d) (ho : pc.owns = some (d, .attach)) :
    ((c.spot d).state = .attaching ∨ (c.spot d).state = .completedWhileAttaching) ∧
      (c.spot d).onFree = 0 ∧ (c.spot d).onPending = 1 ∧ ∀ st, held pool d st = 0 := by
  simp only [PlacedAt, Spot.Fits, held_cons, ho] at h
  split at h <;> simp at h
  all_goals
    next hs =>
      refine ⟨by simp [hs], by omega, by omega, ?_⟩
      rintro (_ | _ | _) <;> omega

theorem PlacedAt.owned_detach (h : PlacedAt c (pc ::ₘ pool) d) (ho : pc.owns = some (d, .detach)) :
    (c.spot d).state = .detaching ∧ (c.spot d).onFree = 0 ∧ (c.spot d).onPending = 0 ∧
      ∀ st, held pool d st = 0 := by
  simp only [PlacedAt, Spot.Fits, held_cons, ho] at h
  split at h <;> simp at h
  next hs =>
    refine ⟨hs, by omega, by omega, ?_⟩
    rintro (_ | _ | _) <;> omega

end

theorem PlacedAt.of_pending {c : Capture} {pool : Multiset Pc} {d : FrameId} (h : PlacedAt c pool d)
    (hs : (c.frames d).state = .pending) :
    (c.spot d).onFree = 0 ∧ (c.spot d).onPending = 1 ∧ ∀ st, held pool d st = 0 := by
  have hspot : (c.spot d).state = .pending := hs
  simp only [PlacedAt, Spot.Fits, hspot] at h
  refine ⟨by omega, by omega, ?_⟩
  rintro (_ | _ | _) <;> omega

theorem PlacedAt.of_detachFailed {c : Capture} {pool : Multiset Pc} {d : FrameId}
    (h : PlacedAt c pool d) (hs : (c.frames d).state = .detachFailed) : ∀ st, held pool d st = 0 := by
  have hspot : (c.spot d).state = .detachFailed := hs
  simp only [PlacedAt, Spot.Fits, hspot] at h
  rintro (_ | _ | _) <;> omega

theorem Capture.state_of_firstPending {c : Capture} {d : FrameId} (h : c.firstPending = some d) :
    (c.frames d).state = .pending := by
  simpa using List.find?_some h

theorem Engine.Exec.frame_of_not_owner {e e' : Engine} {pc : Pc} {d : FrameId} (hx : Exec e pc e')
    (ho : ∀ st, pc.owns ≠ some (d, st)) : e'.cap.frames d = e.cap.frames d := by
  have hne : ∀ d₀ st, pc.owns = some (d₀, st) → d ≠ d₀ := by
    rintro d₀ st h rfl
    exact ho st h
  cases hx with
  | attachFailed | attachFrameDone | attachDraining | attachPublished | detachFailed | detachDone
  | gaveBack | rejected | publishDraining | published | acquired =>
    exact Function.update_of_ne (hne _ _ rfl) _ _
  | electLost | lapDone | workQueued | workQueue | workUndone => rw [ret_cap]
  | _ => rfl

theorem Placed.exec {e e' : Engine} {pc : Pc} (h : Placed e.cap (pc ::ₘ e.pool))
    (hx : Engine.Exec e pc e') : Placed e'.cap e'.pool := by
  intro d'
  have h' := h d'
  cases hx with
  | @attachFailed d _ _ _ | @attachFrameDone d _ _ _ _ | @attachDraining d _ _ _ _ _
  | @attachPublished d _ _ _ _ _ =>
    by_cases hd : d' = d
    · subst hd
      obtain ⟨-, hf, hp, hh⟩ := h'.owned_attach rfl
      simp [PlacedAt, Spot.Fits, hf, hp, hh]
    · exact h'.of_spot (by simp [hd]) (by simp [Ne.symm hd])
  | @detachFailed d _ _ _ _ _ | @detachDone d _ _ _ _ _ =>
    by_cases hd : d' = d
    · subst hd
      obtain ⟨-, hf, hp, hh⟩ := h'.owned_detach rfl
      simp [PlacedAt, Spot.Fits, hf, hp, hh]
    · exact h'.of_spot (by simp [hd]) (by simp [Ne.symm hd])
  | @gaveBack _ d | @rejected _ _ d _ | @publishDraining _ _ d _ _ | @published _ _ d _ _ =>
    by_cases hd : d' = d
    · subst hd
      obtain ⟨-, hf, hp, hh⟩ := h'.owned_lap rfl
      simp [PlacedAt, Spot.Fits, hf, hp, hh]
    · exact h'.of_spot (by simp [hd]) (by simp [Ne.symm hd])
  | @claimed k i d rest _ hfree =>
    -- what the list loses the lap gains
    have hspot : (e.cap.spot d').onFree = rest.count d' + if d = d' then 1 else 0 := by
      simp [Capture.spot, hfree, List.count_cons]
    have hnew : Capture.spot { e.cap with freeList := rest } d' =
        { e.cap.spot d' with onFree := rest.count d' } := rfl
    by_cases hd : d' = d
    · subst hd
      simp only [PlacedAt, Spot.Fits, hnew, hspot, Engine.spawn_cap, Engine.spawn_pool, held_cons,
        Pc.owns] at h' ⊢
      split at h' <;> simp at h' ⊢
      omega
    · exact h'.of_spot (by simp [Capture.spot, hfree, Ne.symm hd]) (by simp [Ne.symm hd])
  | acquired => exact h'.of_spot (by simp) (by simp)
  | electLost _ | lapDone _ | workQueued _ | workQueue | workUndone =>
    exact h'.of_spot (by simp only [Engine.ret_cap, Capture.spot]) (by simp)
  | attachBegun hn | rejectDelivered hn => exact h'.of_spot rfl (by cases hn <;> simp)
  | _ => exact h'.of_spot rfl (by simp)

theorem Placed.callback {e e' : Engine} {d : FrameId} {st : NtStatus} (h : Placed e.cap e.pool)
    (hx : Engine.Callback e d st e') : Placed e'.cap e'.pool := by
  intro d'
  have h' := h d'
  cases hx with
  | recycling hs =>
    by_cases hd : d' = d
    · subst hd
      obtain ⟨hf, hp, hh⟩ := h'.of_pending hs
      simp [PlacedAt, Spot.Fits, hf, hp, hh]
    · exact h'.of_spot (by simp [hd]) (by simp [Ne.symm hd])
  | deferred hs =>
    by_cases hd : d' = d
    · subst hd
      have hspot : (e.cap.spot d').state = .attaching := hs
      simpa [PlacedAt, Spot.Fits, hspot] using h'
    · exact h'.of_spot (by simp [hd]) (by simp)
  | alreadyTaken hp ha => exact h'

theorem Placed.region {e e' : Engine} {r : Engine.Region} (h : Placed e.cap e.pool)
    (hx : e.region r = some e') : Placed e'.cap e'.pool := by
  intro d'
  have h' := h d'
  cases r with
  | claimPending =>
    cases hx
    unfold Engine.claimPending
    split
    · exact h'
    · next d hc =>
      by_cases hd : d' = d
      · subst hd
        obtain ⟨hf, hp, hh⟩ := h'.of_pending (Capture.state_of_firstPending hc)
        simp [PlacedAt, Spot.Fits, hf, hp, hh]
      · exact h'.of_spot (by simp [hd]) (by simp [Ne.symm hd])
  | releaseQuarantined d =>
    simp only [Engine.region] at hx
    split at hx
    · next hs =>
      cases hx
      by_cases hd : d' = d
      · subst hd
        have hspot : (e.cap.spot d').state = .detachFailed := hs
        simp [PlacedAt, Spot.Fits, hspot] at h' ⊢
        omega
      · exact h'.of_spot (by simp [hd]) (by simp)
    · cases hx
  | takeWorker =>
    simp only [Engine.region] at hx
    split at hx
    · next hm =>
      cases hx
      refine h'.of_spot rfl fun st => ?_
      nth_rewrite 2 [← Multiset.cons_erase hm]
      simp
    · cases hx
  | setDraining | clearDraining | setListening _ | clearFirstAttachDone | clearDrainDone
  | setGeometry _ | setResourceHandle _ | freeChunkMdls =>
    cases hx
    exact h'

theorem Placed.step {e e' : Engine} {a : Engine.Act} (h : Placed e.cap e.pool)
    (hx : e.step a = some e') : Placed e'.cap e'.pool := by
  cases a with
  | run pc o =>
    obtain ⟨pool, hpool, hx⟩ := Engine.run_cases hx
    rw [hpool] at h
    exact Placed.exec (e := { e with pool := pool }) h hx
  | callback d st => exact h.callback (Engine.callback_cases hx).2
  | callPump k =>
    simp only [Engine.step] at hx
    split at hx <;> cases hx
    exact fun d => (h d).of_spot rfl (by simp)
  | callRequestWork k =>
    simp only [Engine.step] at hx
    split at hx <;> cases hx
    exact fun d => (h d).of_spot rfl (by simp)
  | startWork =>
    simp only [Engine.step] at hx
    split at hx <;> cases hx
    exact fun d => (h d).of_spot rfl (by simp)
  | control r => exact h.region hx

theorem placed_create : Placed Engine.create.cap Engine.create.pool := by
  intro d
  have h : (List.finRange captureFrameCount).count d = 1 := by
    revert d
    decide
  simp [PlacedAt, Spot.Fits, Capture.spot, Engine.create, h]

theorem Placed.of_reachable {e : Engine} (h : Engine.machine.Reachable e) : Placed e.cap e.pool :=
  h.invariant (I := fun e => Placed e.cap e.pool) placed_create fun _ _ _ _ hi _ hs => hi.step hs
end Photonic
