import Photonic.Engine.Knowledge

namespace Photonic

/-- The cookie an activity will deliver and no descriptor records. -/
@[simp] def Pc.carries : Pc → Option Cookie
  | .attachAtBus _ => none
  | .detachAtBus _ => none
  | .attachComplete _ _ _ => none
  | .attachFailed cookie _ => some cookie
  | .attachLive _ => none
  | .irpDone => none
  | .irpDoneTest => none
  | .irpDoneSignal => none
  | .beginDetach _ _ => none
  | .detachComplete _ _ _ _ _ => none
  | .detachDeliver cookie _ _ => some cookie
  | .releaseDeliver cookie => some cookie
  | .pump _ .elect => none
  | .pump _ .top => none
  | .pump _ (.claim _) => none
  | .pump _ (.acquire _ _) => none
  | .pump _ (.giveBack _) => none
  | .pump _ (.reject _ _ cookie) => some cookie
  | .pump _ (.rejectDeliver _ cookie) => some cookie
  | .pump _ (.publish _ _ cookie) => some cookie
  | .pump _ (.handBack cookie) => some cookie
  | .pump _ (.beginAttach _ _) => none
  | .pump _ .bottom => none
  | .requestWork _ _ => none
  | .worker _ => none

/-- How many activities carry a cookie. -/
def carried (pool : Multiset Pc) (c : Cookie) : ℕ := pool.countP (·.carries = some c)

@[simp] theorem carried_zero (c : Cookie) : carried 0 c = 0 := rfl

@[simp] theorem carried_cons (pool : Multiset Pc) (pc : Pc) (c : Cookie) :
    carried (pc ::ₘ pool) c = carried pool c + if pc.carries = some c then 1 else 0 := by
  simp only [carried, Multiset.countP_cons]

def Frame.records (c : Cookie) (f : Frame) : ℕ := if f.state ≠ .free ∧ f.cookie = c then 1 else 0

def recorded (frames : FrameId → Frame) (c : Cookie) : ℕ := ∑ d, (frames d).records c

theorem recorded_update (frames : FrameId → Frame) (d : FrameId) (f : Frame) (c : Cookie) :
    recorded (Function.update frames d f) c + (frames d).records c =
      recorded frames c + f.records c :=
  Pool.sum_update frames (Frame.records c) d f

def Balanced (e : Engine) (pool : Multiset Pc) : Prop :=
  ∀ c, e.acquired.count c =
    (e.delivered.map (·.cookie)).count c + recorded e.cap.frames c + carried pool c

theorem Engine.balanced_ret {e : Engine} {k : Caller} (h : Balanced e e.pool) :
    Balanced (e.ret k) (e.ret k).pool := by
  intro c
  have := h c
  cases k <;> simpa [Engine.ret] using this

theorem Balanced.exec {e e' : Engine} {pc : Pc} (hb : Balanced e (pc ::ₘ e.pool))
    (hi : Informed e.cap.frames e.bus (pc ::ₘ e.pool)) (hp : Placed e.cap (pc ::ₘ e.pool))
    (hx : Engine.Exec e pc e') : Balanced e' e'.pool := by
  intro c
  have hc := hb c
  have hk := hi.knows pc (Multiset.mem_cons_self pc e.pool)
  -- a descriptor changes the tally by what it recorded and what it records now
  have hu := fun d f => recorded_update e.cap.frames d f c
  cases hx with
  | @attachFailed d st cookie hst =>
    obtain ⟨rfl, hf⟩ := hk _ _ rfl
    have hs := (hf hst).2
    have := hu d { e.cap.frames d with state := .free, cookie := 0 }
    simp [Frame.records, hs] at this hc ⊢
    omega
  | @attachFrameDone d st cookie hst hs =>
    have := hu d { e.cap.frames d with
      state := .detaching, completionStatus := Capture.frameCompletion (e.bus d).frameStatus }
    simp [Frame.records, hs] at this hc ⊢
    omega
  | @attachDraining d _ _ _ _ _ | @attachPublished d _ _ _ _ _ =>
    have hs : (e.cap.frames d).state ≠ .free := by
      rcases ((hp d).owned_attach rfl).1 with hs | hs <;>
        exact fun h => absurd (hs.symm.trans h) (by decide)
    have := hu d { e.cap.frames d with state := .pending }
    simp [Frame.records, hs] at this hc ⊢
    omega
  -- the cookie stays with the quarantined descriptor
  | @detachFailed d st cookie bytes completion hst =>
    have hs : (e.cap.frames d).state = .detaching := ((hp d).owned_detach rfl).1
    have := hu d { e.cap.frames d with state := .detachFailed }
    simp [Frame.records, hs] at this hc ⊢
    omega
  | @detachDone d st cookie bytes completion hst =>
    have hs : (e.cap.frames d).state = .detaching := ((hp d).owned_detach rfl).1
    obtain ⟨rfl, -⟩ := hk _ _ rfl
    have := hu d { e.cap.frames d with state := .free, cookie := 0 }
    simp [Frame.records, hs] at this hc ⊢
    omega
  | @acquired k i d cookie =>
    have hs : (e.cap.frames d).state = .free := ((hp d).owned_lap rfl).1
    have := hu d { e.cap.frames d with cookie := cookie, completionStatus := statusSuccess }
    simp [Frame.records, hs, List.count_singleton] at this hc ⊢
    omega
  -- an undersized buffer is returned at once
  | acquiredShort =>
    simp [List.count_singleton] at hc ⊢
    omega
  | @gaveBack _ d | @rejected _ _ d _ | @publishDraining _ _ d _ _ =>
    have hs : (e.cap.frames d).state = .free := ((hp d).owned_lap rfl).1
    have := hu d { e.cap.frames d with state := .free }
    simp [Frame.records, hs] at this hc ⊢
    omega
  | @published k i d cookie hdr =>
    have hs : (e.cap.frames d).state = .free := ((hp d).owned_lap rfl).1
    have hcookie : cookie = (e.cap.frames d).cookie := hk _ _ rfl
    have := hu d { e.cap.frames d with state := .attaching }
    simp [Frame.records, hs, hcookie] at this hc ⊢
    omega
  | attachFailedDeliver | detachDeliver | releaseDeliver | handedBack =>
    simp [List.count_singleton] at hc ⊢
    omega
  | rejectDelivered hn => cases hn <;> simp [List.count_singleton] at hc ⊢ <;> omega
  | attachBegun hn => cases hn <;> simpa using hc
  | electLost _ | lapDone _ | workQueued _ | workQueue | workUndone =>
    refine Engine.balanced_ret ?_ c
    intro c
    simpa using hb c
  | _ => simpa using hc

theorem Balanced.takeForDetach {e e' : Engine} {d : FrameId} {st : NtStatus} {k : Caller}
    (hb : Balanced e e.pool) (hs : (e.cap.frames d).state = .pending)
    (hf : e'.cap.frames = (e.cap.takeForDetach d st).frames) (ha : e'.acquired = e.acquired)
    (hd : e'.delivered = e.delivered) (hp : e'.pool = .beginDetach k d ::ₘ e.pool) :
    Balanced e' e'.pool := by
  intro c
  have := recorded_update e.cap.frames d
    { e.cap.frames d with state := .detaching, completionStatus := st } c
  have hc := hb c
  simp [Frame.records, hs] at this
  simp [hf, ha, hd, hp]
  omega

theorem Balanced.callback {e e' : Engine} {d : FrameId} {st : NtStatus} (hb : Balanced e e.pool)
    (hx : Engine.Callback e d st e') : Balanced e' e'.pool := by
  cases hx with
  | recycling hs => exact hb.takeForDetach hs rfl rfl rfl rfl
  | deferred hs =>
    intro c
    have := recorded_update e.cap.frames d { e.cap.frames d with state := .completedWhileAttaching } c
    have hc := hb c
    simp [Frame.records, hs] at this hc ⊢
    omega
  | alreadyTaken hp ha => exact hb

theorem Balanced.region {e e' : Engine} {r : Engine.Region} (hb : Balanced e e.pool)
    (hx : e.region r = some e') : Balanced e' e'.pool := by
  cases r with
  | claimPending =>
    cases hx
    unfold Engine.claimPending
    split
    · exact hb
    · next d hc => exact hb.takeForDetach (Capture.state_of_firstPending hc) rfl rfl rfl rfl
  | releaseQuarantined d =>
    simp only [Engine.region] at hx
    split at hx
    · next hs =>
      cases hx
      intro c
      have := recorded_update e.cap.frames d { e.cap.frames d with state := .free, cookie := 0 } c
      have hc := hb c
      simp [Frame.records, hs] at this hc ⊢
      omega
    · cases hx
  | takeWorker =>
    simp only [Engine.region] at hx
    split at hx
    · next hm =>
      cases hx
      intro c
      have hc := hb c
      rw [← Multiset.cons_erase hm] at hc
      simpa using hc
    · cases hx
  | setDraining | clearDraining | setListening _ | clearFirstAttachDone | clearDrainDone
  | setGeometry _ | setResourceHandle _ | freeChunkMdls =>
    cases hx
    exact hb

theorem Balanced.step {e e' : Engine} {a : Engine.Act} (hb : Balanced e e.pool)
    (hi : Informed e.cap.frames e.bus e.pool) (hp : Placed e.cap e.pool) (hx : e.step a = some e') :
    Balanced e' e'.pool := by
  cases a with
  | run pc o =>
    obtain ⟨pool, hpool, hx⟩ := Engine.run_cases hx
    rw [hpool] at hb hi hp
    exact Balanced.exec (e := { e with pool := pool }) hb hi hp hx
  | callback d st => exact hb.callback (Engine.callback_cases hx).2
  | callPump k | callRequestWork k | startWork =>
    simp only [Engine.step] at hx
    split at hx <;> cases hx
    intro c
    simpa using hb c
  | control r => exact hb.region hx

theorem Balanced.of_reachable {e : Engine} (h : Engine.machine.Reachable e) : Balanced e e.pool := by
  refine h.invariant (I := fun e => Balanced e e.pool) ?_ ?_
  · intro c
    simp [Engine.machine, Engine.create, recorded, Frame.records]
  · intro s a s' hr hb _ hs
    exact hb.step (.of_reachable hr) (.of_reachable hr) hs

end Photonic
