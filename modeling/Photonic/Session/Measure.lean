import Photonic.Session.Idle

namespace Photonic

/-- What a completion routine still has to do after the pump or the work request it
called returns. -/
def Caller.tail : Caller → ℕ
  | .completion => 3
  | .handler => 0
  | .control => 0

@[simp] theorem Caller.tail_completion : completion.tail = 3 := rfl
@[simp] theorem Caller.tail_handler : handler.tail = 0 := rfl
@[simp] theorem Caller.tail_control : control.tail = 0 := rfl

/-- More than the number of steps an activity of a draining engine can still lead to.
The front-end's own work requests and the system workers do not count. -/
@[simp] def Pc.weight : Pc → ℕ
  | .attachAtBus _ => 17
  | .attachComplete _ _ _ => 16
  | .beginDetach _ _ => 11
  | .detachAtBus _ => 10
  | .detachComplete _ _ _ _ _ => 9
  | .detachDeliver _ _ _ => 8
  | .attachLive _ => 7
  | .attachFailed _ _ => 4
  | .irpDone => 3
  | .irpDoneTest => 2
  | .irpDoneSignal => 1
  | .releaseDeliver _ => 1
  | .pump k (.beginAttach _ _) => k.tail + 20
  | .pump k (.acquire _ _) => k.tail + 5
  | .pump k .elect => k.tail + 4
  | .pump k (.reject _ _ _) => k.tail + 4
  | .pump k .top => k.tail + 3
  | .pump k (.publish _ _ _) => k.tail + 3
  | .pump k (.rejectDeliver _ _) => k.tail + 3
  | .pump k (.claim _) => k.tail + 2
  | .pump k (.giveBack _) => k.tail + 2
  | .pump k (.handBack _) => k.tail + 2
  | .pump k .bottom => k.tail + 1
  | .requestWork .handler _ => 0
  | .requestWork k .exchange => k.tail + 3
  | .requestWork k .acquireLock => k.tail + 2
  | .requestWork k .queue => k.tail + 1
  | .requestWork k .undo => k.tail + 1
  | .worker _ => 0

def poolWeight (pool : Multiset Pc) : ℕ := (pool.map Pc.weight).sum

@[simp] theorem poolWeight_cons (pool : Multiset Pc) (pc : Pc) :
    poolWeight (pc ::ₘ pool) = pc.weight + poolWeight pool := by
  simp [poolWeight]

@[simp] theorem Engine.poolWeight_ret (e : Engine) (k : Caller) :
    poolWeight (e.ret k).pool = k.tail + poolWeight e.pool := by
  cases k <;> simp [Engine.ret]

/-- The descriptors the quiesce can still claim. -/
def pendings (frames : FrameId → Frame) : ℕ := ∑ d, if (frames d).state = .pending then 1 else 0

theorem pendings_update (frames : FrameId → Frame) (d : FrameId) (f : Frame) :
    pendings (Function.update frames d f) + (if (frames d).state = .pending then 1 else 0) =
      pendings frames + if f.state = .pending then 1 else 0 :=
  Pool.sum_update frames (fun f => if f.state = .pending then 1 else 0) d f

/-- The runner that is about to clear `PumpAgain`. -/
@[simp] def Pc.atTop : Pc → Bool
  | .pump _ .top => true
  | _ => false

def tops (pool : Multiset Pc) : ℕ := pool.countP (·.atTop = true)

/-- The lap `PumpAgain` still asks for, unless the runner is about to clear it. -/
def againWeight (c : Capture) (pool : Multiset Pc) : ℕ :=
  if c.pumpAgain = true ∧ tops pool = 0 then 3 else 0

def drainWeight (c : Capture) (pool : Multiset Pc) : ℕ :=
  poolWeight pool + 12 * pendings c.frames + againWeight c pool

theorem tops_cons (pool : Multiset Pc) (pc : Pc) :
    tops (pc ::ₘ pool) = tops pool + if pc.atTop = true then 1 else 0 := by
  simp only [tops, Multiset.countP_cons]

theorem tops_ret (e : Engine) (k : Caller) : tops (e.ret k).pool = tops e.pool := by
  cases k <;> simp [Engine.ret, tops_cons]

theorem tops_le_runners (pool : Multiset Pc) : tops pool ≤ runners pool := by
  refine Pool.countP_mono pool fun pc _ h => ?_
  cases pc with
  | pump k pc => cases pc <;> simp_all
  | _ => simp_all

/-- Of two engines with the same flag and the same top, the request for a lap weighs
the same. -/
theorem againWeight_congr {c c' : Capture} {pool pool' : Multiset Pc}
    (ha : c'.pumpAgain = c.pumpAgain) (ht : tops pool' = tops pool) :
    againWeight c' pool' = againWeight c pool := by
  simp only [againWeight, ha, ht]

theorem againWeight_le (c : Capture) (pool : Multiset Pc) : againWeight c pool ≤ 3 := by
  unfold againWeight
  split <;> omega

theorem againWeight_of_not_again {c : Capture} (h : c.pumpAgain = false) (pool : Multiset Pc) :
    againWeight c pool = 0 := by
  simp [againWeight, h]

theorem againWeight_of_top (c : Capture) (pool : Multiset Pc) (k : Caller) :
    againWeight c (.pump k .top ::ₘ pool) = 0 := by
  simp [againWeight, tops_cons]

/-- A step of the pump election, which reads or writes `PumpAgain`. -/
def Pc.elects : Pc → Bool
  | .pump _ .elect | .pump _ .top | .pump _ .bottom => true
  | _ => false

theorem againWeight_exec {e e' : Engine} {pc : Pc} (hx : Engine.Exec e pc e')
    (hpc : pc.elects = false) : againWeight e'.cap e'.pool = againWeight e.cap (pc ::ₘ e.pool) := by
  cases hx with
  | electLost | electWon | lapTop | lapAgain | lapDone => cases hpc
  | rejectDelivered hn | attachBegun hn =>
    cases hn <;> exact againWeight_congr rfl (by simp [tops_cons])
  | workQueued | workQueue | workUndone =>
    exact againWeight_congr (by rw [Engine.ret_cap]) (by simp [tops_cons, tops_ret])
  | _ => exact againWeight_congr rfl (by simp [tops_cons])

/-- What an activity still has to do and what the quiesce can still claim. -/
def claimWeight (c : Capture) (pool : Multiset Pc) : ℕ := poolWeight pool + 12 * pendings c.frames

theorem claimWeight_exec {e e' : Engine} {pc : Pc} (hd : e.cap.draining = true)
    (hx : Engine.Exec e pc e') (hpc : pc.elects = false) :
    claimWeight e'.cap e'.pool + (if pc.weight = 0 then 0 else 1) ≤
      claimWeight e.cap (pc ::ₘ e.pool) := by
  have hu := fun d f => pendings_update e.cap.frames d f
  have hone : (if pc.weight = 0 then 0 else 1) = min 1 pc.weight := by split <;> omega
  rw [hone]
  unfold claimWeight
  cases hx with
  | electLost | electWon | lapTop | lapAgain | lapDone => cases hpc
  | attachPublished _ _ hn | claimed hn _ | published hn =>
    rw [hd] at hn
    cases hn
  | @attachFailed d _ _ _ | @detachDone d _ _ _ _ _ =>
    have := hu d { e.cap.frames d with state := .free, cookie := 0 }
    simp at this ⊢
    omega
  | @attachFrameDone d st cookie hst hs =>
    have := hu d { e.cap.frames d with
      state := .detaching, completionStatus := Capture.frameCompletion (e.bus d).frameStatus }
    simp at this ⊢
    omega
  | @attachDraining d _ _ _ _ _ =>
    have := hu d { e.cap.frames d with state := .pending }
    simp at this ⊢
    omega
  | @detachFailed d _ _ _ _ _ =>
    have := hu d { e.cap.frames d with state := .detachFailed }
    simp at this ⊢
    omega
  | @gaveBack _ d | @rejected _ _ d _ | @publishDraining _ _ d _ _ =>
    have := hu d { e.cap.frames d with state := .free }
    simp at this ⊢
    omega
  | @acquired k i d cookie =>
    have := hu d { e.cap.frames d with cookie := cookie, completionStatus := statusSuccess }
    simp at this ⊢
    omega
  | rejectDelivered hn | attachBegun hn => cases hn <;> simp <;> omega
  | @workQueued k _ | @workTaken k _ | @workGranted k | @workRefused k | @workQueue k | @workUndone k =>
    cases k <;>
    · simp only [Engine.spawn_pool, Engine.spawn_cap, Engine.ret_cap, Engine.poolWeight_ret,
        poolWeight_cons, Pc.weight, Caller.tail]
      omega
  | _ =>
    -- the descriptors are left alone, and the activity has become a lighter one
    simp only [Engine.spawn_pool, Engine.spawn_cap, Engine.setBus_pool, Engine.setBus_cap,
      Engine.deliver_pool, Engine.deliver_cap, poolWeight_cons, Pc.weight, Caller.tail_completion]
    omega

theorem drainWeight_ret_le (e : Engine) (k : Caller) : drainWeight (e.ret k).cap (e.ret k).pool ≤
    k.tail + poolWeight e.pool + 12 * pendings e.cap.frames + 3 := by
  have := againWeight_le (e.ret k).cap (e.ret k).pool
  simp [drainWeight] at this ⊢
  omega

theorem drainWeight_ret {e : Engine} (h : e.cap.pumpAgain = false) (k : Caller) :
    drainWeight (e.ret k).cap (e.ret k).pool =
      k.tail + poolWeight e.pool + 12 * pendings e.cap.frames := by
  simp [drainWeight, againWeight_of_not_again h]

/-- A step of the election is progress: a lost election asks for a lap that weighs
less than the pump call that lost it. -/
theorem drainWeight_elects {e e' : Engine} {pc : Pc} (he : Elected e.cap (pc ::ₘ e.pool))
    (hx : Engine.Exec e pc e') (hpc : pc.elects = true) :
    drainWeight e'.cap e'.pool + 1 ≤ drainWeight e.cap (pc ::ₘ e.pool) := by
  cases hx with
  | @electLost k _ =>
    refine (Nat.succ_le_succ (drainWeight_ret_le _ k)).trans ?_
    simp [drainWeight]
    omega
  | @electWon k _ =>
    have := againWeight_of_top ({ e.cap with pumpActive := true } : Capture) e.pool k
    simp [drainWeight, this]
    omega
  | @lapTop k =>
    have := againWeight_of_not_again (c := { e.cap with pumpAgain := false }) rfl
      (.pump k (.claim 0) ::ₘ e.pool)
    simp [drainWeight, this]
    omega
  | @lapAgain k ha =>
    -- the runner is the only one, so nobody else is about to clear the flag
    have hr : runners (.pump k .bottom ::ₘ e.pool) ≤ 1 := Elected.runners_le_one he
    have ht := tops_le_runners e.pool
    have hw : againWeight e.cap (.pump k .bottom ::ₘ e.pool) = 3 := by
      simp at hr
      simp [againWeight, ha, tops_cons]
      omega
    simp [drainWeight, hw, againWeight_of_top]
    omega
  | @lapDone k ha =>
    rw [drainWeight_ret (e := { e with cap := { e.cap with pumpActive := false } }) ha]
    simp [drainWeight]
    omega
  | _ => cases hpc

theorem drainWeight_exec {e e' : Engine} {pc : Pc} (hd : e.cap.draining = true)
    (he : Elected e.cap (pc ::ₘ e.pool)) (hx : Engine.Exec e pc e') :
    drainWeight e'.cap e'.pool + (if pc.weight = 0 then 0 else 1) ≤
      drainWeight e.cap (pc ::ₘ e.pool) := by
  cases hpc : pc.elects with
  | false =>
    have hc := claimWeight_exec hd hx hpc
    have ha := againWeight_exec hx hpc
    unfold claimWeight at hc
    unfold drainWeight
    omega
  | true =>
    have := drainWeight_elects he hx hpc
    split <;> omega

end Photonic
