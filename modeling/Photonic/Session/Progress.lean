import Photonic.Session.Measure

namespace Photonic

theorem Engine.drainWeight_run {e e' : Engine} {pc : Pc} {o : Oracle} (hd : e.cap.draining = true)
    (he : Elected e.cap e.pool) (h : e.step (.run pc o) = some e') :
    drainWeight e'.cap e'.pool + (if pc.weight = 0 then 0 else 1) ≤ drainWeight e.cap e.pool := by
  obtain ⟨pool, hpool, hx⟩ := Engine.run_cases h
  rw [hpool] at he ⊢
  exact drainWeight_exec (e := { e with pool := pool }) hd he hx

theorem Engine.drainWeight_callback {e e' : Engine} {d : FrameId} {st : NtStatus}
    (h : Engine.Callback e d st e') : drainWeight e'.cap e'.pool ≤ drainWeight e.cap e.pool := by
  have hu := fun f => pendings_update e.cap.frames d f
  cases h with
  | recycling hs =>
    have := hu { e.cap.frames d with
      state := .detaching, completionStatus := Capture.frameCompletion st }
    have hag : againWeight (e.cap.takeForDetach d (Capture.frameCompletion st)).countIrp
        (.beginDetach .handler d ::ₘ e.pool) = againWeight e.cap e.pool :=
      againWeight_congr rfl (by simp [tops_cons])
    simp [drainWeight, hs] at this hag ⊢
    omega
  | deferred hs =>
    have := hu { e.cap.frames d with state := .completedWhileAttaching }
    have hag : againWeight (e.cap.setState d .completedWhileAttaching) e.pool =
        againWeight e.cap e.pool := againWeight_congr rfl rfl
    simp [drainWeight, hs] at this hag ⊢
    omega
  | alreadyTaken => exact le_rfl

/-- No step of the data plane but a new pump call adds to what a draining engine has to
do. -/
theorem Engine.drainWeight_data {e e' : Engine} {x : Engine.Act} (hd : e.cap.draining = true)
    (he : Elected e.cap e.pool) (hx : x.IsData) (hp : ∀ k, x ≠ .callPump k)
    (h : e.step x = some e') : drainWeight e'.cap e'.pool ≤ drainWeight e.cap e.pool := by
  cases x with
  | run pc o => exact (Nat.le_add_right _ _).trans (Engine.drainWeight_run hd he h)
  | callback d st => exact Engine.drainWeight_callback (Engine.callback_cases h).2
  | callPump k => exact absurd rfl (hp k)
  | callRequestWork k =>
    have hk : k = .handler := hx
    subst hk
    cases h
    simp [drainWeight, againWeight, tops_cons]
  | startWork =>
    simp only [Engine.step] at h
    split at h <;> cases h
    simp [drainWeight, againWeight, tops_cons]
  | control r => cases hx

theorem Pc.of_weight_eq_zero {pc : Pc} (h : pc.weight = 0) :
    pc.owns = none ∧ pc.owesDecrement = false ∧ pc.runs = false ∧ pc.isControl = false := by
  cases pc with
  | pump k pc => cases pc <;> simp at h
  | requestWork k pc => cases k <;> cases pc <;> simp_all [Pc.isControl]
  | worker pc => simp [Pc.isControl]
  | _ => simp at h

/-- Every activity that is left weighs nothing. -/
def Resting (pool : Multiset Pc) : Prop := ∀ pc ∈ pool, pc.weight = 0

section
variable {c : Capture} {pool : Multiset Pc}

theorem Resting.held_eq_zero (h : Resting pool) (d : FrameId) (st : Stage) : held pool d st = 0 := by
  refine Multiset.countP_eq_zero.mpr fun pc hpc ho => ?_
  rw [(Pc.of_weight_eq_zero (h pc hpc)).1] at ho
  cases ho

theorem Resting.not_atBus (h : Resting pool) (hp : Placed c pool) (d : FrameId) :
    (c.frames d).state.atBus = false := by
  have hd := hp d
  simp only [PlacedAt, Spot.Fits, Capture.spot, h.held_eq_zero] at hd
  cases hs : (c.frames d).state <;> simp_all

theorem Resting.noIrp (h : Resting pool) (hp : Placed c pool) (hc : Counted c pool) :
    c.inFlightIrps = 0 := by
  have hb : framesAtBus c.frames = 0 :=
    Finset.sum_eq_zero fun d _ => by rw [h.not_atBus hp d]; rfl
  have ho : owing pool = 0 := Pool.countP_eq_zero_of_forall fun pc hpc =>
    (Pc.of_weight_eq_zero (h pc hpc)).2.1
  unfold Counted at hc
  omega

theorem Resting.pumpIdle (h : Resting pool) (he : Elected c pool) : c.pumpActive = false := by
  have hr : runners pool = 0 := Pool.countP_eq_zero_of_forall fun pc hpc =>
    (Pc.of_weight_eq_zero (h pc hpc)).2.2.1
  have he : runners pool = _ := he
  cases ha : c.pumpActive with
  | false => rfl
  | true =>
    rw [hr, ha] at he
    cases he

/-- With nothing at the bus driver, the claim pass misses nothing. -/
theorem Resting.nonePending (h : Resting pool) (hp : Placed c pool) (hf : c.firstPending = none) :
    c.pendingList = [] := by
  refine List.eq_nil_iff_forall_not_mem.mpr fun d hd => ?_
  have hs : (c.frames d).state ≠ .pending := by
    simpa using List.find?_eq_none.mp hf d hd
  have hcount : 0 < c.pendingList.count d := List.count_pos_iff.mpr hd
  have hb := h.not_atBus hp d
  have hd := hp d
  simp only [PlacedAt, Spot.Fits, Capture.spot] at hd
  cases hst : (c.frames d).state with
  | free | detachFailed =>
    simp only [hst] at hd
    omega
  | pending => exact hs hst
  | attaching | completedWhileAttaching | detaching =>
    rw [hst] at hb
    cases hb

end

theorem Resting.callReturned {s : Device} (h : Resting s.eng.pool) : s.callReturned = true := by
  simp only [Device.callReturned, decide_eq_true_eq]
  intro pc hpc
  simp [(Pc.of_weight_eq_zero (h pc hpc)).2.2.2]

namespace Ctl

/-- The quiesce has not taken the engine out of service yet. -/
def entering : Ctl → Bool
  | .quiesce _ .enter => true
  | _ => false

/-- How many steps of its own the quiesce is away from its return, once nothing is at
the bus driver. A pending list that is not empty costs another turn of the loop. -/
def quiesceRank (pending : Bool) : Ctl → ℕ
  | .quiesce _ pc =>
    let again := if pending then 10 else 0
    match pc with
    | .enter => 20
    | .isochStop => 9
    | .clearListening => 8
    | .claimed => 7
    | .claim => 6
    | .clearEvent => again + 5
    | .wait => again + 4
    | .poll => again + 3
    | .check => again + 2
    | .pumpIdle => 1
    | .clearFirst => 0
  | _ => 0

end Ctl

namespace Device

def drainWeight (s : Device) : ℕ := Photonic.drainWeight s.eng.cap s.eng.pool

def quiesceRank (s : Device) : ℕ := s.ctl.quiesceRank (!s.eng.cap.pendingList.isEmpty)

theorem Steps.not_entering {s s' : Device} {a : Act} (h : Steps s a s')
    (hq : s.ctl.inQuiesce = true) (he : s.ctl.entering = false) : s'.ctl.entering = false := by
  cases h with
  | data | notifyCancel | lateListen | lateGrant => exact he
  | ctl hm =>
    generalize s.ctl = c at hq he hm
    cases hm with
    | @quiesceReturns r => cases r <;> rfl
    | quiesceSettled | quiesceDrain => cases he
    | quiesceStop | quiesceClearListening | quiesceNoneLeft | quiesceClaim | quiesceClaimed
    | quiesceClearEvent | quiesceDrained | quiesceBusy | quiesceWait | quiesceEmpty | quiesceAgain
    | quiescePumpIdle => rfl
    | _ => cases hq
  | acquireMutex hc | workMutex hc | start hc | stop hc | ensureListen hc | destroyNone hc
  | destroyLeak hc | destroy hc | surpriseRemoval hc | setState hc | setOneShot hc
  | releaseMutex hc => simp [hc, Ctl.inQuiesce] at hq

theorem Moves.leaves_entry {s s' : Device} {o : Answer} (h : Moves s o s.ctl s')
    (he : s.ctl.entering = true) : s'.ctl.entering = false := by
  generalize s.ctl = c at he h
  cases h with
  | @quiesceSettled r _ => cases r <;> rfl
  | quiesceDrain =>
    simp only [setCap_ctl]
    split <;> rfl
  | _ => cases he

theorem drainWeight_claim {s : Device} {d : FrameId} (hf : s.eng.cap.firstPending = some d) (c : Ctl) :
    (s.claim d c).drainWeight < s.drainWeight := by
  have := pendings_update s.eng.cap.frames d
    { s.eng.cap.frames d with state := .detaching, completionStatus := statusCancelled }
  have hag : againWeight (s.eng.cap.takeForDetach d statusCancelled).countIrp
      (.beginDetach .control d ::ₘ s.eng.pool) = againWeight s.eng.cap s.eng.pool :=
    againWeight_congr rfl (by simp [tops_cons])
  simp [drainWeight, Photonic.drainWeight, Capture.state_of_firstPending hf] at this hag ⊢
  omega

theorem Moves.drainWeight_le {s s' : Device} {o : Answer} (h : Moves s o s.ctl s')
    (hq : s.ctl.inQuiesce = true) (hd : s.eng.cap.draining = true) :
    s'.drainWeight ≤ s.drainWeight := by
  generalize s.ctl = c at hq h
  cases h with
  | quiesceDrain hn =>
    rw [hd] at hn
    cases hn
  | quiesceStop => simp [drainWeight]
  | quiesceClaim hf => exact (drainWeight_claim hf _).le
  | quiesceSettled | quiesceClearListening | quiesceNoneLeft | quiesceClaimed | quiesceClearEvent
  | quiesceDrained | quiesceBusy | quiesceWait | quiesceEmpty | quiesceAgain | quiescePumpIdle
  | quiesceReturns => exact le_rfl
  | _ => cases hq

theorem Steps.drainWeight_le {s s' : Device} {a : Act} (h : Steps s a s')
    (hq : s.ctl.inQuiesce = true) (hd : s.eng.cap.draining = true)
    (he : Elected s.eng.cap s.eng.pool) (ha : a ≠ .callPump) : s'.drainWeight ≤ s.drainWeight := by
  cases h with
  | @data a x e hax hx =>
    refine Engine.drainWeight_data hd he (Act.isData hax) (fun k hk => ha ?_) hx
    cases a <;> cases hax <;> cases hk
    rfl
  | notifyCancel _ hx =>
    exact Engine.drainWeight_data (x := .callRequestWork .handler) hd he rfl nofun hx
  | lateListen | lateGrant => exact le_rfl
  | ctl hm => exact hm.drainWeight_le hq hd
  | acquireMutex hc | workMutex hc | start hc | stop hc | ensureListen hc | destroyNone hc
  | destroyLeak hc | destroy hc | surpriseRemoval hc | setState hc | setOneShot hc
  | releaseMutex hc => simp [hc, Ctl.inQuiesce] at hq

/-- An activity stays in the pool until it is run, but for a worker that waits for
`InterfaceMutex`. -/
theorem Steps.mem_pool {s s' : Device} {a : Act} {pc : Pc} (h : Steps s a s')
    (hw : pc ≠ .worker .wait) (hr : ∀ o, a ≠ .run pc o) (hm : pc ∈ s.eng.pool) :
    pc ∈ s'.eng.pool := by
  cases h with
  | @data a x e hax hx =>
    refine Engine.mem_step hw (fun o ho => hr o ?_) hm hx
    cases a <;> cases hax <;> cases ho
    rfl
  | notifyCancel _ hx => exact Engine.mem_step (x := .callRequestWork .handler) hw nofun hm hx
  | workMutex _ he =>
    simp only [Engine.region] at he
    split at he <;> cases he
    exact (Multiset.mem_erase_of_ne hw).mpr hm
  | @ctl o s' hx =>
    generalize s.ctl = c at hx
    cases hx with
    | quiesceStop | releaseStop | releaseFree => simpa using hm
    | @startAllocated eb res _ _ => cases res <;> exact hm
    | quiesceClaim | releaseQuarantined | startPump | workPump | workRequest =>
      exact Multiset.mem_cons_of_mem hm
    | _ => exact hm
  | _ => exact hm

/-- Once nothing is left to do, every step of the quiesce brings it closer to its
return, or takes a descriptor. -/
theorem Moves.quiesceRank_lt {s s' : Device} {o : Answer} (h : Moves s o s.ctl s')
    (hq : s.ctl.inQuiesce = true) (he : s.ctl.entering = false) (hr : Resting s.eng.pool)
    (hp : Placed s.eng.cap s.eng.pool) (hc : Counted s.eng.cap s.eng.pool) :
    s'.ctl.inQuiesce = false ∨ s'.drainWeight < s.drainWeight ∨ s'.quiesceRank < s.quiesceRank := by
  generalize hctl : s.ctl = c at hq he h
  have hrank : s.quiesceRank = c.quiesceRank (!s.eng.cap.pendingList.isEmpty) := by
    rw [quiesceRank, hctl]
  cases h with
  | @quiesceReturns r =>
    left
    cases r <;> rfl
  | quiesceClaim hf => exact .inr (.inl (drainWeight_claim hf _))
  | quiesceNoneLeft hf =>
    have := hr.nonePending hp hf
    right; right
    rw [hrank]
    simp [quiesceRank, Ctl.quiesceRank, this]
  | quiesceBusy hn => exact absurd (hr.noIrp hp hc) hn
  | quiesceAgain hl =>
    right; right
    rw [hrank]
    simp [quiesceRank, Ctl.quiesceRank, hl]
  | quiesceSettled | quiesceDrain => cases he
  | quiesceStop | quiesceClearListening | quiesceClaimed | quiesceClearEvent | quiesceDrained
  | quiesceWait | quiesceEmpty | quiescePumpIdle =>
    right; right
    rw [hrank]
    simp [quiesceRank, Ctl.quiesceRank]
  | _ => cases hq

theorem Steps.quiesceRank_le {s s' : Device} {a : Act} (h : Steps s a s')
    (hq : s.ctl.inQuiesce = true) (hd : s.eng.cap.draining = true) (ha : ∀ o, a ≠ .ctl o) :
    s'.quiesceRank ≤ s.quiesceRank := by
  have hmono : ∀ l l' : List FrameId, l' ⊆ l →
      s.ctl.quiesceRank (!l'.isEmpty) ≤ s.ctl.quiesceRank (!l.isEmpty) := by
    intro l l' hsub
    cases l with
    | nil => rw [List.subset_nil.mp hsub]
    | cons d l =>
      cases s.ctl with
      | quiesce r pc =>
        cases pc <;> simp [Ctl.quiesceRank]
        all_goals split <;> omega
      | _ => exact le_rfl
  cases h with
  | data hax hx => exact hmono _ _ (Engine.data_pending_subset (Act.isData hax) hx hd)
  | notifyCancel _ hx =>
    exact hmono _ _ (Engine.data_pending_subset (x := .callRequestWork .handler) rfl hx hd)
  | lateListen | lateGrant => exact le_rfl
  | ctl => exact absurd rfl (ha _)
  | acquireMutex hc | workMutex hc | start hc | stop hc | ensureListen hc | destroyNone hc
  | destroyLeak hc | destroy hc | surpriseRemoval hc | setState hc | setOneShot hc
  | releaseMutex hc => simp [hc, Ctl.inQuiesce] at hq

/-- Every step of the quiesce can be taken, but that its call returns and the pump
becomes idle. -/
theorem exists_quiesceStep {s : Device} (hq : s.ctl.inQuiesce = true)
    (hc : s.ctl.entering = true ∨ Resting s.eng.pool ∧ s.eng.cap.pumpActive = false) :
    ∃ o, (s.ctlStep o).isSome = true := by
  refine ⟨⟨.noMemory, 0, false, false, 0, true⟩, ?_⟩
  generalize hctl : s.ctl = c at hq hc
  cases c with
  | quiesce r pc =>
    simp only [ctlStep, hctl]
    cases pc with
    | enter =>
      simp only [quiesceStep]
      split <;> rfl
    | claimed =>
      rcases hc with hc | ⟨hr, -⟩
      · cases hc
      · simp [quiesceStep, hr.callReturned]
    | pumpIdle =>
      rcases hc with hc | ⟨-, ha⟩
      · cases hc
      · simp [quiesceStep, ha]
    | _ => simp [quiesceStep, region, Engine.region]
  | _ => cases hq

/-- Every IRP at the bus driver completes, every activity that has something to do goes
on, and so does the holder of `InterfaceMutex` when it can. -/
structure Fair {P : Device → Act → Prop} (x : machine.Execution P) : Prop where
  pool : ∀ pc, pc ≠ .worker .wait → x.Fair (fun s => pc ∈ s.eng.pool) fun a => ∃ o, a = .run pc o
  ctl : x.Fair (fun s => ∃ o, (s.ctlStep o).isSome = true) fun a => ∃ o, a = .ctl o

/-- No quiesce runs for ever while the front-end calls the pump for ever. -/
def PumpCallsCease {P : Device → Act → Prop} (x : machine.Execution P) : Prop :=
  ∀ n, (∀ m, n ≤ m → (x.state m).ctl.inQuiesce = true) →
    ∃ N, n ≤ N ∧ ∀ m, N ≤ m → x.act m ≠ some .callPump

section
variable {P : Device → Act → Prop} {x : machine.Execution P} {n : ℕ}

theorem steps_of_act {m : ℕ} {a : Act} (ha : x.act m = some a) :
    Steps (x.state m) a (x.state (m + 1)) :=
  .of_step (x.next m a ha)

theorem eventually_draining (hf : Fair x) (hq : ∀ m, n ≤ m → (x.state m).ctl.inQuiesce = true) :
    ∃ N, n ≤ N ∧ ∀ m, N ≤ m → (x.state m).ctl.entering = false ∧
      (x.state m).eng.cap.draining = true := by
  obtain ⟨N, hN, he⟩ : ∃ N, n ≤ N ∧ (x.state N).ctl.entering = false := by
    refine hf.ctl.eventually (fun _ => 0) (fun s => s.ctl.entering = false) n ?_ ?_ ?_
    · intro m hm he
      exact exists_quiesceStep (hq m hm) (.inl (by simpa using he))
    · exact fun m hm he a ha => .inr le_rfl
    · rintro m hm he a ha ⟨o, rfl⟩
      exact .inl ((Moves.of_ctlStep (x.next m _ ha)).leaves_entry (by simpa using he))
  refine ⟨N, hN, fun m hm => ?_⟩
  have hent : (x.state m).ctl.entering = false := by
    induction m, hm using Nat.le_induction with
    | base => exact he
    | succ m hm ih =>
      cases ha : x.act m with
      | none => rwa [x.idle m ha]
      | some a => exact (steps_of_act ha).not_entering (hq m (hN.trans hm)) ih
  refine ⟨hent, (Moded.of_reaches (x.reaches m)).mode true ?_⟩
  have hq := hq m (hN.trans hm)
  generalize (x.state m).ctl = c at hent hq
  cases c with
  | quiesce r pc => cases pc <;> first | rfl | cases hent
  | _ => cases hq

/-- In the end no activity with anything to do is left. -/
theorem eventually_resting (hf : Fair x) (hp : PumpCallsCease x)
    (hq : ∀ m, n ≤ m → (x.state m).ctl.inQuiesce = true)
    (hd : ∀ m, n ≤ m → (x.state m).eng.cap.draining = true) :
    ∃ N, n ≤ N ∧ ∀ m, N ≤ m → Resting (x.state m).eng.pool ∧
      (x.state m).drainWeight = (x.state N).drainWeight := by
  have hel : ∀ m, Elected (x.state m).eng.cap (x.state m).eng.pool := fun m =>
    .of_reachable (engine_reachable (x.reaches m))
  obtain ⟨N₀, hN₀, hno⟩ := hp n hq
  obtain ⟨N, hN, hconst⟩ := Machine.eventually_const (fun m => (x.state m).drainWeight) N₀
    fun m k hm hk => x.antitone_from drainWeight N₀
      (fun j hj a ha => (steps_of_act ha).drainWeight_le (hq j (hN₀.trans hj)) (hd j (hN₀.trans hj))
        (hel j) fun h => hno j hj (h ▸ ha)) hm hk
  refine ⟨N, hN₀.trans hN, fun m hm => ⟨fun pc hpc => ?_, hconst m hm⟩⟩
  by_contra hw
  have hww : pc ≠ .worker .wait := by
    rintro rfl
    exact hw rfl
  -- an activity that is left is run, and that lowers the weight
  obtain ⟨k, hk, o, ha⟩ : ∃ k, m ≤ k ∧ ∃ o, x.act k = some (.run pc o) := by
    by_contra hrun
    push Not at hrun
    have hmem : ∀ k, m ≤ k → pc ∈ (x.state k).eng.pool := by
      intro k hk
      induction k, hk using Nat.le_induction with
      | base => exact hpc
      | succ k hk ih =>
        cases ha : x.act k with
        | none => rwa [x.idle k ha]
        | some a => exact (steps_of_act ha).mem_pool hww (fun o ho => hrun k hk o (ho ▸ ha)) ih
    obtain ⟨k, hk, a, ha, o, rfl⟩ := hf.pool pc hww m hmem
    exact hrun k hk o ha
  have hNk := hm.trans hk
  have hlt : (x.state (k + 1)).drainWeight + (if pc.weight = 0 then 0 else 1) ≤
      (x.state k).drainWeight := by
    obtain ⟨e, he, hs⟩ := data_eq (x.next k _ ha)
    rw [hs]
    exact Engine.drainWeight_run (hd k (by omega)) (hel k) he
  have h₁ := hconst k hNk
  have h₂ := hconst (k + 1) (by omega)
  rw [if_neg hw] at hlt
  omega

end

/-- In a fair execution in which the front-end does not call the pump for ever, every
quiesce returns. -/
theorem quiesce_returns {P : Device → Act → Prop} {x : machine.Execution P} (hf : Fair x)
    (hp : PumpCallsCease x) (n : ℕ) : ∃ m, n ≤ m ∧ (x.state m).ctl.inQuiesce = false := by
  by_contra hno
  push Not at hno
  have hq : ∀ m, n ≤ m → (x.state m).ctl.inQuiesce = true := by simpa using hno
  obtain ⟨N₁, hN₁, hd⟩ := eventually_draining hf hq
  obtain ⟨N, hN, hr⟩ := eventually_resting hf hp (fun m hm => hq m (hN₁.trans hm)) fun m hm => (hd m hm).2
  have hlt : ∀ m, N ≤ m → ∀ o, x.act m = some (.ctl o) →
      (x.state (m + 1)).ctl.inQuiesce = false ∨
        (x.state (m + 1)).quiesceRank < (x.state m).quiesceRank := by
    intro m hm o ha
    have he := engine_reachable (x.reaches m)
    have h := (Moves.of_ctlStep (x.next m _ ha)).quiesceRank_lt (hq m (by omega)) (hd m (by omega)).1
      (hr m hm).1 (.of_reachable he) (.of_reachable he)
    -- a claim would lower the weight, which is constant by now
    have h₁ := (hr m hm).2
    have h₂ := (hr (m + 1) (by omega)).2
    rcases h with h | h | h
    · exact .inl h
    · omega
    · exact .inr h
  obtain ⟨m, hm, hQ⟩ : ∃ m, N ≤ m ∧ (x.state m).ctl.inQuiesce = false := by
    refine hf.ctl.eventually quiesceRank (fun s => s.ctl.inQuiesce = false) N ?_ ?_ ?_
    · intro m hm _
      exact exists_quiesceStep (hq m (by omega)) (.inr ⟨(hr m hm).1,
        (hr m hm).1.pumpIdle (.of_reachable (engine_reachable (x.reaches m)))⟩)
    · intro m hm _ a ha
      by_cases hctl : ∃ o, a = .ctl o
      · obtain ⟨o, rfl⟩ := hctl
        exact (hlt m hm o ha).imp_right le_of_lt
      · exact .inr ((steps_of_act ha).quiesceRank_le (hq m (by omega)) (hd m (by omega)).2
          fun o ho => hctl ⟨o, ho⟩)
    · rintro m hm _ a ha ⟨o, rfl⟩
      exact hlt m hm o ha
  rw [hq m (by omega)] at hQ
  cases hQ

end Device
end Photonic
