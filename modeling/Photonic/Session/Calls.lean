import Photonic.Device.Projection

namespace Photonic

/-- What the executor calls. -/
inductive Call
  | detach
  | deliver
  | pump
  | requestWork
  deriving DecidableEq, Repr

/-- The call of the executor an activity performs. -/
def Pc.call : Pc → Option Call
  | .beginDetach .control _ => some .detach
  | .releaseDeliver _ => some .deliver
  | .pump .control _ => some .pump
  | .requestWork .control _ => some .requestWork
  | _ => none

theorem Pc.isControl_of_call {pc : Pc} {x : Call} (h : pc.call = some x) : pc.isControl = true := by
  cases pc with
  | beginDetach k d | pump k pc | requestWork k pc => cases k <;> first | rfl | cases h
  | releaseDeliver => rfl
  | _ => cases h

/-- The call the executor waits for at a point. -/
def Ctl.awaits : Ctl → Option Call
  | .quiesce _ .claimed => some .detach
  | .release _ (.deliver _) => some .deliver
  | .start _ .pumped => some .pump
  | .work .pumped => some .pump
  | .work .requested => some .requestWork
  | _ => none

/-- Every call that is being performed is the one the executor waits for. -/
def Called (c : Ctl) (pool : Multiset Pc) : Prop :=
  ∀ pc ∈ pool, ∀ x, pc.call = some x → c.awaits = some x

section
variable {c c' : Ctl} {pool : Multiset Pc} {pc : Pc}

theorem Called.mono {pool' : Multiset Pc} (h : Called c pool) (hsub : pool' ⊆ pool) : Called c pool' :=
  fun pc hpc => h pc (hsub hpc)

theorem Called.tail (h : Called c (pc ::ₘ pool)) : Called c pool :=
  h.mono fun _ => Multiset.mem_cons_of_mem

theorem Called.add (h : Called c pool) (hn : ∀ x, pc.call = some x → c.awaits = some x) :
    Called c (pc ::ₘ pool) := by
  intro pc' hpc'
  rcases Multiset.mem_cons.mp hpc' with rfl | hpc'
  · exact hn
  · exact h pc' hpc'

/-- An activity that goes on performs the same call or none. -/
theorem Called.next {pc' : Pc} (h : Called c (pc ::ₘ pool))
    (hn : ∀ x, pc'.call = some x → pc.call = some x) : Called c (pc' ::ₘ pool) :=
  h.tail.add fun x hx => h pc (Multiset.mem_cons_self pc pool) x (hn x hx)

theorem Called.ret {e : Engine} {k : Caller} (h : Called c e.pool) : Called c (e.ret k).pool := by
  cases k with
  | completion => exact h.add nofun
  | handler => exact h
  | control => exact h

/-- Where the executor waits for nothing, no call is being performed. -/
theorem Called.move (h : Called c pool) (hc : c.awaits = none) : Called c' pool := by
  intro pc hpc x hx
  have := h pc hpc x hx
  rw [hc] at this
  cases this

end

theorem Called.exec {c : Ctl} {e e' : Engine} {pc : Pc} (h : Called c (pc ::ₘ e.pool))
    (hx : Engine.Exec e pc e') : Called c e'.pool := by
  cases hx with
  | electLost | lapDone | workQueued | workQueue | workUndone => exact Called.ret h.tail
  | irpDoneMore | irpDoneRunning | irpDoneSignal | releaseDeliver => exact h.tail
  | @electWon k | @lapTop k | @claimNone k | @claimed k | @acquiredNone k | @acquiredShort k
  | @acquired k | @gaveBack k | @rejected k | @rejectDelivered k | @publishDraining k | @published k
  | @handedBack k | @lapAgain k | @workTaken k | @workGranted k | @workRefused k =>
    refine h.next fun x hx => ?_
    cases k <;> exact hx
  | @attachBegun k i d next hn =>
    have h' : Called c (.pump k (.beginAttach i d) ::ₘ .attachAtBus d ::ₘ e.pool) := by
      rw [Multiset.cons_swap]
      exact h.add nofun
    refine h'.next fun x hx => ?_
    cases k <;> exact hx
  | _ => exact h.tail.add nofun

theorem Called.data {c : Ctl} {e e' : Engine} {x : Engine.Act} (h : Called c e.pool) (hx : x.IsData)
    (hs : e.step x = some e') : Called c e'.pool := by
  cases x with
  | run pc o =>
    obtain ⟨pool, hpool, hx⟩ := Engine.run_cases hs
    rw [hpool] at h
    exact Called.exec (e := { e with pool := pool }) h hx
  | callback d st =>
    obtain ⟨-, hx⟩ := Engine.callback_cases hs
    cases hx with
    | recycling => exact h.add (by rintro _ ⟨⟩)
    | deferred => exact h
    | alreadyTaken => exact h
  | callPump k | callRequestWork k =>
    have hk : k = .handler := hx
    subst hk
    cases hs
    exact h.add (by rintro _ ⟨⟩)
  | startWork =>
    simp only [Engine.step] at hs
    split at hs <;> cases hs
    exact h.add (by rintro _ ⟨⟩)
  | control r => cases hx

theorem Called.of_callReturned {s : Device} (h : s.callReturned = true) (c : Ctl) :
    Called c s.eng.pool := by
  intro pc hpc x hx
  simp only [Device.callReturned, decide_eq_true_eq] at h
  have := h pc hpc
  rw [Pc.isControl_of_call hx] at this
  cases this

theorem Called.moves {s s' : Device} {o : Answer} (h : Called s.ctl s.eng.pool)
    (hm : Device.Moves s o s.ctl s') : Called s'.ctl s'.eng.pool := by
  generalize s.ctl = c at h hm
  cases hm with
  | quiesceClaimed hc | releaseDelivered hc | startPumped hc | workPumped hc | workRequested hc =>
    exact Called.of_callReturned hc _
  | quiesceClaim | releaseQuarantined | startPump | workPump | workRequest =>
    refine (h.move rfl).add fun x hx => ?_
    cases hx
    rfl
  | quiesceStop | releaseStop | releaseFree =>
    simp only [Device.goto_eng, Device.isochStop_eng, Device.freeOne_eng]
    exact h.move rfl
  | @startAllocated eb res _ _ => cases res <;> exact h.move rfl
  | listenNothing hpc => rcases hpc with rfl | rfl <;> exact h.move rfl
  | startNotConfigured hpc => rcases hpc with rfl | rfl <;> exact h.move rfl
  | _ => exact h.move rfl

theorem Called.steps {s s' : Device} {a : Device.Act} (h : Called s.ctl s.eng.pool)
    (hs : Device.Steps s a s') : Called s'.ctl s'.eng.pool := by
  cases hs with
  | data ha hx => exact h.data (Device.Act.isData ha) hx
  | notifyCancel _ hx => exact h.data (x := .callRequestWork .handler) rfl hx
  | workMutex hc he =>
    simp only [Engine.region] at he
    split at he <;> cases he
    rw [hc] at h
    exact (h.move rfl).mono (Multiset.erase_subset _ _)
  | ctl hm => exact h.moves hm
  | lateListen | lateGrant | destroyNone | destroyLeak | destroy | setState | setOneShot => exact h
  | acquireMutex hc | releaseMutex hc | start hc | stop hc | ensureListen hc | surpriseRemoval hc =>
    rw [hc] at h
    exact h.move rfl

theorem Called.of_reaches {P : Device → Device.Act → Prop} {s : Device}
    (h : Device.machine.Reaches P s) : Called s.ctl s.eng.pool :=
  h.invariant (I := fun s => Called s.ctl s.eng.pool)
    (fun pc hpc => absurd hpc (Multiset.notMem_zero pc)) fun _ _ _ _ hi _ hs => hi.steps (.of_step hs)

end Photonic
