import Mathlib.Data.Multiset.Filter
import Photonic.Engine.Cases

namespace Photonic

/-- What is left of an activity when its engine is destroyed. -/
def Pc.outlives : Pc → Option Pc
  | .requestWork _ pc => some (.requestWork .handler pc)
  | .worker pc => some (.worker pc)
  | _ => none

def remains (pool : Multiset Pc) : Multiset Pc := pool.filterMap Pc.outlives

@[simp] theorem remains_cons (pc : Pc) (pool : Multiset Pc) :
    remains (pc ::ₘ pool) = pc.outlives.elim (remains pool) (· ::ₘ remains pool) := by
  cases h : pc.outlives with
  | none => exact Multiset.filterMap_cons_none _ _ h
  | some pc' => exact Multiset.filterMap_cons_some _ _ _ h

theorem mem_remains {pc : Pc} {pool : Multiset Pc} (h : pc ∈ remains pool) :
    (∃ r, pc = .requestWork .handler r) ∨ ∃ w, pc = .worker w := by
  obtain ⟨pc', -, h⟩ := (Multiset.mem_filterMap _ _).mp h
  cases pc' with
  | requestWork k r =>
    cases h
    exact .inl ⟨r, rfl⟩
  | worker w =>
    cases h
    exact .inr ⟨w, rfl⟩
  | _ => cases h

/-- What is left of a pool is none of the engine's own business. -/
theorem remains_free {p : Pc → Bool} (pool : Multiset Pc)
    (hr : ∀ r, p (.requestWork .handler r) = false) (hw : ∀ w, p (.worker w) = false) :
    Pool.Free p (remains pool) := by
  intro pc hpc
  rcases mem_remains hpc with ⟨r, rfl⟩ | ⟨w, rfl⟩
  · exact hr r
  · exact hw w

namespace Engine

def renew (e : Engine) : Engine := { create with work := e.work, pool := remains e.pool }

theorem step_run_cons {e : Engine} {pc : Pc} {o : Oracle} {pool : Multiset Pc}
    (h : e.pool = pc ::ₘ pool) : e.step (.run pc o) = { e with pool := pool }.exec o pc := by
  simp [step, h]

theorem renew_keep {e e' : Engine} (hr : machine.Reachable e.renew) (hw : e'.work = e.work)
    (hp : remains e'.pool = remains e.pool) : machine.Reachable e'.renew := by
  have heq : e'.renew = e.renew := by
    unfold renew
    rw [hw, hp]
  rw [heq]
  exact hr

theorem renew_ret (e : Engine) (k : Caller) : (e.ret k).renew = e.renew := by
  cases k <;> simp [renew, ret, Pc.outlives, spawn]

theorem renew_requestWork (e : Engine) (k : Caller) (pc : RequestPc) (o : Oracle) :
    e.renew.requestWork o .handler pc = (e.requestWork o k pc).renew := by
  cases pc with
  | exchange =>
    have hw : e.renew.work = e.work := rfl
    simp only [requestWork, hw]
    split
    · exact (renew_ret e k).symm
    · simp [renew, spawn, Pc.outlives]
  | acquireLock =>
    simp only [requestWork]
    split <;> simp [renew, spawn, Pc.outlives]
  | queue | undo =>
    simp only [requestWork, renew_ret]
    rfl

theorem renew_exec {e e' : Engine} {pc : Pc} (hx : Exec e pc e') (hpc : pc.outlives = none)
    (hr : machine.Reachable e.renew) : machine.Reachable e'.renew := by
  cases hx with
  | workQueued | workTaken | workGranted | workRefused | workQueue | workUndone | workerClear =>
    cases hpc
  | attachNeedsListen =>
    refine hr.step (a := .callRequestWork .handler) trivial ?_
    simp [machine, step, renew, spawn, Pc.outlives]
  | electLost | lapDone =>
    rw [renew_ret]
    exact hr
  | _ => exact renew_keep hr rfl (by simp [Pc.outlives])

theorem renew_step {e e' : Engine} {a : Act} (hs : e.step a = some e')
    (hr : machine.Reachable e.renew) : machine.Reachable e'.renew := by
  cases a with
  | run pc o =>
    cases pc with
    -- whoever asked for it, a request that outlives the engine is replayed as a handler's
    | requestWork k pc =>
      simp only [step] at hs
      split at hs
      · next hmem =>
        simp only [exec, Option.some.injEq] at hs
        refine hr.step (a := .run (.requestWork .handler pc) o) trivial ?_
        have hp : e.renew.pool =
            .requestWork .handler pc ::ₘ remains (e.pool.erase (.requestWork k pc)) := by
          conv_lhs => rw [renew, ← Multiset.cons_erase hmem]
          simp [Pc.outlives]
        refine (step_run_cons hp).trans (congrArg some ?_)
        rw [← hs]
        exact renew_requestWork { e with pool := e.pool.erase (.requestWork k pc) } k pc o
      · cases hs
    | worker pc =>
      cases pc with
      | clear =>
        simp only [step] at hs
        split at hs
        · next hmem =>
          cases hs
          refine hr.step (a := .run (.worker .clear) o) trivial ?_
          have hp : e.renew.pool =
              .worker .clear ::ₘ remains (e.pool.erase (.worker .clear)) := by
            conv_lhs => rw [renew, ← Multiset.cons_erase hmem]
            simp [Pc.outlives]
          refine (step_run_cons hp).trans ?_
          simp [exec, renew, spawn, Pc.outlives]
        · cases hs
      -- a worker that waits makes no move of its own: the mutex comes to it
      | wait =>
        simp only [step] at hs
        split at hs <;> cases hs
    -- no other routine outlives the engine, so the renewed machine stands still
    | _ =>
      obtain ⟨pool, hpool, hx⟩ := run_cases hs
      refine renew_exec (e := { e with pool := pool }) hx rfl ?_
      exact renew_keep hr rfl (by simp [hpool, Pc.outlives])
  | callback d st =>
    obtain ⟨-, hx⟩ := callback_cases hs
    cases hx <;> exact renew_keep hr rfl (by simp [Pc.outlives])
  | callPump k =>
    simp only [step] at hs
    split at hs <;> cases hs
    exact renew_keep hr rfl (by simp [Pc.outlives])
  -- whoever calls, a handler could have
  | callRequestWork k =>
    simp only [step] at hs
    split at hs <;> cases hs
    refine hr.step (a := .callRequestWork .handler) trivial ?_
    simp [machine, step, renew, spawn, Pc.outlives]
  | startWork =>
    simp only [step] at hs
    split at hs
    · cases hs
    · next hw =>
      cases hs
      refine hr.step (a := .startWork) trivial ?_
      simp [machine, step, renew, spawn, Pc.outlives, hw]
  | control r =>
    cases r with
    | takeWorker =>
      simp only [step, region] at hs
      split at hs
      · next hmem =>
        cases hs
        refine hr.step (a := .control .takeWorker) trivial ?_
        have hp : e.renew.pool =
            .worker .wait ::ₘ remains (e.pool.erase (.worker .wait)) := by
          conv_lhs => rw [renew, ← Multiset.cons_erase hmem]
          simp [Pc.outlives]
        show e.renew.region .takeWorker = _
        simp only [region, hp, Multiset.mem_cons_self, if_true, Multiset.erase_cons_head]
        rfl
      · cases hs
    | claimPending =>
      cases hs
      unfold claimPending
      split
      · exact hr
      · exact renew_keep hr rfl (by simp [Pc.outlives])
    | releaseQuarantined d =>
      simp only [step, region] at hs
      split at hs <;> cases hs
      exact renew_keep hr rfl (by simp [Pc.outlives])
    | setDraining | clearDraining | setListening _ | clearFirstAttachDone | clearDrainDone
    | setGeometry _ | setResourceHandle _ | freeChunkMdls =>
      cases hs
      exact hr

theorem renew_reachable {e : Engine} (h : machine.Reachable e) : machine.Reachable e.renew :=
  h.project (N := machine) renew rfl fun _ _ _ hs hr => renew_step hs hr

end Engine
end Photonic
