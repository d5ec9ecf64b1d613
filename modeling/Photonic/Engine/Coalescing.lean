import Photonic.Engine.Cases

namespace Photonic

namespace Pc

/-- The requester or the worker that holds `ControlWorkQueued`. -/
@[simp] def holdsFlag : Pc → Bool
  | .attachAtBus _ => false
  | .detachAtBus _ => false
  | .attachComplete _ _ _ => false
  | .attachFailed _ _ => false
  | .attachLive _ => false
  | .irpDone => false
  | .irpDoneTest => false
  | .irpDoneSignal => false
  | .beginDetach _ _ => false
  | .detachComplete _ _ _ _ _ => false
  | .detachDeliver _ _ _ => false
  | .releaseDeliver _ => false
  | .pump _ _ => false
  | .requestWork _ .exchange => false
  | .requestWork _ .acquireLock => true
  | .requestWork _ .queue => true
  | .requestWork _ .undo => true
  | .worker .clear => true
  | .worker .wait => false

/-- The requester whose remove lock was refused. -/
def undoes : Pc → Bool
  | .requestWork _ .undo => true
  | _ => false

def queues : Pc → Bool
  | .requestWork _ .acquireLock => true
  | .requestWork _ .queue => true
  | .worker .clear => true
  | _ => false

end Pc

def flagHolders (pool : Multiset Pc) : ℕ := pool.countP (·.holdsFlag = true)

@[simp] theorem flagHolders_zero : flagHolders 0 = 0 := rfl

@[simp] theorem flagHolders_cons (pool : Multiset Pc) (pc : Pc) :
    flagHolders (pc ::ₘ pool) = flagHolders pool + if pc.holdsFlag = true then 1 else 0 := by
  simp only [flagHolders, Multiset.countP_cons]

@[simp] theorem Engine.flagHolders_ret (e : Engine) (k : Caller) :
    flagHolders (e.ret k).pool = flagHolders e.pool := by
  cases k <;> simp [Engine.ret]

structure Coalesced (w : ControlWork) (pool : Multiset Pc) : Prop where
  holders : flagHolders pool + w.workItems = w.controlWorkQueued.toNat
  undoes : w.refused = false → Pool.Free Pc.undoes pool

theorem Coalesced.exec {e e' : Engine} {pc : Pc} (h : Coalesced e.work (pc ::ₘ e.pool))
    (hx : Engine.Exec e pc e') : Coalesced e'.work e'.pool := by
  obtain ⟨hh, hu⟩ := h
  have hbool := Bool.toNat_le e.work.controlWorkQueued
  have ht : e.work.refused = false → Pool.Free Pc.undoes e.pool := fun hr => (hu hr).tail
  cases hx with
  | workTaken hn =>
    refine ⟨?_, fun hr => (ht hr).add rfl⟩
    simp [hn] at hh ⊢
    omega
  | workQueue | workQueued | electLost | lapDone =>
    refine ⟨by simp at hh ⊢; omega, fun hr => ?_⟩
    rw [Engine.ret_work] at hr
    exact Engine.free_ret (ht hr) rfl
  | workUndone =>
    -- no requester undoes its exchange before the remove lock refuses one
    refine ⟨by simp at hh ⊢; omega, fun hr => ?_⟩
    rw [Engine.ret_work] at hr
    exact absurd (hu hr).head nofun
  | workGranted => exact ⟨by simpa using hh, fun hr => (ht hr).add rfl⟩
  | workRefused => exact ⟨by simpa using hh, nofun⟩
  | workerClear =>
    refine ⟨?_, fun hr => (ht hr).add rfl⟩
    simp at hh ⊢
    omega
  | rejectDelivered hn => exact ⟨by cases hn <;> simpa using hh, fun hr => (ht hr).add (by cases hn <;> rfl)⟩
  | attachBegun hn =>
    exact ⟨by cases hn <;> simpa using hh, fun hr => ((ht hr).add rfl).add (by cases hn <;> rfl)⟩
  | irpDoneMore | irpDoneRunning | irpDoneSignal | releaseDeliver => exact ⟨by simpa using hh, ht⟩
  | _ => exact ⟨by simpa using hh, fun hr => (ht hr).add rfl⟩

theorem Coalesced.region {e e' : Engine} {r : Engine.Region} (h : Coalesced e.work e.pool)
    (hx : e.region r = some e') : Coalesced e'.work e'.pool := by
  cases r with
  | claimPending =>
    cases hx
    unfold Engine.claimPending
    split
    · exact h
    · exact ⟨by simpa using h.holders, fun hr => (h.undoes hr).add rfl⟩
  | releaseQuarantined d =>
    simp only [Engine.region] at hx
    split at hx
    · cases hx
      exact ⟨by simpa using h.holders, fun hr => (h.undoes hr).add rfl⟩
    · cases hx
  | takeWorker =>
    simp only [Engine.region] at hx
    split at hx
    · next hm =>
      cases hx
      refine ⟨?_, fun hr => (h.undoes hr).mono (Multiset.erase_subset _ _)⟩
      have hh := h.holders
      rw [← Multiset.cons_erase hm] at hh
      simpa using hh
    · cases hx
  | setDraining | clearDraining | setListening _ | clearFirstAttachDone | clearDrainDone
  | setGeometry _ | setResourceHandle _ | freeChunkMdls =>
    cases hx
    exact h

theorem Coalesced.step {e e' : Engine} {a : Engine.Act} (h : Coalesced e.work e.pool)
    (hx : e.step a = some e') : Coalesced e'.work e'.pool := by
  cases a with
  | run pc o =>
    obtain ⟨pool, hpool, hx⟩ := Engine.run_cases hx
    rw [hpool] at h
    exact Coalesced.exec (e := { e with pool := pool }) h hx
  | callback d st =>
    obtain ⟨-, hx⟩ := Engine.callback_cases hx
    cases hx with
    | recycling => exact ⟨by simpa using h.holders, fun hr => (h.undoes hr).add rfl⟩
    | deferred => exact ⟨by simpa using h.holders, h.undoes⟩
    | alreadyTaken => exact ⟨by simpa using h.holders, h.undoes⟩
  | callPump k | callRequestWork k =>
    simp only [Engine.step] at hx
    split at hx <;> cases hx
    exact ⟨by simpa using h.holders, fun hr => (h.undoes hr).add rfl⟩
  | startWork =>
    simp only [Engine.step] at hx
    split at hx
    · cases hx
    · next hw =>
      cases hx
      refine ⟨?_, fun hr => (h.undoes hr).add rfl⟩
      have hh := h.holders
      simp
      omega
  | control r => exact h.region hx

theorem Coalesced.of_reachable {e : Engine} (h : Engine.machine.Reachable e) :
    Coalesced e.work e.pool :=
  h.invariant (I := fun e => Coalesced e.work e.pool) ⟨rfl, fun _ => Pool.free_zero⟩
    fun _ _ _ _ hi _ hs => hi.step hs

namespace Engine

/-- A run of the work item is to come that has not begun. -/
def RunOwed (e : Engine) : Prop := 0 < e.work.workItems ∨ ∃ pc ∈ e.pool, pc.queues = true

/-- While the flag is set and the remove lock is granted, a run that has not begun is to
come. -/
theorem Coalesced.runOwed {e : Engine} (h : Coalesced e.work e.pool)
    (hf : e.work.controlWorkQueued = true) (hr : e.work.refused = false) : e.RunOwed := by
  have hh := h.holders
  rw [hf] at hh
  by_cases hw : e.work.workItems = 0
  · refine .inr ?_
    have hpos : 0 < flagHolders e.pool := by
      simp [hw] at hh
      omega
    obtain ⟨pc, hpc, hheld⟩ := Multiset.countP_pos.mp hpos
    refine ⟨pc, hpc, ?_⟩
    have hu := h.undoes hr pc hpc
    cases pc with
    | requestWork k pc =>
      cases pc with
      | exchange => cases hheld
      | acquireLock => rfl
      | queue => rfl
      | undo => cases hu
    | worker pc =>
      cases pc with
      | clear => rfl
      | wait => cases hheld
    | _ => cases hheld
  · exact .inl (by omega)

theorem Coalesced.flag {e : Engine} (h : Coalesced e.work e.pool) (ho : e.RunOwed) :
    e.work.controlWorkQueued = true := by
  have hh := h.holders
  have hpos : 0 < flagHolders e.pool + e.work.workItems := by
    rcases ho with hw | ⟨pc, hpc, hq⟩
    · omega
    · have hheld : pc.holdsFlag = true := by
        cases pc with
        | requestWork k pc => cases pc <;> first | rfl | cases hq
        | worker pc => cases pc <;> first | rfl | cases hq
        | _ => cases hq
      have : 0 < flagHolders e.pool := Multiset.countP_pos.mpr ⟨pc, hpc, hheld⟩
      omega
  rw [hh] at hpos
  cases hf : e.work.controlWorkQueued with
  | true => rfl
  | false =>
    rw [hf] at hpos
    cases hpos

/-- The flag is cleared by the worker that takes the mutex next, and by a refused
requester. -/
theorem Coalesced.flag_step {e e' : Engine} {x : Act} (h : Coalesced e.work e.pool)
    (hf : e.work.controlWorkQueued = true) (hx : e.step x = some e')
    (hr : e'.work.refused = false) :
    e'.work.controlWorkQueued = true ∨ .worker .wait ∈ e'.pool := by
  cases x with
  | run pc o =>
    obtain ⟨pool, hpool, hx⟩ := run_cases hx
    rw [hpool] at h
    cases hx with
    | workerClear => exact .inr (Multiset.mem_cons_self _ _)
    | workTaken => exact .inl rfl
    -- only a requester that the remove lock refused takes its flag back
    | workUndone =>
      rw [ret_work] at hr
      exact absurd (h.undoes hr).head nofun
    | electLost | lapDone | workQueued | workQueue => exact .inl (by rw [ret_work]; exact hf)
    | _ => exact .inl hf
  | callback d st =>
    obtain ⟨-, hx⟩ := callback_cases hx
    cases hx <;> exact .inl hf
  | callPump k | callRequestWork k | startWork =>
    simp only [step] at hx
    split at hx <;> cases hx
    exact .inl hf
  | control r =>
    cases r with
    | claimPending =>
      cases hx
      unfold claimPending
      split <;> exact .inl hf
    | releaseQuarantined d | takeWorker =>
      simp only [step, region] at hx
      split at hx <;> cases hx
      exact .inl hf
    | setDraining | clearDraining | setListening _ | clearFirstAttachDone | clearDrainDone
    | setGeometry _ | setResourceHandle _ | freeChunkMdls =>
      cases hx
      exact .inl hf

end Engine
end Photonic
