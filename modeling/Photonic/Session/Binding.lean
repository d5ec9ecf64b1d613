import Photonic.Session.Calls
import Photonic.Session.Mode

namespace Photonic

def FrameState.listed : FrameState → Bool
  | .attaching | .completedWhileAttaching | .pending => true
  | .free | .detaching | .detachFailed => false

namespace Engine

/-- The buffer of `d` was attached to the current resource handle and chunk MDLs. -/
structure Bound (e : Engine) (d : FrameId) : Prop where
  handle : (e.bus d).handle = e.cap.resourceHandle
  chunkEpoch : (e.bus d).chunkEpoch = e.cap.chunkEpoch

def Begins (e : Engine) (d : FrameId) : Prop := ∃ k i, Pc.pump k (.beginAttach i d) ∈ e.pool

theorem Bound.congr {e e' : Engine} {d : FrameId} (h : e.Bound d)
    (hh : (e'.bus d).handle = (e.bus d).handle) (he : (e'.bus d).chunkEpoch = (e.bus d).chunkEpoch)
    (hc : e.cap.SameControl e'.cap) : e'.Bound d :=
  ⟨hh.trans (h.handle.trans hc.resourceHandle.symm), he.trans (h.chunkEpoch.trans hc.chunkEpoch.symm)⟩

theorem Exec.bound {e e' : Engine} {pc : Pc} {d : FrameId} (hx : Exec e pc e') (h : e.Bound d) :
    e'.Bound d := by
  have hc := hx.sameControl
  cases hx with
  | @attachRefused d₀ | @beginDetach _ d₀ =>
    by_cases hd : d = d₀
    · subst hd
      exact h.congr (by simp) (by simp) hc
    · exact h.congr (by simp [hd]) (by simp [hd]) hc
  | @attachBegun k i d₀ =>
    by_cases hd : d = d₀
    · subst hd
      exact ⟨by simp, by simp⟩
    · exact h.congr (by simp [hd]) (by simp [hd]) hc
  | electLost | lapDone | workQueued | workQueue | workUndone =>
    exact h.congr (by rw [ret_bus]) (by rw [ret_bus]) hc
  | _ => exact h.congr rfl rfl hc

theorem begins_ret {e : Engine} {k : Caller} {d : FrameId} (h : e.Begins d) : (e.ret k).Begins d := by
  obtain ⟨k', i, hm⟩ := h
  refine ⟨k', i, ?_⟩
  cases k with
  | completion => exact Multiset.mem_cons_of_mem hm
  | handler => exact hm
  | control => exact hm

/-- The lap attaches the buffer it has published. -/
theorem Exec.begins {e e' : Engine} {pc : Pc} {d : FrameId} (hx : Exec e pc e')
    (h : Begins { e with pool := pc ::ₘ e.pool } d) : e'.Begins d ∨
      e'.bus d = ⟨true, false, statusSuccess, e'.cap.resourceHandle, e'.cap.chunkEpoch⟩ := by
  obtain ⟨k, i, hmem⟩ := h
  rcases Multiset.mem_cons.mp hmem with rfl | hm
  · cases hx
    exact .inr (by simp)
  · refine .inl ?_
    have hb : e.Begins d := ⟨k, i, hm⟩
    cases hx with
    | electLost | lapDone | workQueued | workQueue | workUndone => exact begins_ret hb
    | irpDoneMore | irpDoneRunning | irpDoneSignal | releaseDeliver => exact hb
    | attachBegun =>
      exact ⟨k, i, Multiset.mem_cons_of_mem (Multiset.mem_cons_of_mem hm)⟩
    | _ => exact ⟨k, i, Multiset.mem_cons_of_mem hm⟩

end Engine

def Tied (e : Engine) : Prop :=
  ∀ d, (e.cap.frames d).state.listed = true → e.Begins d ∨ e.Bound d

theorem Frame.listed_update {frames : FrameId → Frame} {d d₀ : FrameId} {f : Frame}
    (h : (Function.update frames d₀ f d).state.listed = true)
    (hf : f.state.listed = true → (frames d₀).state.listed = true) : (frames d).state.listed = true := by
  by_cases hd : d = d₀
  · subst hd
    rw [Function.update_self] at h
    exact hf h
  · rwa [Function.update_of_ne hd] at h

theorem Engine.Exec.listed {e e' : Engine} {pc : Pc} {d : FrameId}
    (hp : Placed e.cap (pc ::ₘ e.pool)) (hx : Engine.Exec e pc e')
    (h : (e'.cap.frames d).state.listed = true) :
    (e.cap.frames d).state.listed = true ∨ e'.Begins d := by
  cases hx with
  | attachFailed | attachFrameDone | detachFailed | detachDone | gaveBack | rejected
  | publishDraining => exact .inl (Frame.listed_update h nofun)
  | @attachDraining d₀ | @attachPublished d₀ =>
    refine .inl (Frame.listed_update h fun _ => ?_)
    rcases ((hp d₀).owned_attach rfl).1 with hs | hs
    · rw [show (e.cap.frames d₀).state = _ from hs]
      rfl
    · rw [show (e.cap.frames d₀).state = _ from hs]
      rfl
  | acquired => exact .inl (Frame.listed_update h id)
  | @published k i d₀ cookie =>
    by_cases hd : d = d₀
    · subst hd
      exact .inr ⟨k, i, Multiset.mem_cons_self _ _⟩
    · exact .inl (by simpa [hd] using h)
  | electLost | lapDone | workQueued | workQueue | workUndone =>
    rw [Engine.ret_cap] at h
    exact .inl h
  | _ => exact .inl h

theorem Tied.exec {e e' : Engine} {pc : Pc} (h : Tied { e with pool := pc ::ₘ e.pool })
    (hp : Placed e.cap (pc ::ₘ e.pool)) (hx : Engine.Exec e pc e') : Tied e' := by
  intro d hl
  rcases hx.listed hp hl with hl | hb
  · rcases h d hl with hb | hb
    · exact (hx.begins hb).imp id fun hb => ⟨by rw [hb], by rw [hb]⟩
    · exact .inr (hx.bound (d := d) ⟨hb.handle, hb.chunkEpoch⟩)
  · exact .inl hb

theorem Engine.Callback.bound {e e' : Engine} {d d₀ : FrameId} {st : NtStatus}
    (hx : Engine.Callback e d₀ st e') (h : e.Bound d) : e'.Bound d := by
  have hb : ∀ b : BusFrame, b.handle = (e.bus d₀).handle → b.chunkEpoch = (e.bus d₀).chunkEpoch →
      (Function.update e.bus d₀ b d).handle = (e.bus d).handle ∧
        (Function.update e.bus d₀ b d).chunkEpoch = (e.bus d).chunkEpoch := by
    intro b hh he
    by_cases hd : d = d₀
    · subst hd
      simp [hh, he]
    · simp [hd]
  cases hx with
  | recycling | deferred | alreadyTaken =>
    obtain ⟨hh, he⟩ := hb { e.bus d₀ with armed := false, frameDone := true, frameStatus := st } rfl rfl
    exact h.congr hh he ⟨rfl, rfl, rfl, rfl, rfl⟩

theorem Tied.callback {e e' : Engine} {d₀ : FrameId} {st : NtStatus} (h : Tied e)
    (hx : Engine.Callback e d₀ st e') : Tied e' := by
  have hbegins : ∀ d, e.Begins d → e'.Begins d := by
    rintro d ⟨k, i, hm⟩
    refine ⟨k, i, ?_⟩
    cases hx with
    | recycling => exact Multiset.mem_cons_of_mem hm
    | deferred => exact hm
    | alreadyTaken => exact hm
  intro d hl
  have hl : (e.cap.frames d).state.listed = true := by
    cases hx with
    | recycling hs => exact Frame.listed_update hl nofun
    | deferred hs => exact Frame.listed_update hl fun _ => by rw [hs]; rfl
    | alreadyTaken => exact hl
  exact (h d hl).imp (hbegins d) hx.bound

theorem Engine.data_keeps_bound {e e' : Engine} {x : Engine.Act} {d : FrameId} (hx : x.IsData)
    (hs : e.step x = some e') (h : e.Bound d) : e'.Bound d := by
  cases x with
  | run pc o =>
    obtain ⟨pool, -, hx⟩ := Engine.run_cases hs
    exact hx.bound ⟨h.handle, h.chunkEpoch⟩
  | callback d₀ st => exact (Engine.callback_cases hs).2.bound h
  | callPump k | callRequestWork k | startWork =>
    simp only [Engine.step] at hs
    split at hs <;> cases hs
    exact ⟨h.handle, h.chunkEpoch⟩
  | control r => cases hx

/-- A step that attaches nothing, publishes nothing and leaves the handle and the chunk
MDLs alone. -/
theorem Tied.keep {e e' : Engine} (h : Tied e) (hc : e.cap.SameControl e'.cap)
    (hf : ∀ d, (e'.cap.frames d).state.listed = true → (e.cap.frames d).state.listed = true)
    (hb : e'.bus = e.bus) (hp : ∀ d, e.Begins d → e'.Begins d) : Tied e' := by
  intro d hl
  refine (h d (hf d hl)).imp (hp d) fun hbound => hbound.congr ?_ ?_ hc
  · rw [hb]
  · rw [hb]

theorem Tied.data {e e' : Engine} {x : Engine.Act} (h : Tied e) (hp : Placed e.cap e.pool)
    (hx : x.IsData) (hs : e.step x = some e') : Tied e' := by
  cases x with
  | run pc o =>
    obtain ⟨pool, hpool, hx⟩ := Engine.run_cases hs
    rw [hpool] at hp
    refine Tied.exec (e := { e with pool := pool }) ?_ hp hx
    rwa [← hpool]
  | callback d st => exact h.callback (Engine.callback_cases hs).2
  | callPump k | callRequestWork k | startWork =>
    simp only [Engine.step] at hs
    split at hs <;> cases hs
    refine h.keep (.refl _) (fun _ => id) rfl fun d hd => ?_
    obtain ⟨k, i, hm⟩ := hd
    exact ⟨k, i, Multiset.mem_cons_of_mem hm⟩
  | control r => cases hx

theorem Tied.of_nonePending {e e' : Engine} (hp : Placed e.cap e.pool)
    (hl : e.cap.pendingList = []) (hf : e'.cap.frames = e.cap.frames) : Tied e' := by
  intro d hs
  rw [hf] at hs
  have hd := hp d
  have hcount : (e.cap.spot d).onPending = 0 := by simp [Capture.spot, hl]
  simp only [PlacedAt, Spot.Fits, hcount] at hd
  rw [show (e.cap.spot d).state = (e.cap.frames d).state from rfl] at hd
  cases hstate : (e.cap.frames d).state with
  | attaching | completedWhileAttaching | pending =>
    simp only [hstate] at hd
    omega
  | free | detaching | detachFailed =>
    rw [hstate] at hs
    cases hs

namespace Device

theorem Moves.tied {s s' : Device} {o : Answer} (h : Tied s.eng) (hm : Moded s)
    (hp : Placed s.eng.cap s.eng.pool) (hx : Moves s o s.ctl s') : Tied s'.eng := by
  have hmode := hm.mode
  have hset := hm.settled
  generalize s.ctl = c at hx hmode hset
  cases hx with
  | releaseReturns | startChunks =>
    exact Tied.of_nonePending hp (hset (hmode true rfl) rfl) rfl
  | @startAllocated eb res =>
    have hl := hset (hmode true (by cases res <;> rfl)) rfl
    cases res <;> exact Tied.of_nonePending hp hl rfl
  | quiesceStop | releaseStop | releaseFree =>
    simp only [goto_eng, isochStop_eng, freeOne_eng]
    exact h
  | quiesceClaim hf =>
    refine h.keep ⟨rfl, rfl, rfl, rfl, rfl⟩ (fun d hd => Frame.listed_update hd nofun) rfl ?_
    exact fun d ⟨k, i, hb⟩ => ⟨k, i, Multiset.mem_cons_of_mem hb⟩
  | releaseQuarantined =>
    refine h.keep ⟨rfl, rfl, rfl, rfl, rfl⟩ (fun d hd => Frame.listed_update hd nofun) rfl ?_
    exact fun d ⟨k, i, hb⟩ => ⟨k, i, Multiset.mem_cons_of_mem hb⟩
  | startPump | workPump | workRequest =>
    refine h.keep (.refl _) (fun _ => id) rfl ?_
    exact fun d ⟨k, i, hb⟩ => ⟨k, i, Multiset.mem_cons_of_mem hb⟩
  | _ => exact fun d hd => (h d hd).imp id fun hb => ⟨hb.handle, hb.chunkEpoch⟩

theorem Steps.tied {s s' : Device} {a : Act} (h : Tied s.eng) (hm : Moded s)
    (hp : Placed s.eng.cap s.eng.pool) (hx : Steps s a s') : Tied s'.eng := by
  cases hx with
  | data ha hs => exact h.data hp (Act.isData ha) hs
  | notifyCancel _ hs => exact h.data hp (x := .callRequestWork .handler) rfl hs
  | workMutex _ he =>
    simp only [Engine.region] at he
    split at he
    · cases he
      refine h.keep (.refl _) (fun _ => id) rfl fun d hd => ?_
      obtain ⟨k, i, hb⟩ := hd
      exact ⟨k, i, (Multiset.mem_erase_of_ne (by simp)).mpr hb⟩
    · cases he
  | destroy hc _ hd =>
    exact Tied.of_nonePending hp (hm.settled hd (by rw [hc]; rfl)) rfl
  | ctl hx => exact hx.tied h hm hp
  | _ => exact h

end Device

theorem Tied.of_reaches {P : Device → Device.Act → Prop} {s : Device}
    (h : Device.machine.Reaches P s) : Tied s.eng := by
  refine h.invariant (I := fun s => Tied s.eng) (fun d hd => by cases hd) ?_
  intro s a s' hr hi _ hs
  exact Device.Steps.tied hi (.of_reaches hr) (.of_reachable (Device.engine_reachable hr)) (.of_step hs)

/-- The buffer of a descriptor that is Pending, or whose frame completed during its
attach, has been attached. -/
theorem Tied.bound {e : Engine} (h : Tied e) (hi : Informed e.cap.frames e.bus e.pool) {d : FrameId}
    (hs : (e.cap.frames d).state = .pending ∨ (e.cap.frames d).state = .completedWhileAttaching) :
    e.Bound d := by
  have hl : (e.cap.frames d).state.listed = true := by rcases hs with hs | hs <;> rw [hs] <;> rfl
  refine (h d hl).resolve_left fun ⟨k, i, hm⟩ => ?_
  have hk := (hi.knows _ hm d .attach rfl).2
  rcases hs with hs | hs
  · rw [hk] at hs
    cases hs
  · rw [hk] at hs
    cases hs

end Photonic
