import Photonic.Session.Mode
import Photonic.Engine.Callbacks

namespace Photonic

/-- The two callbacks: what Acquire hands out, if anything, and what Deliver does. The
context of the callbacks is the front-end with its stream extension. -/
structure Callbacks (F : Type) where
  acquire : F → Option (Cookie × Option ℕ) × F
  deliver : Session → F → Delivery → F

namespace Device
variable {F : Type} (cb : Callbacks F)

/-- The call of the Deliver callback a step makes. -/
def Act.delivery : Act → Option Delivery
  | .run pc _ => pc.delivery
  | _ => none

/-- The front-end behind the call of the Acquire callback that a step makes, if the
callback answers so. -/
def answer (f : F) : Act → Option F
  | .run (.pump _ (.acquire _ _)) o =>
    if o.acquired = (cb.acquire f).1 then some (cb.acquire f).2 else none
  | _ => some f

/-- The front-end behind the call of the Deliver callback that a step makes. -/
def handOver (ses : Session) (f : F) (a : Act) : F :=
  match a.delivery with
  | none => f
  | some d => cb.deliver ses f d

def feed (s : Device) (f : F) (a : Act) : Option (Device × F) :=
  (answer cb f a).bind fun f => (s.step a).map fun s' => (s', handOver cb s.ses f a)

variable {cb}

theorem feed_step {s s' : Device} {f f' : F} {a : Act} (h : s.feed cb f a = some (s', f')) :
    s.step a = some s' := by
  obtain ⟨f₁, -, h⟩ := Option.bind_eq_some_iff.mp h
  obtain ⟨s₁, hs, he⟩ := Option.map_eq_some_iff.mp h
  cases he
  exact hs

theorem feed_acquire {s s' : Device} {f f' : F} {k : Caller} {i : ℕ} {d : FrameId} {o : Oracle}
    (h : s.feed cb f (.run (.pump k (.acquire i d)) o) = some (s', f')) :
    cb.acquire f = (o.acquired, f') := by
  obtain ⟨f₁, hf, h⟩ := Option.bind_eq_some_iff.mp h
  obtain ⟨s₁, hs, he⟩ := Option.map_eq_some_iff.mp h
  cases he
  simp only [answer] at hf
  split at hf
  · next ho =>
    cases hf
    rw [ho]
    rfl
  · cases hf

/-- Every other step changes the front-end by its Deliver callback at most. -/
theorem feed_other {s s' : Device} {f f' : F} {a : Act} (h : s.feed cb f a = some (s', f'))
    (hne : ∀ pc o, a = .run pc o → pc.acquires = false) : f' = handOver cb s.ses f a := by
  obtain ⟨f₁, hf, h⟩ := Option.bind_eq_some_iff.mp h
  obtain ⟨s₁, hs, he⟩ := Option.map_eq_some_iff.mp h
  cases he
  congr 1
  unfold answer at hf
  split at hf
  · cases hne _ _ rfl
  · exact (Option.some.inj hf).symm

theorem Moves.calls {s s' : Device} {o : Answer} {c : Ctl} (h : Moves s o c s') :
    s'.eng.acquired = s.eng.acquired ∧ s'.eng.delivered = s.eng.delivered := by
  cases h with
  | quiesceStop | releaseStop | releaseFree => simp
  | @startAllocated eb res _ _ => cases res <;> exact ⟨rfl, rfl⟩
  | _ => exact ⟨rfl, rfl⟩

theorem Steps.calls {s s' : Device} {a : Act} (h : Steps s a s') (ha : ∀ pc o, a ≠ .run pc o) :
    s'.eng.acquired = s.eng.acquired ∧ s'.eng.delivered = s.eng.delivered := by
  cases h with
  | @data a x e hax hx =>
    cases a with
    | run pc o => exact absurd rfl (ha pc o)
    | callback d st =>
      cases hax
      obtain ⟨-, hx⟩ := Engine.callback_cases hx
      cases hx <;> exact ⟨rfl, rfl⟩
    | startWork | callPump =>
      cases hax
      simp only [Engine.step] at hx
      split at hx <;> cases hx
      exact ⟨rfl, rfl⟩
    | _ => cases hax
  | notifyCancel _ hx =>
    simp only [Engine.step] at hx
    split at hx <;> cases hx
    exact ⟨rfl, rfl⟩
  | workMutex _ he =>
    simp only [Engine.region] at he
    split at he <;> cases he
    exact ⟨rfl, rfl⟩
  | ctl hm => exact hm.calls
  | _ => exact ⟨rfl, rfl⟩

/-- The step is an activity's. -/
def Act.isRun : Act → Bool
  | .run _ _ => true
  | _ => false

theorem calls_of_step {s s' : Device} {a : Act} (h : s.step a = some s') (ha : a.isRun = false) :
    s'.eng.acquired = s.eng.acquired ∧ s'.eng.delivered = s.eng.delivered := by
  refine (Steps.of_step h).calls ?_
  rintro pc o rfl
  cases ha

/-- The four ways a step deals with the front-end: a call of Acquire that is answered, one
that is not, a call of Deliver, and none. -/
inductive Feeds (cb : Callbacks F) (s s' : Device) (f : F) : F → Prop
  | acquires {answer : Cookie × Option ℕ} (h : (cb.acquire f).1 = some answer)
      (hq : ∃ k i d, .pump k (.acquire i d) ∈ s.eng.pool)
      (ha : s'.eng.acquired = s.eng.acquired ++ [answer.1]) (hd : s'.eng.delivered = s.eng.delivered) :
      Feeds cb s s' f (cb.acquire f).2
  | finds (h : (cb.acquire f).1 = none) (ha : s'.eng.acquired = s.eng.acquired)
      (hd : s'.eng.delivered = s.eng.delivered) : Feeds cb s s' f (cb.acquire f).2
  | delivers {d : Delivery} (hq : ∃ pc ∈ s.eng.pool, pc.delivery = some d)
      (ha : s'.eng.acquired = s.eng.acquired) (hd : s'.eng.delivered = s.eng.delivered ++ [d]) :
      Feeds cb s s' f (cb.deliver s.ses f d)
  | silent (ha : s'.eng.acquired = s.eng.acquired) (hd : s'.eng.delivered = s.eng.delivered) :
      Feeds cb s s' f f

theorem exists_of_acquires {pc : Pc} (h : pc.acquires = true) : ∃ k i d, pc = .pump k (.acquire i d) := by
  cases pc with
  | pump k pc =>
    cases pc with
    | acquire i d => exact ⟨k, i, d, rfl⟩
    | _ => cases h
  | _ => cases h

theorem Feeds.of_run {s s' : Device} {f f' : F} {pc : Pc} {o : Oracle}
    (h : s.feed cb f (.run pc o) = some (s', f')) : Feeds cb s s' f f' := by
  obtain ⟨e, he, rfl⟩ := data_eq (x := .run pc o) (feed_step h)
  obtain ⟨pool, hpool, hx⟩ := Engine.run_cases he
  have hmem : pc ∈ s.eng.pool := hpool ▸ Multiset.mem_cons_self pc pool
  cases hacq : pc.acquires with
  | true =>
    obtain ⟨k, i, d, rfl⟩ := exists_of_acquires hacq
    have ha := feed_acquire h
    have hf : f' = (cb.acquire f).2 := by rw [ha]
    obtain ⟨pool', -, hc⟩ := Engine.acquire_cases he
    rw [show o.acquired = (cb.acquire f).1 by rw [ha]] at hc
    rw [hf]
    generalize hans : (cb.acquire f).1 = answer at hc
    cases hc with
    | none => exact .finds hans rfl rfl
    | short | some => exact .acquires hans ⟨k, i, d, hmem⟩ rfl rfl
  | false =>
    rw [feed_other h fun _ _ hpc => by cases hpc; exact hacq]
    have hd := hx.delivered
    have ha := hx.acquired_eq hacq
    unfold handOver Act.delivery
    dsimp only
    cases hdel : pc.delivery with
    | none =>
      rw [hdel] at hd
      show Feeds cb s { s with eng := e } f f
      exact .silent ha (hd.trans (List.append_nil _))
    | some d =>
      rw [hdel] at hd
      show Feeds cb s { s with eng := e } f (cb.deliver s.ses f d)
      exact .delivers ⟨pc, hmem, hdel⟩ ha hd

theorem Feeds.of_feed {s s' : Device} {f f' : F} {a : Act} (h : s.feed cb f a = some (s', f')) :
    Feeds cb s s' f f' := by
  by_cases ha : ∃ pc o, a = .run pc o
  · obtain ⟨pc, o, rfl⟩ := ha
    exact .of_run h
  · push Not at ha
    obtain ⟨hacq, hdel⟩ := (Steps.of_step (feed_step h)).calls ha
    rw [feed_other h fun pc o hpc => absurd hpc (ha pc o)]
    unfold handOver
    cases a with
    | run pc o => exact absurd rfl (ha pc o)
    | _ => exact .silent hacq hdel

end Device
end Photonic
