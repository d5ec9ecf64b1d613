import Photonic.Engine.Cases

namespace Photonic

/-- The call of the Deliver callback an activity's step makes. -/
def Pc.delivery : Pc → Option Delivery
  | .attachFailed cookie status => some ⟨cookie, 0, status⟩
  | .detachDeliver cookie bytes completion => some ⟨cookie, bytes, completion⟩
  | .releaseDeliver cookie => some ⟨cookie, 0, statusCancelled⟩
  | .pump _ (.rejectDeliver _ cookie) => some ⟨cookie, 0, statusInvalidParameter⟩
  | .pump _ (.handBack cookie) => some ⟨cookie, 0, statusCancelled⟩
  | _ => none

/-- The activity is about to call the Acquire callback. -/
def Pc.acquires : Pc → Bool
  | .pump _ (.acquire _ _) => true
  | _ => false

namespace Engine

theorem Exec.delivered {e e' : Engine} {pc : Pc} (h : Exec e pc e') :
    e'.delivered = e.delivered ++ pc.delivery.toList := by
  cases h with
  | attachFailedDeliver | detachDeliver | releaseDeliver | rejectDelivered | handedBack => rfl
  | electLost | lapDone | workQueued | workQueue | workUndone =>
    rw [ret_delivered]
    exact (List.append_nil _).symm
  | _ => exact (List.append_nil _).symm

theorem Exec.acquired_eq {e e' : Engine} {pc : Pc} (h : Exec e pc e') (hpc : pc.acquires = false) :
    e'.acquired = e.acquired := by
  cases h with
  | acquiredNone | acquiredShort | acquired => cases hpc
  | electLost | lapDone | workQueued | workQueue | workUndone => rw [ret_acquired]
  | _ => rfl

/-- The branches of the lap's step that calls the Acquire callback. -/
inductive Acquires (e : Engine) (k : Caller) (i : ℕ) (d : FrameId) :
    Option (Cookie × Option ℕ) → Engine → Prop
  | none : Acquires e k i d none (e.spawn (.pump k (.giveBack d)))
  | short {cookie : Cookie} {mdl : Option ℕ} (hs : (mdl.all fun bytes => bytes < e.cap.frameBytes) = true) :
      Acquires e k i d (some (cookie, mdl))
        ({ e with acquired := e.acquired ++ [cookie] }.spawn (.pump k (.reject i d cookie)))
  | some {cookie : Cookie} {mdl : Option ℕ}
      (hs : (mdl.all fun bytes => bytes < e.cap.frameBytes) = false) :
      Acquires e k i d (some (cookie, mdl))
        ({ e with acquired := e.acquired ++ [cookie], cap := prime e.cap d cookie }.spawn
          (.pump k (.publish i d cookie)))

theorem acquire_cases {e e' : Engine} {k : Caller} {i : ℕ} {d : FrameId} {o : Oracle}
    (h : e.step (.run (.pump k (.acquire i d)) o) = some e') :
    ∃ pool, e.pool = .pump k (.acquire i d) ::ₘ pool ∧
      Acquires { e with pool := pool } k i d o.acquired e' := by
  simp only [step] at h
  split at h
  · next hmem =>
    refine ⟨_, (Multiset.cons_erase hmem).symm, ?_⟩
    simp only [exec, pump, Option.some.injEq] at h
    subst h
    unfold lapAcquire
    split
    · next hn => rw [hn]; exact .none
    · next cookie mdl hs =>
      rw [hs]
      dsimp only
      split
      · next hb => exact .short hb
      · next hb => exact .some (by simpa using hb)
  · cases h

end Engine

end Photonic
