import Mathlib.Data.List.Basic

/-- A routine returns a result or an error, and the state in either case. -/
def Routine (σ ε α : Type) := σ → Except ε α × σ

namespace Routine
variable {σ ε α β γ : Type}

instance : Monad (Routine σ ε) where
  pure a := fun s => (.ok a, s)
  bind x f := fun s =>
    match x s with
    | (.ok a, s) => f a s
    | (.error e, s) => (.error e, s)

def throw (e : ε) : Routine σ ε α := fun s => (.error e, s)

def attempt (x : Routine σ ε α) : Routine σ ε (Except ε α) := fun s => (.ok (x s).1, (x s).2)

def get : Routine σ ε σ := fun s => (.ok s, s)

def modify (f : σ → σ) : Routine σ ε Unit := fun s => (.ok (), f s)

/-- The body on each entry, up to the first that returns `false`. -/
def eachWhile (body : γ → Routine σ ε Bool) : List γ → Routine σ ε Bool
  | [] => pure true
  | c :: cs => do
    if ← body c then eachWhile body cs else pure false

theorem bind_ok {x : Routine σ ε α} {f : α → Routine σ ε β} {s t : σ} {a : α}
    (h : x s = (.ok a, t)) : (x >>= f) s = f a t := by
  simp only [bind, h]

theorem bind_error {x : Routine σ ε α} {f : α → Routine σ ε β} {s t : σ} {e : ε}
    (h : x s = (.error e, t)) : (x >>= f) s = (.error e, t) := by
  simp only [bind, h]

/-- What returns has returned at every step. -/
theorem ok_of_bind {x : Routine σ ε α} {f : α → Routine σ ε β} {s : σ} {b : β}
    (h : ((x >>= f) s).1 = .ok b) : ∃ a, (x s).1 = .ok a ∧ (f a (x s).2).1 = .ok b := by
  simp only [bind] at h
  split at h
  · next a t he => exact ⟨a, by rw [he], by rw [he]; exact h⟩
  · cases h

/-- `x` keeps `I`, whether it fails or not, and what it returns meets `Q`. -/
def Keeps (I : σ → Prop) (x : Routine σ ε α) (Q : α → Prop) : Prop :=
  ∀ s, I s → I (x s).2 ∧ ∀ a, (x s).1 = .ok a → Q a

namespace Keeps
variable {I : σ → Prop} {x : Routine σ ε α} {f : α → Routine σ ε β} {Q : α → Prop} {R : β → Prop}

theorem pure {a : α} (h : Q a) : Keeps I (Pure.pure a : Routine σ ε α) Q := by
  intro s hs
  refine ⟨hs, ?_⟩
  rintro b ⟨⟩
  exact h

theorem throw {e : ε} : Keeps I (Routine.throw e : Routine σ ε α) Q :=
  fun _ hs => ⟨hs, nofun⟩

theorem bind (hx : Keeps I x Q) (hf : ∀ a, Q a → Keeps I (f a) R) : Keeps I (x >>= f) R := by
  intro s hs
  obtain ⟨h₁, h₂⟩ := hx s hs
  simp only [Bind.bind]
  split
  · next a s' he =>
    rw [he] at h₁ h₂
    exact hf a (h₂ a rfl) s' h₁
  · next e s' he =>
    rw [he] at h₁
    exact ⟨h₁, nofun⟩

theorem attempt (hx : Keeps I x Q) : Keeps I x.attempt fun r => ∀ a, r = .ok a → Q a := by
  intro s hs
  obtain ⟨h₁, h₂⟩ := hx s hs
  refine ⟨h₁, ?_⟩
  rintro r ⟨⟩
  exact h₂

theorem get : Keeps I (Routine.get : Routine σ ε σ) I := by
  intro s hs
  refine ⟨hs, ?_⟩
  rintro t ⟨⟩
  exact hs

theorem modify {g : σ → σ} (h : ∀ s, I s → I (g s)) :
    Keeps I (Routine.modify g : Routine σ ε Unit) fun _ => True :=
  fun s hs => ⟨h s hs, fun _ _ => trivial⟩

theorem mono {Q' : α → Prop} (hx : Keeps I x Q) (h : ∀ a, Q a → Q' a) : Keeps I x Q' :=
  fun s hs => ⟨(hx s hs).1, fun a ha => h a ((hx s hs).2 a ha)⟩

theorem ite {p : Prop} [Decidable p] {y : Routine σ ε α} (hx : p → Keeps I x Q)
    (hy : ¬p → Keeps I y Q) : Keeps I (if p then x else y) Q := by
  split
  · exact hx ‹_›
  · exact hy ‹_›

theorem eachWhile {body : γ → Routine σ ε Bool} {cs : List γ}
    (h : ∀ c ∈ cs, Keeps I (body c) fun _ => True) :
    Keeps I (Routine.eachWhile body cs) fun _ => True := by
  induction cs with
  | nil => exact pure trivial
  | cons c cs ih =>
    refine bind (h c (by simp)) fun go _ => ?_
    exact ite (fun _ => ih fun c hc => h c (List.mem_cons_of_mem _ hc)) fun _ => pure trivial

end Keeps
end Routine
