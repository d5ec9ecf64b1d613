import Mathlib.Data.List.Basic

universe u v

namespace IndexedFold
variable {σ : Type u} {α : Type v} {step : ℕ → σ → α → σ} {l l' : List α}

/-- Two states that differ stay different. -/
theorem injective (h : ∀ i a, Function.Injective fun s => step i s a) (l : List α) (i : ℕ) :
    Function.Injective fun s => l.foldlIdx step s i := by
  induction l generalizing i with
  | nil => exact fun _ _ => id
  | cons a l ih =>
    intro s t hst
    exact h i a (ih (i + 1) hst)

/-- The entry at a place that is heeded shows in the result. -/
theorem set_ne (h : ∀ i a, Function.Injective fun s => step i s a) {i n : ℕ}
    (hn : ∀ s, Function.Injective (step (i + n) s)) {a b : α} (ha : l[n]? = some a) (hab : b ≠ a)
    (s : σ) : (l.set n b).foldlIdx step s i ≠ l.foldlIdx step s i := by
  induction l generalizing i n s with
  | nil => cases ha
  | cons c l ih =>
    cases n with
    | zero =>
      obtain rfl : c = a := Option.some.inj ha
      intro heq
      exact hab (hn s (injective h l (i + 1) heq))
    | succ n =>
      rw [List.set_cons_succ, List.foldlIdx_cons, List.foldlIdx_cons]
      exact ih (i := i + 1) (n := n) (by rwa [Nat.add_right_comm, Nat.add_assoc]) ha _

/-- Lists that agree wherever the step heeds them have one result. -/
theorem congr (hlength : l.length = l'.length) {i : ℕ}
    (h : ∀ n a b, l[n]? = some a → l'[n]? = some b → ∀ s, step (i + n) s a = step (i + n) s b) (s : σ) :
    l.foldlIdx step s i = l'.foldlIdx step s i := by
  induction l generalizing l' i s with
  | nil =>
    rw [List.eq_nil_of_length_eq_zero hlength.symm]
  | cons a l ih =>
    cases l' with
    | nil => cases hlength
    | cons b l' =>
      rw [List.foldlIdx_cons, List.foldlIdx_cons, show step i s a = step i s b from h 0 a b rfl rfl s]
      refine ih (Nat.succ.inj hlength) (fun n c d hc hd s => ?_) _
      have hstep := h (n + 1) c d hc hd s
      rwa [Nat.add_right_comm, Nat.add_assoc]

end IndexedFold
