import Mathlib.Data.Option.Basic
import Mathlib.Order.WellFounded
import Mathlib.Order.Monotone.Basic

universe u v w x

/-- A partial step function whose second argument names the step, so that a concrete run is evaluated
by `run` and a property of all runs is proved by `Reaches.invariant`. -/
structure Machine (σ : Type u) (α : Type v) where
  init : σ
  step : σ → α → Option σ

namespace Machine
variable {σ : Type u} {α : Type v} (M : Machine σ α)

/-- The states reached from the initial one by steps that all meet `P`. -/
inductive Reaches (P : σ → α → Prop) : σ → Prop
  | init : Reaches P M.init
  | step {s : σ} {a : α} {s' : σ} :
      Reaches P s → P s a → M.step s a = some s' → Reaches P s'

abbrev Reachable : σ → Prop := M.Reaches fun _ _ => True

variable {M}

theorem Reaches.mono {P Q : σ → α → Prop} (hPQ : ∀ s a, P s a → Q s a) {s : σ}
    (h : M.Reaches P s) : M.Reaches Q s := by
  induction h with
  | init => exact .init
  | step _ hp hs ih => exact ih.step (hPQ _ _ hp) hs

theorem Reaches.reachable {P : σ → α → Prop} {s : σ} (h : M.Reaches P s) : M.Reachable s :=
  h.mono fun _ _ _ => trivial

/-- What holds initially and is kept by every step that meets `P` holds in every
state `P`-steps reach. The step may use that its source state is reached, so that
invariants proved before are available. -/
theorem Reaches.invariant {P : σ → α → Prop} {I : σ → Prop} (h₀ : I M.init)
    (hstep : ∀ s a s', M.Reaches P s → I s → P s a → M.step s a = some s' → I s')
    {s : σ} (h : M.Reaches P s) : I s := by
  induction h with
  | init => exact h₀
  | step hr hp hs ih => exact hstep _ _ _ hr ih hp hs

theorem Reaches.trans {P Q : σ → α → Prop} {s t : σ} (h : M.Reaches P s)
    (ht : Machine.Reaches ⟨s, M.step⟩ Q t) (hQ : ∀ s a, Q s a → P s a) : M.Reaches P t := by
  induction ht with
  | init => exact h
  | step _ hq hs ih => exact ih.step (hQ _ _ hq) hs

/-- A map that sends every step to nothing or to a run of `N` sends reached
states to reachable ones. -/
theorem Reaches.project {τ : Type w} {β : Type x} {N : Machine τ β} {P : σ → α → Prop} (f : σ → τ)
    (h₀ : f M.init = N.init)
    (hstep : ∀ s a s', M.step s a = some s' → N.Reachable (f s) → N.Reachable (f s'))
    {s : σ} (h : M.Reaches P s) : N.Reachable (f s) := by
  refine h.invariant (I := fun s => N.Reachable (f s)) ?_ ?_
  · rw [h₀]
    exact .init
  · intro s a s' _ ih _ hs
    exact hstep s a s' hs ih

/-- `run P s as` takes the steps `as` from `s`, each of which must meet `P`. -/
def run (M : Machine σ α) (P : σ → α → Prop) [∀ s a, Decidable (P s a)] : σ → List α → Option σ
  | s, [] => some s
  | s, a :: as => if P s a then (M.step s a).bind fun s' => run M P s' as else none

theorem Reaches.run {P : σ → α → Prop} [∀ s a, Decidable (P s a)] {s s' : σ} (h : M.Reaches P s)
    (as : List α) (hr : M.run P s as = some s') : M.Reaches P s' := by
  induction as generalizing s with
  | nil =>
    cases hr
    exact h
  | cons a as ih =>
    simp only [Machine.run] at hr
    split at hr
    · next hp =>
      obtain ⟨s₁, hs₁, hr⟩ := Option.bind_eq_some_iff.mp hr
      exact ih (h.step hp hs₁) hr
    · cases hr

/-- The state the steps `as` lead to. -/
def after (M : Machine σ α) (P : σ → α → Prop) [∀ s a, Decidable (P s a)] (as : List α) : σ :=
  (M.run P M.init as).getD M.init

theorem reaches_after (P : σ → α → Prop) [∀ s a, Decidable (P s a)] (as : List α) :
    M.Reaches P (M.after P as) := by
  unfold after
  cases hr : M.run P M.init as with
  | none => exact .init
  | some s => exact Reaches.init.run as hr

theorem run_eq_after {P : σ → α → Prop} [∀ s a, Decidable (P s a)] {as : List α}
    (h : (M.run P M.init as).isSome = true) : M.run P M.init as = some (M.after P as) := by
  unfold after
  cases hr : M.run P M.init as with
  | none =>
    rw [hr] at h
    cases h
  | some s => rfl

/-- An infinite execution: at each time one step that meets `P`, or none. -/
structure Execution (M : Machine σ α) (P : σ → α → Prop) where
  state : ℕ → σ
  act : ℕ → Option α
  start : state 0 = M.init
  idle : ∀ n, act n = none → state (n + 1) = state n
  meets : ∀ n a, act n = some a → P (state n) a
  next : ∀ n a, act n = some a → M.step (state n) a = some (state (n + 1))

theorem Execution.reaches {P : σ → α → Prop} (x : M.Execution P) (n : ℕ) :
    M.Reaches P (x.state n) := by
  induction n with
  | zero =>
    rw [x.start]
    exact .init
  | succ n ih =>
    cases ha : x.act n with
    | none =>
      rw [x.idle n ha]
      exact ih
    | some a => exact ih.step (x.meets n a ha) (x.next n a ha)

theorem Execution.antitone_from {P : σ → α → Prop} (x : M.Execution P) {ι : Type w} [Preorder ι]
    (r : σ → ι) (n : ℕ)
    (h : ∀ m, n ≤ m → ∀ a, x.act m = some a → r (x.state (m + 1)) ≤ r (x.state m))
    {m k : ℕ} (hm : n ≤ m) (hk : m ≤ k) : r (x.state k) ≤ r (x.state m) := by
  induction k, hk using Nat.le_induction with
  | base => exact le_rfl
  | succ k hk ih =>
    refine le_trans ?_ ih
    cases ha : x.act k with
    | none => rw [x.idle k ha]
    | some a => exact h k (hm.trans hk) a ha

theorem eventually_of_rank {ι : Type w} [Preorder ι] [WellFoundedLT ι] (r : ℕ → ι) (Q : ℕ → Prop)
    (n : ℕ) (h : ∀ m, n ≤ m → ¬Q m → ∃ k, m ≤ k ∧ (Q k ∨ r k < r m)) : ∃ m, n ≤ m ∧ Q m := by
  by_contra hno
  push Not at hno
  have key : ∀ i : ι, ∀ m, n ≤ m → r m = i → False := by
    intro i
    induction i using WellFoundedLT.induction with
    | _ i ih =>
      intro m hm hi
      obtain ⟨k, hk, hQ | hlt⟩ := h m hm (hno m hm)
      · exact hno k (hm.trans hk) hQ
      · exact ih (r k) (hi ▸ hlt) k (hm.trans hk) rfl
  exact key (r n) n le_rfl rfl

theorem eventually_const (f : ℕ → ℕ) (n : ℕ) (h : ∀ m k, n ≤ m → m ≤ k → f k ≤ f m) :
    ∃ N, n ≤ N ∧ ∀ m, N ≤ m → f m = f N := by
  refine eventually_of_rank f (fun N => ∀ m, N ≤ m → f m = f N) n fun m hm hno => ?_
  push Not at hno
  obtain ⟨k, hk, hne⟩ := hno
  exact ⟨k, hk, .inr (lt_of_le_of_ne (h m k hm hk) hne)⟩

namespace Execution
variable {P : σ → α → Prop} (x : M.Execution P)

/-- The step taken at time `n` is of a kind. -/
def Takes (n : ℕ) (p : α → Prop) : Prop := ∃ a, x.act n = some a ∧ p a

/-- What the steps before time `n` record, in this order. -/
def record {β : Type w} (f : σ → α → List β) : ℕ → List β
  | 0 => []
  | n + 1 =>
    match x.act n with
    | none => record f n
    | some a => record f n ++ f (x.state n) a

/-- Weak fairness: what stays enabled from some time on is taken. -/
def Fair (enabled : σ → Prop) (taken : α → Prop) : Prop :=
  ∀ n, (∀ m, n ≤ m → enabled (x.state m)) → ∃ m, n ≤ m ∧ ∃ a, x.act m = some a ∧ taken a

variable {x}

/-- What a fair step lowers and no step raises reaches its goal. -/
theorem Fair.eventually {enabled : σ → Prop} {taken : α → Prop} (hf : x.Fair enabled taken)
    {ι : Type w} [Preorder ι] [WellFoundedLT ι] (r : σ → ι) (Q : σ → Prop) (n : ℕ)
    (hen : ∀ m, n ≤ m → ¬Q (x.state m) → enabled (x.state m))
    (hle : ∀ m, n ≤ m → ¬Q (x.state m) → ∀ a, x.act m = some a →
      Q (x.state (m + 1)) ∨ r (x.state (m + 1)) ≤ r (x.state m))
    (hlt : ∀ m, n ≤ m → ¬Q (x.state m) → ∀ a, x.act m = some a → taken a →
      Q (x.state (m + 1)) ∨ r (x.state (m + 1)) < r (x.state m)) :
    ∃ m, n ≤ m ∧ Q (x.state m) := by
  by_contra hno
  push Not at hno
  have hstep : ∀ m, n ≤ m → ¬Q (x.state m) → ∃ k, m ≤ k ∧ (Q (x.state k) ∨ r (x.state k) < r (x.state m)) := by
    intro m hm _
    obtain ⟨k, hk, a, ha, ht⟩ := hf m fun k hk => hen k (hm.trans hk) (hno k (hm.trans hk))
    have hmk : r (x.state k) ≤ r (x.state m) :=
      x.antitone_from r n (fun j hj b hb => (hle j hj (hno j hj) b hb).resolve_left
        (hno (j + 1) (hj.trans (Nat.le_succ j)))) hm hk
    have hlt := (hlt k (hm.trans hk) (hno k (hm.trans hk)) a ha ht).resolve_left
      (hno (k + 1) (by omega))
    exact ⟨k + 1, by omega, .inr (hlt.trans_le hmk)⟩
  obtain ⟨m, hm, hQ⟩ := eventually_of_rank (fun m => r (x.state m)) (fun m => Q (x.state m)) n hstep
  exact hno m hm hQ

end Execution

def trace (M : Machine σ α) : σ → List α → ℕ → σ
  | s, [], _ => s
  | s, _ :: _, 0 => s
  | s, a :: as, n + 1 => trace M ((M.step s a).getD s) as n

theorem trace_zero (s : σ) (as : List α) : M.trace s as 0 = s := by
  cases as <;> rfl

theorem trace_step {P : σ → α → Prop} [∀ s a, Decidable (P s a)] {s s' : σ} {as : List α}
    (hr : M.run P s as = some s') {n : ℕ} {a : α} (ha : as[n]? = some a) :
    P (M.trace s as n) a ∧ M.step (M.trace s as n) a = some (M.trace s as (n + 1)) := by
  induction as generalizing s n with
  | nil => cases ha
  | cons b as ih =>
    simp only [Machine.run] at hr
    split at hr
    · next hp =>
      obtain ⟨s₁, hs₁, hr⟩ := Option.bind_eq_some_iff.mp hr
      cases n with
      | zero =>
        cases ha
        exact ⟨hp, by simp [trace, hs₁, trace_zero]⟩
      | succ n => simpa [trace, hs₁] using ih hr ha
    · cases hr

theorem trace_end {P : σ → α → Prop} [∀ s a, Decidable (P s a)] {s s' : σ} {as : List α}
    (hr : M.run P s as = some s') {n : ℕ} (hn : as.length ≤ n) : M.trace s as n = s' := by
  induction as generalizing s n with
  | nil => exact Option.some.inj hr
  | cons b as ih =>
    simp only [Machine.run] at hr
    split at hr
    · next hp =>
      obtain ⟨s₁, hs₁, hr⟩ := Option.bind_eq_some_iff.mp hr
      cases n with
      | zero => simp at hn
      | succ n => simpa [trace, hs₁] using ih hr (by simpa using hn)
    · cases hr

/-- Take the steps `as`, then nothing more. -/
def Execution.ofRun {P : σ → α → Prop} [∀ s a, Decidable (P s a)] (as : List α) {s : σ}
    (hr : M.run P M.init as = some s) : M.Execution P where
  state := M.trace M.init as
  act n := as[n]?
  start := trace_zero _ _
  idle n hn := by
    have hn := List.getElem?_eq_none_iff.mp hn
    rw [trace_end hr hn, trace_end hr (hn.trans (Nat.le_succ n))]
  meets _ _ ha := (trace_step hr ha).1
  next _ _ ha := (trace_step hr ha).2

end Machine
