import Photonic.Bus.Irb
import Mathlib.Logic.Function.Basic

namespace Photonic
namespace Generation

/-- What a `PhotonicQueryGenerationCount` is part of. -/
inductive Query
  /-- `PhotonicAsyncTransfer`, for a pending bus reset -/
  | pending
  /-- `PhotonicAsyncTransfer`, after a transaction was rejected -/
  | rejected
  /-- `Photonic1394RefreshBusState` -/
  | refresh
  deriving DecidableEq, Repr

inductive Pc
  | idle
  | check
  | read (query : Query)
  | store (query : Query) (generation : ℕ)
  | rearm (query : Query)
  | stamp (retry : Bool)
  | submit (generation : ℕ) (retry : Bool)
  | done (status : NtStatus)
  deriving DecidableEq, Repr

/-- A thread, with what happened since its call began: a bus reset, a late store of another
thread, the failure of a query that the call cannot go on without. -/
structure Thread where
  pc : Pc
  overlapped : Bool
  late : Bool
  queryFailed : Bool
  deriving DecidableEq, Repr

namespace Thread

def goto (t : Thread) (pc : Pc) : Thread := { t with pc := pc }

def active (t : Thread) : Bool :=
  match t.pc with
  | .idle | .done _ => false
  | _ => true

/-- A refresh that has not read the bus yet. -/
def unread (t : Thread) : Bool :=
  match t.pc with
  | .read _ => true
  | _ => false

end Thread

structure Bus where
  /-- The generation of the bus. -/
  generation : ℕ
  /-- `BusGeneration` -/
  cached : ℕ
  /-- `BusResetPending` -/
  resetPending : Bool
  /-- Whether the cached count is that of a late store. -/
  lateStored : Bool
  threads : ℕ → Thread

inductive Act
  | reset
  | transfer (i : ℕ)
  | refreshBusState (i : ℕ)
  /-- The next step of a call. The bus driver completes an IRB with `status`, except that it
  rejects a stale generation. -/
  | go (i : ℕ) (status : NtStatus)
  deriving DecidableEq, Repr

namespace Bus

def setThread (s : Bus) (i : ℕ) (t : Thread) : Bus :=
  { s with threads := Function.update s.threads i t }

def goto (s : Bus) (i : ℕ) (pc : Pc) : Bus := s.setThread i ((s.threads i).goto pc)

def storeGeneration (s : Bus) (i generation : ℕ) : Bus :=
  if generation = s.generation then { s with cached := generation, lateStored := false }
  else
    { s with
      cached := generation
      lateStored := true
      threads := fun j => if j = i then s.threads j else { s.threads j with late := true } }

def afterStore : Query → Pc
  | .pending => .stamp false
  | .rejected => .stamp true
  | .refresh => .done statusSuccess

def afterRearm : Query → Pc
  | .pending => .stamp false
  | .rejected | .refresh => .done statusInvalidGeneration

def stepThread (s : Bus) (i : ℕ) (status : NtStatus) : Option Bus :=
  match (s.threads i).pc with
  | .idle | .done _ => none
  | .check =>
    -- InterlockedExchange(&Extension->BusResetPending, FALSE)
    some ({ s with resetPending := false }.goto i
      (if s.resetPending then .read .pending else .stamp false))
  | .read query =>
    if ntSuccess status then some (s.goto i (.store query s.generation))
    else
      match query with
      | .pending => some (s.goto i (.rearm query))
      | .rejected =>
        some (s.setThread i ({ s.threads i with queryFailed := true }.goto (.rearm query)))
      | .refresh =>
        some (s.setThread i ({ s.threads i with queryFailed := true }.goto (.done status)))
  | .store query generation =>
    some ((s.storeGeneration i generation).goto i (afterStore query))
  | .rearm query => some ({ s with resetPending := true }.goto i (afterRearm query))
  | .stamp retry => some (s.goto i (.submit s.cached retry))
  | .submit generation retry =>
    if generation = s.generation then
      if status = statusInvalidGeneration then none else some (s.goto i (.done status))
    else if retry then some (s.goto i (.done statusInvalidGeneration))
    else some (s.goto i (.read .rejected))

/-- A query reads the bus and stores what it read in two steps, and every access to `BusGeneration`
or `BusResetPending` is a step of its own. A reset changes the generation and runs
`PhotonicBusResetRoutine`. A store is late if the bus was reset since its query read it. -/
def step (s : Bus) (a : Act) : Option Bus :=
  match a with
  | .reset =>
    some
      { s with
        generation := s.generation + 1
        resetPending := true
        threads := fun i => { s.threads i with overlapped := true } }
  | .transfer i =>
    if (s.threads i).active then none else some (s.setThread i ⟨.check, false, false, false⟩)
  | .refreshBusState i =>
    if (s.threads i).active then none
    else some (s.setThread i ⟨.read .refresh, false, false, false⟩)
  | .go i status => s.stepThread i status

/-- The bus state is fresh and no call is under way. -/
def init : Bus := ⟨0, 0, false, false, fun _ => ⟨.idle, false, false, false⟩⟩

end Bus

def machine : Machine Bus Act := ⟨Bus.init, Bus.step⟩

/-- A refresh that will bring the cached count up to the generation of the bus, or set the
flag again. -/
def Pc.Covers (generation : ℕ) : Pc → Prop
  | .read .pending | .read .rejected | .rearm _ => True
  | .store _ g => g = generation
  | _ => False

/-- What a call knows of the bus as long as no reset overlaps it and no late store of another
thread comes in between. -/
def Thread.Knows (generation cached : ℕ) (t : Thread) : Prop :=
  match t.pc with
  | .store _ g => t.overlapped = false → g = generation
  | .rearm query => query = .pending ∨ t.queryFailed = true
  | .stamp true => t.overlapped = false → t.late = false → cached = generation
  | .submit g true => t.overlapped = false → t.late = false → g = generation
  | .done status => status = statusInvalidGeneration → t.overlapped = false →
      t.queryFailed = false → t.late = true
  | _ => True

namespace Bus

structure Sound (s : Bus) : Prop where
  covered : s.cached = s.generation ∨ s.resetPending = true ∨ s.lateStored = true ∨
    ∃ i, (s.threads i).pc.Covers s.generation
  knows : ∀ i, (s.threads i).Knows s.generation s.cached

variable {s s' : Bus} {i : ℕ}

/-- A step of one thread that leaves the shared fields alone. -/
theorem Sound.setThread (h : s.Sound) {t : Thread}
    (hc : (s.threads i).pc.Covers s.generation → t.pc.Covers s.generation)
    (hk : t.Knows s.generation s.cached) : (s.setThread i t).Sound := by
  refine ⟨?_, ?_⟩
  · refine h.covered.imp_right (Or.imp_right (Or.imp_right ?_))
    rintro ⟨j, hj⟩
    by_cases hji : j = i
    · subst hji
      exact ⟨j, by simpa [Bus.setThread] using hc hj⟩
    · exact ⟨j, by simpa [Bus.setThread, hji] using hj⟩
  · intro j
    by_cases hji : j = i
    · subst hji
      simpa [Bus.setThread] using hk
    · simpa [Bus.setThread, hji] using h.knows j

theorem Sound.reset (h : s.Sound) (hs : s.step .reset = some s') : s'.Sound := by
  cases hs
  refine ⟨.inr (.inl rfl), fun j => ?_⟩
  have hj := h.knows j
  simp only [Thread.Knows] at hj ⊢
  split <;> simp_all

theorem knows_store (h : s.Sound) {query : Query} {generation : ℕ}
    (hpc : (s.threads i).pc = .store query generation) :
    ((s.threads i).goto (afterStore query)).Knows s.generation generation := by
  have hi := h.knows i
  simp only [Thread.Knows, hpc] at hi
  cases query with
  | pending => trivial
  | rejected => exact fun ho _ => hi ho
  | refresh => exact fun hst => absurd hst (by decide)

theorem Sound.store (h : s.Sound) {query : Query} {generation : ℕ}
    (hpc : (s.threads i).pc = .store query generation) :
    ((s.storeGeneration i generation).goto i (afterStore query)).Sound := by
  have hk := knows_store h hpc
  by_cases hg : generation = s.generation
  · refine ⟨.inl (by simp [goto, Bus.setThread, storeGeneration, hg]), fun j => ?_⟩
    simp only [storeGeneration, if_pos hg, goto, Bus.setThread]
    by_cases hji : j = i
    · subst hji
      simpa using hk
    · simp only [Function.update_of_ne hji]
      have hj := h.knows j
      simp only [Thread.Knows] at hj ⊢
      split <;> simp_all
  · refine ⟨.inr (.inr (.inl (by simp [goto, Bus.setThread, storeGeneration, hg]))), fun j => ?_⟩
    simp only [storeGeneration, if_neg hg, goto, Bus.setThread]
    by_cases hji : j = i
    · subst hji
      simpa using hk
    · simp only [Function.update_of_ne hji, if_neg hji]
      have hj := h.knows j
      simp only [Thread.Knows] at hj ⊢
      split <;> simp_all

theorem Sound.rearm (h : s.Sound) {query : Query} (hpc : (s.threads i).pc = .rearm query) :
    ({ s with resetPending := true }.goto i (afterRearm query)).Sound := by
  refine ⟨.inr (.inl rfl), fun j => ?_⟩
  by_cases hji : j = i
  · subst hji
    have hj := h.knows j
    simp only [Thread.Knows, hpc] at hj
    simp only [goto, Bus.setThread, Function.update_self]
    cases query with
    | pending => trivial
    | rejected | refresh =>
      intro _ _ hq
      simp [Thread.goto] at hj hq
      simp [hj] at hq
  · simpa [goto, Bus.setThread, hji] using h.knows j

theorem Sound.stepThread (h : s.Sound) {status : NtStatus}
    (hs : s.stepThread i status = some s') : s'.Sound := by
  have hi := h.knows i
  unfold Bus.stepThread at hs
  split at hs
  · cases hs
  · cases hs
  · next hpc =>
    cases hs
    cases hp : s.resetPending with
    | true =>
      -- the flag is cleared, but its refresh is under way
      refine ⟨.inr (.inr (.inr ⟨i, by simp [goto, Bus.setThread, Thread.goto, Pc.Covers]⟩)),
        fun j => ?_⟩
      by_cases hji : j = i
      · subst hji
        simp [goto, Bus.setThread, Thread.goto, Thread.Knows]
      · simpa [goto, Bus.setThread, hji] using h.knows j
    | false =>
      rw [show { s with resetPending := false } = s from by rw [← hp]]
      exact h.setThread (by simp [hpc, Pc.Covers]) trivial
  · next query hpc =>
    split at hs
    · cases hs
      exact h.setThread (fun _ => rfl) fun _ => rfl
    · split at hs
      · cases hs
        exact h.setThread (fun _ => trivial) (.inl rfl)
      · cases hs
        exact h.setThread (fun _ => trivial) (.inr rfl)
      · cases hs
        exact h.setThread (by simp [hpc, Pc.Covers]) fun _ _ hq => absurd hq (by simp [Thread.goto])
  · next query generation hpc =>
    cases hs
    exact h.store hpc
  · next query hpc =>
    cases hs
    exact h.rearm hpc
  · next retry hpc =>
    cases hs
    refine h.setThread (by simp [hpc, Pc.Covers]) ?_
    cases retry with
    | true => simpa [Thread.Knows, hpc, Thread.goto] using hi
    | false => trivial
  · next generation retry hpc =>
    split at hs
    · split at hs
      · cases hs
      · next hst =>
        cases hs
        exact h.setThread (by simp [hpc, Pc.Covers]) fun he => absurd he hst
    · next hg =>
      split at hs
      · next hr =>
        cases hs
        subst hr
        refine h.setThread (by simp [hpc, Pc.Covers]) ?_
        simp only [Thread.Knows, hpc] at hi
        intro _ ho _
        by_contra hl
        exact hg (hi ho (by simpa [Thread.goto] using hl))
      · cases hs
        exact h.setThread (fun _ => trivial) trivial

theorem Sound.step {a : Act} (h : s.Sound) (hs : s.step a = some s') : s'.Sound := by
  cases a with
  | reset => exact h.reset hs
  | go i status => exact h.stepThread hs
  | transfer i | refreshBusState i =>
    simp only [Bus.step] at hs
    split at hs <;> cases hs
    next ha =>
    refine h.setThread (fun hc => absurd ha ?_) trivial
    simp only [Pc.Covers] at hc
    split at hc <;> simp_all [Thread.active]

end Bus

def Act.thread : Act → ℕ
  | .reset => 0
  | .transfer i | .refreshBusState i | .go i _ => i

theorem stepThread_other {s s' : Bus} {i j : ℕ} {status : NtStatus} (hij : i ≠ j)
    (hs : s.stepThread j status = some s') : (s'.threads i).pc = (s.threads i).pc := by
  unfold Bus.stepThread at hs
  repeat' split at hs
  all_goals cases hs
  all_goals simp only [Bus.goto, Bus.setThread, Function.update_of_ne hij]
  unfold Bus.storeGeneration
  split
  · rfl
  · simp only [if_neg hij]

theorem idle_of_reaches {n : ℕ} {s : Bus} (h : machine.Reaches (fun _ a => a.thread < n) s) {i : ℕ}
    (hi : n ≤ i) : (s.threads i).pc = .idle := by
  refine h.invariant (I := fun s => (s.threads i).pc = .idle) rfl ?_
  intro s a s' _ ih ha hs
  cases a with
  | reset =>
    cases hs
    exact ih
  | go j status =>
    have hij : i ≠ j := fun heq => absurd ha (by simp only [Act.thread]; omega)
    exact (stepThread_other hij hs).trans ih
  | transfer j | refreshBusState j =>
    have hij : i ≠ j := fun heq => absurd ha (by simp only [Act.thread]; omega)
    simp only [machine, Bus.step] at hs
    split at hs <;> cases hs
    simpa only [Bus.setThread, Function.update_of_ne hij] using ih

def goes (i n : ℕ) : List Act := List.replicate n (.go i statusSuccess)

/-- Two transfers read generation 1, one for the pending reset and one after a rejection.
The bus is reset once more, the third transfer sees it, and each of the other two stores
what it read between a store of the third and its next use of the cached count. -/
def lateStores : List Act :=
  [.reset, .transfer 1] ++ goes 1 1 ++ [.transfer 2] ++ goes 2 3 ++ goes 1 1 ++ goes 2 1 ++
    [.reset, .transfer 3] ++ goes 3 3 ++ goes 1 1 ++ goes 3 4 ++ goes 2 1 ++ goes 3 2

def staleBus : Bus := machine.after (fun _ a => a.thread < 4) lateStores

def readBus : Bus := machine.after (fun _ a => a.thread < 1) ([.reset, .transfer 0] ++ goes 0 2)

theorem unread_of_reaches {n : ℕ} {s : Bus} (h : machine.Reaches (fun _ a => a.thread < n) s)
    (hn : ∀ i < n, (s.threads i).unread = false) (i : ℕ) : (s.threads i).unread = false := by
  by_cases hi : i < n
  · exact hn i hi
  · simp [Thread.unread, idle_of_reaches h (not_lt.mp hi)]

/-- The third transfer of that run. -/
example : staleBus.threads 3 = ⟨.done statusInvalidGeneration, false, true, false⟩ := by decide

end Generation
end Photonic
