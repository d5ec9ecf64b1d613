import Mathlib.Algebra.Group.Nat.Defs
import Mathlib.Data.List.Basic
import Photonic.Lib.Machine

namespace Photonic
namespace Fake

def triggerExternal : BitVec 8 := 0x31
def triggerFreeRun : BitVec 8 := 0x00

/-- `CAMREG_STATUS_FRAME_READY` -/
def statusFrameReady : BitVec 8 := 0x04

/-- What the two threads share, and where each of them is. -/
structure TriggerInput where
  /-- `i2c_regs[CAMREG_TRIGGER_MODE]` -/
  mode : BitVec 8
  triggerPending : ℕ
  isoRunning : Bool
  /-- The watcher is past the test of the mode, with a pulse to count. -/
  tested : Bool
  /-- The main thread has stored the mode, with a disarm to do. -/
  disarming : Bool
  deriving DecidableEq

/-- `dcam_i2c_status` -/
def TriggerInput.status (s : TriggerInput) : BitVec 8 :=
  if s.mode = triggerExternal then
    if 0 < s.triggerPending then statusFrameReady else 0
  else if s.isoRunning then statusFrameReady else 0

def TriggerInput.consume (s : TriggerInput) : TriggerInput :=
  if 0 < s.triggerPending then { s with triggerPending := s.triggerPending - 1 } else s

namespace Trigger

/-- The steps of the watcher, `edge` and `count`, and of the main thread. -/
inductive Act
  /-- A pulse, and the unlocked test of the mode. -/
  | edge
  /-- The locked increment. -/
  | count
  /-- `dcam_i2c_write_reg` stores the mode. -/
  | store (value : BitVec 8)
  /-- `dcam_trigger_disarm` -/
  | disarm
  /-- A frame of `dcam_on_iso_interrupt` has been sent; a one-shot frame ends the stream. -/
  | complete (oneShot : Bool)
  /-- The stream is started or stopped. -/
  | stream (running : Bool)
  deriving DecidableEq

/-- The main thread is in no register write when it takes another step. -/
def step (s : TriggerInput) : Act → Option TriggerInput
  | .edge => if s.tested then none else some { s with tested := s.mode = triggerExternal }
  | .count =>
    if s.tested then
      some { s with triggerPending := (s.triggerPending + 1) % 2 ^ 32, tested := false }
    else none
  | .store value =>
    if s.disarming then none
    else some { s with mode := value, disarming := value ≠ triggerExternal }
  | .disarm => if s.disarming then some { s with triggerPending := 0, disarming := false } else none
  | .complete oneShot =>
    if s.disarming ∨ ¬s.isoRunning then none
    else
      let s := if s.mode = triggerExternal then s.consume else s
      some { s with isoRunning := !oneShot }
  | .stream running => if s.disarming then none else some { s with isoRunning := running }

/-- The camera as `dcam_create` leaves it, and its steps. -/
def machine : Machine TriggerInput Act where
  init := ⟨triggerFreeRun, 0, false, false, false⟩
  step := step

structure Ledger where
  mode : BitVec 8
  /-- A pulse of this stay has been accepted and is still to be counted. -/
  accepted : Bool
  due : ℕ

/-- Entering external mode opens a new account: to it go the pulses that came since, and from it
the frames that were sent since, as long as one is due. -/
def Ledger.note (l : Ledger) : Act → Ledger
  | .store value =>
    if value = triggerExternal ∧ l.mode ≠ triggerExternal then ⟨value, false, 0⟩
    else { l with mode := value }
  | .edge => { l with accepted := l.mode = triggerExternal }
  | .count => { l with accepted := false, due := if l.accepted then l.due + 1 else l.due }
  | .complete _ => if l.mode = triggerExternal then { l with due := l.due - 1 } else l
  | .disarm | .stream _ => l

def ledger (acts : List Act) : Ledger := acts.foldl Ledger.note ⟨triggerFreeRun, false, 0⟩

/-- The pulses accepted since external mode was last entered, less the frames sent for them. -/
def due (acts : List Act) : ℕ := (ledger acts).due

/-- No pulse straddles a disarm, and the count does not wrap. -/
def Clean (s : TriggerInput) : Act → Prop
  | .disarm => s.tested = false
  | .count => s.triggerPending + 1 < 2 ^ 32
  | _ => True

instance (s : TriggerInput) (a : Act) : Decidable (Clean s a) := by
  cases a <;> unfold Clean <;> infer_instance

/-- Within a stay the count is kept; outside, nothing is left over once the disarm is done. -/
structure Agrees (s : TriggerInput) (l : Ledger) : Prop where
  mode : l.mode = s.mode
  external : s.mode = triggerExternal →
    s.disarming = false ∧ s.triggerPending = l.due ∧ s.tested = l.accepted
  other : s.mode ≠ triggerExternal → s.disarming = false →
    s.triggerPending = 0 ∧ s.tested = false

theorem agrees_init : Agrees machine.init (ledger []) where
  mode := rfl
  external h := absurd h (by decide)
  other _ _ := ⟨rfl, rfl⟩

section
variable {s s' : TriggerInput} {l : Ledger}

theorem Agrees.edge (h : Agrees s l) (hs : step s .edge = some s') : Agrees s' (l.note .edge) := by
  obtain ⟨hmode, hext, hother⟩ := h
  simp only [step] at hs
  split at hs
  · cases hs
  · cases hs
    refine ⟨hmode, fun hm => ?_, fun hm hd => ⟨(hother hm hd).1, decide_eq_false hm⟩⟩
    obtain ⟨hd, hp, -⟩ := hext hm
    exact ⟨hd, hp, by rw [Ledger.note, hmode]⟩

theorem Agrees.count (h : Agrees s l) (hc : Clean s .count) (hs : step s .count = some s') :
    Agrees s' (l.note .count) := by
  obtain ⟨hmode, hext, hother⟩ := h
  simp only [step] at hs
  split at hs
  · next htested =>
    cases hs
    refine ⟨hmode, fun hm => ?_, fun hm hd => ?_⟩
    · obtain ⟨hd, hp, ht⟩ := hext hm
      refine ⟨hd, ?_, rfl⟩
      change (s.triggerPending + 1) % 2 ^ 32 = if l.accepted then l.due + 1 else l.due
      rw [Nat.mod_eq_of_lt hc, ← ht, if_pos htested, hp]
    · exact absurd ((hother hm hd).2.symm.trans htested) Bool.false_ne_true
  · cases hs

theorem Agrees.store (h : Agrees s l) {value : BitVec 8} (hs : step s (.store value) = some s') :
    Agrees s' (l.note (.store value)) := by
  obtain ⟨hmode, hext, hother⟩ := h
  simp only [step] at hs
  split at hs
  · cases hs
  · next hd =>
    have hd : s.disarming = false := Bool.not_eq_true _ ▸ hd
    cases hs
    by_cases hv : value = triggerExternal
    · subst hv
      by_cases hm : s.mode = triggerExternal
      · -- a further write of the mode is no entry
        have hnote : l.note (.store triggerExternal) = { l with mode := triggerExternal } :=
          if_neg fun hboth => hboth.2 (hmode.trans hm)
        rw [hnote]
        exact ⟨rfl, fun _ => ⟨rfl, (hext hm).2⟩, fun hne => absurd rfl hne⟩
      · -- the account opens with nothing left over
        have hnote : l.note (.store triggerExternal) = ⟨triggerExternal, false, 0⟩ :=
          if_pos ⟨rfl, hmode.trans_ne hm⟩
        rw [hnote]
        exact ⟨rfl, fun _ => ⟨rfl, hother hm hd⟩, fun hne => absurd rfl hne⟩
    · have hnote : l.note (.store value) = { l with mode := value } :=
        if_neg fun hboth => hv hboth.1
      rw [hnote]
      refine ⟨rfl, fun heq => absurd heq hv, fun _ hd => ?_⟩
      exact absurd (of_decide_eq_false hd) (not_not.mpr hv)

theorem Agrees.disarm (h : Agrees s l) (hc : Clean s .disarm) (hs : step s .disarm = some s') :
    Agrees s' (l.note .disarm) := by
  obtain ⟨hmode, hext, hother⟩ := h
  simp only [step] at hs
  split at hs
  · next hd =>
    cases hs
    refine ⟨hmode, fun hm => ?_, fun _ _ => ⟨rfl, hc⟩⟩
    exact absurd ((hext hm).1.symm.trans hd) Bool.false_ne_true
  · cases hs

theorem consume_eq (s : TriggerInput) :
    s.consume = { s with triggerPending := s.triggerPending - 1 } := by
  rw [TriggerInput.consume]
  split
  · rfl
  · next h =>
    have hzero : s.triggerPending = 0 := by omega
    rw [hzero]
    cases s
    cases hzero
    rfl

theorem Agrees.complete (h : Agrees s l) {oneShot : Bool} (hs : step s (.complete oneShot) = some s') :
    Agrees s' (l.note (.complete oneShot)) := by
  obtain ⟨hmode, hext, hother⟩ := h
  simp only [step] at hs
  split at hs
  · cases hs
  · cases hs
    by_cases hm : s.mode = triggerExternal
    · have hnote : l.note (.complete oneShot) = { l with due := l.due - 1 } :=
        if_pos (hmode.trans hm)
      obtain ⟨hd, hp, ht⟩ := hext hm
      rw [hnote, if_pos hm, consume_eq]
      exact ⟨hmode, fun _ => ⟨hd, congrArg (· - 1) hp, ht⟩, fun hne => absurd hm hne⟩
    · have hnote : l.note (.complete oneShot) = l := if_neg (hmode.trans_ne hm)
      rw [hnote, if_neg hm]
      exact ⟨hmode, hext, hother⟩

theorem Agrees.stream (h : Agrees s l) {running : Bool} (hs : step s (.stream running) = some s') :
    Agrees s' (l.note (.stream running)) := by
  simp only [step] at hs
  split at hs
  · cases hs
  · cases hs
    exact ⟨h.mode, h.external, h.other⟩

theorem Agrees.step {a : Act} (h : Agrees s l) (hc : Clean s a) (hs : step s a = some s') :
    Agrees s' (l.note a) := by
  cases a with
  | edge => exact h.edge hs
  | count => exact h.count hc hs
  | store value => exact h.store hs
  | disarm => exact h.disarm hc hs
  | complete oneShot => exact h.complete hs
  | stream running => exact h.stream hs

theorem Agrees.run {acts : List Act} (h : Agrees s l) (hrun : machine.run Clean s acts = some s') :
    Agrees s' (acts.foldl Ledger.note l) := by
  induction acts generalizing s l with
  | nil =>
    cases hrun
    exact h
  | cons a acts ih =>
    simp only [Machine.run] at hrun
    split at hrun
    · next hc =>
      obtain ⟨s₁, hs, hrun⟩ := Option.bind_eq_some_iff.mp hrun
      exact ih (h.step hc hs) hrun
    · cases hrun

end

/-- In external mode the count is what is due, and STATUS tells whether anything is. -/
def Accounts (s : TriggerInput) (acts : List Act) : Prop :=
  s.mode = triggerExternal →
    s.triggerPending = due acts ∧ (s.status = statusFrameReady ↔ 0 < due acts)

/-- A run in which no pulse straddles a disarm keeps the account. -/
theorem accounts_of_clean {acts : List Act} {s : TriggerInput}
    (hrun : machine.run Clean machine.init acts = some s) : Accounts s acts := by
  intro hm
  have hpending : s.triggerPending = due acts := ((agrees_init.run hrun).external hm).2.1
  refine ⟨hpending, ?_⟩
  rw [TriggerInput.status, if_pos hm, hpending]
  split
  · next hdue => exact ⟨fun _ => hdue, fun _ => rfl⟩
  · next hdue => exact ⟨fun h => absurd h (by decide), fun h => absurd h hdue⟩

/-- Two pulses are counted and a frame is sent for one of them; the other is dropped where external
mode is left. It is entered again, and a pulse is counted. -/
theorem accounts_of_clean_run :
    Accounts ⟨triggerExternal, 1, true, false, false⟩
      [.store triggerExternal, .stream true, .edge, .count, .edge, .count, .complete false,
        .store triggerFreeRun, .disarm, .edge, .store triggerExternal, .edge, .count] :=
  accounts_of_clean (by decide +kernel)

/-- A pulse that was accepted before external mode was left is there after it is entered again. -/
theorem not_accounts_straddle :
    ¬∀ (acts : List Act) (s : TriggerInput),
      machine.run (fun _ _ => True) machine.init acts = some s → Accounts s acts := by
  intro h
  let acts : List Act := [.store triggerExternal, .edge, .store triggerFreeRun, .disarm, .count,
    .store triggerExternal]
  have hcount := (h acts ⟨triggerExternal, 1, false, false, false⟩ (by decide +kernel) rfl).1
  exact absurd hcount (by decide +kernel)

end Trigger
end Fake
end Photonic
