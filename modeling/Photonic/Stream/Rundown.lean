import Mathlib.Tactic.Cases
import Photonic.Lib.Machine
import Photonic.Lib.Tally

namespace Photonic.Stream.Rundown

/-- The gate's fields of the stream extension. `DataPathRefs` is a LONG: there are
fewer threads than it counts. -/
structure Gate where
  dataPathRefs : ℤ
  rundown : Bool
  dataPathIdle : Bool
deriving DecidableEq

/-- `RtlZeroMemory` and `KeInitializeEvent(NotificationEvent, FALSE)` of the open. -/
def Gate.fresh : Gate := ⟨0, false, false⟩

def enterDataPath (g : Gate) : Bool × Gate :=
  if !g.rundown then (true, { g with dataPathRefs := g.dataPathRefs + 1 }) else (false, g)

/-- The locked part of the leave; the first component is `idle`. -/
def leaveDataPath (g : Gate) : Bool × Gate :=
  (g.dataPathRefs - 1 == 0 && g.rundown, { g with dataPathRefs := g.dataPathRefs - 1 })

/-- `KeSetEvent` on a notification event, which stays set. -/
def setIdle (g : Gate) : Gate := { g with dataPathIdle := true }

/-- The locked part of the close; the first component is `busy`. -/
def beginRundown (g : Gate) : Bool × Gate :=
  (g.dataPathRefs != 0, { g with rundown := true })

/-- Where a thread is with respect to the gate: `signalling` is between the release
of the lock with `idle` set and the end of `KeSetEvent`. -/
inductive Place
  | outside
  | inside
  | signalling
deriving DecidableEq

/-- Where the close is: `timedOut` is the body of the wait's loop, `drained` what
comes after the loop up to the release of the interface mutex. -/
inductive Closer
  | opened
  | waiting
  | timedOut
  | drained
  | closed
deriving DecidableEq

structure State (T : Type) where
  gate : Gate
  place : T → Place
  closer : Closer
  /-- How often the event has been set since the open. -/
  signals : ℕ

inductive Act (T : Type)
  | enter (t : T)
  | leave (t : T)
  | signal (t : T)
  | publish
  | wake
  | timeout
  | again
  | finish
  | reopen
deriving DecidableEq

section Machine
variable {T : Type} [DecidableEq T]

def State.move (s : State T) (t : T) (p : Place) : State T :=
  { s with place := Function.update s.place t p }

/-- A refused thread completes its request and touches nothing of the stream. -/
def State.enter (s : State T) (t : T) : State T :=
  let r := enterDataPath s.gate
  if r.1 then { s.move t .inside with gate := r.2 } else { s with gate := r.2 }

def State.leave (s : State T) (t : T) : State T :=
  let r := leaveDataPath s.gate
  { s.move t (if r.1 then .signalling else .outside) with gate := r.2 }

def State.signal (s : State T) (t : T) : State T :=
  { s.move t .outside with gate := setIdle s.gate, signals := s.signals + 1 }

def State.publish (s : State T) : State T :=
  let r := beginRundown s.gate
  { s with gate := r.2, closer := if r.1 then .waiting else .drained }

def State.reopen (s : State T) : State T :=
  { s with gate := .fresh, closer := .opened, signals := 0 }

/-- One step. A wait that finds the event set succeeds; it times out only while
the event is not set. -/
def step (s : State T) : Act T → Option (State T)
  | .enter t => if s.place t = .outside then some (s.enter t) else none
  | .leave t => if s.place t = .inside then some (s.leave t) else none
  | .signal t => if s.place t = .signalling then some (s.signal t) else none
  | .publish => if s.closer = .opened then some s.publish else none
  | .wake =>
    if s.closer = .waiting ∧ s.gate.dataPathIdle = true then some { s with closer := .drained }
    else none
  | .timeout =>
    if s.closer = .waiting ∧ s.gate.dataPathIdle = false then some { s with closer := .timedOut }
    else none
  | .again => if s.closer = .timedOut then some { s with closer := .waiting } else none
  | .finish => if s.closer = .drained then some { s with closer := .closed } else none
  | .reopen => if s.closer = .closed then some s.reopen else none

/-- A freshly opened stream that no thread has entered. -/
def machine (T : Type) [DecidableEq T] : Machine (State T) (Act T) where
  init := ⟨.fresh, fun _ => .outside, .opened, 0⟩
  step := step

end Machine

section Invariant
variable {T : Type} [DecidableEq T] {s s' : State T}

/-- The close is inside its wait's loop. -/
def State.Waits (s : State T) : Prop := s.closer = .waiting ∨ s.closer = .timedOut

/-- No thread is inside the gate and none is about to set its event. -/
def State.AllOut (s : State T) : Prop := ∀ t, s.place t = .outside

/-- The close's wait is over and no open has reopened the gate. -/
def State.Over (s : State T) : Prop := s.closer = .drained ∨ s.closer = .closed

/-- What each part of the close allows when `n` threads are inside and `m` are
about to set the event. While the close waits, the thread that took the count to
zero owes the event or has set it. -/
def State.Stage (s : State T) (n m : ℕ) : Prop :=
  match s.closer with
  | .opened =>
    s.gate.rundown = false ∧ s.gate.dataPathIdle = false ∧ m = 0 ∧ s.signals = 0
  | .waiting | .timedOut =>
    s.gate.rundown = true ∧ m + s.signals = (if n = 0 then 1 else 0) ∧
      (s.gate.dataPathIdle = true ↔ s.signals = 1)
  | .drained | .closed => s.gate.rundown = true ∧ n = 0 ∧ m = 0 ∧ s.signals ≤ 1

structure State.Counted (s : State T) (n m : ℕ) : Prop where
  inside : Tally s.place .inside n
  signalling : Tally s.place .signalling m
  refs : s.gate.dataPathRefs = n
  stage : s.Stage n m

def State.Sound (s : State T) : Prop := ∃ n m, s.Counted n m

theorem State.Counted.enter {n m : ℕ} {t : T} (h : s.Counted n m) (ht : s.place t = .outside) :
    (s.enter t).Sound := by
  obtain ⟨hin, hsig, hrefs, hstage⟩ := h
  have hti : s.place t ≠ .inside := by simp [ht]
  have hts : s.place t ≠ .signalling := by simp [ht]
  cases hr : s.gate.rundown with
  | true =>
    have he : s.enter t = s := by simp [State.enter, enterDataPath, hr]
    rw [he]
    exact ⟨n, m, hin, hsig, hrefs, hstage⟩
  | false =>
    refine ⟨n + 1, m, ?_, ?_, ?_, ?_⟩
    · simpa [State.enter, enterDataPath, hr, State.move] using hin.enter hti
    · simpa [State.enter, enterDataPath, hr, State.move] using hsig.pass hts (by decide)
    · simp [State.enter, enterDataPath, hr, hrefs]
    · -- an open gate means that no close has begun
      cases hc : s.closer <;>
        simp_all [State.Stage, State.enter, enterDataPath, State.move]

theorem State.Counted.leave {n m : ℕ} {t : T} (h : s.Counted n m) (ht : s.place t = .inside) :
    (s.leave t).Sound := by
  obtain ⟨hin, hsig, hrefs, hstage⟩ := h
  have hpos := hin.pos ht
  have hts : s.place t ≠ .signalling := by simp [ht]
  by_cases hlast : n = 1 ∧ s.gate.rundown = true
  · obtain ⟨rfl, hr⟩ := hlast
    -- the last thread after the rundown began owes the event
    have hidle : leaveDataPath s.gate = (true, { s.gate with dataPathRefs := 0 }) := by
      simp [leaveDataPath, hrefs, hr]
    refine ⟨0, m + 1, ?_, ?_, ?_, ?_⟩
    · simpa [State.leave, hidle, State.move] using hin.leave ht (q := .signalling) (by decide)
    · simpa [State.leave, hidle, State.move] using hsig.enter hts
    · simp [State.leave, hidle]
    · cases hc : s.closer <;> simp_all [State.Stage, State.leave, State.move]
  · have hidle : (leaveDataPath s.gate).1 = false := by
      simp only [leaveDataPath, hrefs]
      by_cases hr : s.gate.rundown = true
      · have hn : n ≠ 1 := fun hn => hlast ⟨hn, hr⟩
        simp
        omega
      · simp [hr]
    refine ⟨n - 1, m, ?_, ?_, ?_, ?_⟩
    · simpa [State.leave, hidle, State.move] using hin.leave ht (q := .outside) (by decide)
    · simpa [State.leave, hidle, State.move] using hsig.pass hts (by decide)
    · simp only [State.leave, leaveDataPath, hrefs]
      omega
    · cases hc : s.closer with
      | opened => simpa [State.Stage, State.leave, State.move, leaveDataPath, hc] using hstage
      | waiting | timedOut =>
        simp only [State.Stage, hc] at hstage
        have hn : n ≠ 1 := fun hn => hlast ⟨hn, hstage.1⟩
        have hn1 : n - 1 ≠ 0 := by omega
        simpa [State.Stage, State.leave, State.move, leaveDataPath, hc, hn1, hpos.ne'] using hstage
      | drained | closed =>
        simp only [State.Stage, hc] at hstage
        omega

theorem State.Counted.signal {n m : ℕ} {t : T} (h : s.Counted n m) (ht : s.place t = .signalling) :
    (s.signal t).Sound := by
  obtain ⟨hin, hsig, hrefs, hstage⟩ := h
  have hpos := hsig.pos ht
  have hti : s.place t ≠ .inside := by simp [ht]
  refine ⟨n, m - 1, hin.pass hti (by decide), hsig.leave ht (by decide), hrefs, ?_⟩
  cases hc : s.closer with
  | waiting | timedOut =>
    simp only [State.Stage, hc] at hstage
    simp only [State.Stage, State.signal, State.move, setIdle, hc]
    split at hstage
    · next hn =>
      rw [if_pos hn]
      exact ⟨hstage.1, by omega, by simp; omega⟩
    · omega
  | opened | drained | closed =>
    simp only [State.Stage, hc] at hstage
    omega

omit [DecidableEq T] in
theorem State.Counted.publish {n m : ℕ} (h : s.Counted n m) (hc : s.closer = .opened) :
    s.publish.Sound := by
  obtain ⟨hin, hsig, hrefs, hstage⟩ := h
  refine ⟨n, m, hin, hsig, hrefs, ?_⟩
  simp only [State.Stage, hc] at hstage
  by_cases hn : n = 0
  · simp [State.Stage, State.publish, beginRundown, hrefs, hn, hstage]
  · simp [State.Stage, State.publish, beginRundown, hrefs, hn, hstage]

theorem State.Sound.step {a : Act T} (h : s.Sound) (hs : step s a = some s') : s'.Sound := by
  obtain ⟨n, m, h⟩ := h
  cases a with
  | enter t =>
    obtain ⟨ht, rfl⟩ : s.place t = .outside ∧ s.enter t = s' := by simpa [Rundown.step] using hs
    exact h.enter ht
  | leave t =>
    obtain ⟨ht, rfl⟩ : s.place t = .inside ∧ s.leave t = s' := by simpa [Rundown.step] using hs
    exact h.leave ht
  | signal t =>
    obtain ⟨ht, rfl⟩ : s.place t = .signalling ∧ s.signal t = s' := by
      simpa [Rundown.step] using hs
    exact h.signal ht
  | publish =>
    obtain ⟨hc, rfl⟩ : s.closer = .opened ∧ s.publish = s' := by simpa [Rundown.step] using hs
    exact h.publish hc
  | wake =>
    obtain ⟨⟨hc, he⟩, rfl⟩ := by simpa [Rundown.step] using hs
    have hstage := h.stage
    simp only [State.Stage, hc] at hstage
    obtain ⟨hr, howed, hevent⟩ := hstage
    have hsig := hevent.mp he
    split at howed
    · next hn => exact ⟨n, m, h.inside, h.signalling, h.refs, hr, hn, by omega, hsig.le⟩
    · omega
  | timeout =>
    obtain ⟨⟨hc, he⟩, rfl⟩ := by simpa [Rundown.step] using hs
    exact ⟨n, m, h.inside, h.signalling, h.refs, by simpa [State.Stage, hc] using h.stage⟩
  | again =>
    obtain ⟨hc, rfl⟩ := by simpa [Rundown.step] using hs
    exact ⟨n, m, h.inside, h.signalling, h.refs, by simpa [State.Stage, hc] using h.stage⟩
  | finish =>
    obtain ⟨hc, rfl⟩ := by simpa [Rundown.step] using hs
    exact ⟨n, m, h.inside, h.signalling, h.refs, by simpa [State.Stage, hc] using h.stage⟩
  | reopen =>
    obtain ⟨hc, rfl⟩ : s.closer = .closed ∧ s.reopen = s' := by simpa [Rundown.step] using hs
    have hstage := h.stage
    simp only [State.Stage, hc] at hstage
    refine ⟨n, m, h.inside, h.signalling, ?_, ?_⟩
    · simp [State.reopen, Gate.fresh, hstage]
    · simp [State.Stage, State.reopen, Gate.fresh, hstage]

theorem Reachable.sound (h : (machine T).Reachable s) : s.Sound := by
  refine h.invariant ?_ fun s a s' _ hI _ hs => hI.step hs
  exact ⟨0, 0, .of_forall_ne (by simp [machine]), .of_forall_ne (by simp [machine]), rfl,
    rfl, rfl, rfl, rfl⟩

omit [DecidableEq T] in
theorem State.Sound.signals_le_one (h : s.Sound) : s.signals ≤ 1 := by
  obtain ⟨n, m, h⟩ := h
  have hstage := h.stage
  cases hc : s.closer <;> simp only [State.Stage, hc] at hstage
  case waiting | timedOut => split at hstage <;> omega
  case opened | drained | closed => omega

omit [DecidableEq T] in
theorem State.Sound.allOut (h : s.Sound) (ho : s.Over) : s.gate.rundown = true ∧ s.AllOut := by
  obtain ⟨n, m, h⟩ := h
  have hstage := h.stage
  obtain ⟨hr, rfl, rfl, -⟩ : s.gate.rundown = true ∧ n = 0 ∧ m = 0 ∧ s.signals ≤ 1 := by
    obtain hc | hc := ho <;> simpa only [State.Stage, hc] using hstage
  refine ⟨hr, fun t => ?_⟩
  have hin := h.inside.ne t
  have hsig := h.signalling.ne t
  cases hp : s.place t with
  | outside => rfl
  | inside => exact absurd hp hin
  | signalling => exact absurd hp hsig

omit [DecidableEq T] in
/-- No lost wakeup: the last thread out has set the event. -/
theorem State.Sound.idle (h : s.Sound) (hw : s.Waits) (ho : s.AllOut) :
    s.gate.rundown = true ∧ s.gate.dataPathIdle = true := by
  obtain ⟨n, m, h⟩ := h
  have hn : n = 0 := h.inside.unique (.of_forall_ne fun t => by simp [ho t])
  have hm : m = 0 := h.signalling.unique (.of_forall_ne fun t => by simp [ho t])
  have hstage := h.stage
  obtain ⟨hr, howed, hevent⟩ : s.gate.rundown = true ∧ m + s.signals = (if n = 0 then 1 else 0) ∧
      (s.gate.dataPathIdle = true ↔ s.signals = 1) := by
    obtain hc | hc := hw <;> simpa only [State.Stage, hc] using hstage
  rw [if_pos hn] at howed
  exact ⟨hr, hevent.mpr (by omega)⟩

theorem State.enter_refused (hr : s.gate.rundown = true) (t : T) :
    (enterDataPath s.gate).1 = false ∧ s.enter t = s := by
  simp [State.enter, enterDataPath, hr]

/-- With everyone out after the rundown began, only the close itself moves on. -/
theorem State.AllOut.step {a : Act T} (ho : s.AllOut) (hr : s.gate.rundown = true)
    (hc : s.Waits ∨ s.Over) (ha : a ≠ .reopen) (hs : step s a = some s') :
    s'.AllOut ∧ s'.gate.rundown = true ∧ (s'.Waits ∨ s'.Over) ∧ (s.Over → s'.Over) := by
  cases a with
  | enter t =>
    obtain ⟨-, rfl⟩ : s.place t = .outside ∧ s.enter t = s' := by simpa [Rundown.step] using hs
    rw [(State.enter_refused hr t).2]
    exact ⟨ho, hr, hc, id⟩
  | leave t => simp [Rundown.step, ho t] at hs
  | signal t => simp [Rundown.step, ho t] at hs
  | publish =>
    obtain ⟨hopen, -⟩ : s.closer = .opened ∧ s.publish = s' := by simpa [Rundown.step] using hs
    simp [State.Waits, State.Over, hopen] at hc
  | wake =>
    obtain ⟨-, rfl⟩ := by simpa [Rundown.step] using hs
    exact ⟨ho, hr, .inr (.inl rfl), fun _ => .inl rfl⟩
  | timeout =>
    obtain ⟨⟨hwait, -⟩, rfl⟩ := by simpa [Rundown.step] using hs
    exact ⟨ho, hr, .inl (.inr rfl), fun h => by simp [State.Over, hwait] at h⟩
  | again =>
    obtain ⟨hwait, rfl⟩ := by simpa [Rundown.step] using hs
    exact ⟨ho, hr, .inl (.inl rfl), fun h => by simp [State.Over, hwait] at h⟩
  | finish =>
    obtain ⟨-, rfl⟩ := by simpa [Rundown.step] using hs
    exact ⟨ho, hr, .inr (.inr rfl), fun _ => .inr rfl⟩
  | reopen => exact absurd rfl ha

/-- The states a run reaches before the next open. -/
abbrev State.Before (s s' : State T) : Prop :=
  Machine.Reaches ⟨s, Rundown.step⟩ (fun _ a => a ≠ .reopen) s'

theorem State.AllOut.run (ho : s.AllOut) (hr : s.gate.rundown = true) (hc : s.Waits ∨ s.Over)
    (h : s.Before s') :
    s'.AllOut ∧ s'.gate.rundown = true ∧ (s'.Waits ∨ s'.Over) ∧ (s.Over → s'.Over) := by
  refine h.invariant (I := fun u => u.AllOut ∧ u.gate.rundown = true ∧ (u.Waits ∨ u.Over) ∧
    (s.Over → u.Over)) ⟨ho, hr, hc, id⟩ ?_
  intro u a u' _ ⟨ho, hr, hc, hover⟩ ha hs
  obtain ⟨ho', hr', hc', hover'⟩ := ho.step hr hc ha hs
  exact ⟨ho', hr', hc', hover' ∘ hover⟩

theorem State.Before.reachable (h : s.Before s') (hs : (machine T).Reachable s) :
    (machine T).Reachable s' :=
  hs.trans h fun _ _ _ => trivial

/-- What a close that finds the event set does next: no wait of it times out. -/
def State.WaitEnds (s : State T) : Prop :=
  step s .timeout = none ∧
  ((s.closer = .waiting ∧ step s .wake = some { s with closer := .drained }) ∨
    (s.closer = .timedOut ∧ step s .again = some { s with closer := .waiting } ∧
      step { s with closer := .waiting } .wake = some { s with closer := .drained }))

theorem State.Waits.ends (hw : s.Waits) (he : s.gate.dataPathIdle = true) : s.WaitEnds := by
  obtain hc | hc := hw
  · exact ⟨by simp [Rundown.step, he], .inl ⟨hc, by simp [Rundown.step, hc, he]⟩⟩
  · exact ⟨by simp [Rundown.step, hc], .inr ⟨hc, by simp [Rundown.step, hc], by simp [Rundown.step, he]⟩⟩

/-- When the wait is over nobody is at the gate and nobody gets in before the next
open; the event is set at most once for a close; and a close that waits while
everyone is out leaves its wait with its next step there. -/
theorem dataPath_rundown (h : (machine T).Reachable s) :
    (s.Over → ∀ s', s.Before s' →
      s'.Over ∧ s'.AllOut ∧ ∀ t, (enterDataPath s'.gate).1 = false ∧ s'.enter t = s') ∧
    s.signals ≤ 1 ∧
    (s.Waits → s.AllOut → ∀ s', s.Before s' →
      s'.Over ∨ s'.AllOut ∧ s'.Waits ∧ s'.WaitEnds) := by
  have hsound := Reachable.sound h
  refine ⟨?_, hsound.signals_le_one, ?_⟩
  · intro ho s' hb
    obtain ⟨hr, hout⟩ := hsound.allOut ho
    obtain ⟨hout', hr', -, hover⟩ := hout.run hr (.inr ho) hb
    exact ⟨hover ho, hout', State.enter_refused hr'⟩
  · intro hw hout s' hb
    obtain ⟨hr, -⟩ := hsound.idle hw hout
    obtain ⟨hout', -, hc', -⟩ := hout.run hr (.inl hw) hb
    obtain hw' | ho' := hc'
    · have hidle := (Reachable.sound (hb.reachable h)).idle hw' hout'
      exact .inr ⟨hout', hw', hw'.ends hidle.2⟩
    · exact .inl ho'

/-- Two threads inside when the close begins, the first wait timing out between
the last decrement and its signal, and a third thread refused. -/
def racingClose : List (Act ℕ) :=
  [.enter 0, .enter 1, .publish, .leave 0, .enter 2, .leave 1, .timeout, .signal 1, .again, .wake]

theorem dataPath_rundown_racingClose :
    let s := (machine ℕ).after (fun _ _ => True) racingClose
    s.closer = .drained ∧ s.AllOut ∧ (enterDataPath s.gate).1 = false ∧ s.signals ≤ 1 := by
  intro s
  have hc : s.closer = .drained := by decide
  have h := dataPath_rundown ((machine ℕ).reaches_after (fun _ _ => True) racingClose)
  obtain ⟨-, hout, hrefused⟩ := h.1 (.inl hc) s .init
  exact ⟨hc, hout, (hrefused 0).1, h.2.1⟩

end Invariant

end Photonic.Stream.Rundown
