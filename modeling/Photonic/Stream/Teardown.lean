import Photonic.Session.Halt
import Photonic.Session.Quarantine
import Photonic.Stream.Custody

namespace Photonic

/-- The executor is on its way to the drain of the parked reads. -/
def Ctl.tearing : Ctl → Bool
  | .stop _ | .shutdown _ _ => true
  | .quiesce r _ =>
    match r with
    | .shutdown _ => true
    | .work => false
  | .release r _ =>
    match r with
    | .shutdown _ | .settled => true
    | _ => false
  | _ => false

namespace Device
variable {s s' : Device} {a : Act}

theorem Steps.life_eq (h : Steps s a s') (ha : a ≠ .api .destroy) : s'.life = s.life := by
  cases h with
  | ctl hm =>
    generalize s.ctl = c at hm
    cases hm with
    | quiesceStop | releaseStop | releaseFree | startAllocated => simp
    | _ => rfl
  | destroyNone | destroyLeak | destroy => exact absurd rfl ha
  | _ => rfl

theorem Steps.inStart_eq_false (h : Steps s a s') (ha : ∀ eb, a ≠ .api (.start eb))
    (hn : s.ctl.inStart = false) : s'.ctl.inStart = false := by
  cases h with
  | ctl hm =>
    generalize s.ctl = c at hm hn
    cases hm with
    | quiesceDrain =>
      dsimp only [setCap_ctl]
      split <;> rfl
    | @quiesceSettled r | @quiesceReturns r => cases r <;> rfl
    | @releaseHeld r | @releaseReturns r => cases r <;> first | rfl | cases hn
    | @shutdownReturns r => cases r <;> rfl
    | @listenNothing r _ _ _ | @listenTimeout r _ | @listenFailed r _ | @listenSet r =>
      cases r <;> first | rfl | cases hn
    | startNotConfigured hpc => cases hn
    | _ => first | exact hn | rfl | cases hn
  | start => exact absurd rfl (ha _)
  | data | notifyCancel | lateListen | lateGrant | destroyNone | destroyLeak | destroy | setState
  | setOneShot =>
    exact hn
  | _ => rfl

theorem Steps.stopped (h : Steps s a s') (ha : ∀ st, a ≠ .api (.setState st))
    (hn : s.ctl.inStart = false) (hst : s.ses.streamState = .stop) : s'.ses.streamState = .stop := by
  cases h with
  | ctl hm =>
    generalize s.ctl = c at hm hn
    cases hm with
    | quiesceStop | releaseStop => simpa using hst
    | @releaseFree r res => exact (s.freeOne_published _ res).1.trans hst
    | startPublish => cases hn
    | @startAllocated eb res => cases res <;> exact hst
    | shutdownPublish | stopPublish | stopNoEngine => rfl
    | _ => exact hst
  | setState => exact absurd rfl (ha _)
  | _ => exact hst

/-- KSSTATE_STOP or a surprise removal is published on the way to the drain, or by a stop that finds
no engine. -/
theorem Steps.blocks (h : Steps s a s') (hb : s'.ses.removed = true ∨ s'.ses.streamState = .stop) :
    (s.ses.removed = true ∨ s.ses.streamState = .stop) ∨ s'.ctl.tearing = true ∨
      (s.ctl = .stop .publish ∧ s.life ≠ .alive) := by
  cases h with
  | ctl hm =>
    generalize hctl : s.ctl = c at hm
    cases hm with
    | quiesceStop | releaseStop => exact .inl (by simpa using hb)
    | @releaseFree r res =>
      obtain ⟨hst, hrm⟩ := s.freeOne_published _ res
      rw [goto_ses, hst, hrm] at hb
      exact .inl hb
    | @startAllocated eb res => cases res <;> exact .inl hb
    | startPublish => exact .inl (hb.imp_right fun hx => by cases hx)
    | shutdownPublish | stopPublish => exact .inr (.inl rfl)
    | stopNoEngine hl => exact .inr (.inr ⟨rfl, hl⟩)
    | _ => exact .inl hb
  | surpriseRemoval => exact .inr (.inl rfl)
  | setState hc hst => exact .inl (hb.imp_right fun hx => absurd hx hst.1)
  | _ => exact .inl hb

theorem Steps.tearing (h : Steps s a s') (ht : s.ctl.tearing = true) :
    s'.ctl.tearing = true ∨ ((∃ o, a = .ctl o) ∧ Pin.drainsReads s.ctl = true) ∨
      (s.ctl = .stop .publish ∧ s.life ≠ .alive) := by
  cases h with
  | ctl hm =>
    generalize s.ctl = c at hm ht
    cases hm with
    | quiesceDrain =>
      left
      dsimp only [setCap_ctl]
      split <;> exact ht
    | @quiesceSettled r | @quiesceReturns r => cases r <;> first | exact .inl rfl | cases ht
    | @releaseHeld r | @releaseReturns r => cases r <;> first | exact .inl rfl | cases ht
    | shutdownReturns | stopReturns => exact .inr (.inl ⟨⟨_, rfl⟩, rfl⟩)
    | stopNoEngine hl => exact .inr (.inr ⟨rfl, hl⟩)
    | _ => first | exact .inl ht | exact .inl rfl | cases ht
  | data | notifyCancel | lateListen | lateGrant => exact .inl ht
  | acquireMutex hc | workMutex hc | start hc | stop hc | ensureListen hc | destroyNone hc | destroyLeak hc
  | destroy hc | surpriseRemoval hc | setState hc | setOneShot hc | releaseMutex hc =>
    rw [hc] at ht
    cases ht

/-- A holder of `InterfaceMutex` between two calls keeps it. -/
theorem Steps.held (h : Steps s a s') (ha : ∀ x, a ≠ .api x) (hr : a ≠ .releaseMutex)
    (hc : s.ctl = .held) : s'.ctl = .held := by
  cases h with
  | ctl hm =>
    rw [hc] at hm
    cases hm
  | acquireMutex hf | workMutex hf =>
    rw [hc] at hf
    cases hf
  | releaseMutex => exact absurd rfl hr
  | data | notifyCancel | lateListen | lateGrant => exact hc
  | _ => exact absurd rfl (ha _)

theorem Steps.publishes (h : Steps s a s') (hc : s.ctl = .stop .publish) :
    s'.ses.streamState = .stop ∨ s'.ctl = .stop .publish := by
  cases h with
  | ctl hm =>
    rw [hc] at hm
    cases hm <;> exact .inl rfl
  | data | notifyCancel | lateListen | lateGrant => exact .inr hc
  | _ => simp_all

/-- Without its engine the executor has nothing to do. -/
theorem Steps.retired (h : Steps s a s') (ha : ∀ x, a ≠ .api x) (hl : s.life ≠ .alive)
    (hc : s.ctl = .free ∨ s.ctl = .held ∨ s.ctl = .work .enter) :
    s'.ctl = .free ∨ s'.ctl = .held ∨ s'.ctl = .work .enter := by
  cases h with
  | ctl hm =>
    rcases hc with hc | hc | hc <;> rw [hc] at hm
    · cases hm
    · cases hm
    · cases hm with
      | workNoEngine => exact .inl rfl
      | workEnter h => exact absurd h hl
  | data | notifyCancel | lateListen | lateGrant => exact hc
  | acquireMutex => exact .inr (.inl rfl)
  | workMutex => exact .inr (.inr rfl)
  | releaseMutex => exact .inl rfl
  | _ => exact absurd rfl (ha _)

end Device

namespace Pin

/-- The steps of the device that meet `Device.NoLateClaim`, and all others. -/
def NoLateClaim (s : Pin) : Act → Prop
  | .dev a => s.dev.NoLateClaim a
  | _ => True

instance (s : Pin) (a : Act) : Decidable (s.NoLateClaim a) :=
  match a with
  | .dev a => inferInstanceAs (Decidable (s.dev.NoLateClaim a))
  | .thread _ | .skip | .receive _ _ _ | .cancelPacket _ | .beginFlush | .setRun | .drain | .close | .wake
  | .closeStop | .closeDestroy | .closeReturn => .isTrue trivial

inductive Does (s : Pin) (a : Act) (s' : Pin) : Prop
  | nothing (h : s'.dev = s.dev)
  | step (x : Device.Act) (n : BitVec 32)
      (h : s.dev.feed Reads.callbacks { s.reads with frameNumber := n } x = some (s'.dev, s'.reads))
      (hc : s.NoLateClaim a → s.dev.NoLateClaim x)

theorem Steps.does {s s' : Pin} {a : Act} (h : Steps s a s') : Does s a s' := by
  cases h with
  | dev ha hf => exact .step _ s.reads.frameNumber hf id
  | thread ht hx =>
    cases hx with
    | pump hl hf | notify hl hf => exact .step _ s.reads.frameNumber hf fun _ => trivial
    | _ => exact .nothing rfl
  | @setRun dev f n hc hn hf => exact .step _ n hf fun _ => trivial
  | closeStop hc hf | closeDestroy hc hf => exact .step _ s.reads.frameNumber hf fun _ => trivial
  | closeReturn hc he hf => exact .step _ s.reads.frameNumber hf fun _ => trivial
  | _ => exact .nothing rfl

theorem device_reaches {s : Pin} (h : machine.Reaches NoLateClaim s) :
    Device.machine.Reaches Device.NoLateClaim s.dev := by
  refine h.invariant (I := fun s => Device.machine.Reaches Device.NoLateClaim s.dev) .init ?_
  intro s a s' _ hi hp hs
  cases (Steps.of_step hs).does with
  | nothing hd => exact hd ▸ hi
  | step x n hx hc => exact hi.step (hc hp) (Device.feed_step hx)

/-- How far the close is, with the gate, the engine and the executor. -/
structure Closing (s : Pin) : Prop where
  rundown : s.gate.rundown = true ↔ s.closer ≠ .opened
  alive : s.dev.life = .alive ↔ s.closer ≠ .destroyed ∧ s.closer ≠ .closed
  held : s.closer = .waiting ∨ s.closer = .idle ∨ s.closer = .destroyed → s.dev.ctl = .held
  notStarting : s.closer ≠ .opened → s.dev.ctl.inStart = false
  stopped : s.closer = .stopping ∨ s.closer = .destroyed ∨ s.closer = .closed →
    s.dev.ses.streamState = .stop ∨ s.dev.ctl = .stop .publish
  retired : s.closer = .closed → s.dev.ctl = .free ∨ s.dev.ctl = .held ∨ s.dev.ctl = .work .enter

theorem Closing.device {s s' : Pin} {x : Device.Act} (h : Closing s)
    (hx : Device.Steps s.dev x s'.dev) (hg : s'.gate.rundown = s.gate.rundown)
    (hc : s'.closer = s.closer) (ha : ∀ y, x = .api y → s.closer = .opened ∧ y ≠ .destroy)
    (hr : x = .releaseMutex → s.closer = .opened ∨ s.closer = .closed) : Closing s' := by
  have hnapi : s.closer ≠ .opened → ∀ y, x ≠ .api y := fun hn y hy => hn (ha y hy).1
  have hlife : s'.dev.life = s.dev.life := by
    apply hx.life_eq
    intro hy
    exact (ha _ hy).2 rfl
  constructor
  · rw [hg, hc]
    exact h.rundown
  · rw [hlife, hc]
    exact h.alive
  · intro hcl
    rw [hc] at hcl
    have hn : s.closer ≠ .opened := by rcases hcl with hcl | hcl | hcl <;> simp [hcl]
    refine hx.held (hnapi hn) ?_ (h.held hcl)
    intro hy
    rcases hr hy with hy | hy <;> simp [hy] at hcl
  · intro hcl
    rw [hc] at hcl
    exact hx.inStart_eq_false (fun eb => hnapi hcl _) (h.notStarting hcl)
  · intro hcl
    rw [hc] at hcl
    have hn : s.closer ≠ .opened := by rcases hcl with hcl | hcl | hcl <;> simp [hcl]
    rcases h.stopped hcl with hst | hst
    · exact .inl (hx.stopped (fun st => hnapi hn _) (h.notStarting hn) hst)
    · exact hx.publishes hst
  · intro hcl
    rw [hc] at hcl
    refine hx.retired (hnapi (by simp [hcl])) ?_ (h.retired hcl)
    intro hl
    exact (h.alive.mp hl).2 hcl

/-- A step of neither. -/
theorem Closing.keep {s s' : Pin} (h : Closing s) (hd : s'.dev = s.dev)
    (hg : s'.gate.rundown = s.gate.rundown) (hc : s'.closer = s.closer) : Closing s' := by
  constructor
  · rw [hg, hc]
    exact h.rundown
  all_goals rw [hd, hc]
  · exact h.alive
  · exact h.held
  · exact h.notStarting
  · exact h.stopped
  · exact h.retired

theorem Closing.runs {s s' : Pin} {t : Thread} (h : Closing s) (hx : Runs s t s') : Closing s' := by
  cases hx with
  | pump hl hf =>
    refine h.device (x := .callPump) (.of_step (Device.feed_step hf)) rfl rfl ?_ ?_
    · rintro _ ⟨⟩
    · rintro ⟨⟩
  | notify hl hf =>
    refine h.device (x := .notifyCancel) (.of_step (Device.feed_step hf)) rfl rfl ?_ ?_
    · rintro _ ⟨⟩
    · rintro ⟨⟩
  | entered hr hg | cancelEntered hr hg | left hg | leftLast hg | signal hg => exact h.keep rfl hg rfl
  | _ => exact h.keep rfl rfl rfl

theorem Closing.dev {s : Pin} {a : Device.Act} {dev : Device} {f : Reads} (h : Closing s)
    (ha : s.devAllowed a = true) (hf : s.dev.feed Reads.callbacks s.reads a = some (dev, f)) :
    Closing { s with dev := dev, reads := f } := by
  refine h.device (x := a) (.of_step (Device.feed_step hf)) rfl rfl ?_ ?_
  · rintro y rfl
    cases y with
    | stop | surpriseRemoval | setState =>
      refine ⟨by simpa [devAllowed] using ha, ?_⟩
      rintro ⟨⟩
    | start | ensureListen | destroy | setOneShot => cases ha
  · rintro rfl
    simpa [devAllowed] using ha

theorem Closing.steps {s s' : Pin} {a : Act} (h : Closing s) (hs : Steps s a s') : Closing s' := by
  cases hs with
  | dev ha hf => exact h.dev ha hf
  | @thread t ts _ ht hx => exact Closing.runs (s := { s with threads := ts }) (h.keep rfl rfl rfl) hx
  -- the run state is set under the control mutex, on an open pin only
  | setRun hc hn hf =>
    refine h.device (x := .api (.start true)) (.of_step (Device.feed_step hf)) rfl rfl ?_ ?_
    · rintro _ ⟨⟩
      refine ⟨hc, ?_⟩
      rintro ⟨⟩
    · rintro ⟨⟩
  -- the close holds the mutex from here to its return
  | close ho hc hg hw =>
    constructor
    · rcases hw with rfl | rfl <;> simp [hg]
    · rcases hw with rfl | rfl <;> simp [h.alive, ho]
    · exact fun _ => hc
    · intro _
      rw [hc]
      rfl
    · rcases hw with rfl | rfl <;> simp
    · rcases hw with rfl | rfl <;> simp
  | wake hc =>
    constructor
    · simp [h.rundown, hc]
    · simp [h.alive, hc]
    · exact fun _ => h.held (.inl hc)
    · exact fun _ => h.notStarting (by simp [hc])
    · simp
    · simp
  | closeStop hc hf =>
    have hx := Device.Steps.of_step (Device.feed_step hf)
    cases hx with
    | data hx => cases hx
    | stop hh =>
      constructor
      · simp [h.rundown, hc]
      · simp [h.alive, hc]
      · simp
      · exact fun _ => rfl
      · exact fun _ => .inr rfl
      · simp
  | @closeDestroy dev f hc hf =>
    have hx := Device.Steps.of_step (Device.feed_step hf)
    -- the stop before this step has left the stream stopped
    have hst : s.dev.ctl = .held → dev.ses = s.dev.ses → dev.ses.streamState = .stop := by
      intro hh hses
      rw [hses]
      rcases h.stopped (.inl hc) with hst | hst
      · exact hst
      · rw [hh] at hst
        cases hst
    cases hx with
    | data hx => cases hx
    | destroyNone hh hl => exact absurd (h.alive.mpr (by simp [hc])) hl
    | destroyLeak hh | destroy hh =>
      constructor
      · simp [h.rundown, hc]
      · simp
      · exact fun _ => hh
      · intro _
        change s.dev.ctl.inStart = false
        rw [hh]
        rfl
      · exact fun _ => .inl (hst hh rfl)
      · simp
  | closeReturn hc he hf =>
    have hx := Device.Steps.of_step (Device.feed_step hf)
    cases hx with
    | data hx => cases hx
    | releaseMutex hh =>
      constructor
      · simp [h.rundown, hc]
      · simp [h.alive, hc]
      · simp
      · exact fun _ => rfl
      · intro _
        rcases h.stopped (.inr (.inl hc)) with hst | hst
        · exact .inl hst
        · rw [hh] at hst
          cases hst
      · exact fun _ => .inl rfl
  | _ => exact h.keep rfl rfl rfl

theorem Closing.of_reaches {P : Pin → Act → Prop} {s : Pin} (h : machine.Reaches P s) : Closing s := by
  refine h.invariant (I := Closing) ?_ fun _ _ _ _ hi _ hs => hi.steps (.of_step hs)
  constructor <;> simp [machine, Stream.Rundown.Gate.fresh, Device.create]

/-- No read is parked on a stream that is stopped or removed, unless the executor or the close is on
its way to the drain. -/
def Emptied (s : Pin) : Prop :=
  s.dev.ses.removed = true ∨ s.streamState = .stop →
    s.reads.pendingReads = [] ∨ s.dev.ctl.tearing = true ∨ s.closer = .waiting ∨ s.closer = .idle

theorem fed_eq_nil {d d' : Device} {f f' : Reads} (h : Device.Feeds Reads.callbacks d d' f f')
    (hp : f.pendingReads = []) : f'.pendingReads = [] := by
  cases h with
  | acquires ha | finds ha =>
    change f.acquireBuffer.2.pendingReads = []
    unfold Reads.acquireBuffer
    rw [hp]
    exact hp
  | delivers => exact hp
  | silent => exact hp

theorem Closing.no_stop {s : Pin} (h : Closing s) :
    ¬(s.dev.ctl = .stop .publish ∧ s.dev.life ≠ .alive) := by
  rintro ⟨hc, hl⟩
  have hcl : s.closer = .destroyed ∨ s.closer = .closed := by
    by_contra hn
    push Not at hn
    exact hl (h.alive.mpr hn)
  rcases hcl with hcl | hcl
  · have := h.held (.inr (.inr hcl))
    rw [hc] at this
    cases this
  · rcases h.retired hcl with hr | hr | hr <;>
    · rw [hc] at hr
      cases hr

theorem streamState_stop {s : Pin} : s.streamState = .stop ↔
    s.gate.rundown = true ∨ s.dev.ses.streamState = .stop := by
  unfold streamState
  split <;> simp [*]

theorem Emptied.device {s s' : Pin} {x : Device.Act} (h : Emptied s) (hcl : Closing s)
    (hx : Device.Steps s.dev x s'.dev) (hg : s'.gate.rundown = s.gate.rundown)
    (hc : s'.closer = s.closer) (hp : s.reads.pendingReads = [] → s'.reads.pendingReads = [])
    (hd : ∀ o, x = .ctl o → drainsReads s.dev.ctl = true → s.reads.pendingReads = []) :
    Emptied s' := by
  intro hb
  rw [streamState_stop, hg] at hb
  by_cases ht : s'.dev.ctl.tearing = true
  · exact .inr (.inl ht)
  have hb : s.dev.ses.removed = true ∨ s.streamState = .stop := by
    rw [streamState_stop]
    have hblocks := hx.blocks
    have := hcl.no_stop
    tauto
  rw [hc]
  rcases h hb with he | he | he
  · exact .inl (hp he)
  · rcases hx.tearing he with hy | ⟨⟨o, rfl⟩, hy⟩ | hy
    · exact absurd hy ht
    · exact .inl (hp (hd o rfl hy))
    · exact absurd hy hcl.no_stop
  · exact .inr (.inr he)

/-- A step of neither that parks nothing. -/
theorem Emptied.keep {s s' : Pin} (h : Emptied s) (hd : s'.dev = s.dev)
    (hg : s'.gate.rundown = s.gate.rundown) (hc : s'.closer = s.closer)
    (hp : s.reads.pendingReads = [] → s'.reads.pendingReads = []) : Emptied s' := by
  intro hb
  rw [streamState_stop, hg, hd, ← streamState_stop] at hb
  rw [hd, hc]
  exact (h hb).imp_left hp

theorem Emptied.runs {s s' : Pin} {t : Thread} (h : Emptied s) (hcl : Closing s) (hx : Runs s t s') :
    Emptied s' := by
  cases hx with
  | pump hl hf =>
    refine h.device hcl (x := .callPump) (.of_step (Device.feed_step hf)) rfl rfl
      (fed_eq_nil (.of_feed hf)) ?_
    rintro _ ⟨⟩
  | notify hl hf =>
    refine h.device hcl (x := .notifyCancel) (.of_step (Device.feed_step hf)) rfl rfl
      (fed_eq_nil (.of_feed hf)) ?_
    rintro _ ⟨⟩
  | parked hr hs =>
    -- the handler has tested the states in the same hold of the lock
    rintro (hb | hb)
    · rw [show s.dev.ses.removed = true from hb] at hr
      cases hr
    · exact absurd hb hs
  | entered hr hg | cancelEntered hr hg | left hg | leftLast hg | signal hg => exact h.keep rfl hg rfl id
  | claimed | flush =>
    refine h.keep rfl rfl rfl ?_
    intro hp
    simp [hp]
  | _ => exact h.keep rfl rfl rfl id

theorem Emptied.steps {s s' : Pin} {a : Act} (h : Emptied s) (hcl : Closing s) (hs : Steps s a s') :
    Emptied s' := by
  cases hs with
  | @dev a dev f ha hf =>
    refine h.device hcl (x := a) (.of_step (Device.feed_step hf)) rfl rfl (fed_eq_nil (.of_feed hf)) ?_
    rintro o rfl hd
    -- the executor leaves the drain when it finds the queue empty
    simp only [devAllowed, hd, Bool.not_true, Bool.false_or, drainEnds, Bool.and_eq_true,
      decide_eq_true_eq] at ha
    exact ha.1
  | @thread t ts _ ht hx =>
    exact Emptied.runs (s := { s with threads := ts }) (h.keep rfl rfl rfl id) (hcl.keep rfl rfl rfl) hx
  | skip | drain =>
    refine h.keep rfl rfl rfl ?_
    intro hp
    simp [hp]
  | setRun hc hn hf =>
    refine h.device hcl (x := .api (.start true)) (.of_step (Device.feed_step hf)) rfl rfl ?_ ?_
    · exact fun hp => fed_eq_nil (.of_feed hf) hp
    · rintro _ ⟨⟩
  | close ho hc hg hw => exact fun _ => .inr (.inr hw)
  | wake hc => exact fun _ => .inr (.inr (.inr rfl))
  | closeStop hc hf =>
    intro _
    have hx := Device.Steps.of_step (Device.feed_step hf)
    cases hx with
    | data hx => cases hx
    | stop => exact .inr (.inl rfl)
  | @closeDestroy dev f hc hf =>
    intro _
    have hrd := hcl.rundown.mpr (by simp [hc])
    have hnil := fed_eq_nil (.of_feed hf)
    have hx := Device.Steps.of_step (Device.feed_step hf)
    have hh : s.dev.ctl = .held := by
      cases hx with
      | data hx => cases hx
      | destroyNone hh | destroyLeak hh | destroy hh => exact hh
    rcases h (.inr (streamState_stop.mpr (.inl hrd))) with he | he | he
    · exact .inl (hnil he)
    · rw [hh] at he
      cases he
    · simp [hc] at he
  | closeReturn hc he hf =>
    intro _
    simp only [drainEnds, Bool.and_eq_true, decide_eq_true_eq] at he
    exact .inl (fed_eq_nil (.of_feed hf) he.1)
  | _ => exact h.keep rfl rfl rfl id

theorem Emptied.of_reaches {P : Pin → Act → Prop} {s : Pin} (h : machine.Reaches P s) :
    Emptied s := by
  refine h.invariant (I := Emptied) (fun _ => .inl rfl) ?_
  intro s a s' hr hi _ hs
  exact hi.steps (.of_reaches hr) (.of_step hs)

theorem draining_of_blocked {P : Pin → Act → Prop} {s : Pin} (h : machine.Reaches P s)
    (hb : s.dev.ses.removed = true ∨ s.streamState = .stop) (hc : s.dev.ctl = .free) :
    s.dev.eng.cap.draining = true := by
  have hh := Halts.of_reaches (reachable h)
  have hcl := Closing.of_reaches h
  have hstopped : s.dev.ses.removed = true ∨ s.dev.ses.streamState = .stop := by
    rw [streamState_stop] at hb
    rcases hb with hb | hb | hb
    · exact .inl hb
    · have hn := hcl.rundown.mp hb
      cases hx : s.closer with
      | opened => exact absurd hx hn
      | waiting | idle | destroyed =>
        have := hcl.held (by simp [hx])
        rw [hc] at this
        cases this
      | stopping | closed =>
        rcases hcl.stopped (by simp [hx]) with hst | hst
        · exact .inr hst
        · rw [hc] at hst
          cases hst
    · exact .inr hb
  rcases hstopped with hb | hb
  · rcases hh.removed hb with hd | hd
    · exact hd
    · rw [hc] at hd
      cases hd
  · rcases hh.stopped hb with hd | hd | hd
    · exact hd
    · rw [hc] at hd
      cases hd
    · rw [hc] at hd
      cases hd

theorem pendingReads_of_blocked {P : Pin → Act → Prop} {s : Pin} (h : machine.Reaches P s)
    (hb : s.dev.ses.removed = true ∨ s.streamState = .stop) (hc : s.dev.ctl = .free) :
    s.reads.pendingReads = [] := by
  rcases Emptied.of_reaches h hb with he | he | he
  · exact he
  · rw [hc] at he
    cases he
  · have := (Closing.of_reaches h).held (he.imp_right .inl)
    rw [hc] at this
    cases this

theorem heldCount_of_draining {s : Pin} (h : machine.Reaches NoLateClaim s)
    (hd : s.dev.eng.cap.draining = true) (hc : s.dev.ctl = .free) (c : Cookie) :
    s.dev.eng.heldCount c = s.dev.eng.quarantinedCount c := by
  have hr := device_reaches h
  have hdr := Device.drained_of_reaches hr hd (by rw [hc]; rfl)
  have hnone : s.dev.eng.releasingCount c = 0 := by
    by_contra hne
    obtain ⟨r, i, hctl⟩ := releasing_of_pos (Called.of_reaches hr) hne
    rw [hc] at hctl
    cases hctl
  have he := Device.engine_reachable hr
  have hheld := hdr.vacant.held he c
  have hall := Engine.heldCount_eq he c
  omega

/-- In every run in which no frame callback takes the last attached descriptor after the quiesce's
last poll: while the stream is stopped or removed and nobody holds `InterfaceMutex`, no read is
parked, and a read that was handed in is completed, in a handler's hands, or quarantined with the
engine's memory. -/
theorem reads_returned {s : Pin} (h : machine.Reaches NoLateClaim s)
    (hb : s.dev.ses.removed = true ∨ s.streamState = .stop) (hc : s.dev.ctl = .free) (c : Cookie) :
    s.reads.pendingReads = [] ∧
      s.reads.received.count c =
        s.reads.completedCount c + handled s.threads c + s.dev.eng.quarantinedCount c ∧
      (s.dev.life = .freed → s.dev.eng.quarantinedCount c = 0) := by
  have hempty := pendingReads_of_blocked h hb hc
  refine ⟨hempty, ?_, fun hl => ?_⟩
  · have hbal := (Custody.of_reaches h).balance c
    have hall := Engine.heldCount_eq (Device.engine_reachable (reachable h)) c
    have hhold := heldCount_of_draining h (draining_of_blocked h hb hc) hc c
    rw [hempty, List.count_nil] at hbal
    omega
  · apply Finset.card_eq_zero.mpr
    apply Finset.filter_eq_empty_iff.mpr
    rintro d - ⟨hd, -⟩
    exact ((Quarantine.of_reaches (device_reaches h)).held d hd).2 hl

def closedRun : List Act :=
  readRun ++ parkRun 9 ++
    devRun ([.acquireMutex, .api .stop] ++ List.replicate 8 .go ++ [.runs (.beginDetach .control 0)] ++
      List.replicate 4 .go ++
      [.runs (.detachAtBus 0), .runs (.detachComplete 0 statusSuccess 7 0 statusCancelled),
        .runs (.detachDeliver 7 0 statusCancelled), .runs (.pump .completion .elect),
        .runs (.pump .handler .elect), .runs (.pump .completion .top),
        .runs (.pump .completion (.claim 0)), .runs (.pump .completion .bottom), .runs .irpDone,
        .runs .irpDoneTest, .runs .irpDoneSignal] ++ List.replicate 16 .go) ++
    [.drain, .thread (.drained 9)] ++ devRun [.go] ++ [.close, .closeStop] ++
    devRun (List.replicate 5 .go) ++ [.closeDestroy, .closeReturn]

theorem reads_returned_closedRun :
    let s := machine.after NoLateClaim closedRun
    s.dev.life = .freed ∧ s.reads.received.count 7 = 1 ∧ s.reads.received.count 9 = 1 ∧
      s.reads.received.count 9 =
        s.reads.completedCount 9 + handled s.threads 9 + s.dev.eng.quarantinedCount 9 := by
  refine ⟨by decide, by decide, by decide, ?_⟩
  exact (reads_returned (machine.reaches_after NoLateClaim closedRun) (by decide) (by decide) 9).2.1

end Pin
end Photonic
