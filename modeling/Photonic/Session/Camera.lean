import Photonic.Session.Enable
import Photonic.Session.Work

namespace Photonic

namespace Ctl

/-- A stop, or the shutdown of a cancel, that returns with this step. -/
def stopReturns : Ctl → Bool
  | .stop pc => pc = .drainReads
  | .shutdown _ pc => pc = .drainReads
  | _ => false

/-- Points inside `PhotonicCaptureStart`. -/
def inStart : Ctl → Bool
  | .start _ _ => true
  | .listen r _ =>
    match r with
    | .start _ => true
    | .work | .trigger => false
  | .release r _ =>
    match r with
    | .startRetry _ | .startFail => true
    | .shutdown _ | .settled => false
  | _ => false

end Ctl

namespace Device

/-- The executor's next step writes ISO_EN = 1. -/
def writesIsoEnable (s : Device) : Bool :=
  match s.ctl with
  | .start eb .enable => !s.ses.oneShot && !(eb && !s.eng.cap.listening)
  | .work .enable => s.ses.enableWanted && s.eng.cap.listening && !s.ses.removed
  | _ => false

/-- Any step but the call of a start. -/
def NoStart (_ : Device) : Act → Prop
  | .api (.start _) => False
  | _ => True

/-- Nothing is left that would enable the camera. -/
structure Off (s : Device) : Prop where
  wanted : s.ses.enableWanted = false
  notStarting : s.ctl.inStart = false

theorem Off.writes {s : Device} (h : s.Off) : s.writesIsoEnable = false := by
  obtain ⟨hw, hn⟩ := h
  unfold writesIsoEnable
  split
  · next heq =>
    rw [heq] at hn
    cases hn
  · rw [hw]
    rfl
  · rfl

theorem Off.moves {s s' : Device} {o : Answer} (h : s.Off) (hx : Moves s o s.ctl s') : s'.Off := by
  obtain ⟨hw, hn⟩ := h
  generalize s.ctl = c at hx hn
  cases hx with
  | shutdownDisable => exact ⟨rfl, rfl⟩
  | workEnabled => exact ⟨rfl, rfl⟩
  | quiesceDrain =>
    refine ⟨hw, ?_⟩
    simp only [setCap_ctl]
    split <;> rfl
  | quiesceStop | releaseStop => exact ⟨by simpa using hw, hn⟩
  | @releaseFree r res => exact ⟨(s.freeOne_sameEnable o res).wanted.trans hw, hn⟩
  | @quiesceSettled r _ | @quiesceReturns r => cases r <;> exact ⟨hw, rfl⟩
  | @releaseHeld r _ | @releaseReturns r => cases r <;> first | exact ⟨hw, rfl⟩ | cases hn
  | @shutdownReturns r => cases r <;> exact ⟨hw, rfl⟩
  | @listenNothing r _ _ _ | @listenTimeout r _ | @listenFailed r _ | @listenSet r =>
    cases r <;> first | exact ⟨hw, rfl⟩ | cases hn
  | listenCheck | listenSignalled | listenRecheck | listenSubmit => exact ⟨hw, hn⟩
  | releaseListening | releaseStopped | releaseClearListening | releaseNothing | releaseGuarded
  | releaseQuarantined | releaseSkip | releaseScanned | releaseDelivered => exact ⟨hw, hn⟩
  | startNotConfigured hpc => rcases hpc with rfl | rfl <;> cases hn
  | startRefused | startRunning | startRetry | startFresh | startQuarantined | startRetried
  | startConfigured | startChunks | startAllocated | startNotAllocated | startChannelSet
  | startChannelNotSet | startClearFirst | startClearCancel | startUndrain | startPump | startPumped
  | startOneShot | startDeferred | startEnabled | startNotEnabled | startPublish => cases hn
  | _ => exact ⟨hw, rfl⟩

theorem Off.steps {s s' : Device} {a : Act} (h : s.Off) (ha : s.NoStart a) (hs : Steps s a s') :
    s'.Off := by
  cases hs with
  | ctl hx => exact h.moves hx
  | start => exact ha.elim
  | data | notifyCancel | lateListen | lateGrant | destroyNone | destroyLeak | destroy | setState
  | setOneShot =>
    exact ⟨h.wanted, h.notStarting⟩
  | _ => exact ⟨h.wanted, rfl⟩

theorem Steps.moves {s s' : Device} {o : Answer} (hs : Steps s (.ctl o) s') : Moves s o s.ctl s' := by
  cases hs with
  | data ha => cases ha
  | ctl hx => exact hx

theorem silent_of_stopReturns {s s' : Device} {o : Answer} (h : Disabled s) (hm : Moded s)
    (hc : s.ctl.stopReturns = true) (hs : s.step (.ctl o) = some s') :
    s'.ses.Silent ∧ s'.ctl.inStart = false := by
  have hd := h.drained
  have hoff := h.off
  have hmode := hm.mode
  have hx := (Steps.of_step hs).moves
  generalize s.ctl = c at hx hc hd hoff hmode
  cases hx with
  | stopReturns => exact ⟨hd (hmode true rfl) rfl, rfl⟩
  | @shutdownReturns r =>
    refine ⟨hoff rfl, ?_⟩
    cases r <;> rfl
  | _ => cases hc

/-- In a session that expects buffers ISO_EN = 1 is written only while the engine listens,
and in a one-shot session never. As a stop returns neither the enable nor its deferral is
on record, and ISO_EN = 1 is not written again before the next start is called. -/
theorem enable_ordered {s : Device} (h : machine.Reachable s) :
    (s.writesIsoEnable = true → s.ctl ≠ .start false .enable → s.eng.cap.listening = true) ∧
      (s.writesIsoEnable = true → s.ses.oneShot = false) ∧
      ∀ o s', s.ctl.stopReturns = true → machine.step s (.ctl o) = some s' →
        s'.ses.Silent ∧ ∀ t, Machine.Reaches ⟨s', step⟩ NoStart t → t.writesIsoEnable = false := by
  have hd : Disabled s := .of_reaches h
  refine ⟨fun hw hne => ?_, fun hw => ?_, fun o s' hc hs => ?_⟩
  · unfold writesIsoEnable at hw
    split at hw
    · next eb heq =>
      cases eb with
      | true =>
        have hw : s.ses.oneShot = false ∧ s.eng.cap.listening = true := by simpa using hw
        exact hw.2
      | false => exact absurd heq hne
    · simp_all
    · cases hw
  · unfold writesIsoEnable at hw
    split at hw
    · simp_all
    · apply hd.continuous
      simp_all
    · cases hw
  · obtain ⟨hsilent, hn⟩ := silent_of_stopReturns hd (.of_reaches h) hc hs
    refine ⟨hsilent, fun t ht => Off.writes ?_⟩
    refine ht.invariant (I := Off) ⟨hsilent.1, hn⟩ ?_
    intro u a u' _ hi ha hs
    exact hi.steps ha (.of_step hs)

def enableRun : List Act :=
  startRun ++ [Act.runs (.attachAtBus 0), .runs (.attachComplete 0 statusSuccess 7),
    .runs (.attachLive true)] ++ List.replicate 6 Act.go

theorem enable_ordered_enableRun :
    let s := machine.after (fun _ _ => True) enableRun
    s.writesIsoEnable = true ∧ s.eng.cap.listening = true := by
  have hw : (machine.after (fun _ _ => True) enableRun).writesIsoEnable = true := by decide
  have hctl : (machine.after (fun _ _ => True) enableRun).ctl ≠ .start false .enable := by decide
  exact ⟨hw, (enable_ordered (machine.reaches_after (fun _ _ => True) enableRun)).1 hw hctl⟩

end Device

/-- ISO_EN and ONE_SHOT as the driver's writes leave them. -/
structure Camera where
  isoEnable : Bool
  oneShot : Bool
  deriving DecidableEq, Repr

namespace Camera

/-- The register writes of `PhotonicCaptureTeardownDisableCamera`. -/
def disable (c : Camera) (s : Session) : Camera :=
  let c := if s.isoEnabled && !s.removed then { c with isoEnable := false } else c
  if s.oneShot && !s.removed then { c with oneShot := false } else c

/-- What a step of the device writes. `reached`: a write reported failed has reached the
camera all the same. -/
def after (c : Camera) (s : Device) (reached : Bool) : Device.Act → Camera
  | .ctl o =>
    match s.ctl with
    | .shutdown _ .disable => c.disable s.ses
    | _ => if s.writesIsoEnable && (o.ok || reached) then { c with isoEnable := true } else c
  | _ => c

/-- The camera neither transmits nor waits for a trigger. -/
def Silent (c : Camera) : Prop := c.isoEnable = false ∧ c.oneShot = false

end Camera

/-- The device with its camera. -/
structure Rig where
  dev : Device
  camera : Camera

namespace Device

def emptyStartRun : List Act :=
  [Act.acquireMutex, .api (.start false)] ++ List.replicate 11 Act.go ++
    [Act.runs (.pump .control .elect), .runs (.pump .control .top), .runs (.pump .control (.claim 0)),
      .runs (.pump .control (.acquire 0 0)), .runs (.pump .control (.giveBack 0)),
      .runs (.pump .control .bottom)]

end Device

namespace Rig

/-- The engine of a freshly opened stream or prepared slot. What the work item still has
to run stays, with the bus and the removal. -/
def renew (s : Device) : Device :=
  { Device.create with
    eng := { Engine.create with work := s.eng.work, pool := s.eng.pool.filter (Pc.works · = true) }
    ses := { Device.create.ses with removed := s.ses.removed }
    bus := s.bus
    ctl := .held }

/-- A step of the device, the arm of a software trigger, or the creation of the next
engine once the last one is destroyed. -/
inductive Act
  | dev (a : Device.Act) (reached : Bool)
  | arm (reached : Bool)
  | create
  deriving DecidableEq, Repr

/-- The trigger is armed while the slot's session runs in single-frame mode. -/
def step (r : Rig) : Act → Option Rig
  | .dev a reached => (r.dev.step a).map fun d => ⟨d, r.camera.after r.dev reached a⟩
  | .arm reached =>
    if r.dev.ctl = .held ∧ r.dev.eng.cap.draining = false ∧ r.dev.ses.oneShot = true then
      some { r with camera := { r.camera with oneShot := r.camera.oneShot || reached } }
    else none
  | .create => if r.dev.ctl = .held ∧ r.dev.life ≠ .alive then some { r with dev := renew r.dev } else none

def machine : Machine Rig Act := ⟨⟨Device.create, ⟨false, false⟩⟩, step⟩

/-- The device is not removed, and no write of ISO_EN = 1 that is reported failed reaches the
camera. -/
def EnablesTruly (r : Rig) : Act → Prop
  | .dev (.api .surpriseRemoval) _ => False
  | .dev (.ctl o) reached => r.dev.writesIsoEnable = true → o.ok = false → reached = false
  | _ => True

end Rig

/-- The camera is silent wherever the enable is hushed, waits for a trigger in a one-shot
session only, and transmits only if the driver believes so. -/
structure Silenced (r : Rig) : Prop where
  moded : Moded r.dev
  disabled : Disabled r.dev
  alive : r.dev.Alive
  retired : r.dev.Retired
  present : r.dev.ses.removed = false
  hushed : r.dev.Hushed → r.camera.Silent
  armed : r.camera.oneShot = true → r.dev.ses.oneShot = true
  believed : r.camera.isoEnable = true → r.dev.ses.isoEnabled = true

namespace Rig

theorem disable_silent {c : Camera} {s : Session} (hp : s.removed = false)
    (hi : c.isoEnable = true → s.isoEnabled = true) (ho : c.oneShot = true → s.oneShot = true) :
    (c.disable s).Silent := by
  obtain ⟨iso, shot⟩ := c
  constructor
  · cases iso with
    | true => simp [Camera.disable, hp, show s.isoEnabled = true from hi rfl]; split <;> rfl
    | false => unfold Camera.disable; dsimp only; split <;> split <;> rfl
  · cases shot with
    | true => simp [Camera.disable, hp, show s.oneShot = true from ho rfl]
    | false => unfold Camera.disable; dsimp only; split <;> split <;> rfl

theorem disable_oneShot {c : Camera} {s : Session} (h : (c.disable s).oneShot = true) :
    c.oneShot = true := by
  unfold Camera.disable at h
  dsimp only at h
  split at h <;> split at h <;> first | exact h | cases h

theorem after_oneShot {c : Camera} {s : Device} {reached : Bool} {a : Device.Act}
    (h : (c.after s reached a).oneShot = true) : c.oneShot = true := by
  unfold Camera.after at h
  split at h
  · split at h
    · exact disable_oneShot h
    · split at h <;> exact h
  · exact h

theorem after_silent {c : Camera} {s : Device} {reached : Bool} {a : Device.Act} (h : c.Silent)
    (hw : ∀ o, a = .ctl o → s.writesIsoEnable = false) : (c.after s reached a).Silent := by
  refine ⟨?_, ?_⟩
  · unfold Camera.after
    split
    · next o =>
      split
      · unfold Camera.disable
        dsimp only
        split <;> split <;> first | rfl | exact h.1
      · rw [hw o rfl]
        exact h.1
    · exact h.1
  · cases hs : (c.after s reached a).oneShot with
    | false => rfl
    | true => exact (h.2.symm.trans (after_oneShot hs)).symm

end Rig

namespace Device

theorem Moves.sameMode {s s' : Device} {o : Answer} {c : Ctl} (hx : Moves s o c s') :
    s'.ses.oneShot = s.ses.oneShot ∧ s'.ses.removed = s.ses.removed := by
  cases hx with
  | quiesceStop | releaseStop => simp
  | @releaseFree r res =>
    unfold freeOne
    simp only [goto_ses]
    split
    · cases res <;> exact ⟨rfl, rfl⟩
    · exact ⟨rfl, rfl⟩
  | @startAllocated eb res => cases res <;> exact ⟨rfl, rfl⟩
  | _ => exact ⟨rfl, rfl⟩

theorem Moves.believes {s s' : Device} {o : Answer} {c : Ctl} (hx : Moves s o c s')
    (hb : s.ses.isoEnabled = true) : (∃ r, c = .shutdown r .disable) ∨ s'.ses.isoEnabled = true := by
  cases hx with
  | @shutdownDisable r => exact .inl ⟨r, rfl⟩
  | quiesceStop | releaseStop => exact .inr (by simpa using hb)
  | @releaseFree r res =>
    refine .inr ?_
    unfold freeOne
    simp only [goto_ses]
    split
    · cases res <;> exact hb
    · exact hb
  | @startAllocated eb res => cases res <;> exact .inr hb
  | startEnabled | workEnabled => exact .inr rfl
  | _ => exact .inr hb

/-- It begins with a write of ISO_EN = 1 that is reported successful. -/
theorem believes_of_writes {s s' : Device} {o : Answer} (hw : s.writesIsoEnable = true)
    (ho : o.ok = true) (h : s.step (.ctl o) = some s') : s'.ses.isoEnabled = true := by
  replace h : s.ctlStep o = some s' := h
  unfold writesIsoEnable at hw
  split at hw
  · next eb hc =>
    obtain ⟨hshot, hdefer⟩ := (Bool.and_eq_true _ _).mp hw
    rw [Bool.not_eq_true'] at hshot hdefer
    simp only [ctlStep, hc, startStep, hshot, hdefer, ho, Bool.false_eq_true, if_false, if_true] at h
    cases h
    rfl
  · next hc =>
    simp only [ctlStep, hc, workStep, hw, ho, Bool.and_self, if_true] at h
    cases h
    rfl
  · cases hw

theorem Moves.not_hushed {s s' : Device} {o : Answer} (hm : Moded s) (hd : Disabled s)
    (hw : s.writesIsoEnable = true) (hx : Moves s o s.ctl s') : ¬s'.Hushed := by
  have hmode := hm.mode
  have hsilent := hd.silent
  unfold writesIsoEnable at hw
  unfold Hushed at hsilent ⊢
  generalize s.ctl = c at hx hw hmode hsilent
  cases hx with
  | startOneShot | startDeferred | startEnabled | startNotEnabled =>
    rintro (hs | ⟨hs, -⟩)
    · cases hs
    · cases (hmode false rfl).symm.trans hs
  | workEnabled he | workNotEnabled =>
    rintro (hs | ⟨hs, -⟩)
    · cases hs
    · have := (hsilent (.inr ⟨hs, rfl⟩)).1
      simp_all
  | startNotConfigured hpc => rcases hpc with rfl | rfl <;> cases hw
  | _ => cases hw

end Device

namespace Rig

theorem dev_believed {r : Rig} {d : Device} {a : Device.Act} {reached : Bool} (h : Silenced r)
    (hk : r.EnablesTruly (.dev a reached)) (hs : r.dev.step a = some d)
    (hiso : (r.camera.after r.dev reached a).isoEnable = true) : d.ses.isoEnabled = true := by
  have hkeep := h.believed
  have hsteps := Device.Steps.of_step hs
  cases a with
  | ctl o =>
    by_cases hc : ∃ k, r.dev.ctl = .shutdown k .disable
    · obtain ⟨k, hc⟩ := hc
      have hsilent := disable_silent h.present hkeep h.armed
      simp only [Camera.after, hc, hsilent.1] at hiso
      cases hiso
    · simp only [Camera.after] at hiso
      split at hiso
      · next k hk' => exact absurd ⟨k, hk'⟩ hc
      · split at hiso
        · next hw =>
          -- the write reached the camera, so it was reported successful
          obtain ⟨hw, hor⟩ := (Bool.and_eq_true _ _).mp hw
          refine Device.believes_of_writes hw ?_ hs
          by_contra hno
          have hreached := hk hw (Bool.eq_false_iff.mpr hno)
          rw [Bool.eq_false_iff.mpr hno, hreached] at hor
          cases hor
        · exact (hsteps.moves.believes (hkeep hiso)).resolve_left hc
  | _ =>
    replace hkeep := hkeep hiso
    cases hsteps <;> exact hkeep

theorem dev_silenced {r : Rig} {d : Device} {a : Device.Act} {reached : Bool} (h : Silenced r)
    (hk : r.EnablesTruly (.dev a reached)) (hstep : r.dev.step a = some d) :
    Silenced ⟨d, r.camera.after r.dev reached a⟩ := by
  have hbelieved := dev_believed h hk hstep
  have hs := Device.Steps.of_step hstep
  obtain ⟨hm, hd, ha, hset, hp, hhush, harm, hbel⟩ := h
  have hpresent : d.ses.removed = false := by
    cases hs with
    | surpriseRemoval => exact hk.elim
    | ctl hx => exact hx.sameMode.2.trans hp
    | _ => exact hp
  refine ⟨hm.steps hs, hd.steps hm hs, ha.steps hs, hset.steps ha hs, hpresent, fun hh => ?_,
    fun ho => ?_, hbelieved⟩
  -- either the camera was silent before, or this is the disabling write
  · rcases hs.hushed hm hh with hr | ⟨o, k, rfl, hc⟩
    · refine after_silent (hhush hr) ?_
      rintro o rfl
      by_contra hw
      exact hs.moves.not_hushed hm hd (by simpa using hw) hh
    · simp only [Camera.after, hc]
      exact disable_silent hp hbel harm
  -- the camera waits for a trigger in a one-shot session only
  · replace ho := after_oneShot ho
    cases hs with
    | ctl hx => exact hx.sameMode.1.trans (harm ho)
    | @setOneShot b hc hb =>
      rcases hb with hdr | rfl
      · -- a settled engine has a silent camera
        cases (hhush (.inr ⟨hdr, by rw [hc]; rfl⟩)).2.symm.trans ho
      · exact harm ho
    | _ => exact harm ho

theorem silenced_of_reaches {r : Rig} (h : machine.Reaches EnablesTruly r) : Silenced r := by
  refine h.invariant (I := Silenced) ?_ ?_
  · have hr : Device.machine.Reachable Device.create := .init
    exact ⟨.of_reaches hr, .of_reaches hr, .of_reaches hr, fun _ => rfl, rfl, fun _ => ⟨rfl, rfl⟩, nofun,
      nofun⟩
  · intro r a r' _ hi hk hs
    cases a with
    | dev a reached =>
      obtain ⟨d, hd, rfl⟩ := Option.map_eq_some_iff.mp hs
      exact dev_silenced hi hk hd
    | arm reached =>
      simp only [machine, step] at hs
      split at hs
      · next hc =>
        cases hs
        obtain ⟨hctl, hd, ho⟩ := hc
        refine ⟨hi.moded, hi.disabled, hi.alive, hi.retired, hi.present, fun hh => ?_, fun _ => ho,
          hi.believed⟩
        -- a running engine between two calls is not hushed
        rcases hh with hh | ⟨hh, -⟩
        · rw [show r.dev.ctl = .held from hctl] at hh
          cases hh
        · cases hd.symm.trans hh
      · cases hs
    | create =>
      simp only [machine, step] at hs
      split at hs
      · next hc =>
        cases hs
        have hsilent : r.camera.Silent :=
          hi.hushed (.inr ⟨hi.retired hc.2, by rw [show r.dev.ctl = .held from hc.1]; rfl⟩)
        exact ⟨⟨nofun, fun _ _ => rfl⟩, ⟨nofun, fun _ _ => ⟨rfl, rfl⟩, nofun⟩, nofun, fun _ => rfl,
          hi.present, fun _ => hsilent, fun ho => absurd (hsilent.2.symm.trans ho) (by decide),
          fun hiso => absurd (hsilent.1.symm.trans hiso) (by decide)⟩
      · cases hs

/-- The step is not a removal. -/
def Present (_ : Rig) : Act → Prop
  | .dev (.api .surpriseRemoval) _ => False
  | _ => True

instance (r : Rig) (a : Act) : Decidable (r.Present a) :=
  match a with
  | .dev (.api .surpriseRemoval) _ => .isFalse id
  | .dev (.api (.start _)) _ | .dev (.api .stop) _ | .dev (.api .ensureListen) _
  | .dev (.api .destroy) _ | .dev (.api (.setState _)) _ | .dev (.api (.setOneShot _)) _
  | .dev (.run _ _) _ | .dev (.callback _ _) _ | .dev .startWork _ | .dev .callPump _
  | .dev .notifyCancel _ | .dev (.lateListen _) _ | .dev (.lateGrant _ _) _
  | .dev .acquireMutex _ | .dev .workMutex _ | .dev (.ctl _) _ | .dev .releaseMutex _ | .arm _
  | .create => .isTrue trivial

instance (r : Rig) (a : Act) : Decidable (r.EnablesTruly a) :=
  match a with
  | .dev (.api .surpriseRemoval) _ => .isFalse id
  | .dev (.ctl _) _ => inferInstanceAs (Decidable (_ = true → _ = false → _ = false))
  | .dev (.api (.start _)) _ | .dev (.api .stop) _ | .dev (.api .ensureListen) _
  | .dev (.api .destroy) _ | .dev (.api (.setState _)) _ | .dev (.api (.setOneShot _)) _
  | .dev (.run _ _) _ | .dev (.callback _ _) _ | .dev .startWork _ | .dev .callPump _
  | .dev .notifyCancel _ | .dev (.lateListen _) _ | .dev (.lateGrant _ _) _
  | .dev .acquireMutex _ | .dev .workMutex _ | .dev .releaseMutex _ | .arm _ | .create => .isTrue trivial

/-- As a stop returns, and wherever a request finds the engine settled, the camera neither
transmits nor waits for a trigger. It transmits only while the driver has that on record. -/
theorem camera_silent {r : Rig} (h : machine.Reaches EnablesTruly r) :
    (∀ o reached r', r.dev.ctl.stopReturns = true → machine.step r (.dev (.ctl o) reached) = some r' →
      r'.camera.Silent) ∧
      (r.dev.ctl = .held → r.dev.eng.cap.draining = true → r.camera.Silent) ∧
      (r.camera.isoEnable = true → r.dev.ses.isoEnabled = true) := by
  have hi := silenced_of_reaches h
  refine ⟨fun o reached r' hc hs => ?_, fun hc hd => hi.hushed (.inr ⟨hd, by rw [hc]; rfl⟩),
    hi.believed⟩
  obtain ⟨d, hd, rfl⟩ := Option.map_eq_some_iff.mp hs
  have hmode := hi.moded.mode
  refine after_silent (hi.hushed ?_) fun o' _ => ?_
  -- a stop and a shutdown both return from the drain of the reads
  · unfold Device.Hushed
    revert hc hmode
    generalize r.dev.ctl = c
    intro hc hmode
    cases c with
    | stop pc =>
      obtain rfl : pc = .drainReads := by simpa [Ctl.stopReturns] using hc
      exact .inr ⟨hmode true rfl, rfl⟩
    | shutdown k pc =>
      obtain rfl : pc = .drainReads := by simpa [Ctl.stopReturns] using hc
      exact .inl rfl
    | _ => cases hc
  · unfold Device.writesIsoEnable
    split
    · next heq =>
      rw [heq] at hc
      cases hc
    · next heq =>
      rw [heq] at hc
      cases hc
    · rfl

/-- A transmit-only start whose enabling write has the outcome given, up to the return of
the stop behind it. -/
def enableStopRun (ok reached : Bool) : List Act :=
  (Device.emptyStartRun ++ [Device.Act.go, .go]).map (.dev · false) ++
    [Act.dev (.ctl ⟨.completed statusSuccess, 1, ok, true, 8, false⟩) reached] ++
    (if ok then [Act.dev Device.Act.go false, .dev (.api .stop) false] else []) ++
    List.replicate 24 (Act.dev Device.Act.go false)

theorem camera_silent_enableStopRun :
    ∃ r', machine.step (machine.after EnablesTruly (enableStopRun true true)) (.dev Device.Act.go false) =
      some r' ∧ r'.camera.Silent := by
  have hc : (machine.after EnablesTruly (enableStopRun true true)).dev.ctl.stopReturns = true := by decide
  have hs : (machine.step (machine.after EnablesTruly (enableStopRun true true))
      (.dev Device.Act.go false)).isSome = true := by decide
  obtain ⟨r', hs⟩ := Option.isSome_iff_exists.mp hs
  have hreach := machine.reaches_after EnablesTruly (enableStopRun true true)
  exact ⟨r', hs, (camera_silent hreach).1 _ _ r' hc hs⟩

/-- The enabling write is reported failed but has reached the camera: the stop of the
failed start returns, and the camera transmits. -/
theorem camera_transmits : ¬∀ r r' o reached, machine.Reaches Present r →
    r.dev.ctl.stopReturns = true → machine.step r (.dev (.ctl o) reached) = some r' →
    r'.camera.Silent := by
  intro h
  have hc : (machine.after Present (enableStopRun false true)).dev.ctl.stopReturns = true := by decide
  have hs : (machine.step (machine.after Present (enableStopRun false true)) (.dev Device.Act.go false)).isSome =
      true := by decide
  obtain ⟨r', hs⟩ := Option.isSome_iff_exists.mp hs
  have hsilent := h _ r' _ _ (machine.reaches_after Present (enableStopRun false true)) hc hs
  have hcam : ((machine.step (machine.after Present (enableStopRun false true)) (.dev Device.Act.go false)).map
      fun r => r.camera.isoEnable) = some true := by decide
  rw [hs] at hcam
  cases hsilent.1.symm.trans (Option.some.inj hcam)

end Rig
end Photonic
