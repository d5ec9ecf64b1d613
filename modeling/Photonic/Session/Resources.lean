import Photonic.Session.Mode
import Photonic.Session.Partition

namespace Photonic

def Ctl.fresh : Ctl → Resource → Bool
  | .start _ .configure, _ => true
  | .start _ .setupChunks, _ => true
  | .start _ (.allocate .channel), _ => true
  | .start _ .setIsochChannel, r => r ≠ .channel
  | .start _ (.allocate .bandwidth), r => r ≠ .channel
  | .start _ (.allocate .handle), r => r = .handle
  | _, _ => false

/-- A start has retried the release a previous stop left unfinished. -/
def Ctl.retried : Ctl → Bool
  | .start _ .retried => true
  | _ => false

/-- A flag says that something is recorded. -/
def Session.holds (s : Session) : Bool :=
  s.resourceAllocated || s.bandwidthAllocated || s.channelAllocated

theorem Session.holds_eq_false {s : Session} (h : s.holds = false) (r : Resource) :
    s.allocated r = false := by
  obtain ⟨⟨hh, hb⟩, hc⟩ : (s.resourceAllocated = false ∧ s.bandwidthAllocated = false) ∧
      s.channelAllocated = false := by simpa [holds] using h
  cases r
  · exact hc
  · exact hb
  · exact hh

namespace Session
section
variable (s : Session) (r r' : Resource) (b : Bool)

@[simp] theorem allocated_setAllocated :
    (s.setAllocated r b).allocated r' = if r' = r then b else s.allocated r' := by
  cases r <;> cases r' <;> rfl

@[simp] theorem setAllocated_channel : (s.setAllocated r b).channel = s.channel := by cases r <;> rfl
@[simp] theorem setAllocated_bandwidthHandle :
    (s.setAllocated r b).bandwidthHandle = s.bandwidthHandle := by cases r <;> rfl

end
end Session

namespace Device
section
variable (s : Device) (o : Answer) (r r' : Resource) (v : ℕ)

@[simp] theorem record_allocated :
    (s.record r v).ses.allocated r' = if r' = r then true else s.ses.allocated r' := by
  cases r <;> cases r' <;> rfl

@[simp] theorem record_value : (s.record r v).value r' = if r' = r then v else s.value r' := by
  cases r <;> cases r' <;> rfl

theorem grant_granted (b : Bus) :
    (b.grant r v).granted = Function.update b.granted r (v :: b.granted r) := by
  unfold Bus.grant
  dsimp only
  split <;> rfl

@[simp] theorem freeOne_value : (s.freeOne o r).value r' = s.value r' := by
  unfold freeOne
  split
  · cases r' <;> simp [value]
  · rfl

theorem freeOne_allocated : (s.freeOne o r).ses.allocated r' =
    if o.irb.submitted = true ∧ r' = r then false else s.ses.allocated r' := by
  unfold freeOne
  split
  · next ho => simp [ho]
  · next ho => simp [ho]

theorem freeOne_granted : (s.freeOne o r).bus.granted r' =
    if o.irb.submitted = true ∧ r' = r then (s.bus.granted r).erase (s.value r)
    else s.bus.granted r' := by
  have hflush : ∀ b : Bus, ∀ h, (b.flush h).granted = b.granted := fun _ _ => rfl
  unfold freeOne
  split
  · next ho =>
    by_cases hr : r' = r
    · subst hr
      split <;> simp [ho, Bus.free, hflush]
    · split <;> simp [ho, Bus.free, hflush, hr]
  · next ho => simp [ho]

@[simp] theorem isochStop_granted : (s.isochStop o).bus.granted = s.bus.granted := by
  unfold isochStop
  split <;> rfl

end

structure Recorded (s : Device) : Prop where
  granted : ∀ r, s.bus.granted r = if s.ses.allocated r then [s.value r] else []
  fresh : ∀ r, s.ctl.fresh r = true → s.ses.allocated r = false
  gone : s.life ≠ .alive → ∀ r, s.ses.allocated r = false

/-- A start goes on from its release, and a stream is destroyed, with every free request
submitted, and no allocation that was given up on is granted. -/
def ReleasesFirst (s : Device) : Act → Prop
  | .ctl _ => s.ctl.retried = true → s.eng.cap.hasQuarantinedFrames = false → s.ses.holds = false
  | .api .destroy => s.life = .alive → s.ses.holds = false
  | .lateGrant _ _ => False
  | _ => True

instance (s : Device) (a : Act) : Decidable (s.ReleasesFirst a) :=
  match a with
  | .ctl _ => inferInstanceAs (Decidable (_ = true → _ = false → _ = false))
  | .api .destroy => inferInstanceAs (Decidable (s.life = .alive → _ = false))
  | .lateGrant _ _ => .isFalse id
  | .run _ _ | .callback _ _ | .startWork | .callPump | .notifyCancel | .lateListen _ | .acquireMutex
  | .workMutex | .api (.start _) | .api .stop | .api .ensureListen | .api .surpriseRemoval
  | .api (.setState _) | .api (.setOneShot _) | .releaseMutex => .isTrue trivial

theorem Recorded.keep {s s' : Device} (h : Recorded s) (ha : ∀ r, s'.ses.allocated r = s.ses.allocated r)
    (hv : ∀ r, s'.value r = s.value r) (hg : s'.bus.granted = s.bus.granted)
    (hl : s'.life = s.life)
    (hf : ∀ r, s'.ctl.fresh r = true → s.ctl.fresh r = true ∨ s.ses.allocated r = false) :
    Recorded s' where
  granted r := by rw [hg, ha, hv, h.granted]
  fresh r hr := by
    rw [ha]
    exact (hf r hr).elim (h.fresh r) id
  gone hne r := by
    rw [ha]
    exact h.gone (hl ▸ hne) r

theorem Recorded.freeOne {s : Device} {o : Answer} {res : Resource} {c : Ctl} (h : Recorded s)
    (ha : s.ses.allocated res = true) (hl : s.life = .alive) (hc : ∀ r, c.fresh r = false) :
    Recorded ((s.freeOne o res).goto c) := by
  refine ⟨fun r => ?_, fun r hr => ?_, fun hne => absurd hl (by simpa using hne)⟩
  · have hg := h.granted r
    simp only [goto_bus, goto_ses, freeOne_allocated, freeOne_granted]
    split
    · next hr =>
      obtain ⟨-, rfl⟩ := hr
      simp [hg, ha]
    · rw [hg]
      exact congrArg (fun v => if s.ses.allocated r = true then [v] else []) (freeOne_value s o res r).symm
  · rw [show ((s.freeOne o res).goto c).ctl = c from rfl, hc] at hr
    cases hr

theorem Recorded.record {s : Device} {res : Resource} {v : ℕ} {c : Ctl} (h : Recorded s)
    (hf : s.ses.allocated res = false) (hl : s.life = .alive)
    (hc : ∀ r, c.fresh r = true → r ≠ res ∧ s.ses.allocated r = false) :
    Recorded ((s.record res v).goto c) := by
  refine ⟨fun r => ?_, fun r hr => ?_, fun hne => absurd hl (by simpa using hne)⟩
  · have hg := h.granted r
    by_cases hr : r = res
    · subst hr
      have hempty : s.bus.granted r = [] := by rw [hg, hf]; rfl
      have hv : ((s.record r v).goto c).value r = v := by
        rw [show ((s.record r v).goto c).value r = (s.record r v).value r by cases r <;> rfl]
        simp
      simp [grant_granted, hempty, hv]
    · have hv : ((s.record res v).goto c).value r = s.value r := by
        rw [show ((s.record res v).goto c).value r = (s.record res v).value r by cases r <;> rfl]
        simp [hr]
      simp [grant_granted, hr, hg, hv]
  · obtain ⟨hne, ha⟩ := hc r hr
    simp [hne, ha]

theorem Recorded.data {s : Device} {e : Engine} {x : Engine.Act} {cancelPending : Bool}
    (h : Recorded s) (hx : x.IsData) (hs : s.eng.step x = some e) :
    Recorded { s with eng := e, ses := { s.ses with cancelPending := cancelPending } } := by
  have hc := Engine.data_sameControl hx hs
  refine h.keep (fun r => by cases r <;> rfl) (fun r => ?_) rfl rfl (fun r hr => .inl hr)
  cases r with
  | channel | bandwidth => rfl
  | handle => exact hc.resourceHandle

theorem Recorded.moves {s s' : Device} {o : Answer} (h : Recorded s) (hal : s.Alive)
    (hp : s.ReleasesFirst (.ctl o)) (hm : Moves s o s.ctl s') : Recorded s' := by
  have hfresh := h.fresh
  generalize hctl : s.ctl = c at hm
  rw [hctl] at hfresh
  -- a step that leaves the flags, the values and the grants alone
  have keep : ∀ t : Device, t.ses.allocated = s.ses.allocated → t.value = s.value →
      t.bus.granted = s.bus.granted → t.life = s.life →
      (∀ r, t.ctl.fresh r = true → c.fresh r = true ∨ s.ses.allocated r = false) → Recorded t :=
    fun t ha hv hg hl hf => h.keep (fun r => by rw [ha]) (fun r => by rw [hv]) hg hl
      (fun r hr => by rw [hctl]; exact hf r hr)
  cases hm with
  | releaseFree ha => exact h.freeOne ha (hal (by rw [hctl]; rfl)) fun r => rfl
  | @startAllocated eb res ho hv =>
    refine h.record (hfresh res (by cases res <;> rfl)) (hal (by rw [hctl]; rfl)) fun r hr => ?_
    have hne : r ≠ res := by
      rintro rfl
      cases r <;> cases hr
    refine ⟨hne, hfresh r ?_⟩
    cases res <;> cases r <;> first | rfl | cases hr
  | quiesceStop | releaseStop =>
    exact keep _ (by simp) (by funext r; cases r <;> simp [value]) (by simp) (by simp) nofun
  | startRetried hq =>
    exact keep _ rfl rfl rfl rfl fun r _ => .inr (Session.holds_eq_false (hp (by rw [hctl]; rfl) hq) r)
  | startFresh _ _ _ hn =>
    refine keep _ rfl rfl rfl rfl fun r _ => .inr (Session.holds_eq_false ?_ r)
    simp only [needsReleaseRetry, Bool.or_eq_false_iff] at hn
    simp [Session.holds, hn]
  | startChunks =>
    refine keep _ rfl rfl rfl rfl fun r hr => .inl ?_
    rfl
  | startConfigured => exact keep _ rfl rfl rfl rfl fun r _ => .inl rfl
  | startChannelSet => exact keep _ rfl rfl rfl rfl fun r hr => .inl hr
  | @quiesceSettled r _ | @quiesceReturns r | @releaseHeld r _ | @releaseReturns r
  | @shutdownReturns r | @listenNothing r _ _ _ | @listenTimeout r _ | @listenSet r =>
    exact keep _ rfl rfl rfl rfl (by cases r <;> nofun)
  | @listenFailed r _ =>
    refine keep _ rfl rfl ?_ rfl (by cases r <;> nofun)
    dsimp only
    split <;> rfl
  | startNotAllocated =>
    refine keep _ rfl rfl ?_ rfl nofun
    dsimp only
    split <;> rfl
  | quiesceDrain =>
    refine keep _ rfl rfl rfl rfl fun r hr => ?_
    simp only [setCap_ctl] at hr
    split at hr <;> cases hr
  | _ => exact keep _ rfl rfl rfl rfl nofun

theorem Recorded.steps {s s' : Device} {a : Act} (h : Recorded s) (hal : s.Alive)
    (hp : s.ReleasesFirst a) (hs : Steps s a s') : Recorded s' := by
  cases hs with
  | data ha hx => exact h.data (Act.isData ha) hx
  | notifyCancel _ hx => exact h.data (x := .callRequestWork .handler) rfl hx
  | lateListen => exact h.keep (fun _ => rfl) (fun _ => rfl) rfl rfl fun _ hr => .inl hr
  | lateGrant => exact hp.elim
  | workMutex hc he =>
    simp only [Engine.region] at he
    split at he <;> cases he
    exact h.keep (fun _ => rfl) (fun r => by cases r <;> rfl) rfl rfl (by rintro _ ⟨⟩)
  | ctl hm => exact h.moves hal hp hm
  | destroyNone => exact h
  | destroyLeak hc hl =>
    exact ⟨h.granted, h.fresh, fun _ => Session.holds_eq_false (hp hl)⟩
  | destroy hc hl =>
    exact ⟨fun r => h.granted r, h.fresh, fun _ => Session.holds_eq_false (hp hl)⟩
  | setState | setOneShot =>
    exact h.keep (fun r => by cases r <;> rfl) (fun r => by cases r <;> rfl) rfl rfl fun _ hr => .inl hr
  | _ =>
    exact h.keep (fun r => by cases r <;> rfl) (fun r => by cases r <;> rfl) rfl rfl (by rintro _ ⟨⟩)

theorem Recorded.of_reaches {s : Device} (h : machine.Reaches ReleasesFirst s) : Recorded s := by
  refine h.invariant (I := Recorded) ⟨fun r => ?_, fun r hr => ?_, fun hne => absurd rfl hne⟩ ?_
  · cases r <;> rfl
  · cases r <;> cases hr
  · intro s a s' hr hi hp hs
    exact hi.steps (.of_reaches hr) hp (.of_step hs)

theorem Recorded.stranded {s s' : Device} {res : Resource} {v : ℕ} (h : Recorded s)
    (hs : s.step (.lateGrant res v) = some s') :
    v ∈ s'.bus.granted res ∧ ¬(s'.ses.allocated res = true ∧ s'.value res = v) := by
  cases Steps.of_step hs with
  | data ha _ => cases ha
  | lateGrant hm hv =>
    refine ⟨by simp [Bus.grantLate], ?_⟩
    rintro ⟨ha, hval⟩
    have hg := h.granted res
    rw [if_pos ha, show s.value res = v from hval] at hg
    exact hv (hg ▸ List.mem_singleton_self v)

/-- In every run whose starts and closes find every free request submitted, and in which no
allocation that was given up on is granted, the grants of the bus driver are exactly what the
engine records, an allocation finds nothing recorded, and a free request frees a grant. -/
theorem grants_recorded {s : Device} (h : machine.Reaches ReleasesFirst s) :
    (∀ r, s.bus.granted r = if s.ses.allocated r then [s.value r] else []) ∧
      (s.life ≠ .alive → ∀ r, s.bus.granted r = []) ∧
      (∀ eb r, s.ctl = .start eb (.allocate r) → s.bus.granted r = []) ∧
      ∀ rr r flushed, s.ctl = .release rr (.free r flushed) → s.ses.allocated r = true →
        s.value r ∈ s.bus.granted r := by
  have hr := Recorded.of_reaches h
  refine ⟨hr.granted, fun hl r => ?_, fun eb r hc => ?_, fun rr r flushed _ ha => ?_⟩
  · simp [hr.granted, hr.gone hl]
  · have hf := hr.fresh r (by rw [hc]; cases r <;> rfl)
    simp [hr.granted, hf]
  · simp [hr.granted, ha]

/-- A session without a buffer, up to the free of its handle. -/
def emptySessionRun : List Act :=
  [Act.acquireMutex, .api (.start false)] ++ List.replicate 11 Act.go ++
    [Act.runs (.pump .control .elect), .runs (.pump .control .top), .runs (.pump .control (.claim 0)),
      .runs (.pump .control (.acquire 0 0)), .runs (.pump .control (.giveBack 0)),
      .runs (.pump .control .bottom)] ++ List.replicate 4 Act.go ++ [Act.api .stop] ++
    List.replicate 14 Act.go

theorem grants_recorded_emptySessionRun :
    let s := machine.after ReleasesFirst emptySessionRun
    s.bus.granted .handle = [1] ∧ ∀ r, s.bus.granted r = if s.ses.allocated r then [s.value r] else [] := by
  refine ⟨by decide, ?_⟩
  exact (grants_recorded (machine.reaches_after ReleasesFirst emptySessionRun)).1

/-- None of the three free requests is submitted, at the stop or at the next start, and
the start is granted another channel. -/
def overwriteRun : List Act :=
  emptySessionRun ++ List.replicate 3 (Act.goWith .noMemory) ++ List.replicate 8 Act.go ++
    [Act.api (.start false), .go, .go] ++ List.replicate 3 (Act.goWith .noMemory) ++
    List.replicate 10 Act.go ++ [Act.ctl ⟨.completed statusSuccess, 2, true, true, 8, false⟩]

/-- The first channel is granted and recorded nowhere. -/
theorem grant_overwritten : ¬∀ s, machine.Reachable s → ∀ r, ∀ v ∈ s.bus.granted r,
    s.ses.allocated r = true ∧ s.value r = v := by
  intro h
  have hs := machine.reaches_after (fun _ _ => True) overwriteRun
  have := (h _ hs .channel 1 (by decide)).2
  revert this
  decide

end Device
end Photonic
