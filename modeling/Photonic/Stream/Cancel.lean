import Photonic.Session.CancelWork
import Photonic.Stream.Teardown

namespace Photonic

theorem Ctl.not_tearing_of_starting {c : Ctl} (h : c.starting = true) : ¬c.tearing = true := by
  cases c with
  | start | listen => exact Bool.false_ne_true
  | _ => cases h

namespace Device

theorem Steps.starting {s s' : Device} {a : Act} (h : Steps s a s') (hh : Halts s)
    (hg : s'.ctl.starting = true) (hst : s'.ses.streamState = .stop) :
    (s.ctl.starting = true ∧ s.ses.streamState = .stop) ∨
      ∃ eb, s.ctl = .start eb .undrain ∧
        s' = s.setCap { s.eng.cap with draining := false } (.start eb .pump) := by
  cases h with
  | ctl hm =>
    generalize hctl : s.ctl = c at hm
    cases hm with
    | startUndrain => exact .inr ⟨_, rfl, rfl⟩
    | startRunning hl hd =>
      -- the engine runs, so the state is not KSSTATE_STOP
      exfalso
      rcases hh.stopped hst with hx | hx | hx
      · rw [hd] at hx
        cases hx
      · rw [hctl] at hx
        cases hx
      · rw [hctl] at hx
        cases hx
    | quiesceDrain =>
      dsimp only [setCap_ctl] at hg
      split at hg <;> cases hg
    | @quiesceSettled r | @quiesceReturns r => cases r <;> cases hg
    | @releaseHeld r | @releaseReturns r => cases r <;> cases hg
    | @shutdownReturns r => cases r <;> cases hg
    | @listenNothing r _ hpc _ | @listenTimeout r _ | @listenFailed r _ | @listenSet r =>
      cases r <;> first | exact .inl ⟨rfl, hst⟩ | cases hg
    | startChunks =>
      dsimp only [setCap_ctl] at hg
      split at hg <;> cases hg
    | @startAllocated eb res => cases res <;> cases hg
    | _ => first | exact .inl ⟨hg, hst⟩ | exact .inl ⟨rfl, hst⟩ | cases hg
  | data | notifyCancel | lateListen | lateGrant | destroyNone | destroyLeak | destroy | setOneShot =>
    exact .inl ⟨hg, hst⟩
  | setState hc hs => exact absurd hst hs.1
  | _ => cases hg

end Device

namespace Pin

theorem fed_keeps {d d' : Device} {f f' : Reads} (h : Device.Feeds Reads.callbacks d d' f f') :
    f'.pendingReads ⊆ f.pendingReads ∧ f'.srbs = f.srbs ∧ f'.irpCancel = f.irpCancel := by
  cases h with
  | acquires ha | finds ha =>
    change f.acquireBuffer.2.pendingReads ⊆ _ ∧ f.acquireBuffer.2.srbs = _ ∧
      f.acquireBuffer.2.irpCancel = _
    have hcase := f.acquired_acquireBuffer
    generalize f.acquireBuffer.2 = f' at hcase
    generalize f.acquireBuffer.1 = answer at hcase
    cases hcase with
    | none => exact ⟨List.Subset.refl _, rfl, rfl⟩
    | some hp => exact ⟨List.erase_subset, rfl, rfl⟩
  | delivers | silent => exact ⟨List.Subset.refl _, rfl, rfl⟩

theorem heldCount_of_fed {d d' : Device} {f f' : Reads} {c : Cookie}
    (h : Device.Feeds Reads.callbacks d d' f f') (hd : Engine.machine.Reachable d.eng)
    (hd' : Engine.machine.Reachable d'.eng) (hp : 0 < d'.eng.heldCount c) :
    0 < d.eng.heldCount c ∨ c ∈ f.pendingReads := by
  have hb := Engine.heldCount_eq hd c
  have hb' := Engine.heldCount_eq hd' c
  cases h with
  | @acquires answer ha _ hacq hdel =>
    change f.acquireBuffer.1 = _ at ha
    have hcase := f.acquired_acquireBuffer
    rw [ha] at hcase
    generalize f.acquireBuffer.2 = f' at hcase
    cases hcase with
    | @some srb rest hpend =>
      by_cases hc : c = srb
      · right
        simp [hpend, hc]
      · left
        rw [hacq, Engine.deliveredCount, hdel, ← Engine.deliveredCount, List.count_append,
          List.count_singleton, if_neg (by simpa using Ne.symm hc)] at hb'
        omega
  | finds _ hacq hdel | silent hacq hdel =>
    left
    rw [hacq, Engine.deliveredCount, hdel, ← Engine.deliveredCount] at hb'
    omega
  | delivers _ hacq hdel =>
    left
    rw [hacq, Engine.deliveredCount, hdel, List.map_append, List.count_append,
      ← Engine.deliveredCount] at hb'
    omega

theorem heldCount_of_starting {s : Pin} (h : machine.Reaches NoLateClaim s) :
    s.dev.ctl.starting = true → s.dev.ses.streamState = .stop → ∀ c, s.dev.eng.heldCount c = 0 := by
  refine h.invariant (I := fun s => s.dev.ctl.starting = true → s.dev.ses.streamState = .stop →
    ∀ c, s.dev.eng.heldCount c = 0) (fun hg => by cases hg) ?_
  intro s a s' hr hi _ hs hg hst c
  have hreach := device_reaches hr
  cases (Steps.of_step hs).does with
  | nothing hd =>
    rw [hd] at hg hst ⊢
    exact hi hg hst c
  | step x n hf hc =>
    have hreach' := hreach.reachable.step trivial (Device.feed_step hf)
    rcases (Device.Steps.of_step (Device.feed_step hf)).starting (.of_reaches hreach) hg hst with
      ⟨hg, hst⟩ | ⟨eb, hctl, hdev⟩
    · by_contra hne
      rcases heldCount_of_fed (.of_feed hf) (Device.engine_reachable hreach)
        (Device.engine_reachable hreach') (Nat.pos_of_ne_zero hne) with hx | hx
      · rw [hi hg hst c] at hx
        exact absurd hx (lt_irrefl 0)
      · have hnil : s.reads.pendingReads = [] := by
          rcases Emptied.of_reaches hr (.inr (streamState_stop.mpr (.inr hst))) with he | he | he
          · exact he
          · exact absurd he (Ctl.not_tearing_of_starting hg)
          · have := (Closing.of_reaches hr).held (he.imp_right .inl)
            rw [this] at hg
            cases hg
        rw [show s.reads.pendingReads = [] from hnil] at hx
        cases hx
    · have hd := (Moded.of_reaches hreach).mode true (by rw [hctl]; rfl)
      have hb : s'.dev.Bereft := by
        rw [hdev]
        exact Device.bereft_of_undrain hreach hd (by rw [hctl]; rfl)
          (Device.not_quarantined_of_undrain hreach hctl) rfl rfl rfl rfl
      exact hb.heldCount_eq_zero hreach' c

/-- The cancel routine of a read has not looked for it yet, or the close drains it. -/
def Coming (ts : Multiset Thread) (rundown : Bool) (c : Cookie) : Prop :=
  .cancelEnter c ∈ ts ∨ .claim c ∈ ts ∨ rundown = true

/-- A cancelled read that is parked is about to be found there; one that the engine holds is about to
be looked for, or the quiesce that hands it back is due. Only reads are parked and acquired. -/
structure Tracked (f : Reads) (d : Device) (rundown : Bool) (ts : Multiset Thread) : Prop where
  reads : ∀ c, c ∈ f.pendingReads ∨ 0 < d.eng.heldCount c ∨ .init c ∈ ts ∨ .park c ∈ ts →
    (f.srbs c).command = .readData
  parked : ∀ c, f.irpCancel c = true → c ∈ f.pendingReads → Coming ts rundown c
  held : ∀ c, f.irpCancel c = true → 0 < d.eng.heldCount c →
    Coming ts rundown c ∨ .notify ∈ ts ∨ d.CancelDue

def Thread.cancels : Thread → Bool
  | .cancelEnter _ | .claim _ | .notify => true
  | _ => false

theorem Coming.begins {ts : Multiset Thread} {r : Bool} {c : Cookie} (t : Thread)
    (h : Coming ts r c) : Coming (t ::ₘ ts) r c :=
  h.imp Multiset.mem_cons_of_mem (.imp_left Multiset.mem_cons_of_mem)

theorem Coming.tail {ts : Multiset Thread} {r : Bool} {c : Cookie} {t : Thread}
    (h : Coming (t ::ₘ ts) r c) (ht : t ≠ .cancelEnter c) (ht' : t ≠ .claim c) : Coming ts r c := by
  rcases h with h | h | h
  · rcases Multiset.mem_cons.mp h with h | h
    · exact absurd h.symm ht
    · exact .inl h
  · rcases Multiset.mem_cons.mp h with h | h
    · exact absurd h.symm ht'
    · exact .inr (.inl h)
  · exact .inr (.inr h)

namespace Tracked
variable {f f' : Reads} {d d' : Device} {r : Bool} {ts : Multiset Thread} {t : Thread} {c : Cookie}

theorem done (h : Tracked f d r (t ::ₘ ts)) (ht : t.cancels = false) : Tracked f d r ts where
  reads c hc := h.reads c (hc.imp_right (.imp_right
    (.imp Multiset.mem_cons_of_mem Multiset.mem_cons_of_mem)))
  parked c hc hp := by
    apply (h.parked c hc hp).tail
    · rintro rfl
      cases ht
    · rintro rfl
      cases ht
  held c hc hp := by
    rcases h.held c hc hp with hx | hx | hx
    · left
      apply hx.tail
      · rintro rfl
        cases ht
      · rintro rfl
        cases ht
    · rcases Multiset.mem_cons.mp hx with rfl | hx
      · cases ht
      · exact .inr (.inl hx)
    · exact .inr (.inr hx)

theorem begins (h : Tracked f d r ts)
    (ht : ∀ c, t = .init c ∨ t = .park c → (f.srbs c).command = .readData) :
    Tracked f d r (t ::ₘ ts) where
  reads c hc := by
    rcases hc with hc | hc | hc | hc
    · exact h.reads c (.inl hc)
    · exact h.reads c (.inr (.inl hc))
    · rcases Multiset.mem_cons.mp hc with hc | hc
      · exact ht c (.inl hc.symm)
      · exact h.reads c (.inr (.inr (.inl hc)))
    · rcases Multiset.mem_cons.mp hc with hc | hc
      · exact ht c (.inr hc.symm)
      · exact h.reads c (.inr (.inr (.inr hc)))
  parked c hc hp := (h.parked c hc hp).begins t
  held c hc hp := (h.held c hc hp).imp (.begins t) (.imp_left Multiset.mem_cons_of_mem)

/-- A handler goes on. -/
theorem goOn {t' : Thread} (h : Tracked f d r (t ::ₘ ts)) (ht : t.cancels = false)
    (ht' : ∀ c, t' = .init c ∨ t' = .park c → (f.srbs c).command = .readData) :
    Tracked f d r (t' ::ₘ ts) :=
  (h.done ht).begins ht'

theorem shrinks (h : Tracked f d r ts) (hs : f'.srbs = f.srbs) (hc : f'.irpCancel = f.irpCancel)
    (hp : f'.pendingReads ⊆ f.pendingReads) : Tracked f' d r ts where
  reads c hx := by
    rw [hs]
    exact h.reads c (hx.imp_left (@hp c))
  parked c hx hm := by
    rw [hc] at hx
    exact h.parked c hx (hp hm)
  held c hx := by
    rw [hc] at hx
    exact h.held c hx

/-- The gate closes. -/
theorem close (h : Tracked f d r ts) : Tracked f d true ts where
  reads := h.reads
  parked _ _ _ := .inr (.inr rfl)
  held _ _ _ := .inl (.inr (.inr rfl))

/-- The cancel routine of a read has had its look: the read is not parked, and if the engine has it,
the engine is asked for it. -/
theorem looked (h : Tracked f d r (.claim c ::ₘ ts)) (hc : c ∉ f.pendingReads)
    (hh : f.irpCancel c = true → 0 < d.eng.heldCount c → .notify ∈ ts ∨ d.CancelDue) :
    Tracked f d r ts where
  reads c hc := h.reads c (hc.imp_right (.imp_right
    (.imp Multiset.mem_cons_of_mem Multiset.mem_cons_of_mem)))
  parked c' hx hp := by
    apply (h.parked c' hx hp).tail
    · simp
    · rintro ⟨⟩
      exact hc hp
  held c' hx hp := by
    by_cases hcc : c' = c
    · subst hcc
      exact .inr (hh hx hp)
    · rcases h.held c' hx hp with hy | hy | hy
      · left
        apply hy.tail
        · simp
        · rintro ⟨⟩
          exact hcc rfl
      · exact .inr (.inl (by simpa using hy))
      · exact .inr (.inr hy)

theorem admitted (h : Tracked f d r (.cancelEnter c ::ₘ ts)) : Tracked f d r (.claim c ::ₘ ts) := by
  have hcom : ∀ c', Coming (.cancelEnter c ::ₘ ts) r c' → Coming (.claim c ::ₘ ts) r c' := by
    intro c' hx
    by_cases hcc : c' = c
    · subst hcc
      exact .inr (.inl (Multiset.mem_cons_self _ _))
    · apply Coming.begins
      apply hx.tail
      · rintro ⟨⟩
        exact hcc rfl
      · simp
  constructor
  · intro c' hx
    simpa using h.reads c' (by simpa using hx)
  · exact fun c' hx hp => hcom c' (h.parked c' hx hp)
  · intro c' hx hp
    refine (h.held c' hx hp).imp (hcom c') ?_
    exact .imp_left fun hy => Multiset.mem_cons_of_mem (by simpa using hy)

theorem closed (h : Tracked f d true (t ::ₘ ts)) : Tracked f d true ts where
  reads c' hx := h.reads c' (hx.imp_right (.imp_right
    (.imp Multiset.mem_cons_of_mem Multiset.mem_cons_of_mem)))
  parked _ _ _ := .inr (.inr rfl)
  held _ _ _ := .inl (.inr (.inr rfl))

theorem notified (h : Tracked f d r (.notify ::ₘ ts)) (hd : d.CancelDue) : Tracked f d r ts where
  reads c' hx := h.reads c' (by simpa using hx)
  parked c' hx hp := (h.parked c' hx hp).tail (by simp) (by simp)
  held _ _ _ := .inr (.inr hd)

theorem parks (h : Tracked f d r (.park c ::ₘ ts)) (hc : f.irpCancel c = false) :
    Tracked (f.park c) d r ts where
  reads c' hx := by
    apply h.reads c'
    simp only [Reads.park_pendingReads, List.mem_append, List.mem_singleton] at hx
    rcases hx with (hx | rfl) | hx | hx | hx
    · exact .inl hx
    · exact .inr (.inr (.inr (Multiset.mem_cons_self _ _)))
    · exact .inr (.inl hx)
    · exact .inr (.inr (.inl (Multiset.mem_cons_of_mem hx)))
    · exact .inr (.inr (.inr (Multiset.mem_cons_of_mem hx)))
  parked c' hx hp := by
    simp only [Reads.park_pendingReads, List.mem_append, List.mem_singleton] at hp
    rcases hp with hp | rfl
    · exact (h.parked c' hx hp).tail (by simp) (by simp)
    · rw [Reads.park_irpCancel, hc] at hx
      cases hx
  held := (h.done rfl).held

theorem fed (h : Tracked f d r ts) {x : Device.Act} (hr : Device.machine.Reaches Device.NoLateClaim d)
    (hf : d.feed Reads.callbacks f x = some (d', f')) : Tracked f' d' r ts := by
  have hstep := Device.feed_step hf
  have hreach' : Device.machine.Reachable d' := hr.reachable.step trivial hstep
  obtain ⟨hp, hs, hc⟩ := fed_keeps (.of_feed hf)
  have hhold : ∀ c, 0 < d'.eng.heldCount c → 0 < d.eng.heldCount c ∨ c ∈ f.pendingReads := fun c =>
    heldCount_of_fed (.of_feed hf) (Device.engine_reachable hr) (Device.engine_reachable hreach')
  constructor
  · intro c hx
    rw [hs]
    rcases hx with hx | hx | hx
    · exact h.reads c (.inl (hp hx))
    · exact h.reads c ((hhold c hx).symm.imp_right .inl)
    · exact h.reads c (.inr (.inr hx))
  · intro c hx hm
    rw [hc] at hx
    exact h.parked c hx (hp hm)
  · intro c hx hh
    rw [hc] at hx
    rcases hhold c hh with hy | hy
    · rcases h.held c hx hy with hz | hz | hz
      · exact .inl hz
      · exact .inr (.inl hz)
      · rcases hz.steps hr (.of_step hstep) with hw | hw
        · exact .inr (.inr hw)
        · rw [hw.heldCount_eq_zero hreach' c] at hh
          exact absurd hh (lt_irrefl 0)
    · exact .inl (h.parked c hx hy)

end Tracked

variable {s s' : Pin}

structure Grounds (s : Pin) : Prop where
  device : Device.machine.Reaches Device.NoLateClaim s.dev
  custody : Custody s.reads s.dev.eng s.threads
  starting : s.dev.ctl.starting = true → s.dev.ses.streamState = .stop → ∀ c, s.dev.eng.heldCount c = 0

theorem Grounds.of_reaches (h : machine.Reaches NoLateClaim s) : Grounds s :=
  ⟨device_reaches h, .of_reaches h, heldCount_of_starting h⟩

theorem Grounds.stopped {c : Cookie} (h : Grounds s) (hst : s.dev.ses.streamState = .stop)
    (hh : 0 < s.dev.eng.heldCount c) : s.dev.CancelDue := by
  rcases (Halts.of_reaches h.device).stopped hst with hx | hx | hx
  · exact .inr (.inr (.inr hx))
  · exact .inr (.inr (.inl hx))
  · rw [h.starting hx hst c] at hh
    exact absurd hh (lt_irrefl 0)

theorem Grounds.heldCount_eq_zero {c : Cookie} (h : Grounds s) (hc : c ∈ s.reads.pendingReads) :
    s.dev.eng.heldCount c = 0 := by
  have he := Device.engine_reachable h.device
  have hb := h.custody.balance c
  have ho := h.custody.once c
  have hall := Engine.heldCount_eq he c
  have := List.count_pos_iff.mpr hc
  omega

theorem Tracked.claims {c : Cookie}
    (h : Tracked s.reads s.dev s.gate.rundown (.claim c ::ₘ s.threads))
    (hg : Grounds { s with threads := .claim c ::ₘ s.threads }) (hx : Runs s (.claim c) s') :
    Tracked s'.reads s'.dev s'.gate.rundown s'.threads := by
  have hflag := hg.custody.flag c
  cases hx with
  | claimed hq ho =>
    -- queued and the driver's own: the read is parked, and leaves the list here
    have hc : c ∈ s.reads.pendingReads := hflag.mp ⟨hq, ho⟩
    have hnd := hg.custody.nodup (Engine.delivered_le_acquired (Device.engine_reachable hg.device))
    refine Tracked.begins ?_ (by simp)
    apply Tracked.looked (c := c)
    · exact h.shrinks rfl rfl List.erase_subset
    · simp [hnd.mem_erase_iff]
    · intro _ hh
      exact absurd hh (Nat.not_lt.mpr (hg.heldCount_eq_zero hc).le)
  | claimStopped hq hs =>
    have hc : c ∉ s.reads.pendingReads := by
      intro hc
      obtain ⟨hq', ho⟩ := hflag.mpr hc
      rw [hq hq'] at ho
      cases ho
    refine Tracked.begins ?_ (by simp)
    rcases streamState_stop.mp hs with hr | hst
    · dsimp only [spawn_reads, spawn_dev, spawn_gate] at h ⊢
      rw [hr] at h ⊢
      exact h.closed
    · exact h.looked hc fun _ hh => .inr (hg.stopped hst hh)
  -- the read is in flight or on its way, so the engine is told
  | claimNotify hq hs =>
    have hc : c ∉ s.reads.pendingReads := by
      intro hc
      obtain ⟨hq', ho⟩ := hflag.mpr hc
      rw [hq hq'] at ho
      cases ho
    have h' := h.begins (t := .notify) (by simp)
    rw [Multiset.cons_swap] at h'
    exact h'.looked hc fun _ _ => .inl (Multiset.mem_cons_self _ _)

theorem Tracked.runs {t : Thread} (h : Tracked s.reads s.dev s.gate.rundown (t ::ₘ s.threads))
    (hg : Grounds { s with threads := t ::ₘ s.threads }) (hx : Runs s t s') :
    Tracked s'.reads s'.dev s'.gate.rundown s'.threads := by
  cases hx with
  | @entered srb gate t hr hgate ht =>
    dsimp only [spawn_reads, spawn_dev, spawn_gate, spawn_threads]
    rw [hgate]
    rcases ht with ⟨rfl, hcmd⟩ | rfl
    · exact h.goOn rfl (by rintro c (⟨⟨⟩⟩ | ⟨⟨⟩⟩); exact hcmd)
    · exact h.goOn rfl (by simp)
  | refused hr | parkFails => exact h.goOn rfl (by simp)
  | refuse | skipped | drained => exact (h.done rfl).shrinks rfl rfl (List.Subset.refl _)
  | answer | reject | fail | cancelled | flushed =>
    refine Tracked.begins ?_ (by simp)
    exact (h.done rfl).shrinks rfl rfl (List.Subset.refl _)
  | @init srb t ht =>
    have hcmd := h.reads srb (.inr (.inr (.inl (Multiset.mem_cons_self _ _))))
    refine Tracked.begins (f := { s.reads with ext := _ }) ?_ ?_
    · exact (h.done rfl).shrinks rfl rfl (List.Subset.refl _)
    · rcases ht with rfl | rfl
      · simp
      · rintro c (⟨⟨⟩⟩ | ⟨⟨⟩⟩)
        exact hcmd
  | parked hr hs hc => exact (h.parks hc).begins (by simp)
  | pump hl hf => exact ((h.done rfl).fed hg.device hf).begins (by simp)
  | pumpNone hl => exact h.goOn rfl (by simp)
  | cancelEntered hr hgate =>
    dsimp only [spawn_reads, spawn_dev, spawn_gate, spawn_threads]
    rw [hgate]
    exact h.admitted
  | cancelRefused hr =>
    rw [hr] at h ⊢
    exact h.closed
  | claimed hq ho => exact h.claims hg (.claimed hq ho)
  | claimStopped hq hs => exact h.claims hg (.claimStopped hq hs)
  | claimNotify hq hs => exact h.claims hg (.claimNotify hq hs)
  | notify hl hf =>
    refine Tracked.begins ?_ (by simp)
    apply (h.fed hg.device hf).notified
    have hx := Device.Steps.of_step (Device.feed_step hf)
    cases hx with
    | data hx => cases hx
    | notifyCancel => exact .inl rfl
  | notifyNone hl =>
    refine Tracked.begins ?_ (by simp)
    exact h.notified (.inr (.inr (.inr (Device.Retired.of_reaches hg.device hl))))
  | left hgate | signal hgate =>
    rw [hgate]
    exact h.done rfl
  | leftLast hgate =>
    dsimp only [spawn_reads, spawn_dev, spawn_gate, spawn_threads]
    rw [hgate]
    exact h.goOn rfl (by simp)
  | flushDone hp => exact h.done rfl
  | flush hp =>
    refine Tracked.begins ?_ (by simp)
    exact (h.done rfl).shrinks rfl rfl List.erase_subset

/-- A request that no part of the driver has. -/
theorem Grounds.not_outstanding {c : Cookie} (h : Grounds s) (ho : ¬s.reads.outstanding c) :
    c ∉ s.reads.pendingReads ∧ s.dev.eng.heldCount c = 0 ∧ handled s.threads c = 0 := by
  have hb := h.custody.balance c
  have hall := Engine.heldCount_eq (Device.engine_reachable h.device) c
  have ho : s.reads.received.count c ≤ s.reads.completedCount c := Nat.le_of_not_lt ho
  refine ⟨List.count_eq_zero.mp ?_, ?_, ?_⟩ <;> omega

theorem Tracked.receives {c : Cookie} {r : Srb} {garbage : Option Bool}
    (h : Tracked s.reads s.dev s.gate.rundown s.threads) (hg : Grounds s)
    (ho : ¬s.reads.outstanding c) :
    Tracked (s.receive c r garbage).reads s.dev s.gate.rundown (.enter c ::ₘ s.threads) := by
  obtain ⟨hp, hh, hth⟩ := hg.not_outstanding ho
  refine Tracked.begins ?_ (by simp)
  constructor
  · intro c' hx
    have hne : c' ≠ c := by
      rintro rfl
      rcases hx with hx | hx | hx | hx
      · exact hp hx
      · exact absurd hx (Nat.not_lt.mpr hh.le)
      · exact absurd (Custody.handled_pos hx rfl) (Nat.not_lt.mpr hth.le)
      · exact absurd (Custody.handled_pos hx rfl) (Nat.not_lt.mpr hth.le)
    simp only [receive, spawn_reads, Function.update_of_ne hne]
    exact h.reads c' hx
  · intro c' hx hm
    by_cases hne : c' = c
    · subst hne
      exact absurd hm hp
    · simp only [receive, spawn_reads, Function.update_of_ne hne] at hx
      exact h.parked c' hx hm
  · intro c' hx hm
    by_cases hne : c' = c
    · subst hne
      exact absurd hm (Nat.not_lt.mpr hh.le)
    · simp only [receive, spawn_reads, Function.update_of_ne hne] at hx
      exact h.held c' hx hm

/-- `IoCancelIrp` sets the bit of a request whose cancel routine is about to run, or of one that is no
read. -/
theorem Tracked.cancels {c : Cookie} (h : Tracked s.reads s.dev s.gate.rundown s.threads)
    (hc : .cancelEnter c ∈ s.threads ∨ (s.reads.srbs c).command ≠ .readData) :
    Tracked { s.reads with irpCancel := Function.update s.reads.irpCancel c true } s.dev
      s.gate.rundown s.threads := by
  constructor
  · exact h.reads
  · intro c' hx hm
    by_cases hne : c' = c
    · subst hne
      rcases hc with hc | hc
      · exact .inl hc
      · exact absurd (h.reads c' (.inl hm)) hc
    · exact h.parked c' (by simpa [Function.update_of_ne hne] using hx) hm
  · intro c' hx hm
    by_cases hne : c' = c
    · subst hne
      rcases hc with hc | hc
      · exact .inl (.inl hc)
      · exact absurd (h.reads c' (.inr (.inl hm))) hc
    · exact h.held c' (by simpa [Function.update_of_ne hne] using hx) hm

theorem Tracked.steps {a : Act} (h : Tracked s.reads s.dev s.gate.rundown s.threads) (hg : Grounds s)
    (hs : Steps s a s') : Tracked s'.reads s'.dev s'.gate.rundown s'.threads := by
  cases hs with
  | dev ha hf => exact h.fed hg.device hf
  | @thread t ts _ ht hx =>
    have hg' : Grounds { s with threads := t ::ₘ ts } := by
      rw [← ht]
      exact hg
    rw [ht] at h
    exact Tracked.runs (s := { s with threads := ts }) h hg' hx
  | skip | drain =>
    refine Tracked.begins ?_ (by simp)
    exact h.shrinks rfl rfl List.erase_subset
  | receive ho => exact h.receives hg ho
  | @cancelPacket srb ho hc =>
    have h' : Tracked s.reads s.dev s.gate.rundown (s.spawn (.cancelEnter srb)).threads :=
      h.begins (by simp)
    exact Tracked.cancels (s := s.spawn (.cancelEnter srb)) h' (.inl (Multiset.mem_cons_self _ _))
  | cancelOther ho hc => exact h.cancels (.inr hc)
  | beginFlush => exact h.begins (by simp)
  | @setRun dev f n hc hn hf =>
    exact Tracked.fed (f := { s.reads with frameNumber := n }) ⟨h.reads, h.parked, h.held⟩ hg.device hf
  | close ho hc hgate hw =>
    dsimp only
    rw [hgate]
    exact h.close
  | wake => exact h
  | closeStop hc hf | closeDestroy hc hf => exact h.fed hg.device hf
  | closeReturn hc he hf => exact h.fed hg.device hf

theorem Tracked.of_reaches (h : machine.Reaches NoLateClaim s) :
    Tracked s.reads s.dev s.gate.rundown s.threads := by
  refine h.invariant (I := fun s => Tracked s.reads s.dev s.gate.rundown s.threads) ?_ ?_
  · constructor
    · rintro c (hc | hc | hc | hc)
      · cases hc
      · cases hc
      · cases hc
      · cases hc
    · intro c hc
      cases hc
    · intro c hc
      cases hc
  · intro s a s' hr hi _ hs
    exact hi.steps (.of_reaches hr) (.of_step hs)

/-- No handler, no holder of `InterfaceMutex` and no activity of the engine is under way, no run of the
control work item is coming, and the remove lock has refused none. -/
structure AtRest (s : Pin) : Prop where
  noThread : s.threads = 0
  noHolder : s.dev.ctl = .free
  noActivity : s.dev.eng.pool = 0
  noItem : s.dev.eng.work.workItems = 0
  granted : s.dev.eng.work.refused = false

theorem AtRest.draining (hq : s.AtRest) (h : Device.machine.Reachable s.dev) (hd : s.dev.CancelDue) :
    s.dev.eng.cap.draining = true := by
  have hctl := hq.noHolder
  rcases hd with hx | hx | hx | hx
  · by_contra hn
    have hl : s.dev.life = .alive := by
      by_contra hl
      exact hn (Device.Retired.of_reaches h hl)
    rcases Device.CancelOwed.of_reaches h hx hl hq.granted with (hy | ⟨pc, hpc, -⟩) | hy | hy
    · -- the flag has no holder
      have hc := (Coalesced.of_reachable (Device.engine_reachable h)).holders
      rw [hq.noActivity, hq.noItem, hy] at hc
      cases hc
    · rw [hq.noActivity] at hpc
      exact absurd hpc (Multiset.notMem_zero pc)
    · rw [hq.noActivity] at hy
      exact absurd hy (Multiset.notMem_zero _)
    · rw [hctl] at hy
      cases hy
  · rw [hctl] at hx
    cases hx
  · rw [hctl] at hx
    cases hx
  · exact hx

/-- No cancel is lost. In every run in which no frame callback takes the last attached descriptor after
the quiesce's last poll: at rest, a request that was cancelled is completed or quarantined, wherever
the cancel found it. -/
theorem cancelled_returned (h : machine.Reaches NoLateClaim s) (hq : s.AtRest) {c : Cookie}
    (hc : s.reads.irpCancel c = true) :
    s.reads.received.count c = s.reads.completedCount c + s.dev.eng.quarantinedCount c := by
  have hbal := (Custody.of_reaches h).balance c
  have hall := Engine.heldCount_eq (Device.engine_reachable (reachable h)) c
  rw [hq.noThread, handled_zero] at hbal
  -- at rest no thread is on its way, so only a stopped stream can have let it pass
  have hcoming : Coming s.threads s.gate.rundown c → s.streamState = .stop := by
    rw [hq.noThread, streamState_stop]
    rintro (hx | hx | hx)
    · exact absurd hx (Multiset.notMem_zero _)
    · exact absurd hx (Multiset.notMem_zero _)
    · exact .inl hx
  have hpend : s.reads.pendingReads.count c = 0 := by
    by_contra hne
    have hm := List.count_pos_iff.mp (Nat.pos_of_ne_zero hne)
    have hst := hcoming ((Tracked.of_reaches h).parked c hc hm)
    rw [pendingReads_of_blocked h (.inr hst) hq.noHolder] at hm
    cases hm
  -- what the engine holds of a cancelled read is quarantined
  have hhold : s.dev.eng.heldCount c = s.dev.eng.quarantinedCount c := by
    rcases Nat.eq_zero_or_pos (s.dev.eng.heldCount c) with hz | hpos
    · have := Engine.quarantinedCount_le_heldCount s.dev.eng c
      omega
    · refine heldCount_of_draining h ?_ hq.noHolder c
      rcases (Tracked.of_reaches h).held c hc hpos with hx | hx | hx
      · exact draining_of_blocked h (.inr (hcoming hx)) hq.noHolder
      · rw [hq.noThread] at hx
        exact absurd hx (Multiset.notMem_zero _)
      · exact hq.draining (reachable h) hx
  omega

/-- An attached read is cancelled. The run of the work item that its attach brought about takes the
flag over, and the one that the cancel asked for finds nothing to do. -/
def cancelRun : List Act :=
  readRun ++ [.cancelPacket 7, .thread (.cancelEnter 7), .thread (.claim 7), .thread .notify, .thread .leave] ++
    devRun ([.startWork, .runs (.worker .clear), .runs (.requestWork .handler .exchange),
      .runs (.requestWork .handler .acquireLock), .runs (.requestWork .handler .queue), .workMutex] ++
      List.replicate 7 .go ++ [.runs (.beginDetach .control 0)] ++ List.replicate 4 .go ++
      [.runs (.detachAtBus 0), .runs (.detachComplete 0 statusSuccess 7 0 statusCancelled),
        .runs (.detachDeliver 7 0 statusCancelled), .runs (.pump .completion .elect),
        .runs (.pump .completion .top), .runs (.pump .completion (.claim 0)),
        .runs (.pump .completion .bottom), .runs .irpDone, .runs .irpDoneTest, .runs .irpDoneSignal] ++
      List.replicate 7 .go ++
      [.runs (.pump .control .elect), .runs (.pump .control .top), .runs (.pump .control (.claim 0)),
        .runs (.pump .control (.acquire 0 1)), .runs (.pump .control (.giveBack 1)),
        .runs (.pump .control .bottom)] ++ List.replicate 4 .go ++
      [.startWork, .runs (.worker .clear), .workMutex] ++ List.replicate 5 .go)

theorem cancelled_returned_cancelRun :
    let s := machine.after NoLateClaim cancelRun
    s.streamState = .run ∧ s.reads.received.count 7 = 1 ∧
      s.reads.received.count 7 = s.reads.completedCount 7 + s.dev.eng.quarantinedCount 7 := by
  refine ⟨by decide, by decide, ?_⟩
  refine cancelled_returned (machine.reaches_after NoLateClaim cancelRun) ?_ (by decide)
  exact ⟨by decide, by decide, by decide, by decide, by decide⟩

end Pin
end Photonic
