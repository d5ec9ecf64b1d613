import Photonic.Session.Vacancy
import Photonic.Stream.ReadSteps

namespace Photonic

theorem Engine.delivered_le_acquired {e : Engine} (h : machine.Reachable e) (c : Cookie) :
    e.deliveredCount c ≤ e.acquired.count c := by
  rw [heldCount_eq h c]
  omega

namespace Pin

/-- How many handlers hold a request. -/
def handled (threads : Multiset Thread) (c : Cookie) : ℕ := threads.countP (·.holds = some c)

@[simp] theorem handled_zero (c : Cookie) : handled 0 c = 0 := rfl

@[simp] theorem handled_cons (ts : Multiset Thread) (t : Thread) (c : Cookie) :
    handled (t ::ₘ ts) c = handled ts c + if t.holds = some c then 1 else 0 := by
  simp only [handled, Multiset.countP_cons]

/-- How many places a request that the driver was handed is in. -/
def custodians (s : Pin) (c : Cookie) : ℕ :=
  s.reads.pendingReads.count c + handled s.threads c + s.dev.eng.heldCount c

/-- What was handed to the driver is completed or in one place, and the extensions tell which
requests are parked. What was handed to the engine is not parked. -/
structure Custody (f : Reads) (e : Engine) (ts : Multiset Thread) : Prop where
  balance : ∀ c, f.received.count c + e.deliveredCount c =
    f.completedCount c + f.pendingReads.count c + handled ts c + e.acquired.count c
  once : ∀ c, f.received.count c ≤ f.completedCount c + 1
  flag : ∀ c, (f.ext c).queued = true ∧ (f.ext c).own = true ↔ c ∈ f.pendingReads
  ready : ∀ c, .park c ∈ ts → f.ext c = ⟨false, true⟩

namespace Custody
variable {f f' : Reads} {e e' : Engine} {ts : Multiset Thread} {t t' : Thread} {c : Cookie}

theorem sum_le_one (h : Custody f e ts) (hd : e.deliveredCount c ≤ e.acquired.count c) :
    f.pendingReads.count c + handled ts c ≤ 1 := by
  have := h.balance c
  have := h.once c
  omega

theorem notMem_of_holds (h : Custody f e (t ::ₘ ts)) (hd : e.deliveredCount c ≤ e.acquired.count c)
    (ht : t.holds = some c) : c ∉ f.pendingReads := by
  have hle := h.sum_le_one hd
  rw [handled_cons, if_pos ht] at hle
  apply List.count_eq_zero.mp
  omega

theorem handled_eq_zero (h : Custody f e (t ::ₘ ts)) (hd : e.deliveredCount c ≤ e.acquired.count c)
    (ht : t.holds = some c) : handled ts c = 0 := by
  have hle := h.sum_le_one hd
  rw [handled_cons, if_pos ht] at hle
  omega

theorem handled_pos (ht : t ∈ ts) (hc : t.holds = some c) : 0 < handled ts c :=
  Multiset.countP_pos.mpr ⟨t, ht, hc⟩

theorem park_notMem (h : handled ts c = 0) : Thread.park c ∉ ts := by
  intro ht
  have := handled_pos ht (c := c) rfl
  omega

theorem nodup (h : Custody f e ts) (hd : ∀ c, e.deliveredCount c ≤ e.acquired.count c) :
    f.pendingReads.Nodup := by
  apply List.nodup_iff_count_le_one.mpr
  intro c
  have := h.sum_le_one (hd c)
  omega

theorem goOn (h : Custody f e (t ::ₘ ts)) (ht : t'.holds = t.holds)
    (hp : ∀ c, t' = .park c → f.ext c = ⟨false, true⟩) : Custody f e (t' ::ₘ ts) where
  balance c := by
    have := h.balance c
    simpa [ht] using this
  once := h.once
  flag := h.flag
  ready c hc := by
    rcases Multiset.mem_cons.mp hc with hc | hc
    · exact hp c hc.symm
    · exact h.ready c (Multiset.mem_cons_of_mem hc)

theorem done (h : Custody f e (t ::ₘ ts)) (ht : t.holds = none) : Custody f e ts where
  balance c := by
    have := h.balance c
    simpa [ht] using this
  once := h.once
  flag := h.flag
  ready c hc := h.ready c (Multiset.mem_cons_of_mem hc)

theorem begins (h : Custody f e ts) (ht : t.holds = none) : Custody f e (t ::ₘ ts) where
  balance c := by
    have := h.balance c
    simpa [ht] using this
  once := h.once
  flag := h.flag
  ready c hc := by
    rcases Multiset.mem_cons.mp hc with rfl | hc
    · cases ht
    · exact h.ready c hc

theorem completes {x : Completion} (h : Custody f e (t ::ₘ ts)) (ht : t.holds = some x.srb)
    (hr : f'.received = f.received) (hp : f'.pendingReads = f.pendingReads) (he : f'.ext = f.ext)
    (hc : f'.completed = f.completed ++ [x]) : Custody f' e ts where
  balance c := by
    have := h.balance c
    simp only [Reads.completedCount, handled_cons, ht, hr, hp, hc, List.map_append, List.map_cons,
      List.map_nil, List.count_append, List.count_singleton, beq_iff_eq, Option.some.injEq] at this ⊢
    omega
  once c := by
    have := h.once c
    simp only [Reads.completedCount, hr, hc, List.map_append, List.count_append] at this ⊢
    omega
  flag c := by
    rw [he, hp]
    exact h.flag c
  ready c hc' := by
    rw [he]
    exact h.ready c (Multiset.mem_cons_of_mem hc')

theorem flag_update {ext : SrbExtension} (h : Custody f e ts) (hc : c ∉ f.pendingReads)
    (he : ext.queued = true → ext.own = false) (c' : Cookie) :
    (Function.update f.ext c ext c').queued = true ∧ (Function.update f.ext c ext c').own = true ↔
      c' ∈ f.pendingReads := by
  by_cases hne : c' = c
  · subst hne
    simp only [Function.update_self, hc, iff_false, not_and]
    intro hq ho
    rw [he hq] at ho
    cases ho
  · rw [Function.update_of_ne hne]
    exact h.flag c'

theorem unparks (h : Custody f e ts) (hd : ∀ c, e.deliveredCount c ≤ e.acquired.count c)
    (hc : c ∈ f.pendingReads) (ht : t.holds = some c) (hp : ∀ c, t ≠ .park c) :
    Custody (f.unpark c) e (t ::ₘ ts) where
  balance c' := by
    have hb := h.balance c'
    simp only [Reads.completedCount, Reads.unpark_received, Reads.unpark_completed,
      Reads.unpark_pendingReads, handled_cons, ht, Option.some.injEq, List.count_erase, beq_iff_eq]
      at hb ⊢
    split_ifs with hcc
    · have := List.count_pos_iff.mpr (hcc ▸ hc)
      omega
    · omega
  once := h.once
  flag c' := by
    have hnd := h.nodup hd
    simp only [Reads.unpark_pendingReads, hnd.mem_erase_iff]
    by_cases hne : c' = c
    · subst hne
      simp [Reads.unpark, Reads.setQueued]
    · simpa [Reads.unpark, Reads.setQueued, hne] using h.flag c'
  ready c' hc' := by
    rcases Multiset.mem_cons.mp hc' with hc' | hc'
    · exact absurd hc'.symm (hp c')
    · have hr := h.ready c' hc'
      have hne : c' ≠ c := by
        rintro rfl
        have := (h.flag c').mpr hc
        rw [hr] at this
        cases this.1
      simpa [Reads.unpark, Reads.setQueued, hne] using hr

theorem parks (h : Custody f e (.park c ::ₘ ts)) (hd : e.deliveredCount c ≤ e.acquired.count c) :
    Custody (f.park c) e ts where
  balance c' := by
    have hb := h.balance c'
    simp only [Reads.completedCount, Reads.park_received, Reads.park_completed,
      Reads.park_pendingReads, handled_cons, Thread.holds, Option.some.injEq, List.count_append,
      List.count_singleton, beq_iff_eq] at hb ⊢
    omega
  once := h.once
  flag c' := by
    have hr := h.ready c (Multiset.mem_cons_self _ _)
    by_cases hne : c' = c
    · subst hne
      simp [Reads.park, Reads.setQueued, hr]
    · simpa [Reads.park, Reads.setQueued, hne] using h.flag c'
  ready c' hc' := by
    have hne : c' ≠ c := by
      rintro rfl
      exact park_notMem (h.handled_eq_zero hd rfl) hc'
    simpa [Reads.park, Reads.setQueued, hne] using h.ready c' (Multiset.mem_cons_of_mem hc')

/-- The data handler initializes the extension of the read it holds. -/
theorem inits (h : Custody f e (.init c ::ₘ ts)) (hd : e.deliveredCount c ≤ e.acquired.count c)
    (ht : t = .reject c ∨ t = .park c) :
    Custody { f with ext := Function.update f.ext c ⟨false, true⟩ } e (t ::ₘ ts) where
  balance c' := by
    have := h.balance c'
    rcases ht with rfl | rfl <;> simpa [Thread.holds, Reads.completedCount] using this
  once := h.once
  flag := h.flag_update (h.notMem_of_holds hd rfl) (by simp)
  ready c' hc' := by
    by_cases hne : c' = c
    · subst hne
      exact Function.update_self ..
    · dsimp only
      rw [Function.update_of_ne hne]
      rcases Multiset.mem_cons.mp hc' with hc' | hc'
      · rcases ht with rfl | rfl
        · cases hc'
        · cases hc'
          exact absurd rfl hne
      · exact h.ready c' (Multiset.mem_cons_of_mem hc')

/-- The class driver hands in a request that no part of the driver has. -/
theorem receives {garbage : Option Bool} {srbs : Cookie → Srb} {irpCancel : Cookie → Bool}
    (h : Custody f e ts) (hd : e.deliveredCount c ≤ e.acquired.count c) (ho : ¬f.outstanding c) :
    Custody { f with
      srbs := srbs
      ext := match garbage with
        | none => f.ext
        | some queued => Function.update f.ext c ⟨queued, false⟩
      irpCancel := irpCancel
      received := f.received ++ [c] } e (.enter c ::ₘ ts) := by
  have ho : f.received.count c ≤ f.completedCount c := Nat.le_of_not_lt ho
  have hb := h.balance c
  have hpend : c ∉ f.pendingReads := by
    apply List.count_eq_zero.mp
    omega
  have hhand : handled ts c = 0 := by omega
  constructor
  · intro c'
    have := h.balance c'
    simp only [Reads.completedCount, handled_cons, Thread.holds, Option.some.injEq,
      List.count_append, List.count_singleton, beq_iff_eq] at this ⊢
    omega
  · intro c'
    have := h.once c'
    simp only [Reads.completedCount, List.count_append, List.count_singleton, beq_iff_eq] at this ⊢
    split_ifs with hcc
    · subst hcc
      exact Nat.add_le_add_right ho 1
    · omega
  · cases garbage with
    | none => exact h.flag
    | some queued => exact h.flag_update hpend (by simp)
  · intro c' hc'
    have hold : Thread.park c' ∈ ts := by
      rcases Multiset.mem_cons.mp hc' with hc' | hc'
      · cases hc'
      · exact hc'
    have hne : c' ≠ c := by
      rintro rfl
      exact park_notMem hhand hold
    cases garbage with
    | none => exact h.ready c' hold
    | some queued =>
      dsimp only
      rw [Function.update_of_ne hne]
      exact h.ready c' hold

/-- A step of the device hands a read to the engine, completes one the engine delivers, or does
neither. -/
theorem fed {d d' : Device} (h : Custody f d.eng ts)
    (hd : ∀ c, d.eng.deliveredCount c ≤ d.eng.acquired.count c)
    (hf : Device.Feeds Reads.callbacks d d' f f') : Custody f' d'.eng ts := by
  cases hf with
  | @acquires answer ha _ hacq hdel =>
    have hcase := Reads.acquired_acquireBuffer f
    rw [show f.acquireBuffer.1 = some answer from ha] at hcase
    generalize hf' : f.acquireBuffer.2 = f' at hcase
    change Custody f.acquireBuffer.2 d'.eng ts
    rw [hf']
    cases hcase with
    | @some srb rest hp =>
      have hmem : srb ∈ f.pendingReads := by
        rw [hp]
        exact List.mem_cons_self ..
      have hu := h.unparks hd (t := .drained srb) hmem rfl (by simp)
      refine ⟨fun c => ?_, hu.once, hu.flag, fun c hc => hu.ready c (Multiset.mem_cons_of_mem hc)⟩
      have hb := hu.balance c
      simp only [handled_cons, Thread.holds, Option.some.injEq, Engine.deliveredCount, hacq, hdel,
        List.count_append, List.count_singleton, beq_iff_eq] at hb ⊢
      omega
  | finds ha hacq hdel =>
    have hcase := Reads.acquired_acquireBuffer f
    rw [show f.acquireBuffer.1 = none from ha] at hcase
    generalize hf' : f.acquireBuffer.2 = f' at hcase
    change Custody f.acquireBuffer.2 d'.eng ts
    rw [hf']
    cases hcase
    refine ⟨fun c => ?_, h.once, h.flag, h.ready⟩
    rw [Engine.deliveredCount, hdel, hacq]
    exact h.balance c
  | @delivers x hq hacq hdel =>
    refine ⟨fun c => ?_, fun c => ?_, h.flag, h.ready⟩
    · have hb := h.balance c
      simp only [Reads.callbacks, Reads.deliverFrame, Reads.completeRead, Reads.completedCount,
        Engine.deliveredCount, hacq, hdel, List.map_append, List.map_cons, List.map_nil,
        List.count_append] at hb ⊢
      omega
    · have ho := h.once c
      simp only [Reads.callbacks, Reads.deliverFrame, Reads.completeRead, Reads.completedCount,
        List.map_append, List.count_append] at ho ⊢
      omega
  | silent hacq hdel =>
    refine ⟨fun c => ?_, h.once, h.flag, h.ready⟩
    rw [Engine.deliveredCount, hdel, hacq]
    exact h.balance c

end Custody

variable {s s' : Pin}

theorem Custody.runs {t : Thread} (h : Custody s.reads s.dev.eng (t ::ₘ s.threads))
    (hd : ∀ c, s.dev.eng.deliveredCount c ≤ s.dev.eng.acquired.count c) (hx : Runs s t s') :
    Custody s'.reads s'.dev.eng s'.threads := by
  cases hx with
  | entered hr hg ht => rcases ht with ⟨rfl, -⟩ | rfl <;> exact h.goOn rfl (by simp)
  | refused hr => exact h.goOn rfl (by simp)
  | refuse => exact h.completes rfl rfl rfl rfl rfl
  | answer | reject | fail | cancelled =>
    apply Custody.begins
    · exact h.completes rfl rfl rfl rfl rfl
    · rfl
  | init ht => exact h.inits (hd _) ht
  | parkFails => exact h.goOn rfl (by simp)
  | parked hr hs hc => exact (h.parks (hd _)).begins rfl
  | pump hl hf | notify hl hf => exact (((h.done rfl).fed hd (.of_feed hf))).begins rfl
  | pumpNone hl | notifyNone hl => exact (h.done rfl).begins rfl
  | cancelEntered hr hg => exact (h.done rfl).begins rfl
  | cancelRefused hr => exact h.done rfl
  | claimed hq ho => exact (h.done rfl).unparks hd ((h.flag _).mp ⟨hq, ho⟩) rfl (by simp)
  | claimStopped | claimNotify => exact (h.done rfl).begins rfl
  | left | signal => exact h.done rfl
  | leftLast => exact (h.done rfl).begins rfl
  | skipped | drained => exact h.completes rfl rfl rfl rfl rfl
  | flushDone hp => exact h.done rfl
  | flush hp =>
    refine (h.done rfl).unparks hd ?_ rfl (by simp)
    rw [hp]
    exact List.mem_cons_self ..
  | flushed =>
    apply Custody.begins
    · exact h.completes rfl rfl rfl rfl rfl
    · rfl

theorem Custody.steps {a : Act} (h : Custody s.reads s.dev.eng s.threads)
    (hd : ∀ c, s.dev.eng.deliveredCount c ≤ s.dev.eng.acquired.count c) (hs : Steps s a s') :
    Custody s'.reads s'.dev.eng s'.threads := by
  cases hs with
  | dev ha hf => exact h.fed hd (.of_feed hf)
  | @thread t ts _ ht hx =>
    refine Custody.runs (s := { s with threads := ts }) ?_ hd hx
    rwa [← ht]
  | skip ha hp hm =>
    refine h.unparks hd ?_ rfl (by simp)
    rw [hp]
    exact List.mem_cons_self ..
  | receive ho => exact h.receives (hd _) ho
  | cancelPacket ho hc =>
    exact Custody.begins (f := { s.reads with irpCancel := _ }) ⟨h.balance, h.once, h.flag, h.ready⟩ rfl
  | cancelOther ho hc => exact ⟨h.balance, h.once, h.flag, h.ready⟩
  | beginFlush => exact h.begins rfl
  | @setRun dev f n hc hn hf =>
    exact Custody.fed (f := { s.reads with frameNumber := n }) ⟨h.balance, h.once, h.flag, h.ready⟩ hd
      (.of_feed hf)
  | drain hdr hp =>
    refine h.unparks hd ?_ rfl (by simp)
    rw [hp]
    exact List.mem_cons_self ..
  | close | wake => exact h
  | closeStop hc hf | closeDestroy hc hf => exact h.fed hd (.of_feed hf)
  | closeReturn hc he hf => exact h.fed hd (.of_feed hf)

theorem Custody.of_reaches {P : Pin → Act → Prop} (h : machine.Reaches P s) :
    Custody s.reads s.dev.eng s.threads := by
  refine h.invariant (I := fun s => Custody s.reads s.dev.eng s.threads) ?_ ?_
  · exact ⟨fun c => rfl, fun c => Nat.zero_le _, fun c => by simp [machine], fun c hc => by cases hc⟩
  · intro s a s' hr hi _ hs
    exact hi.steps (Engine.delivered_le_acquired (Device.engine_reachable (reachable hr)))
      (.of_step hs)

/-- Every request the driver was handed has been completed, or it has not and is in exactly one
place: in the hands of one handler, parked once, or in the engine once. -/
theorem read_custody (h : machine.Reachable s) (c : Cookie) :
    s.reads.received.count c = s.reads.completedCount c + s.custodians c ∧ s.custodians c ≤ 1 := by
  have hc := Custody.of_reaches h
  have hb := hc.balance c
  have ho := hc.once c
  rw [Engine.heldCount_eq (Device.engine_reachable (reachable h)) c] at hb
  unfold custodians
  omega

def devRun (as : List Device.Act) : List Act := as.map .dev

def parkRun (srb : Cookie) : List Act :=
  [.receive srb ⟨.readData, 1, true, some 8, 8, true⟩ none, .thread (.enter srb), .thread (.init srb),
    .thread (.park srb), .thread .pump, .thread .leave]

def readRun : List Act :=
  devRun [.acquireMutex, .api (.setState .pause), .releaseMutex] ++ parkRun 7 ++
    devRun [.runs (.pump .handler .elect), .runs (.pump .handler .top),
      .runs (.pump .handler (.claim 0)), .runs (.pump .handler .bottom), .acquireMutex] ++ [.setRun] ++
    devRun (List.replicate 11 .go ++ Device.lapRun .control 0 1 7 ++
      [.runs (.attachAtBus 0), .runs (.attachComplete 0 statusSuccess 7), .runs (.attachLive true),
        .runs (.requestWork .completion .exchange), .runs (.requestWork .completion .acquireLock),
        .runs (.requestWork .completion .queue), .runs .irpDone, .runs .irpDoneTest] ++
      List.replicate 8 .go ++ [.releaseMutex])

theorem read_custody_readRun :
    let s := machine.after (fun _ _ => True) readRun
    s.dev.eng.heldCount 7 = 1 ∧ s.reads.received.count 7 = s.reads.completedCount 7 + s.custodians 7 ∧
      s.custodians 7 ≤ 1 :=
  ⟨by decide, read_custody (machine.reaches_after _ readRun) 7⟩

end Pin
end Photonic
