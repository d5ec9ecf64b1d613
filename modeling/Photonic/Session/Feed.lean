import Photonic.Engine.Election
import Photonic.Engine.Supply
import Photonic.Session.Calls
import Photonic.Session.Idle
import Photonic.Session.FrontEnd

namespace Photonic

/-- The lap hands a buffer back, which it acquired before the engine drained. -/
def Pc.handsBack : Pc → Bool
  | .pump _ (.handBack _) => true
  | _ => false

/-- A draining engine whose pump was waited out has no lap under way, and a running one
hands no buffer back. -/
structure Halted (s : Device) : Prop where
  idle : s.eng.cap.draining = true → s.ctl.quiescing = false → LapsIdle s.eng.pool
  running : s.eng.cap.draining = false → Pool.Free Pc.handsBack s.eng.pool

namespace Halted

theorem exec {e e' : Engine} {pc : Pc} (h : Pool.Free Pc.handsBack (pc ::ₘ e.pool))
    (hd : e.cap.draining = false) (hx : Engine.Exec e pc e') : Pool.Free Pc.handsBack e'.pool := by
  have ht := h.tail
  cases hx with
  | publishDraining hn => rw [hd] at hn; cases hn
  | electLost | lapDone | workQueued | workQueue | workUndone => exact Engine.free_ret ht rfl
  | irpDoneMore | irpDoneRunning | irpDoneSignal | releaseDeliver => exact ht
  | rejectDelivered hn => exact ht.add (by cases hn <;> rfl)
  | attachBegun hn => exact (ht.add rfl).add (by cases hn <;> rfl)
  | _ => exact ht.add rfl

theorem data {s : Device} {e : Engine} {x : Engine.Act} {ses : Session} (h : Halted s)
    (hx : x.IsData) (hs : s.eng.step x = some e) : Halted { s with eng := e, ses := ses } := by
  have hc := (Engine.data_sameControl hx hs).draining
  refine ⟨fun hd hq => (h.idle (hc ▸ hd) hq).data (hc ▸ hd) hx hs, fun hd => ?_⟩
  have hd' : s.eng.cap.draining = false := hc ▸ hd
  have hr := h.running hd'
  cases x with
  | run pc o =>
    obtain ⟨pool, hpool, hx⟩ := Engine.run_cases hs
    rw [hpool] at hr
    exact exec (e := { s.eng with pool := pool }) hr hd' hx
  | callback d st =>
    obtain ⟨-, hx⟩ := Engine.callback_cases hs
    cases hx with
    | recycling => exact hr.add rfl
    | deferred => exact hr
    | alreadyTaken => exact hr
  | callPump k | callRequestWork k | startWork =>
    simp only [Engine.step] at hs
    split at hs <;> cases hs
    exact hr.add rfl
  | control r => cases hx

theorem keep {s s' : Device} (h : Halted s) (hd : s'.eng.cap.draining = s.eng.cap.draining)
    (hl : LapsIdle s.eng.pool → LapsIdle s'.eng.pool)
    (hb : Pool.Free Pc.handsBack s.eng.pool → Pool.Free Pc.handsBack s'.eng.pool)
    (hq : s.eng.cap.draining = true → s'.ctl.quiescing = false → s.ctl.quiescing = false) :
    Halted s' :=
  ⟨fun hd' hq' => hl (h.idle (hd ▸ hd') (hq (hd ▸ hd') hq')), fun hd' => hb (h.running (hd ▸ hd'))⟩

theorem handsBack_of_idle {pool : Multiset Pc} (h : LapsIdle pool) :
    Pool.Free Pc.handsBack pool := by
  intro pc hpc
  have := h pc hpc
  cases pc with
  | pump k pump => cases pump <;> first | rfl | cases this
  | _ => rfl

theorem moves {s s' : Device} {o : Answer} (h : Halted s) (hm : Moded s)
    (he : Elected s.eng.cap s.eng.pool) (hx : Device.Moves s o s.ctl s') : Halted s' := by
  have hmode := hm.mode
  generalize hctl : s.ctl = c at hx
  rw [hctl] at hmode
  cases hx with
  | quiesceDrain =>
    refine ⟨fun _ hq => ?_, nofun⟩
    simp only [Device.setCap_ctl] at hq
    split at hq <;> cases hq
  | quiescePumpIdle hidle =>
    have hrun : runners s.eng.pool = _ := he
    rw [hidle] at hrun
    exact ⟨fun _ _ => lapsIdle_of_runners_eq_zero hrun, h.running⟩
  | startUndrain | workResume =>
    refine ⟨nofun, fun _ => handsBack_of_idle (h.idle (hmode true rfl) ?_)⟩
    rw [hctl]
    rfl
  | quiesceStop | releaseStop | releaseFree =>
    refine h.keep (by simp) (by simp) (by simp) ?_
    simp_all [Ctl.quiescing]
  | @startAllocated eb res _ _ => cases res <;> exact h.keep rfl id id fun _ _ => by rw [hctl]; rfl
  | startPump | workPump | workRequest | releaseQuarantined =>
    exact h.keep rfl (fun hl => hl.add rfl) (fun hb => hb.add rfl) fun _ _ => by rw [hctl]; rfl
  | quiesceClaim =>
    exact h.keep rfl (fun hl => hl.add rfl) (fun hb => hb.add rfl) fun _ hq => by cases hq
  | startChunks => exact h.keep rfl id id fun _ _ => by rw [hctl]; rfl
  | _ =>
    refine h.keep rfl id id ?_
    simp_all [Ctl.quiescing]

theorem steps {s s' : Device} {a : Device.Act} (h : Halted s) (hm : Moded s)
    (he : Elected s.eng.cap s.eng.pool) (hs : Device.Steps s a s') : Halted s' := by
  cases hs with
  | data ha hx => exact h.data (Device.Act.isData ha) hx
  | notifyCancel _ hx => exact h.data (x := .callRequestWork .handler) rfl hx
  | workMutex hctl hx =>
    simp only [Engine.region] at hx
    split at hx <;> cases hx
    exact h.keep rfl (fun hl => hl.mono (Multiset.erase_subset _ _))
      (fun hb => hb.mono (Multiset.erase_subset _ _)) fun _ _ => by rw [hctl]; rfl
  | ctl hx => exact h.moves hm he hx
  | lateListen | lateGrant | destroyNone | destroyLeak | destroy | setState | setOneShot =>
    exact h.keep rfl id id fun _ hq => hq
  | acquireMutex hctl | releaseMutex hctl | start hctl | stop hctl | ensureListen hctl _
  | surpriseRemoval hctl => exact h.keep rfl id id fun _ _ => by rw [hctl]; rfl

theorem of_reaches {P : Device → Device.Act → Prop} {s : Device}
    (h : Device.machine.Reaches P s) : Halted s := by
  refine h.invariant (I := Halted) ⟨fun _ _ => Pool.free_zero, fun _ => Pool.free_zero⟩ ?_
  intro s a s' hr hi _ hs
  exact hi.steps (.of_reaches hr) (.of_reachable (Device.engine_reachable hr)) (.of_step hs)

end Halted

/-- The executor calls the pump next: it has cleared `Draining`. -/
def Ctl.pumps : Ctl → Bool
  | .start _ pc => pc = .pump
  | .work pc => pc = .pump
  | _ => false

namespace Device

/-- Behind a step of the executor a free descriptor of the running engine is unseen only if
it was before, or the executor calls the pump next. -/
theorem Moves.unseen {s s' : Device} {o : Answer} {short : Bool} (hm : Moded s)
    (hx : Moves s o s.ctl s') (hd : s'.eng.cap.draining = false) (h : s'.eng.Unseen short) :
    s'.ctl.pumps = true ∨
      (s.eng.cap.draining = false ∧ s.eng.Unseen short ∧ s.ctl.pumps = false) := by
  have hmode := hm.mode
  generalize s.ctl = c at hx hmode
  cases hx with
  | startUndrain | workResume => exact .inl rfl
  | quiesceDrain => cases hd
  | startPump | workPump => cases h.asks.head
  | releaseQuarantined =>
    have : s.eng.cap.draining = true := hmode true rfl
    rw [show s.eng.cap.draining = false from hd] at this
    cases this
  | quiesceClaim =>
    have h := Engine.Unseen.of_spawn h rfl
    exact .inr ⟨hd, ⟨h.again, h.asks, h.sees, h.idle⟩, rfl⟩
  | workRequest => exact .inr ⟨hd, Engine.Unseen.of_spawn h rfl, rfl⟩
  | quiesceStop | releaseStop | releaseFree =>
    simp only [goto_eng, isochStop_eng, freeOne_eng] at hd h
    exact .inr ⟨hd, h, rfl⟩
  | @startAllocated eb res _ _ =>
    cases res <;> exact .inr ⟨hd, ⟨h.again, h.asks, h.sees, h.idle⟩, rfl⟩
  | startNotConfigured hpc =>
    rcases hpc with rfl | rfl <;> exact .inr ⟨hd, h, rfl⟩
  | listenNothing hpc => exact .inr ⟨hd, h, rfl⟩
  | _ => exact .inr ⟨hd, ⟨h.again, h.asks, h.sees, h.idle⟩, rfl⟩

theorem Steps.unseen {s s' : Device} {a : Act} {short : Bool} (hm : Moded s) (hs : Steps s a s')
    (ha : ∀ pc o, a ≠ .run pc o) (hd : s'.eng.cap.draining = false) (h : s'.eng.Unseen short) :
    s'.ctl.pumps = true ∨ (s.eng.cap.draining = false ∧ s.eng.Unseen short ∧
      (s.ctl.pumps = true → s'.ctl.pumps = true)) := by
  cases hs with
  | @data a x e hax hx =>
    cases a with
    | run pc o => exact absurd rfl (ha pc o)
    | callback d st =>
      cases hax
      obtain ⟨-, hx⟩ := Engine.callback_cases hx
      have hc : e.cap.draining = s.eng.cap.draining := by cases hx <;> rfl
      exact .inr ⟨hc ▸ hd, h.callback hx, id⟩
    | startWork =>
      cases hax
      simp only [Engine.step] at hx
      split at hx <;> cases hx
      have h := Engine.Unseen.of_spawn h rfl
      exact .inr ⟨hd, ⟨h.again, h.asks, h.sees, h.idle⟩, id⟩
    -- the pump that was called asks for a buffer next, which `Unseen` rules out
    | callPump =>
      cases hax
      cases hx
      cases h.asks.head
    | _ => cases hax
  | notifyCancel _ hx =>
    cases hx
    exact .inr ⟨hd, Engine.Unseen.of_spawn h rfl, id⟩
  | workMutex hctl hx =>
    simp only [Engine.region] at hx
    split at hx
    · next hmem =>
      cases hx
      have hp : s.ctl.pumps = false := by rw [hctl]; rfl
      have hidle : s.eng.cap.freeList ≠ [] ∨ ∃ q ∈ s.eng.pool, q.givesBack = true :=
        h.idle.imp_right fun hq => hq.imp fun _ hq => ⟨Multiset.mem_of_mem_erase hq.1, hq.2⟩
      refine .inr ⟨hd, ⟨h.again, ?_, ?_, hidle⟩, fun hp' => absurd hp' (Bool.eq_false_iff.mp hp)⟩
      · rw [← Multiset.cons_erase hmem]
        exact h.asks.add rfl
      · rw [← Multiset.cons_erase hmem]
        exact h.sees.add rfl
    · cases hx
  | ctl hx =>
    obtain hp | ⟨hd', h', hp⟩ := Moves.unseen hm hx hd h
    · exact .inl hp
    · exact .inr ⟨hd', h', fun hp' => absurd hp' (Bool.eq_false_iff.mp hp)⟩
  | acquireMutex hctl | releaseMutex hctl | start hctl | stop hctl | ensureListen hctl _
  | surpriseRemoval hctl =>
    refine .inr ⟨hd, h, fun hp => ?_⟩
    rw [hctl] at hp
    cases hp
  | _ => exact .inr ⟨hd, ⟨h.again, h.asks, h.sees, h.idle⟩, id⟩

end Device

/-- The callbacks of a front-end. An Acquire callback that hands nothing out leaves nothing to
hand out. -/
structure BufferSource (F : Type) extends Callbacks F where
  settles : ∀ {f}, (acquire f).1 = none → (acquire (acquire f).2).1 = none

/-- A front-end with its own operations. An operation tells whether it goes on to call the
pump, which it does when it makes a buffer ready for a running engine. -/
structure FrontEnd (F Op : Type) extends BufferSource F where
  init : F
  serve : Device → F → Op → Option (F × Bool)
  pumps : ∀ {s f op f'}, Device.machine.Reachable s → s.eng.cap.draining = false →
    serve s f op = some (f', false) → (acquire f').1.isSome = true → (acquire f).1.isSome = true

/-- The engine with its front-end. `owes` counts the operations that have not called the pump
yet, `short` tells whether the last lap has rejected a buffer. -/
structure Fed (F : Type) where
  dev : Device
  front : F
  owes : ℕ
  short : Bool

namespace Fed

/-- A step of the device, an operation of the front-end, and the call of the pump behind
one. -/
inductive Act (Op : Type)
  | dev (a : Device.Act)
  | serve (op : Op)
  | pump
  deriving DecidableEq

variable {F Op : Type} (src : BufferSource F) (fe : FrontEnd F Op)

def shorts (s : Fed F) : Device.Act → Bool
  | .run pc _ => pc.shorts s.short
  | _ => s.short

def devStep (s : Fed F) (a : Device.Act) : Option (Fed F) :=
  (s.dev.feed src.toCallbacks s.front a).map fun p => ⟨p.1, p.2, s.owes, s.shorts a⟩

def step (s : Fed F) : Act Op → Option (Fed F)
  | .dev a => if a = .callPump then none else s.devStep fe.toBufferSource a
  | .serve op =>
    (fe.serve s.dev s.front op).map fun p => { s with front := p.1, owes := s.owes + p.2.toNat }
  | .pump =>
    -- a destroyed engine is not called
    if s.dev.life = .alive then { s with owes := s.owes - 1 }.devStep fe.toBufferSource .callPump
    else some { s with owes := s.owes - 1 }

def machine : Machine (Fed F) (Act Op) := ⟨⟨Device.create, fe.init, 0, false⟩, step fe⟩

/-- The front-end has a buffer its Acquire callback would hand out. -/
def Ready (f : F) : Prop := (src.acquire f).1.isSome = true

instance (f : F) : Decidable (Ready src f) := inferInstanceAs (Decidable (_ = true))

/-- An activity that neither is a call of the pump nor belongs to an attach or a detach. -/
def quiet : Pc → Bool
  | .requestWork k _ => k ≠ .completion
  | .worker _ => true
  | .releaseDeliver _ => true
  | _ => false

/-- No call of the pump, no completion routine, and no attach or detach request. -/
structure Quiescent (s : Fed F) : Prop where
  noCall : s.owes = 0
  noControl : s.dev.ctl.pumps = false
  pool : ∀ pc ∈ s.dev.eng.pool, quiet pc = true

/-- A call of the pump that a lap is still to start behind. -/
def PumpDue (s : Fed F) : Prop :=
  0 < s.owes ∨ s.dev.ctl.pumps = true ∨ s.dev.eng.cap.pumpAgain = true ∨
    ∃ pc ∈ s.dev.eng.pool, pc.asks = true

instance (s : Fed F) : Decidable s.PumpDue :=
  have : Decidable (∃ pc ∈ s.dev.eng.pool, pc.asks = true) := Multiset.decidableExistsMultiset
  inferInstanceAs (Decidable (_ ∨ _ ∨ _ ∨ _))

/-- No buffer is left waiting: the engine drains, the front-end has no buffer ready, or a
call of the pump is due. -/
def Attended (s : Fed F) (f : F) : Prop :=
  s.dev.eng.cap.draining = true ∨ ¬Ready src f ∨ s.PumpDue

/-- A failed attach delivers its buffer, and a lap that rejected one ends at its bound, only
when no other buffer is left waiting. -/
def NoneWaits (s : Fed F) : Device.Act → Prop
  | .run (.attachFailed cookie st) o =>
    s.Attended src (Device.handOver src.toCallbacks s.dev.ses s.front (.run (.attachFailed cookie st) o))
  | .run (.pump k (.rejectDeliver i cookie)) o =>
    captureFrameCount ≤ i + 1 → s.dev.eng.cap.freeList = [] ∨
      s.Attended src (Device.handOver src.toCallbacks s.dev.ses s.front
        (.run (.pump k (.rejectDeliver i cookie)) o))
  | .run (.pump _ (.beginAttach i _)) _ =>
    captureFrameCount ≤ i + 1 → s.short = true → s.dev.eng.cap.freeList = [] ∨ s.Attended src s.front
  | _ => True

/-- Every step of the device is such a step. -/
def Attends (s : Fed F) : Act Op → Prop
  | .dev a => s.NoneWaits src a
  | _ => True

/-- A free descriptor and a ready buffer wait for a call of the pump that is to come. -/
def Watched (s : Fed F) : Prop :=
  s.dev.eng.cap.draining = false → Ready src s.front → s.dev.eng.Unseen s.short →
    0 < s.owes ∨ s.dev.ctl.pumps = true

section
variable {src} {fe} {s s' : Fed F}

theorem devStep_eq {a : Device.Act} (h : s.devStep src a = some s') :
    s.dev.feed src.toCallbacks s.front a = some (s'.dev, s'.front) ∧ s'.owes = s.owes ∧
      s'.short = s.shorts a := by
  obtain ⟨p, hp, rfl⟩ := Option.map_eq_some_iff.mp h
  exact ⟨hp, rfl, rfl⟩

theorem not_due {pc : Pc} {o : Oracle} {short : Bool} (h : Device.step s.dev (.run pc o) = some s'.dev)
    (ha : pc.asks = false) (hu : s'.dev.eng.Unseen short) (hd : s.PumpDue) :
    0 < s.owes ∨ s.dev.ctl.pumps = true := by
  obtain ⟨e, he, hs⟩ := Device.data_eq h
  rw [hs] at hu
  rcases hd with hd | hd | hd | ⟨q, hq, hasks⟩
  · exact .inl hd
  · exact .inr hd
  · have hagain := hu.again
    rw [show _ = s.dev.eng.cap.pumpAgain from Engine.pumpAgain_step he ?_ ?_, hd] at hagain
    · cases hagain
    · rintro k o' ⟨rfl, -⟩
      cases ha
    · rintro k o' ⟨rfl, -⟩
      cases ha
  · have hw : q ≠ .worker .wait := by
      rintro rfl
      cases hasks
    have hr : ∀ o', Engine.Act.run pc o ≠ .run q o' := by
      rintro o' ⟨rfl, -⟩
      rw [ha] at hasks
      cases hasks
    rw [hu.asks q (Engine.mem_step hw hr hq he)] at hasks
    cases hasks

theorem Watched.run {pc : Pc} {o : Oracle} (h : s.Watched src) (hr : Engine.machine.Reachable s.dev.eng)
    (hh : Halted s.dev) (hc : Called s.dev.ctl s.dev.eng.pool) (hm : Moded s.dev)
    (hn : s.NoneWaits src (.run pc o)) (hx : s.devStep src (.run pc o) = some s') :
    s'.Watched src := by
  obtain ⟨hfeed, howes, hshort⟩ := devStep_eq hx
  have hstep := Device.feed_step hfeed
  obtain ⟨e, he, hs⟩ := Device.data_eq hstep
  intro hd hready hu
  have hsame := (Engine.data_sameControl (a := .run pc o) trivial he).draining
  have hd' : s.dev.eng.cap.draining = false := by rw [hs] at hd; exact hsame ▸ hd
  have hctl : s'.dev.ctl = s.dev.ctl := by rw [hs]
  rw [howes, hctl]
  rw [hshort] at hu
  have hattended : ∀ f, s'.front = f → pc.asks = false → s.Attended src f →
      0 < s.owes ∨ s.dev.ctl.pumps = true := by
    rintro f rfl ha (hdr | hno | hdue)
    · rw [hd'] at hdr
      cases hdr
    · exact absurd hready hno
    · exact not_due hstep ha hu hdue
  obtain ⟨pool, hpool, hexec⟩ := Engine.run_cases he
  have hu' : e.Unseen (pc.shorts s.short) := by rw [hs] at hu; exact hu
  have hel := Elected.of_reachable hr
  rw [hpool] at hel
  have hfree := (Placed.of_reachable hr).freeList_length_le
  have hidle : pc.runs = true → pc.acquires = false → e.cap.freeList ≠ [] := by
    intro hruns ha
    obtain hne | ⟨q, hq, hg⟩ := hu'.idle
    · exact hne
    · rw [hexec.free_givesBack (e := { s.dev.eng with pool := pool }) hel hruns ha q hq] at hg
      cases hg
  have hseen : ¬pc.Slips s.short → Ready src s.front → 0 < s.owes ∨ s.dev.ctl.pumps = true := by
    intro hslip hr'
    have := hu'.exec (e := { s.dev.eng with pool := pool }) hel hfree hd' hslip hexec
    exact h hd' hr' (by rw [← hpool] at this; exact this)
  have hfront : pc.acquires = false → s'.front =
      Device.handOver src.toCallbacks s.dev.ses s.front (.run pc o) := fun ha =>
    Device.feed_other hfeed fun _ _ hpc => by cases hpc; exact ha
  have hquiet : pc.acquires = false → pc.delivery = none → Ready src s.front := by
    intro ha hdel
    have hf := hfront ha
    simp only [Device.handOver, Device.Act.delivery, hdel] at hf
    exact hf ▸ hready
  cases pc with
  | attachFailed => exact hattended _ (hfront rfl) rfl hn
  | detachDeliver =>
    cases hexec
    cases hu'.asks.head
  | releaseDeliver =>
    -- the executor is in the release of a draining engine
    have hcall := hc _ (hpool ▸ Multiset.mem_cons_self _ _) _ rfl
    have hmode := hm.mode true
    revert hcall hmode
    cases s.dev.ctl with
    | release r pc => exact fun _ hmode => absurd (hmode rfl) (Bool.eq_false_iff.mp hd')
    | start eb pc | quiesce r pc | work pc => cases pc <;> nofun
    | _ => nofun
  | pump k pump =>
    cases pump with
    | acquire i d =>
      have hacq := Device.feed_acquire hfeed
      cases ho : o.acquired with
      | none =>
        rw [ho] at hacq
        have hno := src.settles (congrArg Prod.fst hacq)
        rw [hacq] at hno
        rw [Ready, hno] at hready
        cases hready
      | some b =>
        obtain ⟨pool', hpool', hx⟩ := Engine.acquire_cases he
        rw [ho] at hx hacq
        have := hu'.acquires (e := { s.dev.eng with pool := pool' }) hx
        refine h hd' ?_ (by rw [← hpool'] at this; exact this)
        rw [Ready, hacq]
        rfl
    | rejectDeliver i cookie =>
      by_cases hb : captureFrameCount ≤ i + 1
      · rcases hn hb with hl | ha
        · have hne := hidle rfl rfl
          cases hexec
          exact absurd hl hne
        · exact hattended _ (hfront rfl) rfl ha
      · cases hexec with
        | rejectDelivered hnext =>
          cases hnext with
          | bottom hi => exact absurd hi hb
          | claim hi => cases hu'.sees.head
    | handBack =>
      have := hh.running hd' _ (hpool ▸ Multiset.mem_cons_self _ _)
      cases this
    | beginAttach i d =>
      have hf : s'.front = s.front := hfront rfl
      by_cases hb : captureFrameCount ≤ i + 1 ∧ s.short = true
      · rcases hn hb.1 hb.2 with hl | ha
        · have hne := hidle rfl rfl
          cases hexec
          exact absurd hl hne
        · exact hattended _ hf rfl ha
      · exact hseen hb (hf ▸ hready)
    | _ => exact hseen nofun (hquiet rfl rfl)
  | _ => exact hseen nofun (hquiet rfl rfl)

theorem Watched.quietly {a : Device.Act} (h : s.Watched src) (hm : Moded s.dev)
    (hrun : ∀ pc o, a ≠ .run pc o) (hx : s.devStep src a = some s') : s'.Watched src := by
  obtain ⟨hfeed, howes, hshort⟩ := devStep_eq hx
  have hshort' : s'.short = s.short := by
    rw [hshort]
    unfold shorts
    split
    · exact absurd rfl (hrun _ _)
    · rfl
  have hfront : s'.front = s.front := by
    rw [Device.feed_other hfeed fun pc o hpc => absurd hpc (hrun pc o)]
    unfold Device.handOver Device.Act.delivery
    split
    · rfl
    · next hdel =>
      split at hdel
      · exact absurd rfl (hrun _ _)
      · cases hdel
  intro hd hready hu
  rw [howes]
  rw [hshort'] at hu
  rcases (Device.Steps.of_step (Device.feed_step hfeed)).unseen hm hrun hd hu with hp | ⟨hd', hu', hp⟩
  · exact .inr hp
  · exact (h hd' (hfront ▸ hready) hu').imp_right hp

theorem Watched.step {a : Act Op} (h : s.Watched fe.toBufferSource) (hr : Device.machine.Reachable s.dev)
    (hn : s.Attends fe.toBufferSource a) (hx : s.step fe a = some s') :
    s'.Watched fe.toBufferSource := by
  have hm : Moded s.dev := .of_reaches hr
  have heng := Device.engine_reachable hr
  cases a with
  | dev a =>
    simp only [Fed.step] at hx
    split at hx
    · cases hx
    · by_cases hrun : ∃ pc o, a = .run pc o
      · obtain ⟨pc, o, rfl⟩ := hrun
        exact h.run heng (.of_reaches hr) (.of_reaches hr) hm hn hx
      · push Not at hrun
        exact h.quietly hm hrun hx
  -- an operation that makes a buffer ready owes a pump, one that owes none made none ready
  | serve op =>
    obtain ⟨⟨f, b⟩, hop, rfl⟩ := Option.map_eq_some_iff.mp hx
    intro hd hready hu
    cases b with
    | true => exact .inl (Nat.succ_pos _)
    | false => exact h hd (fe.pumps hr hd hop hready) hu
  | pump =>
    simp only [Fed.step] at hx
    split at hx
    · next hl =>
      obtain ⟨hfeed, -⟩ := devStep_eq hx
      intro hd hready hu
      have hs : s.dev.data (.callPump .handler) = some s'.dev := by
        simpa [Device.step, hl] using Device.feed_step hfeed
      obtain ⟨e, he, hs⟩ := Device.data_eq hs
      have he : s.dev.eng.spawn (.pump .handler .elect) = e := Option.some.inj he
      rw [hs, ← he] at hu
      cases hu.asks.head
    · next hl =>
      cases hx
      intro hd
      rw [Device.Retired.of_reaches hr hl] at hd
      cases hd

theorem reachable {P : Fed F → Act Op → Prop} (h : (machine fe).Reaches P s) :
    Device.machine.Reachable s.dev := by
  refine h.project (N := Device.machine) Fed.dev rfl ?_
  intro s a s' hs hr
  cases a with
  | dev a =>
    simp only [machine, Fed.step] at hs
    split at hs
    · cases hs
    · exact hr.step trivial (Device.feed_step (devStep_eq hs).1)
  | serve op =>
    obtain ⟨p, -, rfl⟩ := Option.map_eq_some_iff.mp hs
    exact hr
  | pump =>
    simp only [machine, Fed.step] at hs
    split at hs
    · exact hr.step trivial (Device.feed_step (devStep_eq hs).1)
    · cases hs
      exact hr

theorem Watched.of_reaches (h : (machine fe).Reaches (Attends fe.toBufferSource) s) :
    s.Watched fe.toBufferSource := by
  refine h.invariant (I := Watched fe.toBufferSource) (fun hd => by cases hd) ?_
  intro s a s' hr hi hp hs
  exact hi.step (reachable hr) hp hs

theorem Watched.freeList_eq_nil (h : s.Watched src) (heng : Engine.machine.Reachable s.dev.eng)
    (hq : s.Quiescent) (hd : s.dev.eng.cap.draining = false) (hready : Ready src s.front) :
    s.dev.eng.cap.freeList = [] := by
  have hfree : ∀ p : Pc → Bool, (∀ pc, quiet pc = true → p pc = false) →
      Pool.Free p s.dev.eng.pool := fun p hp pc hpc => hp pc (hq.pool pc hpc)
  have hno : ∀ pc, quiet pc = true → pc.runs = false ∧ pc.asks = false ∧
      ∀ n, pc.sees n s.short = false := by
    intro pc hpc
    cases pc with
    | requestWork | worker | releaseDeliver => exact ⟨rfl, rfl, fun _ => rfl⟩
    | _ => cases hpc
  by_contra hne
  have hagain : s.dev.eng.cap.pumpAgain = false := by
    by_contra ha
    obtain ⟨k, pc, hpc, hruns⟩ := Engine.runner_of_pumpActive heng
      (Remembered.of_reachable heng (by simpa using ha))
    rw [(hno _ (hq.pool _ hpc)).1] at hruns
    cases hruns
  have hu : s.dev.eng.Unseen s.short :=
    ⟨hagain, hfree _ fun pc hpc => (hno pc hpc).2.1, hfree _ fun pc hpc => (hno pc hpc).2.2 _, .inl hne⟩
  rcases h hd hready hu with howes | hp
  · rw [hq.noCall] at howes
    cases howes
  · rw [hq.noControl] at hp
    cases hp

end

instance (s : Fed F) (f : F) : Decidable (s.Attended src f) :=
  inferInstanceAs (Decidable (_ ∨ _ ∨ _))

instance (s : Fed F) (a : Device.Act) : Decidable (s.NoneWaits src a) :=
  match a with
  | .run pc _ =>
    match pc with
    | .attachFailed _ _ => inferInstanceAs (Decidable (s.Attended src _))
    | .pump _ p =>
      match p with
      | .rejectDeliver _ _ => inferInstanceAs (Decidable (_ → _ ∨ s.Attended src _))
      | .beginAttach _ _ => inferInstanceAs (Decidable (_ → _ = true → _ ∨ s.Attended src _))
      | .elect | .top | .claim _ | .acquire _ _ | .giveBack _ | .reject _ _ _ | .publish _ _ _
      | .handBack _ | .bottom => .isTrue trivial
    | .attachAtBus _ | .detachAtBus _ | .attachComplete _ _ _ | .attachLive _ | .irpDone
    | .irpDoneTest | .irpDoneSignal | .beginDetach _ _ | .detachComplete _ _ _ _ _
    | .detachDeliver _ _ _ | .releaseDeliver _ | .requestWork _ _ | .worker _ => .isTrue trivial
  | .callback _ _ | .startWork | .callPump | .notifyCancel | .lateListen _ | .lateGrant _ _
  | .acquireMutex | .workMutex | .api _ | .ctl _ | .releaseMutex => .isTrue trivial

instance (s : Fed F) (a : Act Op) : Decidable (s.Attends src a) :=
  match a with
  | .serve _ | .pump => .isTrue trivial
  | .dev a => inferInstanceAs (Decidable (s.NoneWaits src a))

instance (s : Fed F) : Decidable s.Quiescent :=
  decidable_of_iff (s.owes = 0 ∧ s.dev.ctl.pumps = false ∧ ∀ pc ∈ s.dev.eng.pool, quiet pc = true)
    ⟨fun ⟨hc, hn, hp⟩ => ⟨hc, hn, hp⟩, fun h => ⟨h.noCall, h.noControl, h.pool⟩⟩

end Fed

/-- A read the class driver has handed in, with the size of its buffer if it has an MDL. -/
structure Read where
  srb : Cookie
  mdl : Option ℕ
  deriving DecidableEq, Repr

inductive ReadOp
  | park (read : Read)
  | cancel (srb : Cookie)
  | completePending
  deriving DecidableEq, Repr

namespace Read

/-- `PhotonicStreamAcquireBuffer`: a read without an MDL is completed, and the next one is
offered instead. -/
def acquireBuffer : List Read → Option (Cookie × Option ℕ) × List Read
  | [] => (none, [])
  | r :: reads => if r.mdl = none then acquireBuffer reads else (some (r.srb, r.mdl), reads)

/-- A parked read is pumped. Removing reads makes none ready. -/
def serve (_ : Device) (reads : List Read) : ReadOp → Option (List Read × Bool)
  | .park r => some (reads ++ [r], true)
  | .cancel srb => some (reads.eraseP (·.srb = srb), false)
  | .completePending => some (reads.drop 1, false)

theorem acquireBuffer_isSome (reads : List Read) :
    (acquireBuffer reads).1.isSome = true ↔ ∃ r ∈ reads, r.mdl ≠ none := by
  induction reads with
  | nil => simp [acquireBuffer]
  | cons r reads ih =>
    simp only [acquireBuffer]
    split <;> simp_all

theorem acquireBuffer_eq_nil {reads : List Read} (h : (acquireBuffer reads).1 = none) :
    (acquireBuffer reads).2 = [] := by
  induction reads with
  | nil => rfl
  | cons r reads ih =>
    simp only [acquireBuffer] at h ⊢
    split at h
    · next hr =>
      rw [if_pos hr]
      exact ih h
    · cases h

/-- The stream as the engine's front-end. -/
def frontEnd : FrontEnd (List Read) ReadOp where
  acquire := acquireBuffer
  deliver _ reads _ := reads
  init := []
  serve := serve
  pumps {s reads op reads'} _ _ hop hready := by
    rw [acquireBuffer_isSome] at hready ⊢
    obtain ⟨r, hr, hmdl⟩ := hready
    refine ⟨r, ?_, hmdl⟩
    cases op with
    | park => cases hop
    | cancel =>
      cases hop
      exact List.mem_of_mem_eraseP hr
    | completePending =>
      cases hop
      exact List.mem_of_mem_drop hr
  settles h := by rw [acquireBuffer_eq_nil h]; rfl

end Read

namespace Fed

def idleStartRun : List (Act ReadOp) :=
  [Act.dev .acquireMutex, .dev (.api (.start true))] ++ List.replicate 11 (Act.dev .go) ++
    [Act.dev (.runs (.pump .control .elect)), .dev (.runs (.pump .control .top)),
      .dev (.runs (.pump .control (.claim 0))), .dev (.runs (.pump .control (.acquire 0 0))),
      .dev (.runs (.pump .control (.giveBack 0))), .dev (.runs (.pump .control .bottom))] ++
    List.replicate 4 (Act.dev .go) ++ [Act.dev .releaseMutex]

def beginAttachRun (d : FrameId) : List (Act ReadOp) :=
  [.dev (.runs (.pump .handler (.claim d))),
    .dev (.run (.pump .handler (.acquire d d)) ⟨statusSuccess, some (d.val, some 8), true⟩),
    .dev (.runs (.pump .handler (.publish d d d))), .dev (.runs (.pump .handler (.beginAttach d d)))]

def parkRun : List (Act ReadOp) :=
  idleStartRun ++ (List.range 5).map (fun srb => Act.serve (ReadOp.park ⟨srb, some 8⟩)) ++
    List.replicate 5 Act.pump ++ List.replicate 5 (Act.dev (.runs (.pump .handler .elect))) ++
    [Act.dev (.runs (.pump .handler .top))] ++ (List.finRange captureFrameCount).flatMap beginAttachRun ++
    [Act.dev (.runs (.pump .handler .bottom))]

/-- The attach of read `d` succeeds, and its work request finds the work item queued or
queues it. -/
def attachedRun (queues : Bool) (d : FrameId) : List (Act ReadOp) :=
  [Act.dev (.runs (.attachAtBus d)), .dev (.runs (.attachComplete d statusSuccess d)),
    .dev (.runs (.attachLive true)), .dev (.runs (.requestWork .completion .exchange))] ++
    (if queues then [Act.dev (.runs (.requestWork .completion .acquireLock)),
      .dev (.runs (.requestWork .completion .queue))] else []) ++
    [Act.dev (.runs .irpDone)]

def fourAttachedRun : List (Act ReadOp) :=
  parkRun ++ attachedRun true 0 ++ [1, 2, 3].flatMap (attachedRun false) ++ [Act.dev (.runs .irpDoneTest)]

def attachFailedRun : List (Act ReadOp) :=
  parkRun ++ [Act.dev (.run (.attachAtBus 0) ⟨statusInsufficientResources, none, true⟩),
    .dev (.runs (.attachComplete 0 statusInsufficientResources 0)),
    .dev (.runs (.attachFailed 0 statusInsufficientResources)), .dev (.runs .irpDone)] ++
    attachedRun true 1 ++ [2, 3].flatMap (attachedRun false) ++ [Act.dev (.runs .irpDoneTest)]

end Fed
end Photonic
