import Photonic.Engine.Knowledge
import Photonic.Engine.Accounting

namespace Photonic

def Pc.hand (frames : FrameId → Frame) : Pc → Option Cookie
  | .pump _ (.publish _ _ cookie) => some cookie
  | .pump _ (.beginAttach _ d) => some (frames d).cookie
  | _ => none

theorem Pc.hand_of_not_runs {frames : FrameId → Frame} {pc : Pc} (h : pc.runs = false) :
    pc.hand frames = none := by
  cases pc with
  | pump k pc => cases pc <;> first | rfl | cases h
  | _ => rfl

/-- The cookies an activity's step hands to the bus driver with an attach request. -/
def Pc.submits (frames : FrameId → Frame) : Pc → List Cookie
  | .pump _ (.beginAttach _ d) => [(frames d).cookie]
  | _ => []

/-- What was submitted, and the runner would submit next, comes in the order of the Acquire
callback. -/
structure InOrder (frames : FrameId → Frame) (acquired : List Cookie) (pool : Multiset Pc)
    (submitted : List Cookie) : Prop where
  sublist : submitted.Sublist acquired
  hand : ∀ pc ∈ pool, ∀ c, pc.hand frames = some c → (submitted ++ [c]).Sublist acquired

namespace InOrder
variable {frames frames' : FrameId → Frame} {acquired submitted : List Cookie} {pool : Multiset Pc}

theorem mono {pool' : Multiset Pc} (h : InOrder frames acquired pool submitted)
    (hsub : pool' ⊆ pool) : InOrder frames acquired pool' submitted :=
  ⟨h.sublist, fun pc hpc => h.hand pc (hsub hpc)⟩

theorem tail {pc : Pc} (h : InOrder frames acquired (pc ::ₘ pool) submitted) :
    InOrder frames acquired pool submitted :=
  h.mono fun _ => Multiset.mem_cons_of_mem

theorem add {pc : Pc} (h : InOrder frames acquired pool submitted)
    (hc : ∀ c, pc.hand frames = some c → (submitted ++ [c]).Sublist acquired) :
    InOrder frames acquired (pc ::ₘ pool) submitted := by
  refine ⟨h.sublist, fun pc' hpc' => ?_⟩
  rcases Multiset.mem_cons.mp hpc' with rfl | hpc'
  · exact hc
  · exact h.hand pc' hpc'

theorem write (h : InOrder frames acquired pool submitted)
    (hk : ∀ pc ∈ pool, pc.hand frames' = pc.hand frames) :
    InOrder frames' acquired pool submitted :=
  ⟨h.sublist, fun pc hpc c hc => h.hand pc hpc c ((hk pc hpc).symm.trans hc)⟩

theorem grow {cookie : Cookie} (h : InOrder frames acquired pool submitted) :
    InOrder frames (acquired ++ [cookie]) pool submitted where
  sublist := h.sublist.trans (List.sublist_append_left _ _)
  hand pc hpc c hc := (h.hand pc hpc c hc).trans (List.sublist_append_left _ _)

theorem submit {cookie : Cookie} (h : (submitted ++ [cookie]).Sublist acquired)
    (hr : Pool.Free Pc.runs pool) : InOrder frames acquired pool (submitted ++ [cookie]) := by
  refine ⟨h, fun pc hpc c hc => ?_⟩
  rw [Pc.hand_of_not_runs (hr pc hpc)] at hc
  cases hc

end InOrder

theorem Placed.owner_unique {c : Capture} {pool : Multiset Pc} {pc pc' : Pc} {d : FrameId}
    {st st' : Stage} (h : Placed c (pc ::ₘ pool)) (hpc : pc' ∈ pool)
    (ho' : pc'.owns = some (d, st')) : pc.owns ≠ some (d, st) := by
  intro ho
  have hh : held pool d st' = 0 := by
    cases st with
    | lap => exact ((h d).owned_lap ho).2.2.2 st'
    | attach => exact ((h d).owned_attach ho).2.2.2 st'
    | detach => exact ((h d).owned_detach ho).2.2.2 st'
  exact absurd hh (held_pos_of_mem hpc ho').ne'

/-- A step changes what no other activity is about to submit. -/
theorem Engine.Exec.hand_of_others {e e' : Engine} {pc : Pc} (hx : Exec e pc e')
    (hp : Placed e.cap (pc ::ₘ e.pool)) :
    ∀ pc' ∈ e.pool, pc'.hand e'.cap.frames = pc'.hand e.cap.frames := by
  intro pc' hpc'
  cases pc' with
  | pump k pump =>
    cases pump with
    | beginAttach i d =>
      have howns : (Pc.pump k (.beginAttach i d)).owns = some (d, .attach) := rfl
      have hframe := hx.frame_of_not_owner (d := d) fun st => hp.owner_unique hpc' howns
      simp only [Pc.hand, hframe]
    | _ => rfl
  | _ => rfl

theorem InOrder.exec {e e' : Engine} {pc : Pc} {l : List Cookie}
    (h : InOrder e.cap.frames e.acquired (pc ::ₘ e.pool) l) (hel : Elected e.cap (pc ::ₘ e.pool))
    (hi : Informed e.cap.frames e.bus (pc ::ₘ e.pool)) (hp : Placed e.cap (pc ::ₘ e.pool))
    (hx : Engine.Exec e pc e') :
    InOrder e'.cap.frames e'.acquired e'.pool (l ++ pc.submits e.cap.frames) := by
  have ht : InOrder e'.cap.frames e.acquired e.pool l := h.tail.write (hx.hand_of_others hp)
  have hhand := h.hand pc (Multiset.mem_cons_self pc e.pool)
  have hknows := hi.knows pc (Multiset.mem_cons_self pc e.pool)
  cases hx with
  | attachBegun hn =>
    have hfree : Pool.Free Pc.runs e.pool := fun _ hb =>
      Pool.not_of_countP_le_one hel.runners_le_one rfl hb
    refine InOrder.add (InOrder.add (InOrder.submit (hhand _ rfl) hfree) (by rintro _ ⟨⟩)) ?_
    cases hn <;> rintro _ ⟨⟩
  | @acquired k i d cookie =>
    -- the runner holds the last cookie the callback returned
    rw [show Pc.submits _ (.pump k (.acquire i d)) = [] from rfl, List.append_nil]
    refine ht.grow.add fun c hc => ?_
    cases hc
    exact ht.sublist.append_right _
  | acquiredShort => exact (List.append_nil l).symm ▸ ht.grow.add (by rintro _ ⟨⟩)
  | @published k i d cookie hd =>
    rw [show Pc.submits _ (.pump k (.publish i d cookie)) = [] from rfl, List.append_nil]
    have hcookie : cookie = (e.cap.frames d).cookie := hknows _ _ rfl
    refine ht.add fun c hc => ?_
    simp [Pc.hand, Capture.countIrp, Capture.publish, Capture.setState, Capture.setFrame] at hc
    subst hc
    exact hhand _ (congrArg some hcookie)
  | rejectDelivered hn => exact (List.append_nil l).symm ▸ ht.add (by cases hn <;> rintro _ ⟨⟩)
  | irpDoneMore | irpDoneRunning | irpDoneSignal | releaseDeliver =>
    exact (List.append_nil l).symm ▸ ht
  | @electLost k _ | @lapDone k _ | @workQueued k _ | @workQueue k | @workUndone k =>
    rw [show Pc.submits _ _ = [] from rfl, List.append_nil]
    cases k with
    | completion => exact ht.add (by rintro _ ⟨⟩)
    | handler => exact ht
    | control => exact ht
  | _ => exact (List.append_nil l).symm ▸ ht.add (by rintro _ ⟨⟩)

/-- A write that keeps a descriptor's cookie changes nobody's submission. -/
theorem Pc.hand_update {frames : FrameId → Frame} {d : FrameId} {f : Frame} (pc : Pc)
    (hf : f.cookie = (frames d).cookie) : pc.hand (Function.update frames d f) = pc.hand frames := by
  cases pc with
  | pump k pump =>
    cases pump with
    | beginAttach i d' =>
      by_cases hd : d' = d
      · subst hd
        simp [Pc.hand, hf]
      · simp [Pc.hand, hd]
    | _ => rfl
  | _ => rfl

theorem InOrder.callback {e e' : Engine} {d : FrameId} {st : NtStatus} {l : List Cookie}
    (h : InOrder e.cap.frames e.acquired e.pool l) (hx : Engine.Callback e d st e') :
    InOrder e'.cap.frames e'.acquired e'.pool l := by
  cases hx with
  | recycling =>
    refine InOrder.add (h.write fun pc _ => ?_) nofun
    exact pc.hand_update (d := d) rfl
  | deferred => exact h.write fun pc _ => pc.hand_update rfl
  | alreadyTaken => exact h

theorem InOrder.region {e e' : Engine} {r : Engine.Region} {l : List Cookie}
    (h : InOrder e.cap.frames e.acquired e.pool l) (hp : Placed e.cap e.pool)
    (hx : e.region r = some e') : InOrder e'.cap.frames e'.acquired e'.pool l := by
  cases r with
  | claimPending =>
    cases hx
    unfold Engine.claimPending
    split
    · exact h
    · next d hc =>
      refine InOrder.add (h.write fun pc _ => ?_) (by rintro _ ⟨⟩)
      exact pc.hand_update (d := d) rfl
  | releaseQuarantined d =>
    simp only [Engine.region] at hx
    split at hx
    · next hs =>
      cases hx
      refine (h.write fun pc hpc => ?_).add (by rintro _ ⟨⟩)
      -- nobody is about to submit a quarantined descriptor
      cases pc with
      | pump k pump =>
        cases pump with
        | beginAttach i d' =>
          have hne : d' ≠ d := by
            rintro rfl
            exact absurd ((hp d').of_detachFailed hs .attach) (held_pos_of_mem hpc rfl).ne'
          simp [Pc.hand, hne]
        | _ => rfl
      | _ => rfl
    · cases hx
  | takeWorker =>
    simp only [Engine.region] at hx
    split at hx
    · cases hx
      exact h.mono (Multiset.erase_subset _ _)
    · cases hx
  | setDraining | clearDraining | setListening _ | clearFirstAttachDone | clearDrainDone
  | setGeometry _ | setResourceHandle _ | freeChunkMdls =>
    cases hx
    exact h

namespace Engine

/-- The cookies a step hands to the bus driver with attach requests. -/
def submits (e : Engine) : Act → List Cookie
  | .run pc _ => pc.submits e.cap.frames
  | _ => []

theorem inOrder_step {e e' : Engine} {a : Act} {l : List Cookie} (hr : machine.Reachable e)
    (h : InOrder e.cap.frames e.acquired e.pool l) (hx : e.step a = some e') :
    InOrder e'.cap.frames e'.acquired e'.pool (l ++ e.submits a) := by
  have hp := Placed.of_reachable hr
  cases a with
  | run pc o =>
    have hel := Elected.of_reachable hr
    have hi := Informed.of_reachable hr
    obtain ⟨pool, hpool, hx⟩ := run_cases hx
    rw [hpool] at h hel hi hp
    exact InOrder.exec (e := { e with pool := pool }) h hel hi hp hx
  | callback d st => exact (List.append_nil l).symm ▸ h.callback (callback_cases hx).2
  | callPump k | callRequestWork k | startWork =>
    simp only [step] at hx
    split at hx <;> cases hx
    exact (List.append_nil l).symm ▸ h.add (by rintro _ ⟨⟩)
  | control r => exact (List.append_nil l).symm ▸ h.region hp hx

end Engine

/-- How many steps the runner is from the end of its lap, at most. -/
def PumpPc.toBottom : PumpPc → ℕ
  | .elect => 0
  | .top => 0
  | .claim i => 4 * (captureFrameCount - i) + 6
  | .acquire i _ => 4 * (captureFrameCount - i) + 5
  | .reject i _ _ => 4 * (captureFrameCount - i) + 4
  | .publish i _ _ => 4 * (captureFrameCount - i) + 4
  | .rejectDeliver i _ => 4 * (captureFrameCount - i) + 3
  | .beginAttach i _ => 4 * (captureFrameCount - i) + 3
  | .giveBack _ => 2
  | .handBack _ => 2
  | .bottom => 1

namespace Engine

theorem LapNext.toBottom_lt {i : ℕ} {next : PumpPc} (h : LapNext i next) :
    next.toBottom < 4 * (captureFrameCount - i) + 3 ∧ next ≠ .elect ∧ next ≠ .top := by
  cases h with
  | bottom => exact ⟨by simp only [PumpPc.toBottom]; omega, nofun, nofun⟩
  | claim h => exact ⟨by simp only [PumpPc.toBottom]; omega, nofun, nofun⟩

theorem Exec.lap_advances {e e' : Engine} {k : Caller} {pc : PumpPc} (hx : Exec e (.pump k pc) e')
    (he : pc ≠ .elect) (ht : pc ≠ .top) (hb : pc ≠ .bottom) :
    ∃ next, .pump k next ∈ e'.pool ∧ next.toBottom < pc.toBottom ∧ next ≠ .elect ∧ next ≠ .top := by
  cases hx with
  | electLost | electWon => exact absurd rfl he
  | lapTop => exact absurd rfl ht
  | lapAgain | lapDone => exact absurd rfl hb
  | rejectDelivered hn | attachBegun hn =>
    obtain ⟨hlt, hne, hnt⟩ := hn.toBottom_lt
    exact ⟨_, Multiset.mem_cons_self _ _, hlt, hne, hnt⟩
  | _ =>
    refine ⟨_, Multiset.mem_cons_self _ _, ?_, nofun, nofun⟩
    simp only [PumpPc.toBottom]
    omega

theorem pumpAgain_step {e e' : Engine} {a : Act} (hx : e.step a = some e')
    (he : ∀ k o, a ≠ .run (.pump k .elect) o) (ht : ∀ k o, a ≠ .run (.pump k .top) o) :
    e'.cap.pumpAgain = e.cap.pumpAgain := by
  cases a with
  | run pc o =>
    obtain ⟨pool, hpool, hx⟩ := run_cases hx
    cases hx with
    | @electLost k _ | @electWon k _ => exact absurd rfl (he k o)
    | @lapTop k => exact absurd rfl (ht k o)
    | lapDone | workQueued | workQueue | workUndone => rw [ret_cap]
    | _ => rfl
  | callback d st =>
    obtain ⟨-, hx⟩ := callback_cases hx
    cases hx <;> rfl
  | callPump k | callRequestWork k | startWork =>
    simp only [step] at hx
    split at hx <;> cases hx
    rfl
  | control r =>
    cases r with
    | claimPending =>
      cases hx
      unfold claimPending
      split <;> rfl
    | releaseQuarantined d | takeWorker =>
      simp only [step, region] at hx
      split at hx <;> cases hx
      rfl
    | setDraining | clearDraining | setListening _ | clearFirstAttachDone | clearDrainDone
    | setGeometry _ | setResourceHandle _ | freeChunkMdls =>
      cases hx
      rfl

section
variable {e e' : Engine} {k : Caller} {o : Oracle}

theorem pumpAgain_of_call (ha : e.cap.pumpActive = true)
    (hx : e.step (.run (.pump k .elect) o) = some e') : e'.cap.pumpAgain = true := by
  obtain ⟨pool, -, hx⟩ := run_cases hx
  cases hx with
  | electLost => rw [ret_cap]
  | electWon h => exact absurd ha (Bool.eq_false_iff.mp h)

theorem pumpActive_of_call (hx : e.step (.run (.pump k .elect) o) = some e') :
    e'.cap.pumpActive = true := by
  obtain ⟨pool, -, hx⟩ := run_cases hx
  cases hx with
  | electLost h =>
    rw [ret_cap]
    exact h
  | electWon => rfl

theorem elected_of_call (ha : e.cap.pumpActive = false)
    (hx : e.step (.run (.pump k .elect) o) = some e') : .pump k .top ∈ e'.pool := by
  obtain ⟨pool, -, hx⟩ := run_cases hx
  cases hx with
  | electLost h => exact absurd h (Bool.eq_false_iff.mp ha)
  | electWon => exact Multiset.mem_cons_self _ _

theorem claim_of_start (hx : e.step (.run (.pump k .top) o) = some e') :
    .pump k (.claim 0) ∈ e'.pool ∧ e'.cap.pumpAgain = false := by
  obtain ⟨pool, -, hx⟩ := run_cases hx
  cases hx with
  | lapTop => exact ⟨Multiset.mem_cons_self _ _, rfl⟩

theorem top_of_again (ha : e.cap.pumpAgain = true)
    (hx : e.step (.run (.pump k .bottom) o) = some e') : .pump k .top ∈ e'.pool := by
  obtain ⟨pool, -, hx⟩ := run_cases hx
  cases hx with
  | lapAgain => exact Multiset.mem_cons_self _ _
  | lapDone h => exact absurd ha (Bool.eq_false_iff.mp h)

theorem pumpActive_of_runner (hr : machine.Reachable e) {pc : Pc} (hpc : pc ∈ e.pool)
    (hruns : pc.runs = true) : e.cap.pumpActive = true := by
  have he : runners e.pool = e.cap.pumpActive.toNat := Elected.of_reachable hr
  have hpos : 0 < runners e.pool := Multiset.countP_pos.mpr ⟨pc, hpc, hruns⟩
  cases ha : e.cap.pumpActive with
  | true => rfl
  | false =>
    rw [ha] at he
    exact absurd he hpos.ne'

theorem runner_of_pumpActive (hr : machine.Reachable e) (ha : e.cap.pumpActive = true) :
    ∃ k pc, .pump k pc ∈ e.pool ∧ (Pc.pump k pc).runs = true := by
  have he : runners e.pool = e.cap.pumpActive.toNat := Elected.of_reachable hr
  rw [ha] at he
  have hpos : 0 < runners e.pool := he ▸ Nat.one_pos
  obtain ⟨pc, hpc, hruns⟩ := Multiset.countP_pos.mp hpos
  cases pc with
  | pump k pc => exact ⟨k, pc, hpc, hruns⟩
  | _ => cases hruns

theorem pumpActive_of_end (hr : machine.Reachable e)
    (hx : e.step (.run (.pump k .bottom) o) = some e') : e'.cap.pumpActive = e.cap.pumpAgain := by
  obtain ⟨pool, hpool, hx⟩ := run_cases hx
  have ha := pumpActive_of_runner hr (hpool ▸ Multiset.mem_cons_self _ pool) rfl
  cases hx with
  | lapAgain h => exact ha.trans h.symm
  | lapDone h =>
    rw [ret_cap]
    exact h.symm

theorem runner_unique (hr : machine.Reachable e) {pc pc' : Pc} (hpc : pc ∈ e.pool)
    (hruns : pc.runs = true) (hpc' : pc' ∈ e.pool) (hruns' : pc'.runs = true) : pc' = pc := by
  by_contra hne
  have he := (Elected.of_reachable hr).runners_le_one
  rw [← Multiset.cons_erase hpc] at he
  have := Pool.not_of_countP_le_one he hruns ((Multiset.mem_erase_of_ne hne).mpr hpc')
  rw [hruns'] at this
  cases this

end

/-- The lock-held region a call of the pump begins with. -/
def Act.Calls (a : Act) : Prop := ∃ k o, a = .run (.pump k .elect) o

/-- The lock-held region a lap starts behind. -/
def Act.StartsLap (a : Act) : Prop := ∃ k o, a = .run (.pump k .top) o

/-- The lock-held region that ends a lap. -/
def Act.EndsLap (a : Act) : Prop := ∃ k o, a = .run (.pump k .bottom) o

def HasRunner (e : Engine) : Prop := ∃ pc ∈ e.pool, pc.runs = true

def Act.RunsLap (a : Act) : Prop := ∃ pc o, a = .run pc o ∧ pc.runs = true

section
variable {P : Engine → Act → Prop} {x : machine.Execution P} {n : ℕ}

theorem runner_moves (hf : x.Fair HasRunner Act.RunsLap) {pc : Pc} (hpc : pc ∈ (x.state n).pool)
    (hruns : pc.runs = true) :
    ∃ m o, n ≤ m ∧ x.act m = some (.run pc o) ∧
      ∀ j, n ≤ j → j ≤ m → pc ∈ (x.state j).pool ∧ (j < m → ∀ a, x.act j = some a → ¬a.RunsLap) := by
  -- until some runner takes a step, this one stays where it is
  have hstay : ∀ m, n ≤ m → (∀ j, n ≤ j → j < m → ∀ a, x.act j = some a → ¬a.RunsLap) →
      pc ∈ (x.state m).pool := by
    intro m hm
    induction m, hm using Nat.le_induction with
    | base => exact fun _ => hpc
    | succ m hm ih =>
      intro hno
      have hmem := ih fun j hj hjm => hno j hj (hjm.trans (Nat.lt_succ_self m))
      cases ha : x.act m with
      | none => rwa [x.idle m ha]
      | some a =>
        refine mem_step (fun h => ?_) (fun o h => ?_) hmem (x.next m a ha)
        · subst h
          cases hruns
        · exact hno m hm (Nat.lt_succ_self m) a ha ⟨pc, o, h, hruns⟩
  -- fairness: a runner is there throughout, so one of them moves
  have hex : ∃ m, n ≤ m ∧ ∃ a, x.act m = some a ∧ a.RunsLap := by
    by_contra hno
    push Not at hno
    obtain ⟨m, hm, a, ha, hr⟩ := hf n fun m hm =>
      ⟨pc, hstay m hm fun j hj _ a ha => hno j hj a ha, hruns⟩
    exact hno m hm a ha hr
  classical
  obtain ⟨hm, a, ha, pc', o, rfl, hruns'⟩ := Nat.find_spec hex
  have hno : ∀ j, n ≤ j → j < Nat.find hex → ∀ a, x.act j = some a → ¬a.RunsLap :=
    fun j hj hjm a ha hr => Nat.find_min hex hjm ⟨hj, a, ha, hr⟩
  have hmem := hstay _ hm hno
  obtain ⟨pool, hpool, -⟩ := run_cases (x.next _ _ ha)
  have hmem' : pc' ∈ (x.state (Nat.find hex)).pool := hpool ▸ Multiset.mem_cons_self pc' pool
  rw [runner_unique (x.reaches _).reachable hmem hruns hmem' hruns'] at ha
  refine ⟨_, o, hm, ha, fun j hj hjm => ⟨hstay j hj fun i hi hij => ?_, fun hlt => hno j hj hlt⟩⟩
  exact hno i hi (hij.trans_le hjm)

theorem lap_ends (hf : x.Fair HasRunner Act.RunsLap) {k : Caller} {pc : PumpPc}
    (hpc : .pump k pc ∈ (x.state n).pool) (he : pc ≠ .elect) (ht : pc ≠ .top) :
    ∃ m k' o, n ≤ m ∧ x.act m = some (.run (.pump k' .bottom) o) ∧
      ∀ j, n ≤ j → j ≤ m → (x.state j).cap.pumpActive = true ∧
        ∀ a, x.act j = some a → ¬a.StartsLap := by
  induction hw : pc.toBottom using Nat.strong_induction_on generalizing n pc with
  | _ w ih =>
    have hruns : (Pc.pump k pc).runs = true := by cases pc <;> first | rfl | exact absurd rfl he
    obtain ⟨m, o, hm, ha, hstay⟩ := runner_moves hf hpc hruns
    -- the runner itself starts no lap before it is at the top again
    have hseg : ∀ j, n ≤ j → j ≤ m → (x.state j).cap.pumpActive = true ∧
        ∀ a, x.act j = some a → ¬a.StartsLap := by
      intro j hj hjm
      obtain ⟨hmem, hno⟩ := hstay j hj hjm
      refine ⟨pumpActive_of_runner (x.reaches j).reachable hmem hruns, ?_⟩
      rintro a haj ⟨k', o', rfl⟩
      rcases Nat.lt_or_eq_of_le hjm with hlt | rfl
      · exact hno hlt _ haj ⟨_, o', rfl, rfl⟩
      · rw [ha] at haj
        cases haj
        exact ht rfl
    by_cases hb : pc = .bottom
    · subst hb
      exact ⟨m, k, o, hm, ha, hseg⟩
    · obtain ⟨pool, -, hx⟩ := run_cases (x.next m _ ha)
      obtain ⟨next, hnext, hlt, hne, hnt⟩ := hx.lap_advances he ht hb
      obtain ⟨m', k', o', hm', ha', hseg'⟩ := ih next.toBottom (hw ▸ hlt) hnext hne hnt rfl
      refine ⟨m', k', o', by omega, ha', fun j hj hjm => ?_⟩
      rcases Nat.lt_or_ge m j with h | h
      · exact hseg' j h hjm
      · exact hseg j hj h

theorem lap_starts (hf : x.Fair HasRunner Act.RunsLap) {k : Caller}
    (hpc : .pump k .top ∈ (x.state n).pool) : ∃ m, n ≤ m ∧ x.Takes m Act.StartsLap := by
  obtain ⟨m, o, hm, ha, -⟩ := runner_moves hf hpc rfl
  exact ⟨m, hm, _, ha, k, o, rfl⟩

theorem pumpAgain_between {m : ℕ} (hm : n ≤ m)
    (h : ∀ j, n ≤ j → j < m → ∀ a, x.act j = some a → ¬a.Calls ∧ ¬a.StartsLap) :
    (x.state m).cap.pumpAgain = (x.state n).cap.pumpAgain := by
  induction m, hm using Nat.le_induction with
  | base => rfl
  | succ m hm ih =>
    rw [← ih fun j hj hjm => h j hj (hjm.trans (Nat.lt_succ_self m))]
    cases ha : x.act m with
    | none => rw [x.idle m ha]
    | some a =>
      obtain ⟨hc, hs⟩ := h m hm (Nat.lt_succ_self m) a ha
      exact pumpAgain_step (x.next m a ha) (fun k o he => hc ⟨k, o, he⟩) fun k o he => hs ⟨k, o, he⟩

theorem pumpAgain_kept {m : ℕ} (hm : n ≤ m) (hagain : (x.state n).cap.pumpAgain = true)
    (h : ∀ j, n ≤ j → j < m → (x.state j).cap.pumpActive = true ∧
      ∀ a, x.act j = some a → ¬a.StartsLap) :
    (x.state m).cap.pumpAgain = true := by
  induction m, hm using Nat.le_induction with
  | base => exact hagain
  | succ m hm ih =>
    have ih := ih fun j hj hjm => h j hj (hjm.trans (Nat.lt_succ_self m))
    obtain ⟨hactive, hs⟩ := h m hm (Nat.lt_succ_self m)
    cases ha : x.act m with
    | none => rwa [x.idle m ha]
    | some a =>
      by_cases hc : a.Calls
      · obtain ⟨k, o, rfl⟩ := hc
        exact pumpAgain_of_call hactive (x.next m _ ha)
      · rw [← ih]
        exact pumpAgain_step (x.next m a ha) (fun k o he => hc ⟨k, o, he⟩)
          fun k o he => hs a ha ⟨k, o, he⟩

theorem call_followed (hf : x.Fair HasRunner Act.RunsLap) (h : x.Takes n Act.Calls) :
    ∃ m, n < m ∧ x.Takes m Act.StartsLap := by
  obtain ⟨a, ha, k, o, rfl⟩ := h
  cases hactive : (x.state n).cap.pumpActive with
  | false =>
    -- the call is elected
    obtain ⟨m, hm, ht⟩ := lap_starts hf (n := n + 1) (elected_of_call hactive (x.next n _ ha))
    exact ⟨m, hm, ht⟩
  | true =>
    have hagain := pumpAgain_of_call hactive (x.next n _ ha)
    obtain ⟨k', pc, hpc, hruns⟩ := runner_of_pumpActive (x.reaches (n + 1)).reachable
      (pumpActive_of_call (x.next n _ ha))
    have hne : pc ≠ .elect := by
      rintro rfl
      cases hruns
    by_cases ht : pc = .top
    · subst ht
      obtain ⟨m, hm, hs⟩ := lap_starts hf hpc
      exact ⟨m, hm, hs⟩
    · obtain ⟨m, k'', o', hm, hb, hseg⟩ := lap_ends hf hpc hne ht
      have hm' := pumpAgain_kept hm hagain fun j hj hjm => hseg j hj hjm.le
      obtain ⟨m', hm'', hs⟩ := lap_starts hf (top_of_again hm' (x.next m _ hb))
      exact ⟨m', by omega, hs⟩

/-- A lap that has started ends, and the runner stays elected for another one exactly when
the pump was called meanwhile. -/
theorem lap_last (hf : x.Fair HasRunner Act.RunsLap) (h : x.Takes n Act.StartsLap) :
    ∃ m, n < m ∧ x.Takes m Act.EndsLap ∧ (∀ j, n < j → j ≤ m → ¬x.Takes j Act.StartsLap) ∧
      ((x.state (m + 1)).cap.pumpActive = true ↔ ∃ j, n < j ∧ j < m ∧ x.Takes j Act.Calls) := by
  obtain ⟨a, ha, k, o, rfl⟩ := h
  obtain ⟨hpc, hclear⟩ := claim_of_start (x.next n _ ha)
  obtain ⟨m, k', o', hm, hb, hseg⟩ := lap_ends hf (n := n + 1) hpc nofun nofun
  refine ⟨m, hm, ⟨_, hb, k', o', rfl⟩, fun j hj hjm ⟨a, haj, hs⟩ => (hseg j hj hjm).2 a haj hs, ?_⟩
  rw [pumpActive_of_end (x.reaches m).reachable (x.next m _ hb)]
  constructor
  · intro hagain
    by_contra hno
    have := pumpAgain_between hm fun j hj hjm a haj =>
      ⟨fun hc => hno ⟨j, hj, hjm, a, haj, hc⟩, (hseg j hj hjm.le).2 a haj⟩
    rw [hclear, hagain] at this
    cases this
  · rintro ⟨j, hj, hjm, a, haj, k'', o'', rfl⟩
    have hagain := pumpAgain_of_call (hseg j hj hjm.le).1 (x.next j _ haj)
    exact pumpAgain_kept hjm hagain fun i hi him => hseg i (hj.trans (by omega)) him.le

theorem inOrder_of_execution (n : ℕ) : InOrder (x.state n).cap.frames (x.state n).acquired
    (x.state n).pool (x.record submits n) := by
  induction n with
  | zero =>
    rw [x.start]
    exact ⟨List.nil_sublist _, fun pc hpc => absurd hpc (Multiset.notMem_zero pc)⟩
  | succ n ih =>
    unfold Machine.Execution.record
    cases ha : x.act n with
    | none => rwa [x.idle n ha]
    | some a => exact inOrder_step (x.reaches n).reachable ih (x.next n a ha)

end

/-- One runner at a time laps, and submits in the order of the Acquire callback. When the
runner gets its turns, every call of the pump is followed by a lap that starts behind it,
and a lap is the last one exactly when no call fell into it. -/
theorem pump_election (x : machine.Execution fun _ _ => True) :
    (∀ n, runners (x.state n).pool ≤ 1) ∧
      (∀ n, (x.record submits n).Sublist (x.state n).acquired) ∧
      (x.Fair HasRunner Act.RunsLap →
        (∀ n, x.Takes n Act.Calls → ∃ m, n < m ∧ x.Takes m Act.StartsLap) ∧
        ∀ n, x.Takes n Act.StartsLap → ∃ m, n < m ∧ x.Takes m Act.EndsLap ∧
          (∀ j, n < j → j ≤ m → ¬x.Takes j Act.StartsLap) ∧
          ((x.state (m + 1)).cap.pumpActive = true ↔
            ∃ j, n < j ∧ j < m ∧ x.Takes j Act.Calls)) := by
  refine ⟨fun n => ?_, fun n => (inOrder_of_execution n).sublist, fun hf => ⟨?_, ?_⟩⟩
  · exact (Elected.of_reachable (x.reaches n).reachable).runners_le_one
  · exact fun n h => call_followed hf h
  · exact fun n h => lap_last hf h

def twoLapsRun : List Act :=
  let o : Option (Cookie × Option ℕ) → Oracle := fun buffer => ⟨statusSuccess, buffer, true⟩
  let go (k : Caller) (pc : PumpPc) (buffer : Option (Cookie × Option ℕ)) : Act :=
    .run (.pump k pc) (o buffer)
  [.control .clearDraining, .callPump .handler, go .handler .elect none, go .handler .top none,
    go .handler (.claim 0) none, go .handler (.acquire 0 0) (some (7, some 0)),
    go .handler (.publish 0 0 7) none, .callPump .control, go .control .elect none,
    go .handler (.beginAttach 0 0) none, go .handler (.claim 1) none,
    go .handler (.acquire 1 1) none, go .handler (.giveBack 1) none, go .handler .bottom none,
    go .handler .top none, go .handler (.claim 0) none, go .handler (.acquire 0 1) none,
    go .handler (.giveBack 1) none, go .handler .bottom none]

theorem twoLapsRun_run : machine.run (fun _ _ => True) machine.init twoLapsRun =
    some (machine.after (fun _ _ => True) twoLapsRun) :=
  Machine.run_eq_after (by decide)

/-- The call that lost its election is followed by the second lap, the last one. -/
theorem pump_election_twoLapsRun :
    ∃ m, 8 < m ∧ (.ofRun twoLapsRun twoLapsRun_run : machine.Execution fun _ _ => True).Takes m
      Act.StartsLap := by
  refine ((pump_election (.ofRun twoLapsRun twoLapsRun_run)).2.2 fun n hen => ?_).1 8
    ⟨_, rfl, _, _, rfl⟩
  -- the run leaves no runner behind
  obtain ⟨pc, hpc, hruns⟩ := hen (n + twoLapsRun.length) (by omega)
  rw [show (Machine.Execution.ofRun twoLapsRun twoLapsRun_run).state _ = _ from
    Machine.trace_end twoLapsRun_run (by omega)] at hpc
  have hfree : ∀ pc ∈ (machine.after (fun _ _ => True) twoLapsRun).pool, pc.runs = false := by decide
  rw [hfree pc hpc] at hruns
  cases hruns

end Engine
end Photonic
