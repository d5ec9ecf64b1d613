import Photonic.Engine.Accounting
import Photonic.Engine.Callbacks

namespace Photonic

namespace Pc

/-- A call of the pump that a lap is still to start behind. -/
def asks : Pc → Bool
  | .detachDeliver _ _ _ => true
  | .pump _ .elect => true
  | .pump _ .top => true
  | _ => false

/-- A lap that looks at the free list again: it has an iteration left for each of the
`free` descriptors, or it rejected a buffer (`short`) and is not at its bound. The routine
of a failed attach is counted until it has delivered. -/
def sees (free : ℕ) (short : Bool) : Pc → Bool
  | .attachFailed _ _ => true
  | .pump _ (.claim i) => short || free + i ≤ captureFrameCount
  | .pump _ (.acquire i _) => short || free + (i + 1) ≤ captureFrameCount
  | .pump _ (.publish i _ _) => short || free + (i + 1) ≤ captureFrameCount
  | .pump _ (.beginAttach i _) => short || free + (i + 1) ≤ captureFrameCount
  | .pump _ (.reject _ _ _) => true
  | .pump _ (.rejectDeliver _ _) => true
  | _ => false

/-- A lap that found no buffer for the descriptor it claimed. -/
def givesBack : Pc → Bool
  | .pump _ (.giveBack _) => true
  | _ => false

/-- Whether the lap has rejected a buffer, behind a step. -/
def shorts (short : Bool) : Pc → Bool
  | .pump _ .top => false
  | .pump _ (.rejectDeliver _ _) => true
  | _ => short

/-- The steps that can leave a free descriptor unseen: those that call the Acquire
callback or deliver behind a failure, and the end of a lap in which a buffer was rejected. -/
def Slips (short : Bool) : Pc → Prop
  | .attachFailed _ _ => True
  | .pump _ (.acquire _ _) => True
  | .pump _ (.handBack _) => True
  | .pump _ (.rejectDeliver i _) => captureFrameCount ≤ i + 1
  | .pump _ (.beginAttach i _) => captureFrameCount ≤ i + 1 ∧ short = true
  | _ => False

theorem runs_of_givesBack {pc : Pc} (h : pc.givesBack = true) : pc.runs = true := by
  cases pc with
  | pump k pump => cases pump <;> first | rfl | cases h
  | _ => cases h

theorem runs_of_sees {pc : Pc} {free : ℕ} {short : Bool} (h : pc.sees free short = true) :
    pc.runs = true ∨ ∀ free short, pc.sees free short = true := by
  cases pc with
  | attachFailed => exact .inr fun _ _ => rfl
  | pump k pump => cases pump <;> first | exact .inl rfl | cases h
  | _ => cases h

end Pc

/-- There are free descriptors, or one comes back from a lap, and nobody looks at them. -/
structure Engine.Unseen (e : Engine) (short : Bool) : Prop where
  again : e.cap.pumpAgain = false
  asks : Pool.Free Pc.asks e.pool
  sees : Pool.Free (Pc.sees e.cap.freeList.length short) e.pool
  idle : e.cap.freeList ≠ [] ∨ ∃ pc ∈ e.pool, pc.givesBack = true

theorem Placed.freeList_length_le {c : Capture} {pool : Multiset Pc} (h : Placed c pool) :
    c.freeList.length ≤ captureFrameCount := by
  have hnodup : c.freeList.Nodup := by
    rw [List.nodup_iff_count_le_one]
    intro d
    have hfits := h d
    have hspot : (c.spot d).onFree = c.freeList.count d := rfl
    unfold PlacedAt Spot.Fits at hfits
    rw [hspot] at hfits
    split at hfits <;> omega
  simpa using hnodup.length_le_card

/-- `PumpAgain` is set for a runner only. -/
def Remembered (c : Capture) : Prop := c.pumpAgain = true → c.pumpActive = true

theorem Remembered.step {e e' : Engine} {a : Engine.Act} (h : Remembered e.cap)
    (hx : e.step a = some e') : Remembered e'.cap := by
  cases a with
  | run pc o =>
    obtain ⟨pool, -, hx⟩ := Engine.run_cases hx
    cases hx with
    | electLost ha =>
      rw [Engine.ret_cap]
      exact fun _ => ha
    | electWon => exact fun _ => rfl
    | lapTop => nofun
    | lapDone hn =>
      rw [Engine.ret_cap]
      exact fun ha => absurd ha (Bool.eq_false_iff.mp hn)
    | workQueued | workQueue | workUndone =>
      rw [Engine.ret_cap]
      exact h
    | _ => exact h
  | callback d st =>
    obtain ⟨-, hx⟩ := Engine.callback_cases hx
    cases hx <;> exact h
  | callPump k | callRequestWork k | startWork =>
    simp only [Engine.step] at hx
    split at hx <;> cases hx
    exact h
  | control r =>
    cases r with
    | claimPending =>
      cases hx
      unfold Engine.claimPending
      split <;> exact h
    | releaseQuarantined d | takeWorker =>
      simp only [Engine.step, Engine.region] at hx
      split at hx <;> cases hx
      exact h
    | setDraining | clearDraining | setListening _ | clearFirstAttachDone | clearDrainDone
    | setGeometry _ | setResourceHandle _ | freeChunkMdls =>
      cases hx
      exact h

theorem Remembered.of_reachable {e : Engine} (h : Engine.machine.Reachable e) :
    Remembered e.cap :=
  h.invariant (I := fun e => Remembered e.cap) (fun h => by cases h) fun _ _ _ _ hi _ hs => hi.step hs

/-- Beside the runner nobody but the routine of a failed attach sees the free list, whatever
its length. -/
theorem Pc.free_sees_of_runner {pool : Multiset Pc} {free free' : ℕ} {short : Bool}
    (h : Pool.Free (Pc.sees free short) pool) (hr : Pool.Free Pc.runs pool) :
    Pool.Free (Pc.sees free' short) pool := by
  intro q hq
  by_contra hs
  rcases Pc.runs_of_sees (by simpa using hs) with hruns | hall
  · rw [hr q hq] at hruns
    cases hruns
  · have := h q hq
    rw [hall] at this
    cases this

namespace Engine

section
variable {e e' : Engine} {pc : Pc} {short : Bool}

/-- Behind a step of the runner nothing is given back, unless the Acquire callback had
nothing. -/
theorem Exec.free_givesBack (hx : Exec e pc e') (hr : Elected e.cap (pc ::ₘ e.pool))
    (hruns : pc.runs = true) (ha : pc.acquires = false) : Pool.Free Pc.givesBack e'.pool := by
  have hrest : Pool.Free Pc.givesBack e.pool := by
    intro q hq
    by_contra hg
    have := Pool.not_of_countP_le_one hr.runners_le_one hruns hq
    rw [Pc.runs_of_givesBack (by simpa using hg)] at this
    cases this
  cases hx with
  | acquiredNone | acquiredShort | acquired => cases ha
  | lapDone => exact free_ret hrest rfl
  | attachBegun hn => exact (hrest.add rfl).add (by cases hn <;> rfl)
  | rejectDelivered hn => exact hrest.add (by cases hn <;> rfl)
  | lapTop | claimNone | claimed | gaveBack | rejected | publishDraining | published | handedBack
  | lapAgain => exact hrest.add rfl
  | _ => cases hruns

theorem Unseen.exec (h : Unseen e' (pc.shorts short)) (hr : Elected e.cap (pc ::ₘ e.pool))
    (hfree : e.cap.freeList.length ≤ captureFrameCount) (hd : e.cap.draining = false)
    (hs : ¬pc.Slips short) (hx : Exec e pc e') :
    Unseen { e with pool := pc ::ₘ e.pool } short := by
  obtain ⟨hagain, hasks, hsees, hidle⟩ := h
  have hsub := hx.subset
  have hrest : pc.runs = true → Pool.Free Pc.runs e.pool := fun hruns _ hq =>
    Pool.not_of_countP_le_one hr.runners_le_one hruns hq
  have hidle' : pc.runs = true → pc.acquires = false → e'.cap.freeList ≠ [] := by
    intro hruns ha
    obtain h | ⟨q, hq, hg⟩ := hidle
    · exact h
    · rw [hx.free_givesBack hr hruns ha q hq] at hg
      cases hg
  have hasks' := hasks.mono hsub
  have hsees' := hsees.mono hsub
  cases hx with
  | detachDeliver | electWon | lapAgain | detachDone => cases hasks.head
  | attachFailed => cases hsees.head
  | electLost => rw [ret_cap] at hagain; cases hagain
  | lapTop =>
    have := hsees.head
    simp [Pc.sees] at this
    omega
  | claimNone hn =>
    obtain hn | hn := hn
    · rw [hd] at hn
      cases hn
    · exact absurd hn (hidle' rfl rfl)
  | @claimed k i d rest _ hl =>
    refine ⟨hagain, hasks'.add rfl, ?_, .inl (by simp [hl])⟩
    have hseen : (short || decide (rest.length + (i + 1) ≤ captureFrameCount)) = false := hsees.head
    have hsee : Pool.Free (Pc.sees e.cap.freeList.length short) e.pool :=
      Pc.free_sees_of_runner hsees' (hrest rfl)
    refine hsee.add ?_
    simp only [Bool.or_eq_false_iff, decide_eq_false_iff_not] at hseen
    simp [Pc.sees, hl, hseen.1]
    omega
  | @gaveBack k d =>
    refine ⟨hagain, hasks'.add rfl, ?_, .inr ⟨_, Multiset.mem_cons_self _ _, rfl⟩⟩
    exact Pool.Free.add (Pc.free_sees_of_runner hsees' (hrest rfl)) rfl
  | rejected => cases hsees.head
  | publishDraining hn =>
    rw [hd] at hn
    cases hn
  | @attachBegun k i d next hn =>
    have hne : e.cap.freeList ≠ [] := hidle' rfl rfl
    refine ⟨hagain, hasks'.add rfl, Pool.Free.add (p := Pc.sees _ short) hsees' ?_, .inl hne⟩
    have hpos := List.length_pos_of_ne_nil hne
    cases hn with
    | bottom hi =>
      -- the lap is at its bound, which it reached without a rejection
      have hshort : short = false := by
        by_contra hne
        exact hs ⟨hi, by simpa using hne⟩
      simp [Pc.sees, hshort]
      omega
    | claim hi => exact hsees.head
  | @rejectDelivered k i cookie next hn =>
    cases hn with
    | bottom hi => exact absurd hi hs
    | claim hi => cases hsees.head
  | acquiredNone | acquiredShort | acquired | handedBack | attachFailedDeliver => exact absurd trivial hs
  | lapDone | workQueued | workQueue | workUndone =>
    rw [ret_cap] at hagain hidle
    refine ⟨hagain, hasks'.add rfl, ?_, hidle.imp_right ?_⟩
    · rw [ret_cap] at hsees'
      exact hsees'.add rfl
    · rw [ret_pool]
      rintro ⟨q, hq, hg⟩
      split at hq
      · rcases Multiset.mem_cons.mp hq with rfl | hq
        · cases hg
        · exact ⟨q, Multiset.mem_cons_of_mem hq, hg⟩
      · exact ⟨q, Multiset.mem_cons_of_mem hq, hg⟩
  | irpDoneMore | irpDoneRunning | irpDoneSignal | releaseDeliver =>
    refine ⟨hagain, hasks'.add rfl, hsees'.add rfl, hidle.imp_right ?_⟩
    rintro ⟨q, hq, hg⟩
    exact ⟨q, Multiset.mem_cons_of_mem hq, hg⟩
  | _ =>
    refine ⟨hagain, hasks'.add rfl, ?_, hidle.imp_right ?_⟩
    · first | exact hsees'.add rfl | exact hsees'.add hsees.head
    · rintro ⟨q, hq, hg⟩
      rcases Multiset.mem_cons.mp hq with rfl | hq
      · cases hg
      · exact ⟨q, Multiset.mem_cons_of_mem hq, hg⟩

end

/-- A lap that was given a buffer sees as many descriptors as before. -/
theorem Unseen.acquires {e e' : Engine} {k : Caller} {i : ℕ} {d : FrameId} {short : Bool}
    {buffer : Cookie × Option ℕ} (h : Unseen e' short) (hx : Acquires e k i d (some buffer) e') :
    Unseen { e with pool := .pump k (.acquire i d) ::ₘ e.pool } short := by
  obtain ⟨hagain, hasks, hsees, hidle⟩ := h
  cases hx with
  | short => cases hsees.head
  | some =>
    refine ⟨hagain, hasks.tail.add rfl, Pool.Free.add hsees.tail hsees.head, hidle.imp_right ?_⟩
    rintro ⟨q, hq, hg⟩
    rcases Multiset.mem_cons.mp hq with rfl | hq
    · cases hg
    · exact ⟨q, Multiset.mem_cons_of_mem hq, hg⟩

theorem Unseen.callback {e e' : Engine} {d : FrameId} {st : NtStatus} {short : Bool}
    (h : Unseen e' short) (hx : Callback e d st e') : Unseen e short := by
  obtain ⟨hagain, hasks, hsees, hidle⟩ := h
  cases hx with
  | recycling =>
    refine ⟨hagain, hasks.tail, hsees.tail, hidle.imp_right ?_⟩
    rintro ⟨q, hq, hg⟩
    rcases Multiset.mem_cons.mp hq with rfl | hq
    · cases hg
    · exact ⟨q, hq, hg⟩
  | deferred => exact ⟨hagain, hasks, hsees, hidle⟩
  | alreadyTaken => exact ⟨hagain, hasks, hsees, hidle⟩

theorem Unseen.of_spawn {e : Engine} {pc : Pc} {short : Bool} (h : Unseen (e.spawn pc) short)
    (hg : pc.givesBack = false) : Unseen e short := by
  refine ⟨h.again, h.asks.tail, h.sees.tail, h.idle.imp_right ?_⟩
  rintro ⟨q, hq, hq'⟩
  rcases Multiset.mem_cons.mp hq with rfl | hq
  · rw [hg] at hq'
    cases hq'
  · exact ⟨q, hq, hq'⟩

end Engine
end Photonic
