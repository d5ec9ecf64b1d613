import Photonic.Stream.Custody

namespace Photonic

/-- The sample carries a frame. -/
def Completion.isFrame (c : Completion) : Bool := c.bytesWritten ≠ 0

/-- The engine delivered a captured frame. -/
def Delivery.isFrame (d : Delivery) : Bool := ntSuccess d.status && d.bytesUsed ≠ 0

namespace Reads

def frameCount (cs : List Completion) : ℕ := cs.countP (·.isFrame)

/-- Behind `n` frames, each header is given the count of the frames up to it. A request that is
turned away has no header. -/
def Stamped (n : BitVec 32) : List Completion → Prop
  | [] => True
  | c :: cs =>
    let m := n + BitVec.ofNat 32 (frameCount [c])
    (c.frameNumber = some m ∨ c.isFrame = false ∧ c.frameNumber = none) ∧ Stamped m cs

theorem ofNat_frameCount_append (n : BitVec 32) (xs ys : List Completion) :
    n + BitVec.ofNat 32 (frameCount (xs ++ ys)) =
      n + BitVec.ofNat 32 (frameCount xs) + BitVec.ofNat 32 (frameCount ys) := by
  rw [frameCount, List.countP_append, BitVec.ofNat_add, ← BitVec.add_assoc]
  rfl

theorem stamped_append {n : BitVec 32} {xs ys : List Completion} :
    Stamped n (xs ++ ys) ↔ Stamped n xs ∧ Stamped (n + BitVec.ofNat 32 (frameCount xs)) ys := by
  induction xs generalizing n with
  | nil => simp [Stamped, frameCount]
  | cons c xs ih =>
    rw [show c :: xs = [c] ++ xs from rfl, ofNat_frameCount_append]
    simp only [List.cons_append, Stamped, List.nil_append, ih, and_assoc]

theorem Stamped.number {n : BitVec 32} {before after : List Completion} {c : Completion}
    (h : Stamped n (before ++ c :: after)) :
    c.frameNumber = some (n + BitVec.ofNat 32 (frameCount (before ++ [c]))) ∨
      c.isFrame = false ∧ c.frameNumber = none := by
  rw [ofNat_frameCount_append]
  exact (stamped_append.mp h).2.1

/-- A picture number counts the frames up to its completion, and a frame has one if its header has
room for it. -/
theorem Stamped.picture {n : BitVec 32} {before after : List Completion} {c : Completion}
    (h : Stamped n (before ++ c :: after)) :
    (c.isFrame = true → c.frameInfo = true →
      c.pictureNumber = some (n + BitVec.ofNat 32 (frameCount (before ++ [c])))) ∧
    ∀ p, c.pictureNumber = some p → p = n + BitVec.ofNat 32 (frameCount (before ++ [c])) := by
  unfold Completion.pictureNumber
  constructor
  · intro hf hroom
    rw [if_pos hroom]
    apply h.number.resolve_right
    rintro ⟨hno, -⟩
    cases hf.symm.trans hno
  · intro p hp
    split at hp
    · rcases h.number with hn | ⟨-, hn⟩
      · rw [hp] at hn
        exact Option.some_inj.mp hn
      · cases hp.symm.trans hn
    · cases hp

theorem Stamped.frames {n : BitVec 32} {cs : List Completion} (h : Stamped n cs) :
    (cs.filter (·.isFrame)).map (·.frameNumber) =
      (List.range (frameCount cs)).map fun i => some (n + BitVec.ofNat 32 (i + 1)) := by
  induction cs using List.reverseRecOn with
  | nil => rfl
  | append_singleton cs c ih =>
    obtain ⟨hcs, hn, -⟩ := stamped_append.mp h
    rw [List.filter_append, List.map_append, ih hcs]
    cases hc : c.isFrame with
    | false => simp [frameCount, hc]
    | true =>
      have hone : frameCount [c] = 1 := by simp [frameCount, hc]
      have hsucc : frameCount (cs ++ [c]) = frameCount cs + 1 := by
        rw [frameCount, List.countP_append]
        simp [frameCount, hc]
      rw [hc, hone, BitVec.add_assoc, ← BitVec.ofNat_add] at hn
      simp only [Bool.true_eq_false, false_and, or_false] at hn
      rw [hsucc, List.range_succ, List.map_append]
      simp [hc, hn]

/-- What happened between `f` and `f'`: the engine delivered `ds`, the completions `cs` went out. -/
structure Numbers (f f' : Reads) (ds : List Delivery) (cs : List Completion) : Prop where
  completed : f'.completed = f.completed ++ cs
  frameNumber : f'.frameNumber = f.frameNumber + BitVec.ofNat 32 (frameCount cs)
  stamped : Stamped f.frameNumber cs
  /-- The frames are the engine's, in the order it delivered them. -/
  origin : ((cs.filter (·.isFrame)).map (·.srb)).Sublist ((ds.filter (·.isFrame)).map (·.cookie))

variable {f f' f₁ : Reads} {ds es : List Delivery} {cs bs : List Completion}

theorem Numbers.quiet (hc : f'.completed = f.completed) (hn : f'.frameNumber = f.frameNumber) :
    Numbers f f' [] [] := by
  refine ⟨?_, ?_, trivial, List.Sublist.refl _⟩
  · rw [hc, List.append_nil]
  · simp [hn, frameCount]

theorem Numbers.trans (h : Numbers f f₁ ds cs) (h' : Numbers f₁ f' es bs) :
    Numbers f f' (ds ++ es) (cs ++ bs) where
  completed := by rw [h'.completed, h.completed, List.append_assoc]
  frameNumber := by rw [h'.frameNumber, h.frameNumber, ← ofNat_frameCount_append]
  stamped := by
    rw [stamped_append, ← h.frameNumber]
    exact ⟨h.stamped, h'.stamped⟩
  origin := by
    simp only [List.filter_append, List.map_append]
    exact h.origin.append h'.origin

theorem numbers_complete (srb : Cookie) (status : NtStatus) :
    Numbers f (f.complete srb status) [] [⟨srb, 0, status, none, false⟩] := by
  refine ⟨rfl, ?_, ⟨.inr ⟨rfl, rfl⟩, trivial⟩, List.Sublist.refl _⟩
  simp [complete, frameCount, Completion.isFrame]

theorem numbers_completeRead_zero (srb : Cookie) (status : NtStatus) :
    Numbers f (f.completeRead srb 0 status) []
      [⟨srb, 0, status, some f.frameNumber, (f.srbs srb).frameInfo⟩] := by
  refine ⟨rfl, ?_, ⟨.inl ?_, trivial⟩, List.Sublist.refl _⟩ <;>
  · simp [completeRead, frameCount, Completion.isFrame]

theorem numbers_deliverFrame (d : Delivery) : ∃ cs, Numbers f (f.deliverFrame d) [d] cs := by
  unfold deliverFrame
  generalize hused : (if ntSuccess d.status then min d.bytesUsed (f.srbs d.cookie).frameExtent else 0) = used
  by_cases hz : used = 0
  · -- cancelled, torn down or failed, or empty
    rw [hz]
    have h := numbers_completeRead_zero (f := f) d.cookie d.status
    exact ⟨_, h.completed, h.frameNumber, h.stamped, List.nil_sublist _⟩
  · have hd : d.isFrame = true := by
      split at hused
      · next hs =>
        have : d.bytesUsed ≠ 0 := by omega
        simp [Delivery.isFrame, hs, this]
      · exact absurd hused.symm hz
    refine ⟨[⟨d.cookie, used, d.status, some (f.frameNumber + 1), (f.srbs d.cookie).frameInfo⟩], ?_, ?_,
      ⟨.inl ?_, trivial⟩, ?_⟩
    · simp [completeRead, hz]
    · simp [completeRead, hz, frameCount, Completion.isFrame]
    · simp [hz, frameCount, Completion.isFrame]
    · simp [hd, hz, Completion.isFrame]

end Reads

namespace Pin
open Reads (Numbers)

/-- What the class driver and the engine saw of a step or a run that does not restart the count. -/
def Numbering (f f' : Reads) (e e' : Engine) : Prop :=
  ∃ ds cs, e'.delivered = e.delivered ++ ds ∧ Numbers f f' ds cs

namespace Numbering
variable {f f' f₁ : Reads} {e e' e₁ : Engine}

theorem quiet (hc : f'.completed = f.completed) (hn : f'.frameNumber = f.frameNumber) :
    Numbering f f' e e :=
  ⟨[], [], (List.append_nil _).symm, .quiet hc hn⟩

theorem trans (h : Numbering f f₁ e e₁) (h' : Numbering f₁ f' e₁ e') : Numbering f f' e e' := by
  obtain ⟨ds, cs, hd, hn⟩ := h
  obtain ⟨es, bs, hd', hn'⟩ := h'
  refine ⟨ds ++ es, cs ++ bs, ?_, hn.trans hn'⟩
  rw [hd', hd, List.append_assoc]

theorem complete (srb : Cookie) (status : NtStatus) : Numbering f (f.complete srb status) e e :=
  ⟨[], _, (List.append_nil _).symm, Reads.numbers_complete srb status⟩

theorem completeRead (srb : Cookie) (status : NtStatus) :
    Numbering f (f.completeRead srb 0 status) e e :=
  ⟨[], _, (List.append_nil _).symm, Reads.numbers_completeRead_zero srb status⟩

/-- Only a delivery of the engine claims a number. -/
theorem fed {d d' : Device} (h : Device.Feeds Reads.callbacks d d' f f') :
    Numbering f f' d.eng d'.eng := by
  cases h with
  | acquires ha hq hacq hdel | finds ha hacq hdel =>
    refine ⟨[], [], by rw [hdel, List.append_nil], ?_⟩
    change Numbers f f.acquireBuffer.2 [] []
    unfold Reads.acquireBuffer
    split
    · exact .quiet rfl rfl
    · exact .quiet rfl rfl
  | @delivers x hq hacq hdel =>
    obtain ⟨cs, hcs⟩ := Reads.numbers_deliverFrame (f := f) x
    exact ⟨[x], cs, hdel, hcs⟩
  | silent hacq hdel => exact ⟨[], [], by rw [hdel, List.append_nil], .quiet rfl rfl⟩

end Numbering

variable {s s' : Pin}

theorem Runs.numbering {t : Thread} (h : Runs s t s') :
    Numbering s.reads s'.reads s.dev.eng s'.dev.eng := by
  cases h with
  | refuse | answer | reject => apply Numbering.complete
  | fail | cancelled | skipped | flushed | drained => apply Numbering.completeRead
  | pump hl hf | notify hl hf => exact .fed (.of_feed hf)
  | _ => exact .quiet rfl rfl

/-- No engine is streaming: a run begins a new session. -/
def settled (s : Pin) : Prop := s.dev.life ≠ .alive ∨ s.dev.eng.cap.draining = true

instance (s : Pin) : Decidable s.settled := inferInstanceAs (Decidable (_ ∨ _))

theorem Steps.numbering {a : Act} (h : Steps s a s') (ha : a = .setRun → ¬s.settled) :
    Numbering s.reads s'.reads s.dev.eng s'.dev.eng := by
  cases h with
  | dev _ hf | closeStop _ hf | closeDestroy _ hf | closeReturn _ _ hf => exact .fed (.of_feed hf)
  | thread ht hx => exact hx.numbering (s := { s with threads := _ })
  | @setRun dev f n hc hn hf =>
    have hgoes : n = s.reads.frameNumber := by
      rw [hn, if_neg]
      exact ha rfl
    subst hgoes
    exact .fed (.of_feed hf)
  | _ => exact .quiet rfl rfl

theorem Steps.restarts (h : Steps s .setRun s') (hs : s.settled) :
    Numbering { s.reads with frameNumber := 0 } s'.reads s.dev.eng s'.dev.eng := by
  cases h with
  | @setRun dev f n hc hn hf =>
    have hzero : n = 0 := by
      rw [hn, if_pos]
      exact hs
    subst hzero
    exact .fed (.of_feed hf)

/-- The steps of a session: a run is a resume of a pause. -/
def InSession (s : Pin) (a : Act) : Prop := a = .setRun → ¬s.settled

instance (s : Pin) (a : Act) : Decidable (s.InSession a) :=
  inferInstanceAs (Decidable (_ → _))

theorem numbering_of_session (h : Machine.Reaches ⟨s, step⟩ InSession s') :
    Numbering s.reads s'.reads s.dev.eng s'.dev.eng := by
  induction h with
  | init => exact .quiet rfl rfl
  | step _ ha hs ih => exact ih.trans ((Steps.of_step hs).numbering ha)

/-- From the run that begins a capture session on, over every pause and resume and whatever is
cancelled, flushed, drained or fails on the way: the frames are frames the engine delivered since, in
its order, and claim the numbers from 1 on without a gap. The picture number of a frame whose header
has room for one is the number it claimed, and that of every other sample tells how many frames came
before it. -/
theorem picture_numbers {t : Pin} (hset : s.settled) (hrun : s.step .setRun = some s')
    (ht : Machine.Reaches ⟨s', step⟩ InSession t) :
    ∃ ds cs, t.dev.eng.delivered = s.dev.eng.delivered ++ ds ∧
      t.reads.completed = s.reads.completed ++ cs ∧
      (cs.filter (·.isFrame)).map (·.frameNumber) =
        (List.range (Reads.frameCount cs)).map (fun i => some (BitVec.ofNat 32 (i + 1))) ∧
      ((cs.filter (·.isFrame)).map (·.srb)).Sublist ((ds.filter (·.isFrame)).map (·.cookie)) ∧
      ∀ before c after, cs = before ++ c :: after →
        (c.isFrame = true → c.frameInfo = true →
          c.pictureNumber = some (BitVec.ofNat 32 (Reads.frameCount (before ++ [c])))) ∧
        ∀ p, c.pictureNumber = some p → p = BitVec.ofNat 32 (Reads.frameCount (before ++ [c])) := by
  have hnum := ((Steps.of_step hrun).restarts hset).trans (numbering_of_session ht)
  obtain ⟨ds, cs, hd, hn⟩ := hnum
  refine ⟨ds, cs, hd, hn.completed, ?_, hn.origin, ?_⟩
  · have hframes := hn.stamped.frames
    simpa only [BitVec.ofNat_eq_ofNat, BitVec.zero_add] using hframes
  · intro before c after hcs
    have hstamped := hn.stamped
    rw [hcs] at hstamped
    simpa only [BitVec.ofNat_eq_ofNat, BitVec.zero_add] using hstamped.picture

def fillRun (d : FrameId) (srb : Cookie) : List Device.Act :=
  [.callback d statusSuccess, .runs (.beginDetach .handler d), .runs (.detachAtBus d),
    .runs (.detachComplete d statusSuccess srb 8 statusSuccess),
    .runs (.detachDeliver srb 8 statusSuccess)]

/-- Behind the start of `readRun`: a frame fills the attached read, a second read is cancelled where
it is parked, the stream is paused and resumed, and a frame fills a third read, whose header has no
room for its number. -/
def sessionRun : List Act :=
  readRun.drop 15 ++ devRun (fillRun 0 7) ++ parkRun 9 ++
    [.cancelPacket 9, .thread (.cancelEnter 9), .thread (.claim 9), .thread (.cancelled 9),
      .thread .leave] ++
    devRun [.acquireMutex, .api (.setState .pause), .releaseMutex, .acquireMutex] ++ [.setRun] ++
    devRun [.go, .go, .releaseMutex] ++
    .receive 11 ⟨.readData, 1, true, some 8, 8, false⟩ none :: (parkRun 11).drop 1 ++
    devRun (Device.lapRun .completion 1 2 11 ++ [.runs (.attachAtBus 1),
      .runs (.attachComplete 1 statusSuccess 11)] ++ fillRun 1 11)

theorem picture_numbers_sessionRun :
    let s := machine.after (fun _ _ => True) (readRun.take 14)
    let s' := Machine.after ⟨s, step⟩ (fun _ _ => True) [.setRun]
    let t := Machine.after ⟨s', step⟩ InSession sessionRun
    t.reads.completed = [⟨7, 8, statusSuccess, some 1, true⟩, ⟨9, 0, statusCancelled, some 1, true⟩,
      ⟨11, 8, statusSuccess, some 2, false⟩] ∧
    ∃ cs, t.reads.completed = s.reads.completed ++ cs ∧
      (cs.filter (·.isFrame)).map (·.frameNumber) =
        (List.range (Reads.frameCount cs)).map (fun i => some (BitVec.ofNat 32 (i + 1))) := by
  refine ⟨by decide, ?_⟩
  have hset : (machine.after (fun _ _ => True) (readRun.take 14)).settled := by decide
  generalize hs : machine.after (fun _ _ => True) (readRun.take 14) = s at hset
  have hrun : Machine.run ⟨s, step⟩ (fun _ _ => True) s [.setRun] =
      some (Machine.after ⟨s, step⟩ (fun _ _ => True) [.setRun]) := by
    apply Machine.run_eq_after
    rw [← hs]
    decide
  simp only [Machine.run, if_true, Option.bind_fun_some] at hrun
  obtain ⟨ds, cs, -, hc, hn, -⟩ :=
    picture_numbers hset hrun (Machine.reaches_after InSession sessionRun)
  exact ⟨cs, hc, hn⟩

end Pin
end Photonic
