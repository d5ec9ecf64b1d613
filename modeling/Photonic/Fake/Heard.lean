import Photonic.Fake.Listener

namespace Photonic
namespace Fake
open ListenerStats

namespace ListenerStats

section
variable (st : ListenerStats) (p : Packet) (n : ℕ)

theorem flushFrame_toClock : st.flushFrame.1.toClock = st.toClock := by
  unfold flushFrame; split <;> rfl

theorem flushFrame_toBursts : st.flushFrame.1.toBursts = st.toBursts := by
  unfold flushFrame; split <;> rfl

theorem flushFrame_toTotals : st.flushFrame.1.toTotals = st.toTotals := by
  unfold flushFrame; split <;> rfl

theorem flushFrame_prevTs : st.flushFrame.1.prevTs = st.prevTs := by
  unfold flushFrame; split <;> rfl

theorem flushFrame_segPackets : st.flushFrame.1.segPackets = st.segPackets := by
  unfold flushFrame; split <;> rfl

theorem receive_toClock : (st.receive p).1.toClock = st.toClock := by
  unfold receive startFrame
  split
  · exact flushFrame_toClock (st.countPacket p.ts)
  · rfl

theorem receive_toBursts : (st.receive p).1.toBursts = st.toBursts := by
  unfold receive startFrame
  split
  · exact flushFrame_toBursts (st.countPacket p.ts)
  · rfl

theorem receive_toTotals : (st.receive p).1.toTotals = st.toTotals := by
  unfold receive startFrame
  split
  · exact flushFrame_toTotals (st.countPacket p.ts)
  · rfl

theorem receive_prevTs : (st.receive p).1.prevTs = now p.ts := by
  unfold receive startFrame
  split
  · exact flushFrame_prevTs (st.countPacket p.ts)
  · rfl

theorem receive_segPackets : (st.receive p).1.segPackets = add64 st.segPackets 1 := by
  unfold receive startFrame
  split
  · exact flushFrame_segPackets (st.countPacket p.ts)
  · rfl

theorem receive_segFrames_le : (st.receive p).1.segFrames ≤ st.segFrames + 1 := by
  unfold receive startFrame
  split
  · exact Nat.mod_le _ _
  · exact Nat.le_succ _

theorem startBurst_toClock : st.startBurst.1.toClock = st.toClock := by
  unfold startBurst; split <;> rfl

theorem startBurst_toReception : st.startBurst.1.toReception = st.toReception := by
  unfold startBurst; split <;> rfl

theorem startBurst_toTotals : st.startBurst.1.toTotals = st.toTotals := by
  unfold startBurst; split <;> rfl

theorem startBurst_frameLost : st.startBurst.1.frameLost = st.frameLost := by
  unfold startBurst; split <;> rfl

theorem clusterLoss_toClock : st.clusterLoss.1.toClock = st.toClock := by
  unfold clusterLoss
  split
  · exact startBurst_toClock st
  · rfl

theorem clusterLoss_toReception : st.clusterLoss.1.toReception = st.toReception := by
  unfold clusterLoss
  split
  · exact startBurst_toReception st
  · rfl

theorem clusterLoss_toTotals : st.clusterLoss.1.toTotals = st.toTotals := by
  unfold clusterLoss
  split
  · exact startBurst_toTotals st
  · rfl

theorem clusterLoss_frameLost : st.clusterLoss.1.frameLost = st.frameLost := by
  unfold clusterLoss
  split
  · exact startBurst_frameLost st
  · rfl

theorem startBurst_segBursts_le : st.startBurst.1.segBursts ≤ st.segBursts + 1 := Nat.mod_le _ _

theorem clusterLoss_segBursts_le : st.clusterLoss.1.segBursts ≤ st.segBursts + 1 := by
  unfold clusterLoss
  split
  · exact startBurst_segBursts_le st
  · exact Nat.le_succ _

end

structure Heard (base : ℕ) (a : Arrival) (st : ListenerStats) : Prop where
  inSegment : st.inSegment = true
  prevTs : st.prevTs = now a.ts
  base_le : base ≤ a.cycle
  absCycle : st.absCycle = a.cycle - base
  counted : st.segPackets + st.segLost = a.cycle - base + 1
  bursts_le : st.segBursts ≤ st.segLost
  frames_le : st.segFrames ≤ st.segPackets

section
variable {base : ℕ} {a b : Arrival} {st : ListenerStats}

/-- The wrapped difference is the true one. -/
theorem Heard.delta_eq (h : Heard base a st) (hab : a.Before b) :
    st.delta (now b.ts) = b.cycle - a.cycle := by
  obtain ⟨hlt, hwrap⟩ := hab
  have hdelta : (now b.ts + cyclesPerWrap + 2 ^ 32 - st.prevTs) % 2 ^ 32 % cyclesPerWrap =
      b.cycle - a.cycle := by
    rw [h.prevTs, a.stamped, b.stamped]
    simp only [cyclesPerWrap] at *
    omega
  rw [delta, hdelta, if_neg (by omega)]

theorem Heard.advance_next (h : Heard base a st) (hab : a.Before b)
    (hb : b.cycle - base + 1 < 2 ^ 64) (hnext : b.cycle ≤ a.cycle + 1) :
    st.advance (now b.ts) = ({ st with absCycle := b.cycle - base }, []) := by
  have hlt := hab.1
  have hle := h.base_le
  have hcycle : add64 st.absCycle (b.cycle - a.cycle) = b.cycle - base := by
    rw [h.absCycle, add64]
    omega
  rw [advance, if_pos h.inSegment, h.delta_eq hab, advanceBy, hcycle]
  exact if_neg (by omega)

theorem Heard.advance_gap (h : Heard base a st) (hab : a.Before b)
    (hb : b.cycle - base + 1 < 2 ^ 64) (hgap : a.cycle + 1 < b.cycle) :
    st.advance (now b.ts) =
      lose { st with absCycle := b.cycle - base } (b.cycle - a.cycle - 1) := by
  have hle := h.base_le
  have hcycle : add64 st.absCycle (b.cycle - a.cycle) = b.cycle - base := by
    rw [h.absCycle, add64]
    omega
  rw [advance, if_pos h.inSegment, h.delta_eq hab, advanceBy, hcycle]
  exact if_pos (by omega)

theorem Heard.advance_toClock (h : Heard base a st) (hab : a.Before b)
    (hb : b.cycle - base + 1 < 2 ^ 64) :
    (st.advance (now b.ts)).1.toClock =
      ⟨true, b.cycle - base, st.segLost + (b.cycle - a.cycle - 1)⟩ := by
  have hle := h.base_le
  have hlt := hab.1
  have hcounted := h.counted
  have hlost : st.segLost + (b.cycle - a.cycle - 1) < 2 ^ 64 := by omega
  rcases Nat.lt_or_ge (a.cycle + 1) b.cycle with hgap | hnext
  · rw [h.advance_gap hab hb hgap, lose, clusterLoss_toClock, countLost, ← h.inSegment, add64,
      Nat.mod_eq_of_lt hlost]
  · rw [h.advance_next hab hb hnext, ← h.inSegment,
      show st.segLost + (b.cycle - a.cycle - 1) = st.segLost by omega]

theorem Heard.advance_toReception (h : Heard base a st) (hab : a.Before b)
    (hb : b.cycle - base + 1 < 2 ^ 64) :
    (st.advance (now b.ts)).1.toReception = st.toReception := by
  rcases Nat.lt_or_ge (a.cycle + 1) b.cycle with hgap | hnext
  · rw [h.advance_gap hab hb hgap, lose, clusterLoss_toReception, countLost]
  · rw [h.advance_next hab hb hnext]

theorem Heard.accountPacket_toClock (h : Heard base a st) (hab : a.Before b)
    (hb : b.cycle - base + 1 < 2 ^ 64) :
    (st.accountPacket b.toPacket).1.toClock =
      ⟨true, b.cycle - base, st.segLost + (b.cycle - a.cycle - 1)⟩ :=
  (receive_toClock _ _).trans (h.advance_toClock hab hb)

theorem Heard.accountPacket_segLost (h : Heard base a st) (hab : a.Before b)
    (hb : b.cycle - base + 1 < 2 ^ 64) :
    (st.accountPacket b.toPacket).1.segLost = st.segLost + (b.cycle - a.cycle - 1) :=
  congrArg Clock.segLost (h.accountPacket_toClock hab hb)

theorem Heard.accountPacket_segPackets (h : Heard base a st) (hab : a.Before b)
    (hb : b.cycle - base + 1 < 2 ^ 64) :
    (st.accountPacket b.toPacket).1.segPackets = st.segPackets + 1 := by
  have hle := h.base_le
  have hlt := hab.1
  have hcounted := h.counted
  calc (st.accountPacket b.toPacket).1.segPackets
      = add64 (st.advance (now b.ts)).1.segPackets 1 := receive_segPackets _ _
    _ = add64 st.segPackets 1 :=
        congrArg (fun r : Reception => add64 r.segPackets 1) (h.advance_toReception hab hb)
    _ = st.segPackets + 1 := Nat.mod_eq_of_lt (by omega)

theorem Heard.advance_segBursts_le (h : Heard base a st) (hab : a.Before b)
    (hb : b.cycle - base + 1 < 2 ^ 64) :
    (st.advance (now b.ts)).1.segBursts ≤ st.segLost + (b.cycle - a.cycle - 1) := by
  have hbursts := h.bursts_le
  rcases Nat.lt_or_ge (a.cycle + 1) b.cycle with hgap | hnext
  · have hone : st.segBursts + 1 ≤ st.segLost + (b.cycle - a.cycle - 1) := by omega
    rw [h.advance_gap hab hb hgap, lose]
    exact (clusterLoss_segBursts_le _).trans hone
  · rw [h.advance_next hab hb hnext]
    exact hbursts.trans (Nat.le_add_right _ _)

theorem Heard.next (h : Heard base a st) (hab : a.Before b)
    (hb : b.cycle - base + 1 < 2 ^ 64) : Heard base b (st.accountPacket b.toPacket).1 where
  inSegment := congrArg Clock.inSegment (h.accountPacket_toClock hab hb)
  prevTs := receive_prevTs _ _
  base_le := h.base_le.trans (Nat.le_of_lt hab.1)
  absCycle := congrArg Clock.absCycle (h.accountPacket_toClock hab hb)
  counted := by
    rw [h.accountPacket_segPackets hab hb, h.accountPacket_segLost hab hb]
    have hcounted := h.counted
    have hle := h.base_le
    have hlt := hab.1
    omega
  bursts_le := by
    rw [h.accountPacket_segLost hab hb]
    exact (Nat.le_of_eq (congrArg Bursts.segBursts (receive_toBursts _ _))).trans
      (h.advance_segBursts_le hab hb)
  frames_le := by
    rw [h.accountPacket_segPackets hab hb]
    exact (receive_segFrames_le _ _).trans (Nat.succ_le_succ ((Nat.le_of_eq
      (congrArg Reception.segFrames (h.advance_toReception hab hb))).trans h.frames_le))

end

theorem accountAll_append (st : ListenerStats) (l l' : List Packet) :
    st.accountAll (l ++ l') =
      (((st.accountAll l).1.accountAll l').1,
        (st.accountAll l).2 ++ ((st.accountAll l).1.accountAll l').2) := by
  induction l generalizing st with
  | nil => rfl
  | cons p l ih =>
    rw [List.cons_append, accountAll, accountAll, ih]
    simp only [List.append_assoc]

end ListenerStats

namespace Arrival

/-- The last of a stretch that one packet starts. -/
def lastOf (a : Arrival) (l : List Arrival) : Arrival := (a :: l).getLast (List.cons_ne_nil _ _)

@[simp] theorem lastOf_nil (a : Arrival) : lastOf a [] = a := rfl

@[simp] theorem lastOf_cons (a b : Arrival) (l : List Arrival) : lastOf a (b :: l) = lastOf b l := rfl

variable {a : Arrival} {l : List Arrival}

theorem cycle_le_lastOf (h : (a :: l).IsChain Before) : a.cycle ≤ (lastOf a l).cycle := by
  induction l generalizing a with
  | nil => exact Nat.le_refl _
  | cons b l ih =>
    rw [List.isChain_cons_cons] at h
    exact (Nat.le_of_lt h.1.1).trans (ih h.2)

theorem cycle_le_of_mem {b : Arrival} (h : (a :: l).IsChain Before) (hb : b ∈ a :: l) :
    b.cycle ≤ (lastOf a l).cycle := by
  induction l generalizing a with
  | nil => exact Nat.le_of_eq (congrArg cycle (List.mem_singleton.mp hb))
  | cons c l ih =>
    rcases List.mem_cons.mp hb with rfl | hb
    · exact cycle_le_lastOf h
    · exact ih (List.isChain_cons_cons.mp h).2 hb

theorem length_add_lost (h : (a :: l).IsChain Before) :
    l.length + lost (a :: l) = (lastOf a l).cycle - a.cycle := by
  induction l generalizing a with
  | nil => simp [lost]
  | cons b l ih =>
    rw [List.isChain_cons_cons] at h
    have htail := ih h.2
    have hle := cycle_le_lastOf h.2
    have hlt := h.1.1
    simp only [lost, List.length_cons, lastOf_cons]
    omega

end Arrival

namespace ListenerStats
open Arrival

section
variable {base : ℕ} {a : Arrival} {l : List Arrival} {st : ListenerStats}

/-- The counters of the segment after a stretch of it. -/
theorem Heard.run (h : Heard base a st) (hchain : (a :: l).IsChain Before)
    (hspan : (lastOf a l).cycle - base + 1 < 2 ^ 64) :
    Heard base (lastOf a l) (st.accountAll (l.map toPacket)).1 ∧
      (st.accountAll (l.map toPacket)).1.segPackets = st.segPackets + l.length ∧
      (st.accountAll (l.map toPacket)).1.segLost = st.segLost + lost (a :: l) := by
  induction l generalizing st a with
  | nil => exact ⟨h, rfl, rfl⟩
  | cons b l ih =>
    rw [List.isChain_cons_cons] at hchain
    have hle := cycle_le_lastOf hchain.2
    rw [lastOf_cons] at hspan
    have hb : b.cycle - base + 1 < 2 ^ 64 := by omega
    obtain ⟨hheard, hp, hl⟩ := ih (h.next hchain.1 hb) hchain.2 hspan
    refine ⟨hheard, hp.trans ?_, hl.trans ?_⟩
    · rw [h.accountPacket_segPackets hchain.1 hb, List.length_cons, Nat.add_right_comm, Nat.add_assoc]
    · rw [h.accountPacket_segLost hchain.1 hb, lost, Nat.add_assoc]

end

section
variable (st : ListenerStats) (p : Packet) (n : ℕ)

theorem flushFrame_spaces : st.flushFrame.2.filterMap Event.space? = [] := by
  unfold flushFrame; split <;> rfl

theorem flushFrame_segments : st.flushFrame.2.filterMap Event.segment? = [] := by
  unfold flushFrame; split <;> rfl

theorem receive_spaces : (st.receive p).2.filterMap Event.space? = [] := by
  unfold receive startFrame
  split
  · exact flushFrame_spaces (st.countPacket p.ts)
  · rfl

theorem receive_segments : (st.receive p).2.filterMap Event.segment? = [] := by
  unfold receive startFrame
  split
  · exact flushFrame_segments (st.countPacket p.ts)
  · rfl

theorem clusterLoss_frames : st.clusterLoss.2.filterMap Event.frame? = [] := by
  unfold clusterLoss startBurst; split <;> (try split) <;> rfl

theorem clusterLoss_segments : st.clusterLoss.2.filterMap Event.segment? = [] := by
  unfold clusterLoss startBurst; split <;> (try split) <;> rfl

theorem advanceBy_cases (d : ℕ) :
    ∃ c : ListenerStats, c.toBursts = st.toBursts ∧ c.toTotals = st.toTotals ∧
      (st.advanceBy d = (c, []) ∨ st.advanceBy d = c.clusterLoss) := by
  by_cases hd : 1 < d
  · exact ⟨countLost { st with absCycle := add64 st.absCycle d } (d - 1), rfl, rfl, .inr (if_pos hd)⟩
  · exact ⟨{ st with absCycle := add64 st.absCycle d }, rfl, rfl, .inl (if_neg hd)⟩

theorem advance_cases :
    ∃ c : ListenerStats, c.toBursts = st.toBursts ∧ c.toTotals = st.toTotals ∧
      (st.advance n = (c, []) ∨ st.advance n = c.clusterLoss) := by
  rw [advance]
  split
  · exact advanceBy_cases st _
  · exact ⟨{ st with inSegment := true, absCycle := 0 }, rfl, rfl, .inl rfl⟩

theorem advance_toTotals : (st.advance n).1.toTotals = st.toTotals := by
  obtain ⟨c, -, hc, h | h⟩ := st.advance_cases n
  · rw [h, hc]
  · rw [h, clusterLoss_toTotals, hc]

theorem advance_frames : (st.advance n).2.filterMap Event.frame? = [] := by
  obtain ⟨c, -, -, h | h⟩ := st.advance_cases n
  · rw [h]
    rfl
  · rw [h, clusterLoss_frames]

theorem advance_segments : (st.advance n).2.filterMap Event.segment? = [] := by
  obtain ⟨c, -, -, h | h⟩ := st.advance_cases n
  · rw [h]
    rfl
  · rw [h, clusterLoss_segments]

theorem accountPacket_spaces :
    (st.accountPacket p).2.filterMap Event.space? =
      (st.advance (now p.ts)).2.filterMap Event.space? := by
  rw [accountPacket, List.filterMap_append, receive_spaces, List.append_nil]

theorem accountPacket_frames :
    (st.accountPacket p).2.filterMap Event.frame? =
      ((st.advance (now p.ts)).1.receive p).2.filterMap Event.frame? := by
  rw [accountPacket, List.filterMap_append, advance_frames, List.nil_append]

theorem accountPacket_toBursts :
    (st.accountPacket p).1.toBursts = (st.advance (now p.ts)).1.toBursts :=
  receive_toBursts _ _

theorem accountAll_segments (l : List Packet) :
    (st.accountAll l).2.filterMap Event.segment? = [] := by
  induction l generalizing st with
  | nil => rfl
  | cons p l ih =>
    rw [accountAll, List.filterMap_append, ih, accountPacket, List.filterMap_append,
      advance_segments, receive_segments]
    rfl

theorem accountAll_toTotals (l : List Packet) : (st.accountAll l).1.toTotals = st.toTotals := by
  induction l generalizing st with
  | nil => rfl
  | cons p l ih => exact (ih _).trans ((receive_toTotals _ _).trans (advance_toTotals _ _))

end

end ListenerStats
end Fake
end Photonic
