import Mathlib.Data.List.TakeWhile
import Photonic.Fake.Heard

namespace Photonic
namespace Fake
namespace ListenerStats
open Arrival

def frameLines (st : ListenerStats) (l : List Arrival) : List FrameReport :=
  (st.accountAll (l.map toPacket)).2.filterMap Event.frame? ++
    (st.accountAll (l.map toPacket)).1.flushFrame.2.filterMap Event.frame?

section
variable {base n : ℕ} {a b x : Arrival} {l : List Arrival} {st : ListenerStats} {p : Packet}

theorem frameLines_cons :
    st.frameLines (b :: l) =
      (st.accountPacket b.toPacket).2.filterMap Event.frame? ++
        (st.accountPacket b.toPacket).1.frameLines l := by
  simp only [frameLines, List.map_cons, accountAll, List.filterMap_append, List.append_assoc]

theorem receive_quiet (hsy : p.sy = 0) :
    st.receive p = ((st.countPacket p.ts).joinFrame p.length, []) := by
  rw [receive, if_neg (not_not.mpr hsy)]

theorem Heard.quiet (h : Heard base a st) (hab : a.Before b) (hb : b.cycle - base + 1 < 2 ^ 64)
    (hsy : b.sy = 0) (hpkts : st.framePkts + 1 < 2 ^ 64) :
    (st.accountPacket b.toPacket).2.filterMap Event.frame? = [] ∧
      (st.accountPacket b.toPacket).1.frameOpen = st.frameOpen ∧
      (st.accountPacket b.toPacket).1.frameStart = st.frameStart ∧
      (st.accountPacket b.toPacket).1.framePkts = st.framePkts + 1 := by
  have hreception := h.advance_toReception hab hb
  have hopen : (st.advance (now b.ts)).1.frameOpen = st.frameOpen :=
    congrArg Reception.frameOpen hreception
  have hstart : (st.advance (now b.ts)).1.frameStart = st.frameStart :=
    congrArg Reception.frameStart hreception
  rw [accountPacket_frames, accountPacket, receive_quiet hsy]
  refine ⟨rfl, hopen, hstart, ?_⟩
  calc add64 (st.advance (now b.ts)).1.framePkts 1
      = add64 st.framePkts 1 := congrArg (fun r : Reception => add64 r.framePkts 1) hreception
    _ = st.framePkts + 1 := Nat.mod_eq_of_lt hpkts

theorem Heard.quiet_frameLost (h : Heard base a st) (hab : a.Before b)
    (hb : b.cycle - base + 1 < 2 ^ 64) (hsy : b.sy = 0)
    (hlost : st.frameLost + (b.cycle - a.cycle - 1) < 2 ^ 64) :
    (st.accountPacket b.toPacket).1.frameLost = st.frameLost + (b.cycle - a.cycle - 1) := by
  rw [accountPacket, receive_quiet hsy]
  change (st.advance (now b.ts)).1.frameLost = _
  have hlt := hab.1
  rcases Nat.lt_or_ge (a.cycle + 1) b.cycle with hgap | hnext
  · rw [h.advance_gap hab hb hgap, lose, clusterLoss_frameLost]
    exact Nat.mod_eq_of_lt hlost
  · rw [h.advance_next hab hb hnext]
    change st.frameLost = _
    omega

theorem Heard.accountAll_quiet (h : Heard base a st) (hchain : (a :: l).IsChain Before)
    (hspan : (lastOf a l).cycle - base + 1 < 2 ^ 64) (hquiet : ∀ b ∈ l, b.sy = 0)
    (hpkts : st.framePkts + l.length < 2 ^ 64) :
    (st.accountAll (l.map toPacket)).2.filterMap Event.frame? = [] ∧
      (st.accountAll (l.map toPacket)).1.frameOpen = st.frameOpen ∧
      (st.accountAll (l.map toPacket)).1.frameStart = st.frameStart ∧
      (st.accountAll (l.map toPacket)).1.framePkts = st.framePkts + l.length := by
  induction l generalizing st a with
  | nil => exact ⟨rfl, rfl, rfl, rfl⟩
  | cons b l ih =>
    rw [List.isChain_cons_cons] at hchain
    have hlast := cycle_le_lastOf hchain.2
    rw [lastOf_cons] at hspan
    have hb : b.cycle - base + 1 < 2 ^ 64 := by omega
    rw [List.length_cons] at hpkts ⊢
    obtain ⟨hnone, hopen, hstart, hp⟩ :=
      h.quiet hchain.1 hb (hquiet b List.mem_cons_self) (by omega)
    obtain ⟨hnone', hopen', hstart', hp'⟩ := ih (h.next hchain.1 hb) hchain.2 hspan
      (fun c hc => hquiet c (List.mem_cons_of_mem _ hc)) (by omega)
    rw [List.map_cons, accountAll, List.filterMap_append, hnone, hnone']
    refine ⟨rfl, hopen'.trans hopen, hstart'.trans hstart, hp'.trans ?_⟩
    omega

theorem Heard.accountAll_quiet_frameLost (h : Heard base a st) (hchain : (a :: l).IsChain Before)
    (hspan : (lastOf a l).cycle - base + 1 < 2 ^ 64) (hquiet : ∀ b ∈ l, b.sy = 0)
    (hlost : st.frameLost + lost (a :: l) < 2 ^ 64) :
    (st.accountAll (l.map toPacket)).1.frameLost = st.frameLost + lost (a :: l) := by
  induction l generalizing st a with
  | nil => rfl
  | cons b l ih =>
    rw [List.isChain_cons_cons] at hchain
    have hlast := cycle_le_lastOf hchain.2
    rw [lastOf_cons] at hspan
    have hb : b.cycle - base + 1 < 2 ^ 64 := by omega
    rw [lost] at hlost ⊢
    have hstep := h.quiet_frameLost hchain.1 hb (hquiet b List.mem_cons_self) (by omega)
    refine (ih (h.next hchain.1 hb) hchain.2 hspan
      (fun c hc => hquiet c (List.mem_cons_of_mem _ hc)) (by omega)).trans ?_
    omega

theorem frames_flushFrame (st : ListenerStats) (hopen : st.frameOpen = true) :
    ∃ r, st.flushFrame.2.filterMap Event.frame? = [r] ∧ r.packets = st.framePkts ∧
      r.lost = st.frameLost ∧ r.cycles = add64 (sub64 st.absCycle st.frameStart) 1 := by
  rw [flushFrame, if_pos hopen]
  exact ⟨_, rfl, rfl, rfl, rfl⟩

theorem frames_flushFrame_closed (st : ListenerStats) (hopen : st.frameOpen = false) : st.flushFrame = (st, []) := by
  rw [flushFrame, hopen, if_neg Bool.false_ne_true]

theorem Heard.sy_open (h : Heard base a st) (hab : a.Before b) (hb : b.cycle - base + 1 < 2 ^ 64)
    (hsy : b.sy ≠ 0) (hopen : st.frameOpen = true) :
    ∃ r, (st.accountPacket b.toPacket).2.filterMap Event.frame? = [r] ∧
      r.packets = st.framePkts ∧
      r.cycles = add64 (sub64 (b.cycle - base) st.frameStart) 1 := by
  have hreception := h.advance_toReception hab hb
  have hopen' : (st.advance (now b.ts)).1.frameOpen = true :=
    (congrArg Reception.frameOpen hreception).trans hopen
  have hstart : (st.advance (now b.ts)).1.frameStart = st.frameStart :=
    congrArg Reception.frameStart hreception
  have hpkts : (st.advance (now b.ts)).1.framePkts = st.framePkts :=
    congrArg Reception.framePkts hreception
  have hcycle : (st.advance (now b.ts)).1.absCycle = b.cycle - base :=
    congrArg Clock.absCycle (h.advance_toClock hab hb)
  obtain ⟨r, hr, hp, -, hc⟩ :=
    frames_flushFrame ((st.advance (now b.ts)).1.countPacket b.ts) hopen'
  rw [accountPacket_frames, receive, if_pos hsy, ← hpkts, ← hstart, ← hcycle]
  exact ⟨r, hr, hp, hc⟩

theorem frameCycles {start c : ℕ} (hle : start ≤ c) (hc : c + 1 < 2 ^ 64) :
    add64 (sub64 c start) 1 = c - start + 1 := by
  rw [add64, sub64]
  omega

/-- The cycles of a stretch and of the packet after it follow one another. -/
theorem isChain_lastOf {y : Arrival} {l' : List Arrival} (h : (a :: (l ++ y :: l')).IsChain Before) :
    (a :: l).IsChain Before ∧ (lastOf a l).Before y ∧ (y :: l').IsChain Before := by
  induction l generalizing a with
  | nil => exact ⟨.singleton a, (List.isChain_cons_cons.mp h).1, (List.isChain_cons_cons.mp h).2⟩
  | cons b l ih =>
    obtain ⟨hab, htail⟩ := List.isChain_cons_cons.mp h
    obtain ⟨h1, h2, h3⟩ := ih htail
    exact ⟨List.isChain_cons_cons.mpr ⟨hab, h1⟩, h2, h3⟩

theorem lastOf_append {y : Arrival} {l' : List Arrival} : lastOf a (l ++ y :: l') = lastOf y l' := by
  induction l generalizing a with
  | nil => rfl
  | cons b l ih => exact ih

/-- After the packets of a frame comes one that starts the next, or the end. -/
theorem body_split (l : List Arrival) :
    ∃ rest, l.drop (body l).length = rest ∧ l = body l ++ rest ∧ (∀ b ∈ body l, b.sy = 0) ∧
      ∀ y ∈ rest.head?, y.sy ≠ 0 := by
  induction l with
  | nil => exact ⟨[], rfl, rfl, by simp [body], by simp⟩
  | cons b l ih =>
    obtain ⟨rest, hdrop, hsplit, hquiet, hnext⟩ := ih
    by_cases hsy : b.sy = 0
    · have hbody : body (b :: l) = b :: body l := List.takeWhile_cons_of_pos (by simpa using hsy)
      rw [hbody]
      refine ⟨rest, hdrop, congrArg (b :: ·) hsplit, ?_, hnext⟩
      exact List.forall_mem_cons.mpr ⟨hsy, hquiet⟩
    · have hbody : body (b :: l) = [] := List.takeWhile_cons_of_neg (by simpa using hsy)
      rw [hbody]
      exact ⟨b :: l, rfl, rfl, by simp, by simpa using hsy⟩

/-- The first line of a frame in progress is right only when the frame ends with the segment, and
nothing was counted before it. -/
theorem Heard.open_right (h : Heard base x st) (hchain : (x :: l).IsChain Before)
    (hspan : (lastOf x l).cycle - base + 1 < 2 ^ 64) (hopen : st.frameOpen = true)
    (hstart : st.frameStart = x.cycle - base) (hpkts : st.framePkts = n + 1)
    (hbound : n + 1 + l.length < 2 ^ 64) {r : FrameReport} {lines : List FrameReport}
    (hlines : st.frameLines l = r :: lines)
    (hright : FrameRight ⟨1 + (body l).length,
      lost (x :: (body l ++ (l.drop (body l).length).take 1))⟩ r) :
    n = 0 ∧ ∀ b ∈ l, b.sy = 0 := by
  have hbase := h.base_le
  obtain ⟨hpackets, hlost, hsum⟩ := hright
  obtain ⟨rest, hdrop, hsplit, hquiet, hnext⟩ := body_split l
  rw [hdrop] at hlost
  generalize body l = frame at *
  subst hsplit
  rw [List.length_append] at hbound
  cases rest with
  | nil =>
    rw [List.append_nil] at hchain hspan hlines ⊢
    obtain ⟨hnone, hopen', -, hp⟩ := h.accountAll_quiet hchain hspan hquiet (by omega)
    obtain ⟨r', hr', hrp, -⟩ := frames_flushFrame _ (hopen'.trans hopen)
    rw [frameLines, hnone, List.nil_append, hr'] at hlines
    obtain rfl : r' = r := (List.cons.inj hlines).1
    dsimp only at hpackets
    exact ⟨by omega, hquiet⟩
  | cons y rest =>
    rw [lastOf_append] at hspan
    obtain ⟨hframe, hbefore, hrest⟩ := isChain_lastOf hchain
    have hlast := cycle_le_lastOf hrest
    have hfirst := cycle_le_lastOf hframe
    have hlt := hbefore.1
    obtain ⟨hnone, hopen', hstart', hp⟩ :=
      h.accountAll_quiet hframe (by omega) hquiet (by omega)
    obtain ⟨hheard, -⟩ := h.run hframe (by omega)
    obtain ⟨r', hr', hrp, hrc⟩ :=
      hheard.sy_open hbefore (by omega) (hnext y rfl) (hopen'.trans hopen)
    rw [frameLines, List.map_append, accountAll_append, List.filterMap_append, hnone, List.nil_append,
      List.map_cons, accountAll, List.filterMap_append, hr'] at hlines
    obtain rfl : r' = r := (List.cons.inj hlines).1
    -- the line counts the next packet's cycle, but not that packet
    have hcycles : r'.cycles = y.cycle - x.cycle + 1 := by
      rw [hrc, hstart', hstart, frameCycles (by omega) (by omega)]
      omega
    have hmade : frame.length + 1 + lost (x :: (frame ++ [y])) = y.cycle - x.cycle := by
      have hchain' : (x :: (frame ++ [y])).IsChain Before := (List.isChain_cons_split.mp hchain).1
      have hsum := length_add_lost hchain'
      rwa [lastOf_append, List.length_append] at hsum
    dsimp only [List.take] at hpackets hlost
    rw [hpackets, hlost, hcycles, add64, Nat.mod_eq_of_lt (by omega)] at hsum
    omega

theorem Heard.open_whole (h : Heard base x st) (hchain : (x :: l).IsChain Before)
    (hspan : (lastOf x l).cycle - base + 1 < 2 ^ 64) (hopen : st.frameOpen = true)
    (hstart : st.frameStart = x.cycle - base) (hpkts : st.framePkts = 1) (hlost : st.frameLost = 0)
    (hquiet : ∀ b ∈ l, b.sy = 0) :
    ∃ r, st.frameLines l = [r] ∧ FrameRight ⟨1 + l.length, lost (x :: l)⟩ r := by
  have hbase := h.base_le
  have hlast := cycle_le_lastOf hchain
  have hmade := length_add_lost hchain
  obtain ⟨hnone, hopen', hstart', hp⟩ := h.accountAll_quiet hchain hspan hquiet (by omega)
  have hl := h.accountAll_quiet_frameLost hchain hspan hquiet (by omega)
  obtain ⟨hheard, -⟩ := h.run hchain hspan
  obtain ⟨r, hr, hrp, hrl, hrc⟩ := frames_flushFrame _ (hopen'.trans hopen)
  have hcycles : r.cycles = (lastOf x l).cycle - x.cycle + 1 := by
    rw [hrc, hstart', hstart, hheard.absCycle, frameCycles (by omega) (by omega)]
    omega
  have hpackets : r.packets = 1 + l.length := by omega
  have hlost' : r.lost = lost (x :: l) := by omega
  refine ⟨r, by rw [frameLines, hnone, hr]; rfl, hpackets, hlost', ?_⟩
  rw [hpackets, hlost', hcycles, add64, Nat.mod_eq_of_lt (by omega)]
  omega

theorem Heard.closed_quiet (h : Heard base a st) (hchain : (a :: l).IsChain Before)
    (hspan : (lastOf a l).cycle - base + 1 < 2 ^ 64) (hopen : st.frameOpen = false)
    (hpkts : st.framePkts + l.length < 2 ^ 64) (hquiet : ∀ b ∈ l, b.sy = 0) :
    st.frameLines l = [] := by
  obtain ⟨hnone, hopen', -⟩ := h.accountAll_quiet hchain hspan hquiet hpkts
  rw [frameLines, hnone, frames_flushFrame_closed _ (hopen'.trans hopen)]
  rfl

theorem receive_starts (st : ListenerStats) (hsy : p.sy ≠ 0) (hopen : st.frameOpen = false) :
    (st.receive p).2 = [] ∧ (st.receive p).1.frameOpen = true ∧
      (st.receive p).1.frameStart = st.absCycle ∧
      (st.receive p).1.framePkts = add64 st.framePkts 1 ∧
      (st.receive p).1.frameLost = st.frameLost := by
  have hflush := frames_flushFrame_closed (st.countPacket p.ts) hopen
  rw [receive, if_pos hsy, startFrame, hflush]
  exact ⟨rfl, rfl, rfl, rfl, rfl⟩

theorem Heard.closed_right (h : Heard base a st) (hchain : (a :: l).IsChain Before)
    (hspan : (lastOf a l).cycle - base + 1 < 2 ^ 64) (hopen : st.frameOpen = false)
    (hpkts : st.framePkts ≠ 0) (hbound : st.framePkts + l.length < 2 ^ 64)
    (hright : List.Forall₂ FrameRight (frameSpans l) (st.frameLines l)) : ∀ b ∈ l, b.sy = 0 := by
  induction l generalizing st a with
  | nil => simp
  | cons b l ih =>
    rw [List.isChain_cons_cons] at hchain
    have hlast := cycle_le_lastOf hchain.2
    rw [lastOf_cons] at hspan
    rw [List.length_cons] at hbound
    have hb : b.cycle - base + 1 < 2 ^ 64 := by omega
    have hnext := h.next hchain.1 hb
    rw [frameLines_cons] at hright
    by_cases hsy : b.sy = 0
    · -- a further packet outside a frame
      obtain ⟨hnone, hopen', -, hp⟩ := h.quiet hchain.1 hb hsy (by omega)
      rw [frameSpans, if_neg (not_not.mpr hsy), hnone, List.nil_append] at hright
      exact List.forall_mem_cons.mpr
        ⟨hsy, ih hnext hchain.2 hspan (hopen'.trans hopen) (by omega) (by omega) hright⟩
    · -- a frame starts, and has the packets before it counted in
      have hreception := h.advance_toReception hchain.1 hb
      obtain ⟨hnone, hopen', hstart, hp, -⟩ :=
        receive_starts _ hsy ((congrArg Reception.frameOpen hreception).trans hopen)
      have hcycle : (st.advance (now b.ts)).1.absCycle = b.cycle - base :=
        congrArg Clock.absCycle (h.advance_toClock hchain.1 hb)
      have hpkts' : (st.accountPacket b.toPacket).1.framePkts = st.framePkts + 1 :=
        hp.trans ((congrArg (fun r : Reception => add64 r.framePkts 1) hreception).trans
          (Nat.mod_eq_of_lt (by omega)))
      rw [frameSpans, if_pos hsy, accountPacket_frames, hnone, List.filterMap_nil, List.nil_append]
        at hright
      obtain ⟨r, lines, hr, -, hlines⟩ := List.forall₂_cons_left_iff.mp hright
      have hzero := (hnext.open_right hchain.2 hspan hopen' (hstart.trans hcycle) hpkts' (by omega)
        hlines hr).1
      exact absurd hzero hpkts

end

end ListenerStats

theorem frameSpans_quiet {l : List Arrival} (h : ∀ b ∈ l, b.sy = 0) : frameSpans l = [] := by
  induction l with
  | nil => rfl
  | cons b l ih =>
    rw [List.forall_mem_cons] at h
    rw [frameSpans, if_neg (not_not.mpr h.1), ih h.2]

theorem frameSpans_whole {a : Arrival} {l : List Arrival} (ha : a.sy ≠ 0) (h : ∀ b ∈ l, b.sy = 0) :
    frameSpans (a :: l) = [⟨1 + l.length, Arrival.lost (a :: l)⟩] := by
  have hbody : Arrival.body l = l := List.takeWhile_eq_self_iff.mpr (by simpa using h)
  rw [frameSpans, if_pos ha, hbody, List.drop_length, List.take_nil, List.append_nil,
    frameSpans_quiet h]

end Fake
end Photonic
