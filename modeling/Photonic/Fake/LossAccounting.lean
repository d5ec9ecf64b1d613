import Mathlib.Algebra.Order.BigOperators.Group.List
import Mathlib.Data.List.Forall2
import Photonic.Fake.Bursts
import Photonic.Fake.FrameLines

namespace Photonic
namespace Fake
open ListenerStats

namespace ListenerStats
open Arrival

structure Closed (st : ListenerStats) : Prop where
  inSegment : st.inSegment = false
  segPackets : st.segPackets = 0
  segLost : st.segLost = 0
  segBursts : st.segBursts = 0
  segFrames : st.segFrames = 0
  spaceSum : st.spaceSum = 0
  frameOpen : st.frameOpen = false

theorem closed_start : Closed {} := ⟨rfl, rfl, rfl, rfl, rfl, rfl, rfl⟩

def heard (st : ListenerStats) (s : Segment) : ListenerStats := (st.accountAll s.packets).1

section
variable {st : ListenerStats} {s : Segment}

def opened (st : ListenerStats) (s : Segment) : ListenerStats :=
  (st.accountPacket s.first.toPacket).1

theorem Closed.advance (h : Closed st) (n : ℕ) :
    st.advance n = ({ st with inSegment := true, absCycle := 0 }, []) := by
  rw [ListenerStats.advance, h.inSegment, if_neg Bool.false_ne_true]

theorem Closed.opened_toClock (h : Closed st) : (st.opened s).toClock = ⟨true, 0, 0⟩ := by
  rw [ListenerStats.opened, accountPacket, receive_toClock, h.advance, ← h.segLost]

theorem Closed.opened_toBursts (h : Closed st) : (st.opened s).toBursts = st.toBursts := by
  rw [ListenerStats.opened, accountPacket, receive_toBursts, h.advance]

theorem Closed.opened_segPackets (h : Closed st) : (st.opened s).segPackets = 1 := by
  rw [ListenerStats.opened, accountPacket, receive_segPackets, h.advance]
  exact congrArg (add64 · 1) h.segPackets

theorem Closed.heard_opened (h : Closed st) : Heard s.first.cycle s.first (st.opened s) where
  inSegment := congrArg Clock.inSegment h.opened_toClock
  prevTs := receive_prevTs _ _
  base_le := Nat.le_refl _
  absCycle := by
    rw [Nat.sub_self]
    exact congrArg Clock.absCycle h.opened_toClock
  counted := by
    have hlost : (st.opened s).segLost = 0 := congrArg Clock.segLost h.opened_toClock
    rw [h.opened_segPackets, hlost, Nat.sub_self]
  bursts_le := by
    have hbursts : (st.opened s).segBursts = 0 :=
      (congrArg Bursts.segBursts h.opened_toBursts).trans h.segBursts
    rw [hbursts]
    exact Nat.zero_le _
  frames_le := by
    rw [h.opened_segPackets]
    refine (receive_segFrames_le _ _).trans ?_
    rw [h.advance]
    exact Nat.le_of_eq (congrArg (· + 1) h.segFrames)

theorem Closed.heard_counts (h : Closed st) (hspan : s.span < 2 ^ 64) :
    Heard s.first.cycle s.last (st.heard s) ∧ (st.heard s).segPackets = s.arrivals.length ∧
      (st.heard s).segLost = s.lost := by
  obtain ⟨hheard, hp, hl⟩ := h.heard_opened.run s.advances hspan
  refine ⟨hheard, hp.trans ?_, hl.trans ?_⟩
  · rw [h.opened_segPackets, Segment.arrivals, List.length_cons, Nat.add_comm]
  · have hlost : (st.opened s).segLost = 0 := congrArg Clock.segLost h.opened_toClock
    rw [hlost, Nat.zero_add, Segment.lost, Segment.arrivals]

theorem segment_length_add_lost (s : Segment) :
    s.arrivals.length + s.lost = s.span := by
  have hsum := length_add_lost s.advances
  have hspan : s.span = (lastOf s.first s.rest).cycle - s.first.cycle + 1 := rfl
  rw [hspan, ← hsum, Segment.lost, Segment.arrivals, List.length_cons]
  omega

theorem flushFrame_report : st.flushFrame.1.report = st.report := by
  unfold flushFrame; split <;> rfl

theorem listenSegment_eq (hopen : (st.heard s).inSegment = true) :
    st.listenSegment s.packets =
      (((st.heard s).flushFrame.1.closeSegment).1,
        (st.accountAll s.packets).2 ++
          ((st.heard s).flushFrame.2 ++ [.segment (st.heard s).report])) := by
  have hflush : (st.heard s).flushSegment = (((st.heard s).flushFrame.1.closeSegment).1,
      (st.heard s).flushFrame.2 ++ [.segment (st.heard s).flushFrame.1.report]) := if_pos hopen
  rw [flushFrame_report] at hflush
  rw [listenSegment, ← heard, hflush]

theorem listenSegment_segments (hopen : (st.heard s).inSegment = true) :
    (st.listenSegment s.packets).2.filterMap Event.segment? = [(st.heard s).report] := by
  rw [listenSegment_eq hopen, List.filterMap_append, accountAll_segments, List.nil_append,
    List.filterMap_append, flushFrame_segments]
  rfl

theorem listenSegment_frames (hopen : (st.heard s).inSegment = true) :
    (st.listenSegment s.packets).2.filterMap Event.frame? = st.frameLines s.arrivals := by
  have hnone : [Event.segment (st.heard s).report].filterMap Event.frame? = [] := rfl
  rw [listenSegment_eq hopen, List.filterMap_append, List.filterMap_append, hnone, List.append_nil]
  rfl

theorem Closed.listenSegment_spaces (h : Closed st) (hopen : (st.heard s).inSegment = true) :
    (st.listenSegment s.packets).2.filterMap Event.space? =
      ((st.opened s).accountAll (s.rest.map toPacket)).2.filterMap Event.space? := by
  have hnone : [Event.segment (st.heard s).report].filterMap Event.space? = [] := rfl
  rw [listenSegment_eq hopen, List.filterMap_append, List.filterMap_append, hnone, List.append_nil,
    flushFrame_spaces, List.append_nil, Segment.packets, Segment.arrivals, List.map_cons, accountAll,
    List.filterMap_append, accountPacket_spaces, h.advance]
  rfl

theorem flushFrame_frameOpen : st.flushFrame.1.frameOpen = false := by
  by_cases hopen : st.frameOpen
  · rw [flushFrame, if_pos hopen]
  · rw [flushFrame, if_neg hopen]
    exact Bool.not_eq_true _ ▸ hopen

theorem closed_listenSegment (hopen : (st.heard s).inSegment = true) :
    Closed (st.listenSegment s.packets).1 := by
  rw [listenSegment_eq hopen]
  exact ⟨rfl, rfl, rfl, rfl, rfl, rfl, flushFrame_frameOpen⟩

theorem listenSegment_bursts (hopen : (st.heard s).inSegment = true) :
    (st.listenSegment s.packets).1.lastLoss = (st.heard s).lastLoss ∧
      (st.listenSegment s.packets).1.burstStart = (st.heard s).burstStart := by
  have hbursts := flushFrame_toBursts (st.heard s)
  have hloss : (st.heard s).flushFrame.1.lastLoss = (st.heard s).lastLoss :=
    congrArg Bursts.lastLoss hbursts
  have hstart : (st.heard s).flushFrame.1.burstStart = (st.heard s).burstStart :=
    congrArg Bursts.burstStart hbursts
  rw [listenSegment_eq hopen]
  exact ⟨hloss, hstart⟩

structure BurstsRight (s : Segment) (events : List Event) : Prop where
  counted : ∃ r, events.filterMap Event.segment? = [r] ∧ r.bursts = s.starts.length
  spaced : events.filterMap Event.space? = differences s.starts

theorem Closed.burstsRight_unarmed (h : Closed st) (hspan : s.span < 2 ^ 64)
    (hfresh : Unarmed st.toBursts) :
    BurstsRight s (st.listenSegment s.packets).2 ∧
      (s.lost = 0 → Unarmed (st.listenSegment s.packets).1.toBursts) ∧
      (s.lost ≠ 0 → (st.listenSegment s.packets).1.burstStart ≠ 0) := by
  have hopen := (h.heard_counts hspan).1.inSegment
  obtain ⟨hspaces, hcount, hnone, hsome⟩ := h.heard_opened.accountAll_unarmed s.advances hspan
    (h.opened_toBursts ▸ hfresh)
  have hbursts : (st.opened s).segBursts = 0 :=
    (congrArg Bursts.segBursts h.opened_toBursts).trans h.segBursts
  obtain ⟨hloss, hstart⟩ := listenSegment_bursts hopen
  refine ⟨⟨⟨_, listenSegment_segments hopen, hcount.trans ?_⟩,
    (h.listenSegment_spaces hopen).trans hspaces⟩, fun hlost => ?_,
    fun hlost => hstart.trans_ne (hsome hlost)⟩
  · rw [hbursts, Nat.zero_add, Segment.starts, Segment.arrivals]
  · exact ⟨hloss.trans (hnone hlost).lastLoss, hstart.trans (hnone hlost).burstStart⟩

theorem lost_eq_zero_of_losses {base : ℕ} {a : Arrival} {l : List Arrival}
    (h : losses base (a :: l) = []) : lost (a :: l) = 0 := by
  induction l generalizing a with
  | nil => rfl
  | cons b l ih =>
    rw [losses] at h
    split at h
    · cases h
    · rw [lost, ih h]
      omega

theorem starts_ne_nil (hlost : s.lost ≠ 0) : s.starts ≠ [] := by
  intro hnil
  rw [Segment.starts, Segment.arrivals] at hnil
  cases hlosses : losses s.first.cycle (s.first :: s.rest) with
  | nil => exact hlost (lost_eq_zero_of_losses hlosses)
  | cons c l =>
    rw [hlosses, burstStarts, if_pos (by simp)] at hnil
    cases hnil

theorem BurstsRight.segBursts (h : BurstsRight s (st.listenSegment s.packets).2)
    (hopen : (st.heard s).inSegment = true) : (st.heard s).segBursts = s.starts.length := by
  obtain ⟨r, hr, hbursts⟩ := h.counted
  rw [listenSegment_segments hopen] at hr
  obtain rfl := List.singleton_inj.mp hr
  exact hbursts

theorem Closed.burstsRight_armed (h : Closed st) (hspan : s.span < 2 ^ 64)
    (hstart : st.burstStart ≠ 0) :
    (BurstsRight s (st.listenSegment s.packets).2 ↔ ¬s.Lossy) ∧
      (st.listenSegment s.packets).1.burstStart ≠ 0 := by
  have hopen := (h.heard_counts hspan).1.inSegment
  have hopened : (st.opened s).burstStart ≠ 0 :=
    (congrArg Bursts.burstStart h.opened_toBursts).trans_ne hstart
  obtain ⟨harmed, hcount⟩ := h.heard_opened.accountAll_armed s.advances hspan hopened
  have hbursts : (st.opened s).segBursts = 0 :=
    (congrArg Bursts.segBursts h.opened_toBursts).trans h.segBursts
  rw [hbursts, Nat.zero_add, ← h.listenSegment_spaces hopen] at hcount
  refine ⟨⟨fun hright hlossy => ?_, fun hlost => ?_⟩, (listenSegment_bursts hopen).2.trans_ne harmed⟩
  · have hlength := (hright.segBursts hopen).symm.trans hcount
    rw [hright.spaced] at hlength
    cases hs : s.starts with
    | nil => exact starts_ne_nil hlossy hs
    | cons c starts =>
      rw [hs, length_differences, List.length_cons] at hlength
      omega
  · obtain ⟨-, hnone, hlosses⟩ :=
      h.heard_opened.accountAll_lossless s.advances hspan (not_not.mp hlost)
    have hstarts : s.starts = [] := by
      rw [Segment.starts, Segment.arrivals, hlosses]
      rfl
    rw [h.listenSegment_spaces hopen, hnone] at hcount
    rw [← h.listenSegment_spaces hopen] at hnone
    refine ⟨⟨_, listenSegment_segments hopen, hcount.trans ?_⟩, hnone.trans ?_⟩
    · rw [hstarts]
    · rw [hstarts]
      rfl

theorem sum_differences_starts (s : Segment) : (differences s.starts).sum ≤ s.span := by
  have hcycles := List.pairwise_cons.mp (pairwise_cycle s.advances)
  have hsub : s.starts.Sublist (s.rest.map fun b => b.cycle - s.first.cycle) :=
    (burstStarts_sublist _ _).trans (losses_sublist _ _ _)
  have hsorted : (s.rest.map fun b => b.cycle - s.first.cycle).Pairwise (· ≤ ·) :=
    List.pairwise_map.mpr (hcycles.2.imp fun hlt => by omega)
  have hbound : ∀ k ∈ s.starts, k ≤ s.span := by
    intro k hk
    obtain ⟨b, hb, rfl⟩ := List.mem_map.mp (hsub.subset hk)
    have hlast := cycle_le_of_mem s.advances (List.mem_cons_of_mem _ hb)
    have hspan : s.span = (lastOf s.first s.rest).cycle - s.first.cycle + 1 := rfl
    omega
  cases hs : s.starts with
  | nil => exact Nat.zero_le _
  | cons n l =>
    rw [hs] at hsub hbound
    have hsum := sum_differences_le (hsorted.sublist hsub) hbound
    omega

theorem Closed.spacing_bounds (h : Closed st) (hspan : s.span < 2 ^ 64)
    (hright : BurstsRight s (st.listenSegment s.packets).2) :
    ∀ q ∈ (st.heard s).report.spacing, q.min ≤ q.avg ∧ q.avg ≤ q.max := by
  have hopen := (h.heard_counts hspan).1.inSegment
  have hsum := sum_differences_starts s
  have hfresh : Spaced [] (st.opened s).toBursts :=
    ⟨(congrArg Bursts.spaceSum h.opened_toBursts).trans h.spaceSum, by simp, by simp⟩
  have hspaced : Spaced (differences s.starts) (st.heard s).toBursts := by
    have hall := hfresh.accountAll (s.rest.map toPacket)
    rwa [List.nil_append, ← h.listenSegment_spaces hopen, hright.spaced] at hall
  intro q hq
  change q ∈ (st.heard s).spacing at hq
  rw [spacing] at hq
  split at hq
  · next htwo =>
    obtain rfl := Option.mem_some.mp hq
    rw [hright.segBursts hopen] at htwo ⊢
    have hlength : (differences s.starts).length = s.starts.length - 1 := by
      rw [differences, List.length_zipWith, List.length_tail]
      omega
    have hbounds := hspaced.bounds (by omega) (by omega)
    rwa [hlength] at hbounds
  · cases hq

/-- Nothing has been counted outside a frame. -/
structure Fresh (st : ListenerStats) : Prop where
  framePkts : st.framePkts = 0
  frameLost : st.frameLost = 0

theorem Closed.opened_frame (h : Closed st) :
    (st.opened s).frameOpen = decide (s.first.sy ≠ 0) ∧
      (s.first.sy ≠ 0 → (st.opened s).frameStart = s.first.cycle - s.first.cycle) ∧
      (st.opened s).framePkts = add64 st.framePkts 1 ∧ (st.opened s).frameLost = st.frameLost ∧
      st.frameLines s.arrivals = (st.opened s).frameLines s.rest := by
  rw [Segment.arrivals, frameLines_cons, accountPacket_frames, opened, accountPacket, h.advance,
    Nat.sub_self]
  by_cases hsy : s.first.sy = 0
  · rw [receive_quiet hsy, hsy]
    exact ⟨h.frameOpen, fun hne => absurd rfl hne, rfl, rfl, rfl⟩
  · obtain ⟨hnone, hopen, hstart, hp, hl⟩ :=
      receive_starts { st with inSegment := true, absCycle := 0 } hsy h.frameOpen
    refine ⟨hopen.trans (decide_eq_true hsy).symm, fun _ => hstart, hp, hl, ?_⟩
    rw [hnone]
    rfl

theorem not_hasSy (h : ¬s.HasSy) : s.first.sy = 0 ∧ ∀ b ∈ s.rest, b.sy = 0 := by
  refine ⟨by_contra fun hsy => h ⟨s.first, List.mem_cons_self, hsy⟩, fun b hb => ?_⟩
  exact by_contra fun hsy => h ⟨b, List.mem_cons_of_mem _ hb, hsy⟩

theorem Closed.frames_none (h : Closed st) (hspan : s.span < 2 ^ 64)
    (hbound : st.framePkts + s.arrivals.length < 2 ^ 64) (hsy : ¬s.HasSy) :
    List.Forall₂ FrameRight s.frames (st.frameLines s.arrivals) := by
  obtain ⟨hopen, -, hpkts, -, hlines⟩ := h.opened_frame (s := s)
  obtain ⟨hfirst, hrest⟩ := not_hasSy hsy
  have hclosed : (st.opened s).frameOpen = false := by rw [hopen, hfirst]; rfl
  rw [Segment.arrivals, List.length_cons] at hbound
  rw [add64, Nat.mod_eq_of_lt (by omega)] at hpkts
  rw [hlines, Segment.frames, Segment.arrivals,
    h.heard_opened.closed_quiet s.advances hspan hclosed (by omega) hrest, frameSpans,
    if_neg (not_not.mpr hfirst), frameSpans_quiet hrest]
  exact .nil

theorem Closed.frames_fresh (h : Closed st) (hspan : s.span < 2 ^ 64) (hfresh : Fresh st)
    (hwhole : s.HasSy → s.OneFrame) :
    List.Forall₂ FrameRight s.frames (st.frameLines s.arrivals) := by
  obtain ⟨hopen, hstart, hpkts, hlost, hlines⟩ := h.opened_frame (s := s)
  have hlength := segment_length_add_lost s
  rw [hfresh.framePkts] at hpkts
  by_cases hsy : s.HasSy
  · obtain ⟨hfirst, hrest⟩ := hwhole hsy
    obtain ⟨r, hr, hright⟩ := h.heard_opened.open_whole s.advances hspan
      (hopen.trans (decide_eq_true hfirst)) (hstart hfirst) hpkts (hlost.trans hfresh.frameLost) hrest
    rw [hlines, Segment.frames, Segment.arrivals, frameSpans_whole hfirst hrest, hr]
    exact .cons hright .nil
  · exact h.frames_none hspan (by rw [hfresh.framePkts]; omega) hsy

/-- A segment with a frame has right lines only when it is that frame and nothing was counted
before. -/
theorem Closed.frames_right (h : Closed st) (hspan : s.span < 2 ^ 64)
    (hbound : st.framePkts + s.arrivals.length < 2 ^ 64)
    (hright : List.Forall₂ FrameRight s.frames (st.frameLines s.arrivals)) (hsy : s.HasSy) :
    s.OneFrame ∧ st.framePkts = 0 := by
  obtain ⟨hopen, hstart, hpkts, -, hlines⟩ := h.opened_frame (s := s)
  rw [Segment.arrivals, List.length_cons] at hbound
  rw [add64, Nat.mod_eq_of_lt (by omega)] at hpkts
  rw [hlines, Segment.frames, Segment.arrivals, frameSpans] at hright
  by_cases hfirst : s.first.sy = 0
  · rw [if_neg (not_not.mpr hfirst)] at hright
    have hclosed : (st.opened s).frameOpen = false := by rw [hopen, hfirst]; rfl
    have hrest := h.heard_opened.closed_right s.advances hspan hclosed (by omega) (by omega) hright
    have hall : ∀ b ∈ s.arrivals, b.sy = 0 := List.forall_mem_cons.mpr ⟨hfirst, hrest⟩
    obtain ⟨b, hb, hsy⟩ := hsy
    exact absurd (hall b hb) hsy
  · rw [if_pos hfirst] at hright
    obtain ⟨r, lines, hr, -, hl⟩ := List.forall₂_cons_left_iff.mp hright
    obtain ⟨hzero, hrest⟩ := h.heard_opened.open_right s.advances hspan
      (hopen.trans (decide_eq_true hfirst)) (hstart hfirst) hpkts (by omega) hl hr
    exact ⟨⟨hfirst, hrest⟩, hzero⟩

theorem Closed.fresh_listenSegment (h : Closed st) (hspan : s.span < 2 ^ 64)
    (hbound : st.framePkts + s.arrivals.length < 2 ^ 64) (hwhole : s.OneFrame) :
    Fresh (st.listenSegment s.packets).1 := by
  obtain ⟨hopen, -, hpkts, -, -⟩ := h.opened_frame (s := s)
  rw [Segment.arrivals, List.length_cons] at hbound
  rw [add64, Nat.mod_eq_of_lt (by omega)] at hpkts
  obtain ⟨-, hopen', -⟩ :=
    h.heard_opened.accountAll_quiet s.advances hspan hwhole.2 (by omega)
  have hframe : (st.heard s).frameOpen = true :=
    hopen'.trans (hopen.trans (decide_eq_true hwhole.1))
  rw [listenSegment_eq (h.heard_counts hspan).1.inSegment, flushFrame, if_pos hframe]
  exact ⟨rfl, rfl⟩

theorem Closed.framePkts_listenSegment (h : Closed st) (hspan : s.span < 2 ^ 64)
    (hbound : st.framePkts + s.arrivals.length < 2 ^ 64) (hsy : ¬s.HasSy) :
    (st.listenSegment s.packets).1.framePkts = st.framePkts + s.arrivals.length := by
  obtain ⟨hopen, -, hpkts, -, -⟩ := h.opened_frame (s := s)
  obtain ⟨hfirst, hrest⟩ := not_hasSy hsy
  rw [Segment.arrivals, List.length_cons] at hbound ⊢
  rw [add64, Nat.mod_eq_of_lt (by omega)] at hpkts
  obtain ⟨-, hopen', -, hp⟩ :=
    h.heard_opened.accountAll_quiet s.advances hspan hrest (by omega)
  have hframe : (st.heard s).frameOpen = false :=
    hopen'.trans (hopen.trans (by rw [hfirst]; rfl))
  rw [listenSegment_eq (h.heard_counts hspan).1.inSegment, frames_flushFrame_closed _ hframe]
  change (st.heard s).framePkts = _
  refine Eq.trans hp ?_
  omega

end

section
variable {st : ListenerStats} {segments : List Segment}

theorem Closed.bursts_listen_armed (h : Closed st) (hspan : ∀ s ∈ segments, s.span < 2 ^ 64)
    (hstart : st.burstStart ≠ 0) :
    List.Forall₂ BurstsRight segments (st.listen (segments.map Segment.packets)).2 ↔
      ∀ s ∈ segments, ¬s.Lossy := by
  induction segments generalizing st with
  | nil => exact ⟨by simp, fun _ => .nil⟩
  | cons s segments ih =>
    rw [List.forall_mem_cons] at hspan
    obtain ⟨hright, hstart'⟩ := h.burstsRight_armed hspan.1 hstart
    have ih := ih (closed_listenSegment (h.heard_counts hspan.1).1.inSegment) hspan.2 hstart'
    rw [List.map_cons, ListenerStats.listen, List.forall₂_cons, hright, ih, List.forall_mem_cons]

theorem Closed.bursts_listen_unarmed (h : Closed st) (hspan : ∀ s ∈ segments, s.span < 2 ^ 64)
    (hfresh : Unarmed st.toBursts) :
    List.Forall₂ BurstsRight segments (st.listen (segments.map Segment.packets)).2 ↔
      segments.Pairwise fun s t => ¬(s.Lossy ∧ t.Lossy) := by
  induction segments generalizing st with
  | nil => exact ⟨fun _ => .nil, fun _ => .nil⟩
  | cons s segments ih =>
    rw [List.forall_mem_cons] at hspan
    obtain ⟨hright, hnone, hsome⟩ := h.burstsRight_unarmed hspan.1 hfresh
    have hclosed := closed_listenSegment (h.heard_counts hspan.1).1.inSegment
    rw [List.map_cons, ListenerStats.listen, List.forall₂_cons, List.pairwise_cons]
    by_cases hlossy : s.Lossy
    · rw [hclosed.bursts_listen_armed hspan.2 (hsome hlossy)]
      refine ⟨fun hall => ⟨fun t ht hboth => hall.2 t ht hboth.2, ?_⟩,
        fun hall => ⟨hright, fun t ht hlost => hall.1 t ht ⟨hlossy, hlost⟩⟩⟩
      exact List.pairwise_of_forall_mem_list fun t ht _ _ hboth => hall.2 t ht hboth.1
    · rw [ih hclosed hspan.2 (hnone (not_not.mp hlossy))]
      exact ⟨fun hall => ⟨fun _ _ hboth => hlossy hboth.1, hall.2⟩, fun hall => ⟨hright, hall.2⟩⟩

def FramesRight (s : Segment) (events : List Event) : Prop :=
  List.Forall₂ FrameRight s.frames (events.filterMap Event.frame?)

theorem Closed.frames_listen_stale (h : Closed st) (hspan : ∀ s ∈ segments, s.span < 2 ^ 64)
    (hpkts : st.framePkts ≠ 0)
    (hbound : st.framePkts + (segments.map fun s => s.arrivals.length).sum < 2 ^ 64) :
    List.Forall₂ FramesRight segments (st.listen (segments.map Segment.packets)).2 ↔
      ∀ s ∈ segments, ¬s.HasSy := by
  induction segments generalizing st with
  | nil => exact ⟨by simp, fun _ => .nil⟩
  | cons s segments ih =>
    rw [List.forall_mem_cons] at hspan
    rw [List.map_cons, List.sum_cons] at hbound
    have hopen := (h.heard_counts hspan.1).1.inSegment
    have hs : st.framePkts + s.arrivals.length < 2 ^ 64 := by omega
    rw [List.map_cons, ListenerStats.listen, List.forall₂_cons, List.forall_mem_cons, FramesRight,
      listenSegment_frames hopen]
    by_cases hsy : s.HasSy
    · refine ⟨fun hall => ?_, fun hall => absurd hsy hall.1⟩
      exact absurd (h.frames_right hspan.1 hs hall.1 hsy).2 hpkts
    · have hkept := h.framePkts_listenSegment hspan.1 hs hsy
      have ih := ih (closed_listenSegment hopen) hspan.2 (by omega) (by omega)
      rw [ih]
      exact ⟨fun hall => ⟨hsy, hall.2⟩, fun hall => ⟨h.frames_none hspan.1 hs hsy, hall.2⟩⟩

theorem Closed.frames_listen_fresh (h : Closed st) (hspan : ∀ s ∈ segments, s.span < 2 ^ 64)
    (hfresh : Fresh st) (hbound : (segments.map fun s => s.arrivals.length).sum < 2 ^ 64) :
    List.Forall₂ FramesRight segments (st.listen (segments.map Segment.packets)).2 ↔
      (∀ s ∈ segments, s.HasSy → s.OneFrame) ∧ segments.Pairwise fun s t => t.HasSy → s.HasSy := by
  induction segments generalizing st with
  | nil => exact ⟨fun _ => ⟨by simp, .nil⟩, fun _ => .nil⟩
  | cons s segments ih =>
    rw [List.forall_mem_cons] at hspan
    rw [List.map_cons, List.sum_cons] at hbound
    have hopen := (h.heard_counts hspan.1).1.inSegment
    have hs : st.framePkts + s.arrivals.length < 2 ^ 64 := by
      rw [hfresh.framePkts]
      omega
    have hclosed := closed_listenSegment hopen
    rw [List.map_cons, ListenerStats.listen, List.forall₂_cons, List.forall_mem_cons, List.pairwise_cons, FramesRight,
      listenSegment_frames hopen]
    by_cases hsy : s.HasSy
    · constructor
      · intro hall
        have hwhole := (h.frames_right hspan.1 hs hall.1 hsy).1
        have htail := (ih hclosed hspan.2 (h.fresh_listenSegment hspan.1 hs hwhole) (by omega)).mp hall.2
        exact ⟨⟨fun _ => hwhole, htail.1⟩, fun _ _ _ => hsy, htail.2⟩
      · intro hall
        have hwhole := hall.1.1 hsy
        refine ⟨h.frames_fresh hspan.1 hfresh hall.1.1, ?_⟩
        exact (ih hclosed hspan.2 (h.fresh_listenSegment hspan.1 hs hwhole) (by omega)).mpr
          ⟨hall.1.2, hall.2.2⟩
    -- no frame starts in `s`: its packets stay counted, and no later segment is right
    · have hkept := h.framePkts_listenSegment hspan.1 hs hsy
      have hlength : 0 < s.arrivals.length := Nat.succ_pos _
      rw [hfresh.framePkts, Nat.zero_add] at hkept
      rw [hclosed.frames_listen_stale hspan.2 (by omega) (by omega)]
      constructor
      · intro hall
        refine ⟨⟨fun hhas => absurd hhas hsy, fun t ht hhas => absurd hhas (hall.2 t ht)⟩,
          fun t ht hhas => absurd hhas (hall.2 t ht), ?_⟩
        exact List.pairwise_of_forall_mem_list fun _ _ t ht hhas => absurd hhas (hall.2 t ht)
      · intro hall
        exact ⟨h.frames_none hspan.1 hs hsy, fun t ht hhas => hsy (hall.2.1 t ht hhas)⟩

end

def fold (t : Totals) (r : SegmentReport) : Totals where
  totalPackets := add64 t.totalPackets r.packets
  totalLost := add64 t.totalLost r.lost
  totalBursts := add64 t.totalBursts r.bursts
  totalFrames := add64 t.totalFrames r.frames
  totalSegments := add64 t.totalSegments 1

theorem heard_toTotals (st : ListenerStats) (s : Segment) : (st.heard s).toTotals = st.toTotals :=
  accountAll_toTotals _ _

theorem listenSegment_toTotals {st : ListenerStats} {s : Segment}
    (hopen : (st.heard s).inSegment = true) :
    (st.listenSegment s.packets).1.toTotals = fold st.toTotals (st.heard s).report := by
  have hclose : (st.listenSegment s.packets).1.toTotals =
      fold (st.heard s).flushFrame.1.toTotals (st.heard s).flushFrame.1.report := by
    rw [listenSegment_eq hopen]
    rfl
  rw [hclose, flushFrame_toTotals, heard_toTotals, flushFrame_report]

def reports (events : List (List Event)) : List SegmentReport :=
  events.flatMap fun e => e.filterMap Event.segment?

section
variable {st : ListenerStats} {segments : List Segment}

theorem Closed.reports_listen (h : Closed st) (hspan : ∀ s ∈ segments, s.span < 2 ^ 64) :
    List.Forall₂ (fun s r => r.packets = s.arrivals.length ∧ r.lost = s.lost ∧
        r.bursts ≤ s.lost ∧ r.frames ≤ s.arrivals.length) segments
        (reports (st.listen (segments.map Segment.packets)).2) ∧
      (st.listen (segments.map Segment.packets)).1.toTotals =
        (reports (st.listen (segments.map Segment.packets)).2).foldl fold st.toTotals := by
  induction segments generalizing st with
  | nil => exact ⟨.nil, rfl⟩
  | cons s segments ih =>
    rw [List.forall_mem_cons] at hspan
    obtain ⟨hheard, hp, hl⟩ := h.heard_counts hspan.1
    obtain ⟨hlines, htotals⟩ := ih (closed_listenSegment hheard.inSegment) hspan.2
    have hcons : reports (st.listen ((s :: segments).map Segment.packets)).2 =
        (st.heard s).report ::
          reports ((st.listenSegment s.packets).1.listen (segments.map Segment.packets)).2 := by
      rw [List.map_cons, ListenerStats.listen, reports, List.flatMap_cons, listenSegment_segments hheard.inSegment]
      rfl
    rw [hcons, List.foldl_cons, ← listenSegment_toTotals hheard.inSegment]
    refine ⟨.cons ⟨hp, hl, ?_, ?_⟩ hlines, htotals⟩
    · exact hl ▸ hheard.bursts_le
    · exact hp ▸ hheard.frames_le

theorem foldl_fold {f : Totals → ℕ} {g : SegmentReport → ℕ}
    (hfold : ∀ t r, f (fold t r) = add64 (f t) (g r)) (l : List SegmentReport) (t : Totals)
    (ht : f t < 2 ^ 64) : f (l.foldl fold t) = (f t + (l.map g).sum) % 2 ^ 64 := by
  induction l generalizing t with
  | nil => exact (Nat.mod_eq_of_lt ht).symm
  | cons r l ih =>
    rw [List.foldl_cons, ih _ (by rw [hfold]; exact Nat.mod_lt _ (by decide)), hfold, add64,
      Nat.mod_add_mod, List.map_cons, List.sum_cons, Nat.add_assoc]

theorem foldl_fold_eq_iff {f : Totals → ℕ} {g : SegmentReport → ℕ}
    (hfold : ∀ t r, f (fold t r) = add64 (f t) (g r)) (l : List SegmentReport) (h0 : f {} = 0) :
    f (l.foldl fold {}) = (l.map g).sum ↔ (l.map g).sum < 2 ^ 64 := by
  rw [foldl_fold hfold l {} (by rw [h0]; decide), h0, Nat.zero_add]
  exact ⟨fun h => h ▸ Nat.mod_lt _ (by decide), Nat.mod_eq_of_lt⟩

end

end ListenerStats

/-- The runs that the listener accounts for. -/
structure Accountable (segments : List Segment) : Prop where
  spans : ∀ s ∈ segments, s.span < 2 ^ 64
  packets : (segments.map fun s => s.arrivals.length).sum < 2 ^ 64
  lost : (segments.map Segment.lost).sum < 2 ^ 64
  lossy : segments.Pairwise fun s t => ¬(s.Lossy ∧ t.Lossy)
  whole : ∀ s ∈ segments, s.HasSy → s.OneFrame
  frames : segments.Pairwise fun s t => t.HasSy → s.HasSy

section
variable {segments : List Segment}

theorem segmentRight_iff {st : ListenerStats} (h : Closed st) (hspan : ∀ s ∈ segments, s.span < 2 ^ 64) :
    List.Forall₂ SegmentRight segments (st.listen (segments.map Segment.packets)).2 ↔
      List.Forall₂ BurstsRight segments (st.listen (segments.map Segment.packets)).2 ∧
        List.Forall₂ FramesRight segments (st.listen (segments.map Segment.packets)).2 := by
  induction segments generalizing st with
  | nil => exact ⟨fun _ => ⟨.nil, .nil⟩, fun _ => .nil⟩
  | cons s segments ih =>
    rw [List.forall_mem_cons] at hspan
    obtain ⟨hheard, hp, hl⟩ := h.heard_counts hspan.1
    have hopen := hheard.inSegment
    have hone : SegmentRight s (st.listenSegment s.packets).2 ↔
        BurstsRight s (st.listenSegment s.packets).2 ∧ FramesRight s (st.listenSegment s.packets).2 := by
      refine ⟨fun hright => ⟨⟨?_, hright.spaced⟩, hright.framed⟩, fun hright => ?_⟩
      · obtain ⟨r, hr, -, hbursts, -⟩ := hright.counted
        exact ⟨r, hr, hbursts⟩
      · refine ⟨⟨(st.heard s).report, listenSegment_segments hopen, ?_, ?_, ?_⟩, hright.1.spaced, hright.2⟩
        · have hmade := segment_length_add_lost s
          change add64 (st.heard s).segPackets (st.heard s).segLost = s.span
          rw [hp, hl, hmade.symm, add64, Nat.mod_eq_of_lt (by omega)]
        · exact hright.1.segBursts hopen
        · exact h.spacing_bounds hspan.1 hright.1
    rw [List.map_cons, ListenerStats.listen, List.forall₂_cons, List.forall₂_cons, List.forall₂_cons, hone,
      ih (closed_listenSegment hopen) hspan.2]
    exact and_and_and_comm

theorem SegmentRight.span_lt {s : Segment} {events : List Event} (h : SegmentRight s events) :
    s.span < 2 ^ 64 := by
  obtain ⟨r, -, hspan, -⟩ := h.counted
  exact hspan ▸ Nat.mod_lt _ (by decide)

theorem sum_le_of_forall₂ {α β : Type} {f : α → ℕ} {g : β → ℕ} {l : List α} {l' : List β}
    (h : List.Forall₂ (fun a b => g b ≤ f a) l l') : (l'.map g).sum ≤ (l.map f).sum := by
  apply List.Forall₂.sum_le_sum
  rw [List.forall₂_map_left_iff, List.forall₂_map_right_iff]
  exact h.flip

theorem sum_eq_of_forall₂ {α β : Type} {f : α → ℕ} {g : β → ℕ} {l : List α} {l' : List β}
    (h : List.Forall₂ (fun a b => g b = f a) l l') : (l'.map g).sum = (l.map f).sum := by
  have heq : List.Forall₂ (· = ·) (l'.map g) (l.map f) := by
    rw [List.forall₂_map_left_iff, List.forall₂_map_right_iff]
    exact h.flip
  rw [List.forall₂_eq_eq_eq] at heq
  exact congrArg List.sum heq

theorem sum_map_one {α : Type} (l : List α) : (l.map fun _ => 1).sum = l.length := by simp

theorem totalsRight_iff (hspan : ∀ s ∈ segments, s.span < 2 ^ 64) :
    TotalsRight (listen {} (segments.map Segment.packets)).1
        (reports (listen {} (segments.map Segment.packets)).2) ↔
      (segments.map fun s => s.arrivals.length).sum < 2 ^ 64 ∧
        (segments.map Segment.lost).sum < 2 ^ 64 := by
  obtain ⟨hlines, htotals⟩ := closed_start.reports_listen hspan
  generalize listen {} (segments.map Segment.packets) = run at *
  have hpackets := sum_eq_of_forall₂ (hlines.imp fun _ _ h => h.1)
  have hlost := sum_eq_of_forall₂ (hlines.imp fun _ _ h => h.2.1)
  have hbursts := sum_le_of_forall₂ (hlines.imp fun _ _ h => h.2.2.1)
  have hframes := sum_le_of_forall₂ (hlines.imp fun _ _ h => h.2.2.2)
  -- every segment has a packet, so the segments wrap last
  have hcount : (reports run.2).length ≤ (segments.map fun s => s.arrivals.length).sum := by
    have hone := sum_le_of_forall₂ (f := fun s : Segment => s.arrivals.length) (g := fun _ => 1)
      (hlines.imp fun _ _ _ => Nat.succ_pos _)
    rwa [sum_map_one] at hone
  have htotal := fun {f : Totals → ℕ} {g : SegmentReport → ℕ} (hf : ∀ t r, f (fold t r) = add64 (f t) (g r)) =>
    foldl_fold_eq_iff hf (reports run.2)
  rw [← hpackets, ← hlost] at *
  constructor
  · intro h
    exact ⟨(htotal (fun _ _ => rfl) rfl).mp ((congrArg Totals.totalPackets htotals).symm.trans h.packets),
      (htotal (fun _ _ => rfl) rfl).mp ((congrArg Totals.totalLost htotals).symm.trans h.lost)⟩
  · rintro ⟨hp, hl⟩
    refine ⟨?_, ?_, ?_, ?_, ?_⟩
    · exact (congrArg Totals.totalPackets htotals).trans ((htotal (fun _ _ => rfl) rfl).mpr hp)
    · exact (congrArg Totals.totalLost htotals).trans ((htotal (fun _ _ => rfl) rfl).mpr hl)
    · exact (congrArg Totals.totalBursts htotals).trans
        ((htotal (fun _ _ => rfl) rfl).mpr (hbursts.trans_lt hl))
    · exact (congrArg Totals.totalFrames htotals).trans
        ((htotal (fun _ _ => rfl) rfl).mpr (hframes.trans_lt hp))
    · have hs := (htotal (f := Totals.totalSegments) (g := fun _ => 1) (fun _ _ => rfl) rfl).mpr
        (by rw [sum_map_one]; exact hcount.trans_lt hp)
      rw [sum_map_one] at hs
      exact (congrArg Totals.totalSegments htotals).trans hs

end

/-- A run is accounted for exactly when no counter wraps, at most one segment lost anything, and
the segments that start a frame are one frame each and come first. -/
theorem accountsFor_iff (segments : List Segment) : AccountsFor segments ↔ Accountable segments := by
  constructor
  · rintro ⟨hsegments, htotals⟩
    have hspan : ∀ s ∈ segments, s.span < 2 ^ 64 :=
      ((List.forall₂_and_left _ _).mp (hsegments.imp fun _ _ h => ⟨h.span_lt, h⟩)).1
    obtain ⟨hpackets, hlost⟩ := (totalsRight_iff hspan).mp htotals
    obtain ⟨hbursts, hframes⟩ := (segmentRight_iff closed_start hspan).mp hsegments
    obtain ⟨hwhole, horder⟩ :=
      (closed_start.frames_listen_fresh hspan ⟨rfl, rfl⟩ hpackets).mp hframes
    exact ⟨hspan, hpackets, hlost,
      (closed_start.bursts_listen_unarmed hspan ⟨rfl, rfl⟩).mp hbursts, hwhole, horder⟩
  · intro h
    refine ⟨(segmentRight_iff closed_start h.spans).mpr ⟨?_, ?_⟩,
      (totalsRight_iff h.spans).mpr ⟨h.packets, h.lost⟩⟩
    · exact (closed_start.bursts_listen_unarmed h.spans ⟨rfl, rfl⟩).mpr h.lossy
    · exact (closed_start.frames_listen_fresh h.spans ⟨rfl, rfl⟩ h.packets).mpr ⟨h.whole, h.frames⟩

/-- Two frames of a packet each, back to back. -/
def backToBack : Segment where
  first := ⟨⟨8, 1, 0⟩, 0, by decide, by decide⟩
  rest := [⟨⟨8, 1, 1⟩, 1, by decide, by decide⟩]
  advances := .cons_cons (by constructor <;> decide) (.singleton _)

/-- The first frame's packet is counted over two cycles. -/
theorem not_accountsFor_backToBack : ¬AccountsFor [backToBack] := by
  intro h
  have hframed : List.Forall₂ FrameRight backToBack.frames
      ((listenSegment {} backToBack.packets).2.filterMap Event.frame?) :=
    (List.forall₂_cons.mp h.1).1.framed
  have hspans : backToBack.frames = [⟨1, 0⟩, ⟨1, 0⟩] := by decide +kernel
  have hlines : (listenSegment {} backToBack.packets).2.filterMap Event.frame? =
      [⟨1, 2, 0, 0, 8, 8⟩, ⟨1, 1, 0, 0, 8, 8⟩] := by decide +kernel
  rw [hspans, hlines, List.forall₂_cons] at hframed
  exact absurd hframed.1.2.2 (by decide)

end Fake
end Photonic
