import Mathlib.Algebra.Order.BigOperators.Group.List
import Mathlib.Algebra.Order.Ring.Nat
import Photonic.Fake.Heard

namespace Photonic
namespace Fake
open ListenerStats
namespace ListenerStats
open Arrival

/-- These spacings have been folded in. -/
structure Spaced (spaces : List ℕ) (b : Bursts) : Prop where
  sum : b.spaceSum = spaces.sum % 2 ^ 64
  min_le : ∀ n ∈ spaces, b.spaceMin ≤ n
  le_max : ∀ n ∈ spaces, n ≤ b.spaceMax

section
variable {spaces : List ℕ} {st : ListenerStats} {base p c : ℕ} {a b : Arrival} {l : List Arrival}

theorem Spaced.foldSpace (h : Spaced spaces st.toBursts) (n : ℕ) :
    Spaced (spaces ++ [n]) (st.foldSpace n).toBursts where
  sum := by
    rw [ListenerStats.foldSpace, add64, h.sum, List.sum_append, List.sum_singleton, Nat.mod_add_mod]
  min_le := by
    intro m hm
    have hfold : (st.foldSpace n).spaceMin = if n < st.spaceMin then n else st.spaceMin := rfl
    rw [hfold]
    rcases List.mem_append.mp hm with hm | hm
    · have := h.min_le m hm
      split_ifs <;> omega
    · have := List.mem_singleton.mp hm
      split_ifs <;> omega
  le_max := by
    intro m hm
    have hfold : (st.foldSpace n).spaceMax = if st.spaceMax < n then n else st.spaceMax := rfl
    rw [hfold]
    rcases List.mem_append.mp hm with hm | hm
    · have := h.le_max m hm
      split_ifs <;> omega
    · have := List.mem_singleton.mp hm
      split_ifs <;> omega

theorem Spaced.clusterLoss (h : Spaced spaces st.toBursts) :
    Spaced (spaces ++ st.clusterLoss.2.filterMap Event.space?) st.clusterLoss.1.toBursts := by
  have hsame : Spaced (spaces ++ []) st.toBursts := by rwa [List.append_nil]
  unfold ListenerStats.clusterLoss startBurst
  split
  · by_cases hb : st.burstStart ≠ 0
    · simp only [if_pos hb]
      obtain ⟨h1, h2, h3⟩ := h.foldSpace (sub64 st.absCycle st.burstStart)
      exact ⟨h1, h2, h3⟩
    · simp only [if_neg hb]
      exact ⟨hsame.sum, hsame.min_le, hsame.le_max⟩
  · exact ⟨hsame.sum, hsame.min_le, hsame.le_max⟩

theorem Spaced.accountAll (h : Spaced spaces st.toBursts) (l : List Packet) :
    Spaced (spaces ++ (st.accountAll l).2.filterMap Event.space?) (st.accountAll l).1.toBursts := by
  induction l generalizing st spaces with
  | nil => simpa [ListenerStats.accountAll] using h
  | cons p l ih =>
    have hstep : Spaced (spaces ++ (st.accountPacket p).2.filterMap Event.space?)
        (st.accountPacket p).1.toBursts := by
      rw [accountPacket_spaces, accountPacket_toBursts]
      obtain ⟨d, hd, -, hadv | hadv⟩ := st.advance_cases (now p.ts)
      · simpa [hadv, hd] using h
      · rw [hadv]
        exact (hd ▸ h : Spaced spaces d.toBursts).clusterLoss
    simpa [accountAll, List.filterMap_append] using ih hstep

theorem Heard.bursts_next (h : Heard base a st) (hab : a.Before b)
    (hb : b.cycle - base + 1 < 2 ^ 64) (hnext : b.cycle ≤ a.cycle + 1) :
    (st.accountPacket b.toPacket).1.toBursts = st.toBursts ∧
      (st.accountPacket b.toPacket).2.filterMap Event.space? = [] := by
  rw [accountPacket_toBursts, accountPacket_spaces, h.advance_next hab hb hnext]
  exact ⟨rfl, rfl⟩

theorem Heard.bursts_gap (h : Heard base a st) (hab : a.Before b)
    (hb : b.cycle - base + 1 < 2 ^ 64) (hgap : a.cycle + 1 < b.cycle) :
    ∃ c : ListenerStats, c.toBursts = st.toBursts ∧ c.absCycle = b.cycle - base ∧
      (st.accountPacket b.toPacket).1.toBursts = c.clusterLoss.1.toBursts ∧
      (st.accountPacket b.toPacket).2.filterMap Event.space? =
        c.clusterLoss.2.filterMap Event.space? := by
  refine ⟨countLost { st with absCycle := b.cycle - base } (b.cycle - a.cycle - 1), rfl, rfl, ?_⟩
  rw [accountPacket_toBursts, accountPacket_spaces, h.advance_gap hab hb hgap, lose]
  exact ⟨rfl, rfl⟩

theorem clusterLoss_near (hloss : st.lastLoss = p) (hp : p ≠ 0) (habs : st.absCycle = c)
    (hc : c < 2 ^ 64) (hle : p ≤ c) (hnear : c ≤ p + burstGapCycles) :
    st.clusterLoss.1.toBursts = { st.toBursts with lastLoss := c } ∧
      st.clusterLoss.2.filterMap Event.space? = [] := by
  subst hloss habs
  have hcond : ¬(st.lastLoss = 0 ∨ burstGapCycles < sub64 st.absCycle st.lastLoss) := by
    rw [sub64, burstGapCycles] at *
    omega
  rw [clusterLoss, if_neg hcond]
  exact ⟨rfl, rfl⟩

theorem clusterLoss_first (hloss : st.lastLoss = 0) (hstart : st.burstStart = 0)
    (habs : st.absCycle = c) :
    st.clusterLoss.1.toBursts =
        { st.toBursts with lastLoss := c, burstStart := c, segBursts := add64 st.segBursts 1 } ∧
      st.clusterLoss.2.filterMap Event.space? = [] := by
  subst habs
  rw [clusterLoss, if_pos (Or.inl hloss), startBurst, if_neg (not_not.mpr hstart)]
  exact ⟨rfl, rfl⟩

theorem clusterLoss_far (hloss : st.lastLoss = p) (hstart : st.burstStart ≠ 0)
    (habs : st.absCycle = c) (hc : c < 2 ^ 64) (hle : st.burstStart ≤ p)
    (hfar : p + burstGapCycles < c) :
    st.clusterLoss.1.lastLoss = c ∧ st.clusterLoss.1.burstStart = c ∧
      st.clusterLoss.2.filterMap Event.space? = [c - st.burstStart] := by
  subst hloss habs
  have hcond : burstGapCycles < sub64 st.absCycle st.lastLoss := by
    rw [sub64, burstGapCycles] at *
    omega
  have hspace : sub64 st.absCycle st.burstStart = st.absCycle - st.burstStart := by
    rw [sub64]
    omega
  rw [clusterLoss, if_pos (Or.inr hcond), startBurst, if_pos hstart]
  exact ⟨rfl, rfl, congrArg (fun n => [n]) hspace⟩

theorem clusterLoss_armed (st : ListenerStats) (hstart : st.burstStart ≠ 0) (habs : st.absCycle ≠ 0)
    (hbursts : st.segBursts + 1 < 2 ^ 64) :
    st.clusterLoss.1.burstStart ≠ 0 ∧ st.clusterLoss.1.segBursts =
      st.segBursts + (st.clusterLoss.2.filterMap Event.space?).length := by
  by_cases hcond : st.lastLoss = 0 ∨ burstGapCycles < sub64 st.absCycle st.lastLoss
  · rw [clusterLoss, if_pos hcond, startBurst, if_pos hstart]
    exact ⟨habs, Nat.mod_eq_of_lt hbursts⟩
  · rw [clusterLoss, if_neg hcond]
    exact ⟨hstart, rfl⟩

/-- A segment that finds a burst of an earlier one folds a spacing in for each of its own. -/
theorem Heard.accountAll_armed (h : Heard base a st) (hchain : (a :: l).IsChain Before)
    (hspan : (lastOf a l).cycle - base + 1 < 2 ^ 64) (hstart : st.burstStart ≠ 0) :
    (st.accountAll (l.map toPacket)).1.burstStart ≠ 0 ∧
      (st.accountAll (l.map toPacket)).1.segBursts =
        st.segBursts + ((st.accountAll (l.map toPacket)).2.filterMap Event.space?).length := by
  induction l generalizing st a with
  | nil => exact ⟨hstart, rfl⟩
  | cons b l ih =>
    rw [List.isChain_cons_cons] at hchain
    have hle := cycle_le_lastOf hchain.2
    rw [lastOf_cons] at hspan
    have hb : b.cycle - base + 1 < 2 ^ 64 := by omega
    have hlt := hchain.1.1
    have hbase := h.base_le
    have hcounted := h.counted
    have hbursts := h.bursts_le
    have hstep : (st.accountPacket b.toPacket).1.burstStart ≠ 0 ∧
        (st.accountPacket b.toPacket).1.segBursts =
          st.segBursts + ((st.accountPacket b.toPacket).2.filterMap Event.space?).length := by
      -- a gap before `b` is a loss, back to back it is none
      rcases Nat.lt_or_ge (a.cycle + 1) b.cycle with hgap | hnext
      · obtain ⟨c, hc, habs, hbursts', hspaces⟩ := h.bursts_gap hchain.1 hb hgap
        have hcburst : c.burstStart = st.burstStart := congrArg Bursts.burstStart hc
        have hcseg : c.segBursts = st.segBursts := congrArg Bursts.segBursts hc
        obtain ⟨h1, h2⟩ := clusterLoss_armed c (by rwa [hcburst]) (by omega) (by omega)
        rw [hspaces, ← hcseg, ← h2]
        exact ⟨(congrArg Bursts.burstStart hbursts').trans_ne h1, congrArg Bursts.segBursts hbursts'⟩
      · obtain ⟨hsame, hspaces⟩ := h.bursts_next hchain.1 hb hnext
        rw [hspaces]
        exact ⟨(congrArg Bursts.burstStart hsame).trans_ne hstart, congrArg Bursts.segBursts hsame⟩
    obtain ⟨hstart', hcount⟩ := ih (h.next hchain.1 hb) hchain.2 hspan hstep.1
    refine ⟨hstart', hcount.trans ?_⟩
    rw [hstep.2, List.map_cons, accountAll, List.filterMap_append, List.length_append,
      Nat.add_assoc]

theorem Heard.accountAll_synced (h : Heard base a st) (hchain : (a :: l).IsChain Before)
    (hspan : (lastOf a l).cycle - base + 1 < 2 ^ 64) (hloss : st.lastLoss = p)
    (hstart : st.burstStart ≠ 0) (hle : st.burstStart ≤ p) (hp : p ≤ a.cycle - base) :
    (st.accountAll (l.map toPacket)).2.filterMap Event.space? =
      differences (st.burstStart :: burstStarts (some p) (losses base (a :: l))) := by
  induction l generalizing st a p with
  | nil => rfl
  | cons b l ih =>
    rw [List.isChain_cons_cons] at hchain
    have hlast := cycle_le_lastOf hchain.2
    rw [lastOf_cons] at hspan
    have hb : b.cycle - base + 1 < 2 ^ 64 := by omega
    have hlt := hchain.1.1
    have hbase := h.base_le
    have hnext := h.next hchain.1 hb
    have ih := fun q => ih (p := q) hnext hchain.2 hspan
    rw [List.map_cons, accountAll, List.filterMap_append]
    rcases Nat.lt_or_ge (a.cycle + 1) b.cycle with hgap | hrow
    · obtain ⟨c, hc, habs, hbursts, hspaces⟩ := h.bursts_gap hchain.1 hb hgap
      have hcstart : c.burstStart = st.burstStart := congrArg Bursts.burstStart hc
      have hcloss : c.lastLoss = p := (congrArg Bursts.lastLoss hc).trans hloss
      have hp0 : p ≠ 0 := by omega
      rw [losses, if_pos hgap, burstStarts, hspaces]
      by_cases hfar : p + burstGapCycles < b.cycle - base
      · -- a burst of its own: its spacing is that to the burst before
        obtain ⟨hl, hs, hsp⟩ := clusterLoss_far hcloss (by rwa [hcstart]) habs (by omega)
          (by rwa [hcstart]) hfar
        have hl' := (congrArg Bursts.lastLoss hbursts).trans hl
        have hs' : (st.accountPacket b.toPacket).1.burstStart = b.cycle - base :=
          (congrArg Bursts.burstStart hbursts).trans hs
        rw [if_pos (by simpa using hfar), hsp, ih _ hl' (by omega) (by omega) (by omega), hs', hcstart]
        rfl
      · -- close to the loss before: the burst goes on
        obtain ⟨hsame, hsp⟩ := clusterLoss_near hcloss hp0 habs (by omega) (by omega) (by omega)
        have hl' : (st.accountPacket b.toPacket).1.lastLoss = b.cycle - base :=
          congrArg Bursts.lastLoss (hbursts.trans hsame)
        have hs' : (st.accountPacket b.toPacket).1.burstStart = st.burstStart :=
          (congrArg Bursts.burstStart (hbursts.trans hsame)).trans hcstart
        rw [if_neg (by simpa using hfar), hsp, List.nil_append,
          ih _ hl' (by omega) (by omega) (by omega), hs']
    · obtain ⟨hsame, hsp⟩ := h.bursts_next hchain.1 hb hrow
      have hl' := (congrArg Bursts.lastLoss hsame).trans hloss
      have hs' : (st.accountPacket b.toPacket).1.burstStart = st.burstStart :=
        congrArg Bursts.burstStart hsame
      rw [losses, if_neg (by omega), hsp, List.nil_append,
        ih _ hl' (by omega) (by omega) (by omega), hs']

theorem Heard.accountAll_lossless (h : Heard base a st) (hchain : (a :: l).IsChain Before)
    (hspan : (lastOf a l).cycle - base + 1 < 2 ^ 64) (hlost : lost (a :: l) = 0) :
    (st.accountAll (l.map toPacket)).1.toBursts = st.toBursts ∧
      (st.accountAll (l.map toPacket)).2.filterMap Event.space? = [] ∧
      losses base (a :: l) = [] := by
  induction l generalizing st a with
  | nil => exact ⟨rfl, rfl, rfl⟩
  | cons b l ih =>
    rw [List.isChain_cons_cons] at hchain
    have hlast := cycle_le_lastOf hchain.2
    rw [lastOf_cons] at hspan
    have hb : b.cycle - base + 1 < 2 ^ 64 := by omega
    have hlt := hchain.1.1
    rw [lost] at hlost
    obtain ⟨hsame, hspaces⟩ := h.bursts_next hchain.1 hb (by omega)
    obtain ⟨hbursts, hspaces', hlosses⟩ :=
      ih (h.next hchain.1 hb) hchain.2 hspan (by omega)
    rw [losses, if_neg (by omega), List.map_cons, accountAll, List.filterMap_append, hspaces]
    exact ⟨hbursts.trans hsame, hspaces', hlosses⟩

structure Unarmed (b : Bursts) : Prop where
  lastLoss : b.lastLoss = 0
  burstStart : b.burstStart = 0

theorem length_differences (n : ℕ) (l : List ℕ) : (differences (n :: l)).length = l.length := by
  rw [differences, List.length_zipWith, List.tail_cons, List.length_cons]
  omega

theorem Heard.accountAll_unarmed (h : Heard base a st) (hchain : (a :: l).IsChain Before)
    (hspan : (lastOf a l).cycle - base + 1 < 2 ^ 64) (hfresh : Unarmed st.toBursts) :
    (st.accountAll (l.map toPacket)).2.filterMap Event.space? =
        differences (burstStarts none (losses base (a :: l))) ∧
      (st.accountAll (l.map toPacket)).1.segBursts =
        st.segBursts + (burstStarts none (losses base (a :: l))).length ∧
      (lost (a :: l) = 0 → Unarmed (st.accountAll (l.map toPacket)).1.toBursts) ∧
      (lost (a :: l) ≠ 0 → (st.accountAll (l.map toPacket)).1.burstStart ≠ 0) := by
  induction l generalizing st a with
  | nil => exact ⟨rfl, rfl, fun _ => hfresh, fun hlost => absurd rfl hlost⟩
  | cons b l ih =>
    rw [List.isChain_cons_cons] at hchain
    have hlast := cycle_le_lastOf hchain.2
    rw [lastOf_cons] at hspan
    have hb : b.cycle - base + 1 < 2 ^ 64 := by omega
    have hlt := hchain.1.1
    have hbase := h.base_le
    have hcounted := h.counted
    have hbursts_le := h.bursts_le
    have hnext := h.next hchain.1 hb
    rw [List.map_cons, accountAll, List.filterMap_append]
    rcases Nat.lt_or_ge (a.cycle + 1) b.cycle with hgap | hrow
    · obtain ⟨c, hc, habs, hbursts, hspaces⟩ := h.bursts_gap hchain.1 hb hgap
      obtain ⟨hfirst, hsp⟩ := clusterLoss_first ((congrArg Bursts.lastLoss hc).trans hfresh.lastLoss)
        ((congrArg Bursts.burstStart hc).trans hfresh.burstStart) habs
      have hstart : (st.accountPacket b.toPacket).1.burstStart = b.cycle - base :=
        congrArg Bursts.burstStart (hbursts.trans hfirst)
      have hloss : (st.accountPacket b.toPacket).1.lastLoss = b.cycle - base :=
        congrArg Bursts.lastLoss (hbursts.trans hfirst)
      have hseg : (st.accountPacket b.toPacket).1.segBursts = st.segBursts + 1 :=
        (congrArg Bursts.segBursts (hbursts.trans hfirst)).trans
          ((congrArg (fun r : Bursts => add64 r.segBursts 1) hc).trans (Nat.mod_eq_of_lt (by omega)))
      -- the first loss arms the burst: from here on the spacings are those of `accountAll_synced`
      have hsynced := hnext.accountAll_synced hchain.2 hspan hloss (by omega) (by omega) (by omega)
      obtain ⟨harmed, hcount⟩ := hnext.accountAll_armed hchain.2 hspan (by omega)
      rw [hstart] at hsynced
      rw [hsynced, length_differences, hseg] at hcount
      rw [losses, if_pos hgap, burstStarts, if_pos (by simp), hspaces, hsp, hsynced]
      refine ⟨rfl, hcount.trans ?_, fun hlost => ?_, fun _ => harmed⟩
      · rw [List.length_cons]
        omega
      · rw [lost] at hlost
        omega
    · obtain ⟨hsame, hsp⟩ := h.bursts_next hchain.1 hb hrow
      have hseg : (st.accountPacket b.toPacket).1.segBursts = st.segBursts :=
        congrArg Bursts.segBursts hsame
      have ih := ih hnext hchain.2 hspan (hsame ▸ hfresh)
      rw [losses, if_neg (by omega), hsp, List.nil_append, lost, show b.cycle - a.cycle - 1 = 0 by omega,
        Nat.zero_add, ← hseg]
      exact ih

end

end ListenerStats

theorem burstStarts_sublist (previous : Option ℕ) (l : List ℕ) :
    (burstStarts previous l).Sublist l := by
  induction l generalizing previous with
  | nil => exact List.Sublist.slnil
  | cons c l ih =>
    rw [burstStarts]
    split
    · exact (ih _).cons_cons c
    · exact (ih _).cons c

theorem Arrival.losses_sublist (base : ℕ) (a : Arrival) (l : List Arrival) :
    (losses base (a :: l)).Sublist (l.map fun b => b.cycle - base) := by
  induction l generalizing a with
  | nil => exact List.Sublist.slnil
  | cons b l ih =>
    rw [losses, List.map_cons]
    split
    · exact (ih b).cons_cons _
    · exact (ih b).cons _

theorem Arrival.pairwise_cycle {l : List Arrival} (h : l.IsChain Arrival.Before) :
    l.Pairwise fun a b => a.cycle < b.cycle := by
  have hlt : l.IsChain fun a b => a.cycle < b.cycle := h.imp fun _ _ hab => hab.1
  have : IsTrans Arrival fun a b => a.cycle < b.cycle := ⟨fun _ _ _ => Nat.lt_trans⟩
  exact List.isChain_iff_pairwise.mp hlt

theorem sum_differences_le {n m : ℕ} {l : List ℕ} (hl : (n :: l).Pairwise (· ≤ ·))
    (hm : ∀ k ∈ n :: l, k ≤ m) : (differences (n :: l)).sum + n ≤ m := by
  induction l generalizing n with
  | nil => simpa [differences] using hm n (by simp)
  | cons k l ih =>
    have htail := ih hl.of_cons fun j hj => hm j (List.mem_cons_of_mem _ hj)
    have hle := List.rel_of_pairwise_cons hl (List.mem_cons_self (a := k) (l := l))
    have hcons : differences (n :: k :: l) = (k - n) :: differences (k :: l) := rfl
    rw [hcons, List.sum_cons]
    omega

namespace ListenerStats
open Arrival

theorem Spaced.bounds {spaces : List ℕ} {b : Bursts} (h : Spaced spaces b)
    (hsum : spaces.sum < 2 ^ 64) (hlength : 0 < spaces.length) :
    b.spaceMin ≤ b.spaceSum / spaces.length ∧ b.spaceSum / spaces.length ≤ b.spaceMax := by
  rw [h.sum, Nat.mod_eq_of_lt hsum]
  have hmin : spaces.length * b.spaceMin ≤ spaces.sum := List.card_nsmul_le_sum spaces _ h.min_le
  have hmax : spaces.sum ≤ spaces.length * b.spaceMax := List.sum_le_card_nsmul spaces _ h.le_max
  exact ⟨(Nat.le_div_iff_mul_le hlength).mpr (by rwa [Nat.mul_comm]), Nat.div_le_of_le_mul hmax⟩

end ListenerStats
end Fake
end Photonic
