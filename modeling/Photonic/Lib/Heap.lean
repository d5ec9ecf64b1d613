import Mathlib.Data.List.Count
import Mathlib.Order.Basic
import Mathlib.Data.Nat.Basic
import Mathlib.Data.List.Perm.Basic
import Mathlib.Data.List.Nodup
import Mathlib.Logic.Function.Basic

/-- A ledger of allocations: blocks are numbered in their order, and the frees of each are counted. -/
structure Heap where
  next : ℕ
  frees : ℕ → ℕ

namespace Heap

def empty : Heap := ⟨0, fun _ => 0⟩

/-- An allocation that succeeds or not. -/
def alloc (h : Heap) (ok : Bool) : Option ℕ × Heap :=
  if ok then (some h.next, { h with next := h.next + 1 }) else (none, h)

def free (h : Heap) (b : ℕ) : Heap :=
  { h with frees := Function.update h.frees b (h.frees b + 1) }

def freeAll (h : Heap) (bs : List ℕ) : Heap := bs.foldl free h

/-- The blocks in use are `live`, and every other one was freed once. -/
structure Owned (h : Heap) (live : List ℕ) : Prop where
  below : ∀ b < h.next, live.count b + h.frees b = 1
  above : ∀ b, h.next ≤ b → live.count b + h.frees b = 0

theorem owned_empty : empty.Owned [] := ⟨nofun, fun _ _ => rfl⟩

namespace Owned
variable {h : Heap} {live live' : List ℕ} {b : ℕ}

theorem perm (ho : h.Owned live) (hp : live.Perm live') : h.Owned live' :=
  ⟨fun c hc => hp.count_eq c ▸ ho.below c hc, fun c hc => hp.count_eq c ▸ ho.above c hc⟩

theorem lt_next (ho : h.Owned live) (hb : b ∈ live) : b < h.next := by
  by_contra hle
  have := ho.above b (by omega)
  have := List.count_pos_iff.mpr hb
  omega

theorem nodup (ho : h.Owned live) : live.Nodup := by
  rw [List.nodup_iff_count_eq_one]
  intro c hc
  have := ho.below c (ho.lt_next hc)
  have := List.count_pos_iff.mpr hc
  omega

theorem frees_eq_zero (ho : h.Owned live) (hb : b ∈ live) : h.frees b = 0 := by
  have := ho.below b (ho.lt_next hb)
  have := List.count_pos_iff.mpr hb
  omega

theorem frees_eq_one (ho : h.Owned live) (hlt : b < h.next) (hb : b ∉ live) : h.frees b = 1 := by
  have := ho.below b hlt
  have := List.count_eq_zero_of_not_mem hb
  omega

theorem frees_le_one (ho : h.Owned live) (b : ℕ) : h.frees b ≤ 1 := by
  by_cases hlt : b < h.next
  · have := ho.below b hlt
    omega
  · have := ho.above b (Nat.le_of_not_lt hlt)
    omega

theorem alloc (ho : h.Owned live) {ok : Bool} {h' : Heap} (ha : h.alloc ok = (some b, h')) :
    h'.Owned (b :: live) := by
  unfold Heap.alloc at ha
  split at ha <;> cases ha
  have hnew := ho.above h.next le_rfl
  constructor
  · intro c hc
    show (h.next :: live).count c + h.frees c = 1
    rw [List.count_cons]
    split_ifs with heq
    · rw [← beq_iff_eq.mp heq]
      omega
    · have hne : h.next ≠ c := fun h => heq (beq_iff_eq.mpr h)
      exact ho.below c (lt_of_le_of_ne (Nat.le_of_lt_succ hc) hne.symm)
  · intro c hc
    show (h.next :: live).count c + h.frees c = 0
    have hlt : h.next < c := hc
    rw [List.count_cons]
    split_ifs with heq
    · have := beq_iff_eq.mp heq
      omega
    · exact ho.above c hlt.le

theorem free (ho : h.Owned (b :: live)) : (h.free b).Owned live := by
  have key : ∀ c, live.count c + (h.free b).frees c = (b :: live).count c + h.frees c := by
    intro c
    rw [List.count_cons]
    simp only [Heap.free]
    split_ifs with heq
    · rw [← beq_iff_eq.mp heq, Function.update_self]
      omega
    · have hne : c ≠ b := fun h => heq (beq_iff_eq.mpr h.symm)
      rw [Function.update_of_ne hne]
      omega
  exact ⟨fun c hc => key c ▸ ho.below c hc, fun c hc => key c ▸ ho.above c hc⟩

theorem freeAll {bs : List ℕ} (ho : h.Owned (bs ++ live)) : (h.freeAll bs).Owned live := by
  induction bs generalizing h with
  | nil => exact ho
  | cons b bs ih => exact ih ho.free

end Owned

theorem alloc_none {h h' : Heap} {ok : Bool} (ha : h.alloc ok = (none, h')) : h' = h := by
  unfold alloc at ha
  split at ha <;> cases ha
  rfl

@[simp] theorem free_next (h : Heap) (b : ℕ) : (h.free b).next = h.next := rfl

@[simp] theorem freeAll_next (h : Heap) (bs : List ℕ) : (h.freeAll bs).next = h.next := by
  induction bs generalizing h with
  | nil => rfl
  | cons b bs ih => exact ih (h.free b)

end Heap
