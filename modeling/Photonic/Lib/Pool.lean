import Mathlib.Data.Multiset.Count
import Mathlib.Data.Multiset.Filter
import Mathlib.Algebra.BigOperators.Fin
import Mathlib.Algebra.BigOperators.Group.Finset.Basic
import Mathlib.Algebra.Order.BigOperators.Group.Finset

namespace Pool

variable {α : Type*}

theorem countP_eq_zero_of_forall {p : α → Bool} {m : Multiset α} (h : ∀ a ∈ m, p a = false) :
    m.countP (p · = true) = 0 := by
  rw [Multiset.countP_eq_zero]
  intro a ha
  simp [h a ha]

theorem false_of_countP_eq_zero {p : α → Bool} {m : Multiset α} (h : m.countP (p · = true) = 0)
    {a : α} (ha : a ∈ m) : p a = false := by
  have := (Multiset.countP_eq_zero.mp h) a ha
  simpa using this

theorem not_of_countP_le_one {p : α → Bool} {a b : α} {m : Multiset α}
    (h : (a ::ₘ m).countP (p · = true) ≤ 1) (ha : p a = true) (hb : b ∈ m) : p b = false := by
  rw [Multiset.countP_cons_of_pos m ha] at h
  exact false_of_countP_eq_zero (by omega) hb

theorem countP_mono {p q : α → Prop} [DecidablePred p] [DecidablePred q] (m : Multiset α)
    (h : ∀ a ∈ m, p a → q a) : m.countP p ≤ m.countP q := by
  induction m using Multiset.induction_on with
  | empty => simp
  | cons a m ih =>
    have ih := ih fun b hb => h b (Multiset.mem_cons_of_mem hb)
    have ha := h a (Multiset.mem_cons_self a m)
    rw [Multiset.countP_cons, Multiset.countP_cons]
    split_ifs with hp hq
    · omega
    · exact absurd (ha hp) hq
    · omega
    · omega

/-- No activity of the pool is of a kind. -/
def Free (p : α → Bool) (m : Multiset α) : Prop := ∀ a ∈ m, p a = false

section
variable {p : α → Bool} {m m' : Multiset α} {a : α}

theorem free_zero : Free p 0 := fun a ha => absurd ha (Multiset.notMem_zero a)

theorem Free.mono (h : Free p m) (hsub : m' ⊆ m) : Free p m' := fun a ha => h a (hsub ha)

theorem Free.head (h : Free p (a ::ₘ m)) : p a = false := h a (Multiset.mem_cons_self a m)

theorem Free.tail (h : Free p (a ::ₘ m)) : Free p m := h.mono fun _ => Multiset.mem_cons_of_mem

theorem Free.add (h : Free p m) (ha : p a = false) : Free p (a ::ₘ m) := by
  intro b hb
  rcases Multiset.mem_cons.mp hb with rfl | hb
  · exact ha
  · exact h b hb

end

variable {ι : Type*} [Fintype ι] [DecidableEq ι] {β : Type*}

/-- Writing one entry of an array changes a sum over it by that entry's share. -/
theorem sum_update (f : ι → β) (g : β → ℕ) (i : ι) (x : β) :
    ∑ j, g (Function.update f i x j) + g (f i) = ∑ j, g (f j) + g x := by
  rw [← Finset.add_sum_erase Finset.univ (fun j => g (Function.update f i x j)) (Finset.mem_univ i),
    ← Finset.add_sum_erase Finset.univ (fun j => g (f j)) (Finset.mem_univ i)]
  have h : ∑ j ∈ Finset.univ.erase i, g (Function.update f i x j) =
      ∑ j ∈ Finset.univ.erase i, g (f j) := by
    apply Finset.sum_congr rfl
    intro j hj
    rw [Function.update_of_ne (Finset.ne_of_mem_erase hj)]
  rw [h, Function.update_self]
  omega

end Pool
