import Mathlib.Data.Finset.Card

universe u v
variable {ι : Type u} {α : Type v}

/-- Exactly `n` of the agents are in the place `p`. -/
def Tally (f : ι → α) (p : α) (n : ℕ) : Prop :=
  ∃ F : Finset ι, F.card = n ∧ ∀ i, i ∈ F ↔ f i = p

namespace Tally
variable {f : ι → α} {p q : α} {n : ℕ}

theorem of_forall_ne (h : ∀ i, f i ≠ p) : Tally f p 0 :=
  ⟨∅, rfl, fun i => by simpa using h i⟩

theorem ne (h : Tally f p 0) (i : ι) : f i ≠ p := by
  obtain ⟨F, hF, hmem⟩ := h
  have hF := Finset.card_eq_zero.mp hF
  intro hi
  have hmem := (hmem i).mpr hi
  simp [hF] at hmem

theorem pos (h : Tally f p n) {i : ι} (hi : f i = p) : 0 < n := by
  obtain ⟨F, rfl, hmem⟩ := h
  exact Finset.card_pos.mpr ⟨i, (hmem i).mpr hi⟩

theorem unique {m : ℕ} (h : Tally f p n) (h' : Tally f p m) : n = m := by
  obtain ⟨F, rfl, hF⟩ := h
  obtain ⟨F', rfl, hF'⟩ := h'
  have hFF : F = F' := by
    ext i
    rw [hF, hF']
  rw [hFF]

variable [DecidableEq ι]

theorem enter (h : Tally f p n) {i : ι} (hi : f i ≠ p) :
    Tally (Function.update f i p) p (n + 1) := by
  obtain ⟨F, rfl, hF⟩ := h
  have hni : i ∉ F := fun hmem => hi ((hF i).mp hmem)
  refine ⟨insert i F, Finset.card_insert_of_notMem hni, fun j => ?_⟩
  by_cases hj : j = i
  · subst hj
    simp
  · simp [Finset.mem_insert, hj, hF]

theorem leave (h : Tally f p n) {i : ι} (hi : f i = p) (hq : q ≠ p) :
    Tally (Function.update f i q) p (n - 1) := by
  obtain ⟨F, rfl, hF⟩ := h
  refine ⟨F.erase i, Finset.card_erase_of_mem ((hF i).mpr hi), fun j => ?_⟩
  by_cases hj : j = i
  · subst hj
    simp [hq]
  · simp [hj, hF]

/-- A move between two other places. -/
theorem pass (h : Tally f p n) {i : ι} (hi : f i ≠ p) (hq : q ≠ p) :
    Tally (Function.update f i q) p n := by
  obtain ⟨F, rfl, hF⟩ := h
  refine ⟨F, rfl, fun j => ?_⟩
  by_cases hj : j = i
  · subst hj
    simp [hq, hF, hi]
  · simp [Function.update_of_ne hj, hF]

end Tally
