import Mathlib.Data.List.Basic

/-- The pieces tile `lo..hi` in their order, and none is empty. -/
def Tiles {α : Type*} (start length : α → ℕ) : ℕ → List α → ℕ → Prop
  | lo, [], hi => lo = hi
  | lo, a :: as, hi => start a = lo ∧ 0 < length a ∧ Tiles start length (lo + length a) as hi

namespace Tiles
variable {α : Type*} {start length : α → ℕ} {lo hi n : ℕ} {as : List α} {a : α}

theorem le (h : Tiles start length lo as hi) : lo ≤ hi := by
  induction as generalizing lo with
  | nil => exact Nat.le_of_eq h
  | cons a as ih => exact Nat.le_trans (Nat.le_add_right _ _) (ih h.2.2)

/-- A piece lies in the range. -/
theorem of_mem (h : Tiles start length lo as hi) (ha : a ∈ as) :
    lo ≤ start a ∧ start a + length a ≤ hi := by
  induction as generalizing lo with
  | nil => cases ha
  | cons b as ih =>
    obtain ⟨hstart, hpos, hrest⟩ := h
    obtain rfl | ha := List.mem_cons.mp ha
    · have := hrest.le
      omega
    · have := ih hrest ha
      omega

/-- A point of the range is in exactly one piece. -/
theorem existsUnique (h : Tiles start length lo as hi) (hlo : lo ≤ n) (hhi : n < hi) :
    ∃! a, a ∈ as ∧ start a ≤ n ∧ n < start a + length a := by
  induction as generalizing lo with
  | nil =>
    have : lo = hi := h
    omega
  | cons a as ih =>
    obtain ⟨hstart, hpos, hrest⟩ := h
    by_cases hn : n < lo + length a
    · refine ⟨a, ⟨List.mem_cons_self, by omega, by omega⟩, ?_⟩
      rintro b ⟨hb, hle, -⟩
      obtain rfl | hb := List.mem_cons.mp hb
      · rfl
      · have := (hrest.of_mem hb).1
        omega
    · obtain ⟨b, ⟨hb, hle, hlt⟩, hunique⟩ := ih hrest (by omega)
      refine ⟨b, ⟨List.mem_cons_of_mem _ hb, hle, hlt⟩, ?_⟩
      rintro c ⟨hc, hcle, hclt⟩
      obtain rfl | hc := List.mem_cons.mp hc
      · omega
      · exact hunique c ⟨hc, hcle, hclt⟩

end Tiles
