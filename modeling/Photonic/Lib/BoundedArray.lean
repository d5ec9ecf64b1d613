import Mathlib.Data.List.Basic

universe u

namespace BoundedArray
variable {α : Type u}

def blank (capacity : ℕ) : List (Option α) := List.replicate capacity none

def put (out : List (Option α)) (i : ℕ) (v : α) : Option (List (Option α)) :=
  if i < out.length then some (out.set i (some v)) else none

def putAll (out : List (Option α)) (i : ℕ) : List α → Option (List (Option α))
  | [] => some out
  | v :: vs => (put out i v).bind fun out => putAll out (i + 1) vs

theorem putAll_append (out : List (Option α)) (i : ℕ) (vs ws : List α) :
    putAll out i (vs ++ ws) = (putAll out i vs).bind fun out => putAll out (i + vs.length) ws := by
  induction vs generalizing out i with
  | nil => simp [putAll]
  | cons v vs ih =>
    simp only [List.cons_append, putAll, Option.bind_assoc]
    congr 1
    funext out
    rw [ih, List.length_cons, Nat.add_assoc, Nat.add_comm 1]

/-- The array whose first entries are those of `l`. -/
def filled (capacity : ℕ) (l : List α) : List (Option α) :=
  l.map some ++ List.replicate (capacity - l.length) none

theorem put_filled {capacity : ℕ} {l : List α} (h : l.length ≤ capacity) (v : α) :
    put (filled capacity l) l.length v =
      if l.length < capacity then some (filled capacity (l ++ [v])) else none := by
  unfold put
  have hlen : (filled capacity l).length = capacity := by
    simp [filled]
    omega
  rw [hlen]
  split
  · next hlt =>
    obtain ⟨d, rfl⟩ := Nat.exists_eq_add_of_lt hlt
    have hd : l.length + d + 1 - l.length = d + 1 := by omega
    simp [filled, hd, List.replicate_succ, List.set_append_right]
  · rfl

/-- What fits is written, and what does not fit fails. -/
theorem putAll_filled {capacity : ℕ} {l : List α} (h : l.length ≤ capacity) (vs : List α) :
    putAll (filled capacity l) l.length vs =
      if l.length + vs.length ≤ capacity then some (filled capacity (l ++ vs)) else none := by
  induction vs generalizing l with
  | nil => simp [putAll, h]
  | cons v vs ih =>
    rw [putAll, put_filled h]
    by_cases hlt : l.length < capacity
    · have hl : (l ++ [v]).length = l.length + 1 := by simp
      have ih := ih (l := l ++ [v]) (by omega)
      rw [hl] at ih
      rw [if_pos hlt, Option.bind_some, ih]
      simp [Nat.add_assoc, Nat.add_comm 1]
    · rw [if_neg hlt, if_neg (by simp; omega)]
      rfl

theorem putAll_blank (capacity : ℕ) (vs : List α) :
    putAll (blank capacity) 0 vs =
      if vs.length ≤ capacity then some (filled capacity vs) else none := by
  have h : putAll (filled capacity []) 0 vs = _ := putAll_filled (Nat.zero_le capacity) vs
  simpa [filled, blank] using h

theorem take_filled (capacity : ℕ) (l : List α) :
    (filled capacity l).take l.length = l.map some := by
  simp [filled]

end BoundedArray
