import Mathlib.Data.List.Basic

universe u

structure Quad (α : Type u) where
  b0 : α
  b1 : α
  b2 : α
  b3 : α
  deriving DecidableEq, Repr

/-- The entries of a group in the opposite order. -/
def Quad.reverse {α : Type u} (q : Quad α) : Quad α := ⟨q.b3, q.b2, q.b1, q.b0⟩

@[simp] theorem Quad.reverse_reverse {α : Type u} (q : Quad α) : q.reverse.reverse = q := rfl

namespace Quads
variable {α : Type u}

/-- Rewrites every complete group of four entries and leaves a shorter tail alone. -/
def each (f : Quad α → Quad α) : List α → List α
  | a :: b :: c :: d :: l =>
    (f ⟨a, b, c, d⟩).b0 :: (f ⟨a, b, c, d⟩).b1 :: (f ⟨a, b, c, d⟩).b2 :: (f ⟨a, b, c, d⟩).b3 ::
      each f l
  | l => l

@[simp] theorem length_each (f : Quad α → Quad α) (l : List α) :
    (each f l).length = l.length := by
  fun_induction each f l with
  | case1 a b c d l ih => simp [ih]
  | case2 l h => rfl

theorem each_each (f g : Quad α → Quad α) (l : List α) :
    each f (each g l) = each (f ∘ g) l := by
  fun_induction each g l with
  | case1 a b c d l ih => simp [each, ih]
  | case2 l h =>
    unfold each
    split
    · next a b c d l => exact absurd rfl (h a b c d l)
    · rfl

theorem each_of_id {f : Quad α → Quad α} (h : ∀ q, f q = q) (l : List α) : each f l = l := by
  fun_induction each f l with
  | case1 a b c d l ih => rw [h, ih]
  | case2 l h => rfl

/-- Two orders that undo each other on a group undo each other on a list. -/
theorem each_cancel {f g : Quad α → Quad α} (h : ∀ q, f (g q) = q) (l : List α) :
    each f (each g l) = l := by
  rw [each_each]
  exact each_of_id h l

theorem each_append (f : Quad α → Quad α) {l : List α} (hl : 4 ∣ l.length) (m : List α) :
    each f (l ++ m) = each f l ++ each f m := by
  fun_induction each f l with
  | case1 a b c d l ih =>
    have hl' : 4 ∣ l.length := by simp only [List.length_cons] at hl; omega
    simp [each, ih hl']
  | case2 l h =>
    match l, h with
    | [], _ => rfl
    | [_], _ | [_, _], _ | [_, _, _], _ => simp at hl
    | a :: b :: c :: d :: l, h => exact absurd rfl (h a b c d l)

theorem each_take (f : Quad α → Quad α) (k : ℕ) (l : List α) :
    each f (l.take (4 * k)) = (each f l).take (4 * k) := by
  induction k generalizing l with
  | zero => simp [each]
  | succ k ih =>
    match l with
    | [] | [_] | [_, _] | [_, _, _] => simp [each, Nat.mul_succ]
    | a :: b :: c :: d :: l => simp [each, Nat.mul_succ, ih]

end Quads
