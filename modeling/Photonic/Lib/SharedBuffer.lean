import Photonic.Lib.Routine
import Mathlib.Data.Set.Insert
import Mathlib.Order.Interval.Set.Basic

inductive Access
  | read (offset : ℕ)
  | write (offset : ℕ)
  deriving DecidableEq, Repr

/-- The state of a request: `bytes` is the memory from the start of the buffer on, without an
end, `accesses` what was done to it, the latest first, `information` the number of bytes that
go back to the caller. -/
structure Buffered (δ : Type) where
  device : δ
  bytes : ℕ → BitVec 8
  accesses : List Access
  information : ℕ

namespace Buffered
variable {δ ε α β : Type}

def readByte (offset : ℕ) : Routine (Buffered δ) ε (BitVec 8) := fun s =>
  (.ok (s.bytes offset), { s with accesses := .read offset :: s.accesses })

def writeByte (offset : ℕ) (b : BitVec 8) : Routine (Buffered δ) ε Unit := fun s =>
  (.ok (), { s with
    bytes := Function.update s.bytes offset b
    accesses := .write offset :: s.accesses })

def setInformation (n : ℕ) : Routine (Buffered δ) ε Unit :=
  Routine.modify fun s => { s with information := n }

def onDevice (x : Routine δ ε α) : Routine (Buffered δ) ε α := fun s =>
  ((x s.device).1, { s with device := (x s.device).2 })

def readBytes (offset : ℕ) : ℕ → Routine (Buffered δ) ε (List (BitVec 8))
  | 0 => pure []
  | n + 1 => do
    let b ← readByte offset
    let bs ← readBytes (offset + 1) n
    pure (b :: bs)

def copyTo (offset : ℕ) : ℕ → List (BitVec 8) → Routine (Buffered δ) ε Unit
  | 0, _ => pure ()
  | n + 1, data => do
    writeByte offset (data.headD 0)
    copyTo (offset + 1) n data.tail

def InOrder (inputLength size : ℕ) : List Access → Prop
  | [] => True
  | .read i :: l => (i < inputLength ∨ .write i ∈ l) ∧ InOrder inputLength size l
  | .write i :: l => i < size ∧ InOrder inputLength size l

theorem InOrder.read {inputLength size i : ℕ} {before after : List Access}
    (h : InOrder inputLength size (after ++ .read i :: before)) :
    i < inputLength ∨ .write i ∈ before := by
  induction after with
  | nil => exact h.1
  | cons a after ih => cases a <;> exact ih h.2

theorem InOrder.write {inputLength size i : ℕ} {l : List Access} (h : InOrder inputLength size l)
    (hi : .write i ∈ l) : i < size := by
  induction l with
  | nil => cases hi
  | cons a l ih =>
    rcases List.mem_cons.1 hi with rfl | hl
    · exact h.1
    · cases a <;> exact ih h.2 hl

theorem InOrder.inside {inputLength outputLength i : ℕ} {l : List Access}
    (h : InOrder inputLength (max inputLength outputLength) l) (hi : .read i ∈ l ∨ .write i ∈ l) :
    i < max inputLength outputLength := by
  rcases hi with hi | hi
  · obtain ⟨after, before, rfl⟩ := List.append_of_mem hi
    rcases h.read with hin | hw
    · omega
    · exact h.write (List.mem_append_right _ (List.mem_cons_of_mem _ hw))
  · exact h.write hi

def Known (inputLength : ℕ) (s : Buffered δ) (i : ℕ) : Prop := i < inputLength ∨ .write i ∈ s.accesses

/-- A request that started on the memory `m` has been in order so far. -/
structure Sound (inputLength outputLength : ℕ) (m : ℕ → BitVec 8) (s : Buffered δ) : Prop where
  order : InOrder inputLength (max inputLength outputLength) s.accesses
  fits : s.information ≤ outputLength
  reported : ∀ i < s.information, s.Known inputLength i
  kept : ∀ i, .write i ∉ s.accesses → s.bytes i = m i

structure Alike (inputLength : ℕ) (s t : Buffered δ) : Prop where
  device : t.device = s.device
  accesses : t.accesses = s.accesses
  information : t.information = s.information
  bytes : ∀ i, s.Known inputLength i → t.bytes i = s.bytes i

section
variable {inputLength outputLength : ℕ}

theorem Sound.setDevice {m : ℕ → BitVec 8} {s : Buffered δ} (h : Sound inputLength outputLength m s)
    (d : δ) : Sound inputLength outputLength m { s with device := d } :=
  ⟨h.order, h.fits, h.reported, h.kept⟩

/-- What goes back was written, or is the caller's own. -/
theorem Sound.returned {m : ℕ → BitVec 8} {s : Buffered δ} (h : Sound inputLength outputLength m s)
    {i : ℕ} (hi : i < s.information) :
    .write i ∈ s.accesses ∨ i < inputLength ∧ s.bytes i = m i := by
  by_cases hw : .write i ∈ s.accesses
  · exact .inl hw
  · rcases h.reported i hi with hin | hw'
    · exact .inr ⟨hin, h.kept i hw⟩
    · exact absurd hw' hw

theorem sound_arrived (d : δ) (m : ℕ → BitVec 8) :
    Sound inputLength outputLength m ⟨d, m, [], 0⟩ :=
  ⟨trivial, Nat.zero_le _, nofun, fun _ _ => rfl⟩

theorem alike_arrived (d : δ) {m m' : ℕ → BitVec 8} (h : ∀ i < inputLength, m' i = m i) :
    Alike inputLength ⟨d, m, [], 0⟩ ⟨d, m', [], 0⟩ := by
  refine ⟨rfl, rfl, rfl, fun i hi => ?_⟩
  rcases hi with hi | hi
  · exact h i hi
  · cases hi

variable (inputLength outputLength)

def Confined (K : Set ℕ) (x : Routine (Buffered δ) ε α) (K' : Set ℕ) : Prop :=
  ∀ (m : ℕ → BitVec 8) (s t : Buffered δ), Sound inputLength outputLength m s →
    Alike inputLength s t → (∀ i ∈ K, .write i ∈ s.accesses) →
    Sound inputLength outputLength m (x s).2 ∧ Alike inputLength (x s).2 (x t).2 ∧
      (x t).1 = (x s).1 ∧ ∀ a, (x s).1 = .ok a → ∀ i ∈ K', .write i ∈ (x s).2.accesses

end

namespace Confined
variable {inputLength outputLength : ℕ} {K K' K'' : Set ℕ}
variable {x : Routine (Buffered δ) ε α} {f : α → Routine (Buffered δ) ε β}

theorem pure {a : α} :
    Confined inputLength outputLength K (Pure.pure a : Routine (Buffered δ) ε α) K :=
  fun _ _ _ hs hst hK => ⟨hs, hst, rfl, fun _ _ => hK⟩

theorem throw {e : ε} :
    Confined inputLength outputLength K (Routine.throw e : Routine (Buffered δ) ε α) K' :=
  fun _ _ _ hs hst _ => ⟨hs, hst, rfl, nofun⟩

theorem bind (hx : Confined inputLength outputLength K x K')
    (hf : ∀ a, Confined inputLength outputLength K' (f a) K'') :
    Confined inputLength outputLength K (x >>= f) K'' := by
  intro m s t hs hst hK
  obtain ⟨h₁, h₂, h₃, h₄⟩ := hx m s t hs hst hK
  cases hxs : x s with
  | mk r s' =>
    cases hxt : x t with
    | mk r' t' =>
      rw [hxs] at h₁ h₂ h₃ h₄
      rw [hxt] at h₂ h₃
      cases r with
      | ok a =>
        cases h₃
        rw [Routine.bind_ok hxs, Routine.bind_ok hxt]
        exact hf a m s' t' h₁ h₂ (h₄ a rfl)
      | error e =>
        cases h₃
        rw [Routine.bind_error hxs, Routine.bind_error hxt]
        exact ⟨h₁, h₂, rfl, nofun⟩

theorem ite {p : Prop} [Decidable p] {y : Routine (Buffered δ) ε α}
    (hx : p → Confined inputLength outputLength K x K')
    (hy : ¬p → Confined inputLength outputLength K y K') :
    Confined inputLength outputLength K (if p then x else y) K' := by
  split
  · exact hx ‹_›
  · exact hy ‹_›

/-- Less may be written at the start, or be claimed at the end. -/
theorem mono {L L' : Set ℕ} (hx : Confined inputLength outputLength K x K') (h : K ⊆ L)
    (h' : L' ⊆ K') : Confined inputLength outputLength L x L' := by
  intro m s t hs hst hL
  obtain ⟨h₁, h₂, h₃, h₄⟩ := hx m s t hs hst fun i hi => hL i (h hi)
  exact ⟨h₁, h₂, h₃, fun a ha i hi => h₄ a ha i (h' hi)⟩

theorem onDevice {y : Routine δ ε α} :
    Confined inputLength outputLength K (Buffered.onDevice y) K := by
  intro m s t hs hst hK
  have hrun : y t.device = y s.device := by rw [hst.device]
  refine ⟨hs.setDevice _, ⟨?_, hst.accesses, hst.information, hst.bytes⟩, ?_, fun _ _ => hK⟩
  · simp only [Buffered.onDevice, hrun]
  · simp only [Buffered.onDevice, hrun]

theorem readByte {offset : ℕ} (h : offset < inputLength ∨ offset ∈ K) :
    Confined inputLength outputLength K
      (Buffered.readByte offset : Routine (Buffered δ) ε (BitVec 8)) K := by
  intro m s t hs hst hK
  have hknown : s.Known inputLength offset := h.imp id (hK offset)
  have hmem (i : ℕ) : .write i ∈ Access.read offset :: s.accesses ↔ .write i ∈ s.accesses := by simp
  refine ⟨⟨⟨hknown, hs.order⟩, hs.fits, fun i hi => ?_, fun i hi => ?_⟩,
    ⟨hst.device, congrArg (List.cons _) hst.accesses, hst.information, fun i hi => ?_⟩,
    congrArg Except.ok (hst.bytes offset hknown), fun _ _ i hi => (hmem i).2 (hK i hi)⟩
  · exact (hs.reported i hi).imp id (hmem i).2
  · exact hs.kept i fun hw => hi ((hmem i).2 hw)
  · exact hst.bytes i (hi.imp id (hmem i).1)

theorem writeByte {offset : ℕ} {b : BitVec 8} (h : offset < max inputLength outputLength) :
    Confined inputLength outputLength K
      (Buffered.writeByte offset b : Routine (Buffered δ) ε Unit) (insert offset K) := by
  intro m s t hs hst hK
  have hgrows (i : ℕ) (hi : .write i ∈ s.accesses) : .write i ∈ Access.write offset :: s.accesses :=
    List.mem_cons_of_mem _ hi
  refine ⟨⟨⟨h, hs.order⟩, hs.fits, fun i hi => ?_, fun i hi => ?_⟩,
    ⟨hst.device, congrArg (List.cons _) hst.accesses, hst.information, fun i hi => ?_⟩, rfl, fun _ _ i hi => ?_⟩
  · exact (hs.reported i hi).imp id (hgrows i)
  · have hne : i ≠ offset := by
      rintro rfl
      exact hi List.mem_cons_self
    exact (Function.update_of_ne hne ..).trans (hs.kept i fun hw => hi (hgrows i hw))
  · by_cases he : i = offset
    · subst he
      simp only [Buffered.writeByte, Function.update_self]
    · have hi' : s.Known inputLength i := hi.imp id fun hw => by
        simpa [Buffered.writeByte, he] using hw
      simp only [Buffered.writeByte, Function.update_of_ne he]
      exact hst.bytes i hi'
  · rcases hi with rfl | hi
    · exact List.mem_cons_self
    · exact hgrows i (hK i hi)

theorem setInformation {n : ℕ} (hn : n ≤ outputLength) (h : ∀ i < n, i < inputLength ∨ i ∈ K) :
    Confined inputLength outputLength K
      (Buffered.setInformation n : Routine (Buffered δ) ε Unit) K := by
  intro m s t hs hst hK
  exact ⟨⟨hs.order, hn, fun i hi => (h i hi).imp id (hK i), hs.kept⟩,
    ⟨hst.device, hst.accesses, rfl, hst.bytes⟩, rfl, fun _ _ => hK⟩

theorem readBytes {offset n : ℕ} (h : ∀ i, offset ≤ i → i < offset + n → i < inputLength ∨ i ∈ K) :
    Confined inputLength outputLength K
      (Buffered.readBytes offset n : Routine (Buffered δ) ε (List (BitVec 8))) K := by
  induction n generalizing offset with
  | zero => exact pure
  | succ n ih =>
    refine bind (readByte (h offset (by omega) (by omega))) fun _ => ?_
    exact bind (ih fun i hi hn => h i (by omega) (by omega)) fun _ => pure

theorem copyTo {offset n : ℕ} {data : List (BitVec 8)}
    (h : offset + n ≤ max inputLength outputLength) :
    Confined inputLength outputLength K
      (Buffered.copyTo offset n data : Routine (Buffered δ) ε Unit)
      (K ∪ Set.Ico offset (offset + n)) := by
  induction n generalizing offset data K with
  | zero => exact pure.mono subset_rfl (by simp)
  | succ n ih =>
    refine bind (writeByte (by omega)) fun _ => (ih (by omega)).mono subset_rfl ?_
    rintro i (hi | hi)
    · exact .inl (.inr hi)
    · by_cases he : i = offset
      · exact .inl (.inl he)
      · exact .inr ⟨by have := hi.1; omega, by have := hi.2; omega⟩

end Confined
end Buffered
