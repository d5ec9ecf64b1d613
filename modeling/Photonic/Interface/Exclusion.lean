import Photonic.Lib.Machine
import Photonic.Interface.Extension

namespace Photonic
namespace Extension

def videoBlocks (x : Extension) : List ℕ :=
  (x.videoStream.map fun v => v.capture.blocks).getD []

def slotBlocks (x : Extension) : List ℕ :=
  (x.ioctlCapture.map fun c => c.block :: c.capture.blocks).getD []

def live (x : Extension) : List ℕ := x.videoBlocks ++ x.slotBlocks ++ x.leaked

end Extension

open Extension

theorem poolAllocate_owned {ok : ℕ → Bool} {h h' : Heap} {live irps : List ℕ} {n : ℕ} {good : Bool}
    (ho : h.Owned live) (hp : poolAllocate ok h n = ((irps, good), h')) : h'.Owned (irps ++ live) := by
  induction n generalizing irps good h' with
  | zero =>
    cases hp
    exact ho
  | succ n ih =>
    unfold poolAllocate at hp
    split at hp
    · next irps' h₁ hn =>
      cases hp
      exact ih hn
    · next irps' h₁ hn =>
      have ho₁ := ih hn
      split at hp
      · next h₂ ha =>
        cases hp
        rw [Heap.alloc_none ha]
        exact ho₁
      · next irp h₂ ha =>
        cases hp
        refine (ho₁.alloc ha).perm ?_
        rw [List.append_assoc]
        exact (List.perm_middle).symm

theorem captureCreate_owned {a : CreateAnswer} {h h' : Heap} {live : List ℕ} {c : Option CaptureBlocks}
    (ho : h.Owned live) (hc : captureCreate a h = (c, h')) :
    h'.Owned ((c.map CaptureBlocks.blocks).getD [] ++ live) := by
  unfold captureCreate at hc
  split at hc
  · next h₁ ha =>
    cases hc
    rw [Heap.alloc_none ha]
    exact ho
  · next capture h₁ ha =>
    have ho₁ := ho.alloc ha
    split at hc
    · next irps h₂ hp =>
      cases hc
      exact (poolAllocate_owned ho₁ hp).perm List.perm_middle
    · next irps h₂ hp =>
      cases hc
      exact (poolAllocate_owned ho₁ hp).freeAll.free

namespace Extension

/-- What the three pointers and the memory satisfy whenever `InterfaceMutex` is free. -/
structure Excluded (x : Extension) : Prop where
  notBoth : x.videoStream = none ∨ x.ioctlCapture = none
  active : x.activeCaptureStream =
    (x.videoStream.map fun v => .pin v.object).or (x.ioctlCapture.map fun c => .slot c.block)
  owned : x.heap.Owned x.live

/-- A failed operation publishes nothing and frees what it allocated once. -/
structure Undone (x x' : Extension) : Prop where
  video : x'.videoStream = x.videoStream
  pointers : (x'.ioctlCapture = x.ioctlCapture ∧ x'.activeCaptureStream = x.activeCaptureStream) ∨
    (x'.ioctlCapture = none ∧ x'.activeCaptureStream = none)
  freed : ∀ b, x.heap.next ≤ b → b < x'.heap.next → x'.heap.frees b = 1

section
variable {x : Extension}

theorem Excluded.of_idle (h : x.Excluded) (ha : x.activeCaptureStream = none) :
    x.videoStream = none ∧ x.ioctlCapture = none := by
  have hact := h.active
  rw [ha] at hact
  cases hv : x.videoStream with
  | some v => simp [hv] at hact
  | none =>
    cases hc : x.ioctlCapture with
    | some c => simp [hv, hc] at hact
    | none => exact ⟨rfl, rfl⟩

theorem live_of_idle (hv : x.videoStream = none) (hc : x.ioctlCapture = none) :
    x.live = x.leaked := by
  simp [live, videoBlocks, slotBlocks, hv, hc]

theorem excluded_of_idle (hv : x.videoStream = none) (hc : x.ioctlCapture = none)
    (ha : x.activeCaptureStream = none) (ho : x.heap.Owned x.leaked) : x.Excluded :=
  ⟨.inl hv, by rw [hv, hc, ha]; rfl, live_of_idle hv hc ▸ ho⟩

/-- Blocks that are not in use behind an operation and were allocated by it were freed
once. -/
theorem freed_of_owned {x' : Extension} (ho : x.heap.Owned x.live) (ho' : x'.heap.Owned x'.live)
    (hsub : x'.live ⊆ x.live) {b : ℕ} (hb : x.heap.next ≤ b) (hb' : b < x'.heap.next) :
    x'.heap.frees b = 1 := by
  refine ho'.frees_eq_one hb' fun hmem => ?_
  exact absurd (ho.lt_next (hsub hmem)) (not_lt.mpr hb)

theorem captureDestroy_owned {c : CaptureBlocks} {q : Bool} {l : List ℕ}
    (ho : x.heap.Owned (c.blocks ++ l ++ x.leaked)) :
    (x.captureDestroy c q).heap.Owned (l ++ (x.captureDestroy c q).leaked) := by
  unfold captureDestroy
  split
  · refine ho.perm ?_
    rw [List.append_assoc]
    exact List.perm_append_comm_assoc _ _ _
  · rw [List.append_assoc] at ho
    refine Heap.Owned.free (Heap.Owned.freeAll (ho.perm ?_))
    exact List.perm_middle.symm

theorem streamOpen_excluded (h : x.Excluded) (stream : ℕ) (a : OpenAnswer) :
    (x.streamOpen stream a).2.Excluded := by
  unfold streamOpen
  split
  · exact h
  split
  · exact h
  split
  · exact h
  next hact =>
  have hact := not_not.mp hact
  obtain ⟨hv, hc⟩ := h.of_idle hact
  have ho : x.heap.Owned x.leaked := live_of_idle hv hc ▸ h.owned
  split
  · next heap hcr => exact excluded_of_idle hv hc hact (captureCreate_owned ho hcr)
  · next capture heap hcr =>
    have hheap : heap.Owned (capture.blocks ++ x.leaked) := captureCreate_owned ho hcr
    split
    · have hdes := captureDestroy_owned (x := { x with heap }) (q := false) (l := [])
        (by simpa using hheap)
      exact excluded_of_idle hv hc hact hdes
    · refine ⟨.inr hc, ?_, ?_⟩
      · simp
      · simpa [live, videoBlocks, slotBlocks, hc] using hheap

theorem streamClose_excluded {q : Bool} (h : x.Excluded) : (x.streamClose q).Excluded := by
  unfold streamClose
  split
  · exact h
  next v hv =>
  have hc : x.ioctlCapture = none := h.notBoth.resolve_left (by rw [hv]; nofun)
  have hdes : (x.captureDestroy v.capture q).ioctlCapture = none := by
    unfold captureDestroy
    split <;> exact hc
  have ho : x.heap.Owned (v.capture.blocks ++ [] ++ x.leaked) := by
    simpa [live, videoBlocks, slotBlocks, hv, hc] using h.owned
  refine ⟨.inl rfl, ?_, ?_⟩
  · rw [hdes]
    rfl
  · simpa [live, videoBlocks, slotBlocks, hdes] using captureDestroy_owned (q := q) ho

theorem captureRelease_idle {c : IoctlCapture} (h : x.Excluded) (hc : x.ioctlCapture = some c)
    (q : Bool) :
    (x.captureRelease q).videoStream = none ∧ (x.captureRelease q).ioctlCapture = none ∧
      (x.captureRelease q).activeCaptureStream = none := by
  have hv : x.videoStream = none := h.notBoth.resolve_right (by rw [hc]; nofun)
  unfold captureRelease
  rw [hc]
  simp only [captureDestroy]
  split <;> exact ⟨hv, rfl, rfl⟩

theorem captureRelease_owned (h : x.Excluded) (q : Bool) :
    (x.captureRelease q).heap.Owned (x.captureRelease q).live := by
  cases hc : x.ioctlCapture with
  | none =>
    simp only [captureRelease, hc]
    exact h.owned
  | some c =>
    obtain ⟨hv, hi, -⟩ := captureRelease_idle h hc q
    rw [live_of_idle hv hi]
    have hv : x.videoStream = none := h.notBoth.resolve_right (by rw [hc]; nofun)
    have ho : x.heap.Owned (c.capture.blocks ++ [c.block] ++ x.leaked) := by
      have := h.owned
      simp only [live, videoBlocks, slotBlocks, hv, hc, Option.map_none, Option.getD_none,
        Option.map_some, Option.getD_some, List.nil_append] at this
      exact this.perm (List.Perm.append_right _ (List.perm_append_singleton _ _).symm)
    have := captureDestroy_owned
      (x := { x with ioctlCapture := none, activeCaptureStream := none })
      (q := q) ho
    unfold captureRelease
    rw [hc]
    simp only
    split
    · exact this
    · exact this.free

theorem captureRelease_excluded (h : x.Excluded) (q : Bool) : (x.captureRelease q).Excluded := by
  cases hc : x.ioctlCapture with
  | none =>
    simp only [captureRelease, hc]
    exact h
  | some c =>
    obtain ⟨hv, hi, ha⟩ := captureRelease_idle h hc q
    exact ⟨.inl hv, by rw [hv, hi, ha]; rfl, captureRelease_owned h q⟩

theorem prepareSlot_excluded {fileObject : ℕ} {a : PrepareAnswer} (h : x.Excluded)
    (hact : x.activeCaptureStream = none) : (x.prepareSlot fileObject a).2.Excluded := by
  obtain ⟨hv, hc⟩ := h.of_idle hact
  have ho : x.heap.Owned x.leaked := live_of_idle hv hc ▸ h.owned
  unfold prepareSlot
  split
  · next heap ha =>
    rw [Heap.alloc_none ha]
    exact h
  next block heap ha =>
  have hslot := ho.alloc ha
  split
  · exact excluded_of_idle hv hc hact hslot.free
  split
  · exact excluded_of_idle hv hc hact hslot.free
  split
  · next heap' hcr =>
    have hheap : heap'.Owned (block :: x.leaked) := captureCreate_owned hslot hcr
    exact excluded_of_idle hv hc hact hheap.free
  · next capture heap' hcr =>
    have hheap : heap'.Owned (capture.blocks ++ block :: x.leaked) := captureCreate_owned hslot hcr
    refine ⟨.inl hv, by simp [hv], ?_⟩
    simpa [live, videoBlocks, slotBlocks, hv] using hheap.perm List.perm_middle

theorem prepare_excluded (h : x.Excluded) (fileObject : ℕ) (allow : Bool) (a : PrepareAnswer) :
    (x.prepare fileObject allow a).2.Excluded := by
  unfold prepare prepareFree
  split
  · exact h
  split
  · split
    · exact h
    · next hact => exact prepareSlot_excluded h (not_not.mp hact)
  · split
    · split
      · exact captureRelease_excluded h _
      · next hact => exact prepareSlot_excluded (captureRelease_excluded h a.quarantined) (not_not.mp hact)
    · exact h

theorem streamOpen_failed {stream : ℕ} {a : OpenAnswer}
    (hf : ntSuccess (x.streamOpen stream a).1 = false) :
    ∃ heap, (x.streamOpen stream a).2 = { x with heap } := by
  revert hf
  unfold streamOpen
  split
  · exact fun _ => ⟨x.heap, rfl⟩
  split
  · exact fun _ => ⟨x.heap, rfl⟩
  split
  · exact fun _ => ⟨x.heap, rfl⟩
  split
  · exact fun _ => ⟨_, rfl⟩
  split
  · exact fun _ => ⟨_, rfl⟩
  · exact fun hf => absurd hf (by simp)

theorem prepareSlot_failed {fileObject : ℕ} {a : PrepareAnswer}
    (hf : ntSuccess (x.prepareSlot fileObject a).1 = false) :
    ∃ heap, (x.prepareSlot fileObject a).2 = { x with heap } := by
  revert hf
  unfold prepareSlot
  split
  · exact fun _ => ⟨_, rfl⟩
  split
  · exact fun _ => ⟨_, rfl⟩
  split
  · exact fun _ => ⟨_, rfl⟩
  split
  · exact fun _ => ⟨_, rfl⟩
  · exact fun hf => absurd hf (by simp)

theorem prepareFree_failed {fileObject : ℕ} {a : PrepareAnswer}
    (hf : ntSuccess (x.prepareFree fileObject a).1 = false) :
    ∃ heap, (x.prepareFree fileObject a).2 = { x with heap } := by
  unfold prepareFree at hf ⊢
  split at hf
  · next hact =>
    rw [if_pos hact]
    exact ⟨x.heap, rfl⟩
  · next hact =>
    rw [if_neg hact]
    exact prepareSlot_failed hf

theorem captureRelease_live {c : IoctlCapture} (h : x.Excluded) (hc : x.ioctlCapture = some c)
    (q : Bool) : (x.captureRelease q).live ⊆ x.live := by
  obtain ⟨hv', hi, -⟩ := captureRelease_idle h hc q
  have hv : x.videoStream = none := h.notBoth.resolve_right (by rw [hc]; nofun)
  rw [live_of_idle hv' hi]
  intro b hb
  have hslot : x.live = (c.block :: c.capture.blocks) ++ x.leaked := by
    simp [live, videoBlocks, slotBlocks, hv, hc]
  rw [hslot]
  unfold captureRelease at hb
  rw [hc] at hb
  simp only [captureDestroy] at hb
  split at hb
  · simpa using hb
  · exact List.mem_append_right _ hb

theorem Undone.of_heap {heap : Heap} (h : x.Excluded) (h' : { x with heap }.Excluded) :
    Undone x { x with heap } :=
  ⟨rfl, .inl ⟨rfl, rfl⟩, fun _ => freed_of_owned h.owned h'.owned fun _ hb => hb⟩

theorem streamOpen_undone {stream : ℕ} {a : OpenAnswer} (h : x.Excluded)
    (hf : ntSuccess (x.streamOpen stream a).1 = false) : Undone x (x.streamOpen stream a).2 := by
  have h' := streamOpen_excluded h stream a
  obtain ⟨heap, heq⟩ := streamOpen_failed hf
  rw [heq] at h' ⊢
  exact .of_heap h h'

theorem prepare_undone {fileObject : ℕ} {allow : Bool} {a : PrepareAnswer} (h : x.Excluded)
    (hf : ntSuccess (x.prepare fileObject allow a).1 = false) :
    Undone x (x.prepare fileObject allow a).2 := by
  have h' := prepare_excluded h fileObject allow a
  revert hf h'
  unfold prepare
  split
  · exact fun _ h' => .of_heap h h'
  split
  · intro hf h'
    obtain ⟨heap, heq⟩ := prepareFree_failed hf
    rw [heq] at h' ⊢
    exact .of_heap h h'
  next c hc =>
  split
  · intro hf h'
    obtain ⟨hv, hi, ha⟩ := captureRelease_idle h hc a.quarantined
    have hvx : x.videoStream = none := h.notBoth.resolve_right (by rw [hc]; nofun)
    obtain ⟨heap, heq⟩ := prepareFree_failed hf
    rw [heq] at h' ⊢
    refine ⟨hv.trans hvx.symm, .inr ⟨hi, ha⟩, fun b => freed_of_owned h.owned h'.owned ?_⟩
    exact captureRelease_live h hc a.quarantined
  · exact fun _ h' => .of_heap h h'

end

/-- An operation of the class driver, of a request on a handle, or of the engine's control
transitions. -/
inductive Op
  | streamOpen (stream : ℕ) (a : OpenAnswer)
  | streamClose (quarantined : Bool)
  | prepare (fileObject : ℕ) (allowReprepare : Bool) (a : PrepareAnswer)
  | unprepare (fileObject : ℕ) (quarantined : Bool)
  | cleanup (fileObject : ℕ) (quarantined : Bool)
  | surpriseRemoval
  | uninit (quarantined : Bool)
  | setStreamState (st : KsState)

/-- An operation under `InterfaceMutex`. The class driver closes the stream it opened. -/
def step (x : Extension) : Op → Option Extension
  | .streamOpen stream a => some (x.streamOpen stream a).2
  | .streamClose quarantined =>
    if x.videoStream = none then none else some (x.streamClose quarantined)
  | .prepare fileObject allow a => some (x.prepare fileObject allow a).2
  | .unprepare fileObject quarantined => some (x.unprepare fileObject quarantined).2
  | .cleanup fileObject quarantined => some (x.cleanup fileObject quarantined)
  | .surpriseRemoval => some { x with removed := true }
  | .uninit quarantined => some (x.captureRelease quarantined)
  | .setStreamState st => some (x.setStreamState st)

def create : Extension := ⟨false, none, none, none, .empty, []⟩

def machine : Machine Extension Op := ⟨create, step⟩

theorem Excluded.step {x x' : Extension} {op : Op} (h : x.Excluded) (hs : x.step op = some x') :
    x'.Excluded := by
  cases op with
  | streamOpen stream a =>
    cases hs
    exact streamOpen_excluded h stream a
  | streamClose quarantined =>
    simp only [Extension.step] at hs
    split at hs <;> cases hs
    exact streamClose_excluded h
  | prepare fileObject allow a =>
    cases hs
    exact prepare_excluded h fileObject allow a
  | unprepare fileObject quarantined =>
    cases hs
    unfold Extension.unprepare
    split
    · exact captureRelease_excluded h _
    · exact h
  | cleanup fileObject quarantined =>
    cases hs
    unfold Extension.cleanup
    split
    · exact captureRelease_excluded h _
    · exact h
  | surpriseRemoval =>
    cases hs
    exact ⟨h.notBoth, h.active, h.owned⟩
  | uninit quarantined =>
    cases hs
    exact captureRelease_excluded h _
  -- `ActiveCaptureStream` goes on to point to the same stream, in its new state
  | setStreamState st =>
    cases hs
    refine ⟨h.notBoth.imp_right fun hc => by simp [setStreamState, hc], ?_, ?_⟩
    · rw [show (x.setStreamState st).activeCaptureStream = _ from h.active]
      simp [setStreamState, Function.comp_def]
    · have : (x.setStreamState st).live = x.live := by
        simp [live, videoBlocks, slotBlocks, setStreamState, Function.comp_def]
      rw [this]
      exact h.owned

theorem Excluded.of_reachable {x : Extension} (h : machine.Reachable x) : x.Excluded := by
  refine h.invariant (I := Excluded) ⟨.inl rfl, rfl, Heap.owned_empty⟩ ?_
  intro x op x' _ hi _ hs
  exact hi.step hs

/-- The pin and the slot are never both there, the active stream is that of the one that
is, no block is freed twice, and an open or a prepare that fails publishes nothing and
frees each block it allocated once. -/
theorem interfaces_exclude {x : Extension} (h : machine.Reachable x) :
    (x.videoStream = none ∨ x.ioctlCapture = none) ∧
    (x.activeCaptureStream ≠ none ↔ x.videoStream ≠ none ∨ x.ioctlCapture ≠ none) ∧
    (∀ v ∈ x.videoStream, x.activeCaptureStream = some (.pin v.object)) ∧
    (∀ c ∈ x.ioctlCapture, x.activeCaptureStream = some (.slot c.block)) ∧
    (∀ b, x.heap.frees b ≤ 1) ∧
    (∀ stream a, ntSuccess (x.streamOpen stream a).1 = false → Undone x (x.streamOpen stream a).2) ∧
    (∀ fileObject allow a, ntSuccess (x.prepare fileObject allow a).1 = false →
      Undone x (x.prepare fileObject allow a).2) := by
  have hx := Excluded.of_reachable h
  have hact := hx.active
  refine ⟨hx.notBoth, ?_, ?_, ?_, fun b => hx.owned.frees_le_one b, fun _ _ => streamOpen_undone hx,
    fun _ _ _ => prepare_undone hx⟩
  · rw [hact]
    cases x.videoStream <;> cases x.ioctlCapture <;> simp
  · intro v hv
    rw [hact, Option.mem_def.mp hv]
    rfl
  · intro c hc
    have hv : x.videoStream = none := hx.notBoth.resolve_right (by rw [Option.mem_def.mp hc]; nofun)
    rw [hact, hv, Option.mem_def.mp hc]
    rfl

def PrepareAnswer.good : PrepareAnswer := ⟨false, true, statusSuccess, true, true, fun _ => true⟩

/-- A handle prepares the slot, and prepares it again with the last IRP not to be had. -/
def reprepareRun : List Op :=
  [.prepare 5 true .good, .prepare 5 true { PrepareAnswer.good with create := ⟨true, (· < 3)⟩ }]

theorem interfaces_exclude_reprepareRun :
    let x := machine.after (fun _ _ => True) reprepareRun
    x.heap.next = 11 ∧ x.ioctlCapture = none ∧ x.activeCaptureStream = none ∧ ∀ b, x.heap.frees b ≤ 1 := by
  refine ⟨by decide, by decide, by decide, ?_⟩
  exact (interfaces_exclude (machine.reaches_after _ reprepareRun)).2.2.2.2.1

end Extension
end Photonic
