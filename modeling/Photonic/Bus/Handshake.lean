import Photonic.Bus.Irb
import Mathlib.Data.List.Perm.Lattice

namespace Photonic
namespace Irb

namespace Mem

structure Sound (m : Mem) (live holds : List ℕ) : Prop where
  heap : m.heap.Owned live
  lock : m.lock.Owned holds
  clean : m.fault = false

/-- Frees and releases are only ever added. -/
structure Grows (m m' : Mem) : Prop where
  heap : ∀ b, m.heap.frees b ≤ m'.heap.frees b
  lock : ∀ b, m.lock.frees b ≤ m'.lock.frees b

def Freed (m : Mem) (b : ℕ) : Prop := m.heap.frees b = 1

def Released (m : Mem) (hold : ℕ) : Prop := m.lock.frees hold = 1

variable {m m' m'' : Mem} {live live' holds holds' bs : List ℕ} {b hold : ℕ}

theorem Grows.refl (m : Mem) : Grows m m := ⟨fun _ => le_rfl, fun _ => le_rfl⟩

theorem Grows.trans (h : Grows m m') (h' : Grows m' m'') : Grows m m'' :=
  ⟨fun b => (h.heap b).trans (h'.heap b), fun b => (h.lock b).trans (h'.lock b)⟩

theorem grows_touch (m : Mem) (bs : List ℕ) : Grows m (m.touch bs) := ⟨fun _ => le_rfl, fun _ => le_rfl⟩

theorem grows_free (m : Mem) (b : ℕ) : Grows m (m.free b) := by
  refine ⟨fun c => ?_, fun _ => le_rfl⟩
  show m.heap.frees c ≤ Function.update m.heap.frees b (m.heap.frees b + 1) c
  by_cases hc : c = b
  · subst hc
    simp
  · simp [hc]

theorem grows_release (m : Mem) (hold : ℕ) : Grows m (m.release hold) := by
  refine ⟨fun _ => le_rfl, fun c => ?_⟩
  show m.lock.frees c ≤ Function.update m.lock.frees hold (m.lock.frees hold + 1) c
  by_cases hc : c = hold
  · subst hc
    simp
  · simp [hc]

theorem Sound.perm (h : m.Sound live holds) (hl : live.Perm live') (hh : holds.Perm holds') :
    m.Sound live' holds' :=
  ⟨h.heap.perm hl, h.lock.perm hh, h.clean⟩

theorem Sound.touch (h : m.Sound live holds) (hbs : ∀ b ∈ bs, b ∈ live) :
    (m.touch bs).Sound live holds := by
  refine ⟨h.heap, h.lock, ?_⟩
  simp only [Mem.touch, h.clean, Bool.false_or, List.any_eq_false]
  intro b hb
  simp [h.heap.frees_eq_zero (hbs b hb)]

theorem Sound.free (h : m.Sound (b :: live) holds) : (m.free b).Sound live holds := by
  have ht : (m.touch [b]).Sound (b :: live) holds := h.touch (by simp)
  exact ⟨ht.heap.free, ht.lock, ht.clean⟩

theorem Sound.release (h : m.Sound live (hold :: holds)) : (m.release hold).Sound live holds := by
  refine ⟨h.heap, h.lock.free, ?_⟩
  simp [Mem.release, h.clean, h.lock.frees_eq_zero]

theorem Sound.alloc (h : m.Sound live holds) {ok : Bool} {heap : Heap}
    (ha : m.heap.alloc ok = (some b, heap)) :
    Sound { m with heap := heap } (b :: live) holds :=
  ⟨h.heap.alloc ha, h.lock, h.clean⟩

theorem Sound.acquire (h : m.Sound live holds) {ok : Bool} {lock : Heap}
    (ha : m.lock.alloc ok = (some hold, lock)) :
    Sound { m with lock := lock } live (hold :: holds) :=
  ⟨h.heap, h.lock.alloc ha, h.clean⟩

theorem grows_alloc {ok : Bool} {heap : Heap} {o : Option ℕ} (ha : m.heap.alloc ok = (o, heap)) :
    Grows m { m with heap := heap } := by
  unfold Heap.alloc at ha
  split at ha <;> cases ha <;> exact ⟨fun _ => le_rfl, fun _ => le_rfl⟩

theorem grows_acquire {ok : Bool} {lock : Heap} {o : Option ℕ}
    (ha : m.lock.alloc ok = (o, lock)) : Grows m { m with lock := lock } := by
  unfold Heap.alloc at ha
  split at ha <;> cases ha <;> exact ⟨fun _ => le_rfl, fun _ => le_rfl⟩

theorem Freed.mono (h : m.Freed b) (hg : Grows m m') (hm : m'.Sound live holds) : m'.Freed b :=
  le_antisymm (hm.heap.frees_le_one b) (h ▸ hg.heap b)

theorem Released.mono (h : m.Released hold) (hg : Grows m m') (hm : m'.Sound live holds) :
    m'.Released hold :=
  le_antisymm (hm.lock.frees_le_one hold) (h ▸ hg.lock hold)

theorem Sound.freed_free (h : m.Sound (b :: live) holds) : (m.free b).Freed b := by
  simp [Freed, Mem.free, Mem.touch, Heap.free, h.heap.frees_eq_zero]

theorem Sound.released_release (h : m.Sound live (hold :: holds)) :
    (m.release hold).Released hold := by
  simp [Released, Mem.release, Heap.free, h.lock.frees_eq_zero]

end Mem

open Mem

namespace Request

inductive Waited (r : Request) : Prop
  | atBus (hc : r.completion = .atBus) (hs : r.state = .pending) (he : r.event = false)
  | stored (hc : r.completion = .stored) (hs : r.state = .pending) (he : r.event = false)
  | waking (hc : r.completion = .waking) (hs : r.state = .completed) (he : r.event = false)
  | done (hc : r.completion = .done) (hs : r.state = .completed) (he : r.event = true)

inductive Orphaned (m : Mem) (r : Request) : Prop
  | atBus (hc : r.completion = .atBus) (hs : r.state = .abandoned)
  | stored (hc : r.completion = .stored) (hs : r.state = .abandoned)
  | freeing {bs : List ℕ} (hc : r.completion = .freeing (bs ++ [r.sync]))
      (hf : ∀ b ∈ r.memory, b ∉ bs ++ [r.sync] → m.Freed b)
  | freed (hc : r.completion = .freeing []) (hf : ∀ b ∈ r.memory, m.Freed b)
  | done (hc : r.completion = .done) (hf : ∀ b ∈ r.memory, m.Freed b) (hr : m.Released r.hold)

structure Collected (m : Mem) (r : Request) : Prop where
  done : r.completion = .done
  irp : m.Freed r.irp
  sync : m.Freed r.sync
  hold : m.Released r.hold

def orphanBlocks (r : Request) : List ℕ :=
  match r.completion with
  | .freeing bs => bs
  | .done => []
  | _ => r.irp :: r.attached ++ [r.sync]

def orphanHolds (r : Request) : List ℕ := if r.completion = .done then [] else [r.hold]

variable {m m' : Mem} {r r' : Request} {status : NtStatus} {live holds : List ℕ}

theorem Orphaned.mono (h : r.Orphaned m) (hg : Grows m m') (hm : m'.Sound live holds) :
    r.Orphaned m' := by
  cases h with
  | atBus hc hs => exact .atBus hc hs
  | stored hc hs => exact .stored hc hs
  | freeing hc hf => exact .freeing hc fun b hb hn => (hf b hb hn).mono hg hm
  | freed hc hf => exact .freed hc fun b hb => (hf b hb).mono hg hm
  | done hc hf hr => exact .done hc (fun b hb => (hf b hb).mono hg hm) (hr.mono hg hm)

theorem Collected.mono (h : r.Collected m) (hg : Grows m m') (hm : m'.Sound live holds) :
    r.Collected m' :=
  ⟨h.done, h.irp.mono hg hm, h.sync.mono hg hm, h.hold.mono hg hm⟩

/-- The routine keeps the steps of the request in order and changes nothing else of it. -/
theorem complete_fields (h : r.complete m status = some (m', r')) :
    r'.irp = r.irp ∧ r'.sync = r.sync ∧ r'.attached = r.attached ∧ r'.hold = r.hold := by
  unfold complete at h
  split at h <;> cases h <;> exact ⟨rfl, rfl, rfl, rfl⟩

/-- With the submitter still there the routine touches the sync block and the IRP, and frees
nothing. -/
theorem complete_waited (hm : m.Sound live holds) (hi : r.irp ∈ live) (hs : r.sync ∈ live)
    (hw : r.Waited) (h : r.complete m status = some (m', r')) :
    m'.Sound live holds ∧ Grows m m' ∧ r'.Waited := by
  unfold complete at h
  cases hw with
  | atBus hc hst he =>
    rw [hc] at h
    cases h
    exact ⟨hm.touch (by simp [hi, hs]), grows_touch _ _, .stored rfl hst he⟩
  | stored hc hst he =>
    simp only [hc, hst] at h
    cases h
    exact ⟨hm.touch (by simp [hs]), grows_touch _ _, .waking rfl rfl he⟩
  | waking hc hst he =>
    rw [hc] at h
    cases h
    exact ⟨hm.touch (by simp [hs]), grows_touch _ _, .done rfl hst rfl⟩
  | done hc hst he =>
    rw [hc] at h
    cases h

/-- Without a submitter it frees everything the request referenced, the sync block last, and
then lets go of the remove lock. -/
theorem complete_orphaned (hm : m.Sound (r.orphanBlocks ++ live) (r.orphanHolds ++ holds))
    (ho : r.Orphaned m) (h : r.complete m status = some (m', r')) :
    m'.Sound (r'.orphanBlocks ++ live) (r'.orphanHolds ++ holds) ∧ Grows m m' ∧ r'.Orphaned m' := by
  unfold complete at h
  cases ho with
  | atBus hc hs =>
    simp only [hc] at h
    cases h
    simp only [orphanBlocks, orphanHolds, hc] at hm
    exact ⟨hm.touch (by simp), grows_touch _ _, .stored rfl hs⟩
  -- the exchange finds the request abandoned: all of it is now the routine's to free
  | stored hc hs =>
    simp only [hc, hs] at h
    cases h
    simp only [orphanBlocks, orphanHolds, hc] at hm
    refine ⟨hm.touch (by simp), grows_touch _ _, @Orphaned.freeing _ _ (r.irp :: r.attached) rfl ?_⟩
    intro b hb hn
    exact absurd hb (by simpa [memory, or_assoc, or_comm, or_left_comm] using hn)
  | @freeing bs hc hf =>
    have hs : r.sync ∈ r.memory := by simp [memory]
    simp only [orphanBlocks, orphanHolds, hc] at hm
    have ht := @Sound.touch _ _ _ [r.sync] hm (by simp)
    cases bs with
    | nil =>
      simp only [hc, List.nil_append] at h
      cases h
      simp only [List.nil_append, List.singleton_append] at ht
      refine ⟨ht.free, (grows_touch _ _).trans (grows_free _ _), .freed rfl ?_⟩
      intro b hb
      by_cases hbs : b = r.sync
      · exact hbs ▸ ht.freed_free
      · exact (hf b hb (by simpa using hbs)).mono ((grows_touch _ _).trans (grows_free _ _)) ht.free
    | cons a bs =>
      simp only [hc, List.cons_append] at h
      cases h
      refine ⟨ht.free, (grows_touch _ _).trans (grows_free _ _), .freeing rfl ?_⟩
      intro b hb hn
      -- `a` is freed in this step, the others were before or will be
      by_cases hba : b = a
      · exact hba ▸ ht.freed_free
      · refine (hf b hb ?_).mono ((grows_touch _ _).trans (grows_free _ _)) ht.free
        simpa [hba] using hn
  | freed hc hf =>
    simp only [hc] at h
    cases h
    simp only [orphanBlocks, orphanHolds, hc] at hm
    refine ⟨hm.release, grows_release _ _, .done rfl ?_ hm.released_release⟩
    intro b hb
    exact (hf b hb).mono (grows_release _ _) hm.release
  | done hc hf hr =>
    rw [hc] at h
    cases h

/-- The bus driver gives a request back before anything of it is freed. -/
theorem dma_sound (hm : m.Sound live holds) (hl : ∀ b ∈ r.memory, b ∈ live)
    (h : r.dma m = some m') : m'.Sound live holds ∧ Grows m m' := by
  unfold dma at h
  split at h <;> cases h
  exact ⟨hm.touch hl, grows_touch _ _⟩

end Request

namespace Submit

/-- A submission under way: up to the second exchange the state of the request is the
completion routine's to set, and once the event is set the thread is alone with it. -/
inductive Sound (m : Mem) (w : Submit) : Prop
  | waiting (hpc : w.pc = .first ∨ w.pc = .cancelling ∨ w.pc = .second ∨ w.pc = .claiming)
      (hw : w.request.Waited)
  | waking (hpc : w.pc = .third) (hc : w.request.completion = .waking)
      (he : w.request.event = false)
  | woken (hpc : w.pc = .third) (hc : w.request.completion = .done) (he : w.request.event = true)
  | collect (hpc : w.pc = .collect) (hc : w.request.completion = .done)
  | freeIrp {status : NtStatus} (hpc : w.pc = .freeIrp status) (hc : w.request.completion = .done)
  | freeSync {status : NtStatus} (hpc : w.pc = .freeSync status)
      (hc : w.request.completion = .done) (hi : m.Freed w.request.irp)
  | release {status : NtStatus} (hpc : w.pc = .release status) (hc : w.request.completion = .done)
      (hi : m.Freed w.request.irp) (hs : m.Freed w.request.sync)

/-- The blocks of the request that are the thread's to free. -/
def blocks (w : Submit) : List ℕ :=
  match w.pc with
  | .freeSync _ => [w.request.sync]
  | .release _ => []
  | _ => [w.request.irp, w.request.sync]

/-- While the completion routine is not through, the thread has freed nothing. -/
theorem Sound.blocks_eq {m : Mem} {w : Submit} (h : w.Sound m)
    (ho : w.request.completion ≠ .done) : w.blocks = [w.request.irp, w.request.sync] := by
  cases h with
  | waiting hpc _ => rcases hpc with hpc | hpc | hpc | hpc <;> simp only [blocks, hpc]
  | waking hpc _ _ => simp only [blocks, hpc]
  | woken _ hc _ | collect _ hc | freeIrp _ hc | freeSync _ hc _ | release _ hc _ _ =>
    exact (ho hc).elim

/-- What a step of the thread leaves to whom. -/
def Leaves (m : Mem) (live holds : List ℕ) (w : Submit) : Outcome → Prop
  | .waiting w' => w'.request.attached = w.request.attached ∧ w'.Sound m ∧
      m.Sound (w'.blocks ++ live) (w'.request.hold :: holds)
  | .collected r _ => r.Collected m ∧ m.Sound live holds
  | .abandoned r => r.attached = w.request.attached ∧ r.Orphaned m ∧
      m.Sound (r.irp :: r.sync :: live) (r.hold :: holds) ∧
      r.orphanBlocks = r.irp :: r.attached ++ [r.sync] ∧ r.orphanHolds = [r.hold]

variable {m m' : Mem} {w : Submit} {o : Outcome} {live holds : List ℕ} {timedOut : Bool}

theorem Sound.mono {live holds : List ℕ} (h : w.Sound m) (hg : Grows m m')
    (hm : m'.Sound live holds) : w.Sound m' := by
  cases h with
  | waiting hpc hw => exact .waiting hpc hw
  | waking hpc hc he => exact .waking hpc hc he
  | woken hpc hc he => exact .woken hpc hc he
  | collect hpc hc => exact .collect hpc hc
  | freeIrp hpc hc => exact .freeIrp hpc hc
  | freeSync hpc hc hi => exact .freeSync hpc hc (hi.mono hg hm)
  | release hpc hc hi hs => exact .release hpc hc (hi.mono hg hm) (hs.mono hg hm)

theorem wait_sound {late : Option SubmitPc} (hb : w.blocks = [w.request.irp, w.request.sync])
    (hm : m.Sound (w.blocks ++ live) (w.request.hold :: holds))
    (hover : w.request.event = true → w.request.completion = .done)
    (hlate : ∀ pc, late = some pc → w.request.event = false →
      Sound m { w with pc := pc } ∧
        blocks { w with pc := pc } = [w.request.irp, w.request.sync])
    (h : wait m w timedOut late = some (m', o)) : Grows m m' ∧ Leaves m' live holds w o := by
  have ht : (m.touch [w.request.sync]).Sound (w.blocks ++ live) (w.request.hold :: holds) :=
    hm.touch (by simp [hb])
  rw [hb] at ht
  unfold wait at h
  split at h
  · next he =>
    split at h <;> cases h
    exact ⟨grows_touch _ _, rfl, .collect rfl (hover he), ht⟩
  · next he =>
    split at h
    · cases late with
      | none => cases h
      | some pc =>
        cases h
        obtain ⟨hs, hbl⟩ := hlate pc rfl (by simpa using he)
        refine ⟨grows_touch _ _, rfl, hs.mono (grows_touch _ _) ht, ?_⟩
        rw [hbl]
        exact ht
    · cases h

theorem thread_sound (hm : m.Sound (w.blocks ++ live) (w.request.hold :: holds)) (hw : w.Sound m)
    (h : w.thread m timedOut = some (m', o)) : Grows m m' ∧ Leaves m' live holds w o := by
  unfold thread at h
  cases hw with
  | waiting hpc hr =>
    have hover : w.request.event = true → w.request.completion = .done := by
      intro he
      cases hr with
      | done hc _ _ => exact hc
      | atBus _ _ hf | stored _ _ hf | waking _ _ hf => exact absurd he (by simp [hf])
    rcases hpc with hpc | hpc | hpc | hpc
    · simp only [hpc] at h
      refine wait_sound (by simp only [blocks, hpc]) hm hover ?_ h
      rintro pc ⟨⟩ -
      exact ⟨.waiting (.inr (.inl rfl)) hr, rfl⟩
    · simp only [hpc] at h
      cases h
      simp only [blocks, hpc] at hm
      exact ⟨grows_touch _ _, rfl, .waiting (.inr (.inr (.inl rfl))) hr, hm.touch (by simp)⟩
    · simp only [hpc] at h
      refine wait_sound (by simp only [blocks, hpc]) hm hover ?_ h
      rintro pc ⟨⟩ -
      exact ⟨.waiting (.inr (.inr (.inr rfl))) hr, rfl⟩
    · simp only [hpc] at h
      cases h
      simp only [blocks, hpc] at hm
      refine ⟨grows_touch _ _, ?_⟩
      have ht := @Sound.touch _ _ _ [w.request.sync] hm (by simp)
      -- the exchange: whoever comes second finds the other's mark and cleans up
      cases hr with
      | atBus hc hs _ =>
        rw [if_neg (by simp [hs])]
        refine ⟨rfl, .atBus hc rfl, ht, ?_, ?_⟩ <;> simp [Request.orphanBlocks, Request.orphanHolds, hc]
      | stored hc hs _ =>
        rw [if_neg (by simp [hs])]
        refine ⟨rfl, .stored hc rfl, ht, ?_, ?_⟩ <;> simp [Request.orphanBlocks, Request.orphanHolds, hc]
      | waking hc hs he =>
        rw [if_pos hs]
        exact ⟨rfl, .waking rfl hc he, ht⟩
      | done hc hs he =>
        rw [if_pos hs]
        exact ⟨rfl, .woken rfl hc he, ht⟩
  | waking hpc hc he =>
    simp only [hpc] at h
    exact wait_sound (by simp only [blocks, hpc]) hm (by simp [he]) (by simp) h
  | woken hpc hc he =>
    simp only [hpc] at h
    exact wait_sound (by simp only [blocks, hpc]) hm (fun _ => hc) (by simp) h
  | collect hpc hc =>
    simp only [hpc] at h
    cases h
    simp only [blocks, hpc] at hm
    exact ⟨grows_touch _ _, rfl, .freeIrp rfl hc, hm.touch (by simp)⟩
  | freeIrp hpc hc =>
    simp only [hpc] at h
    cases h
    simp only [blocks, hpc] at hm
    exact ⟨grows_free _ _, rfl, .freeSync rfl hc hm.freed_free, hm.free⟩
  | freeSync hpc hc hi =>
    simp only [hpc] at h
    cases h
    simp only [blocks, hpc] at hm
    exact ⟨grows_free _ _, rfl, .release rfl hc (hi.mono (grows_free _ _) hm.free) hm.freed_free,
      hm.free⟩
  | release hpc hc hi hs =>
    simp only [hpc] at h
    cases h
    simp only [blocks, hpc] at hm
    have hg := grows_release m w.request.hold
    exact ⟨hg, ⟨hc, hi.mono hg hm.release, hs.mono hg hm.release, hm.released_release⟩, hm.release⟩

theorem complete_sound {status : NtStatus} {r' : Request}
    (hm : m.Sound (w.blocks ++ live) (w.request.hold :: holds)) (hw : w.Sound m)
    (h : w.request.complete m status = some (m', r')) :
    Grows m m' ∧ Leaves m' live holds w (.waiting { w with request := r' }) := by
  obtain ⟨hi, hs, ha, hh⟩ := Request.complete_fields h
  have hbl : blocks { w with request := r' } = w.blocks := by simp only [blocks, hi, hs]
  have ho : w.request.completion ≠ .done := by
    intro hc
    simp [Request.complete, hc] at h
  have hb := hw.blocks_eq ho
  cases hw with
  | waiting hpc hr =>
    obtain ⟨hm', hg, hr'⟩ := Request.complete_waited hm (by simp [hb]) (by simp [hb]) hr h
    refine ⟨hg, ha, .waiting hpc hr', ?_⟩
    rw [hbl, hh]
    exact hm'
  | waking hpc hc he =>
    simp only [Request.complete, hc] at h
    cases h
    refine ⟨grows_touch _ _, rfl, .woken hpc rfl rfl, ?_⟩
    rw [hbl]
    exact hm.touch (by simp [hb])
  | woken _ hc _ | collect _ hc | freeIrp _ hc | freeSync _ hc _ | release _ hc _ _ =>
    exact (ho hc).elim

theorem dma_sound (hm : m.Sound (w.blocks ++ live) (w.request.hold :: holds))
    (ha : ∀ b ∈ w.request.attached, b ∈ live) (hw : w.Sound m) (h : w.request.dma m = some m') :
    m'.Sound (w.blocks ++ live) (w.request.hold :: holds) ∧ Grows m m' := by
  have ho : w.request.completion ≠ .done := by
    intro hc
    simp [Request.dma, hc] at h
  refine Request.dma_sound hm ?_ h
  intro b hmem
  simp only [Request.memory, List.mem_cons] at hmem
  simp only [hw.blocks_eq ho, List.mem_append, List.mem_cons, List.not_mem_nil, or_false]
  rcases hmem with rfl | rfl | hmem
  · exact .inl (.inl rfl)
  · exact .inl (.inr rfl)
  · exact .inr (ha b hmem)

/-- A submission that fails before the bus driver sees it leaves nothing behind. -/
theorem enter_failed {attached : List ℕ} {connected syncOk irpOk : Bool} {result : Result}
    (hm : m.Sound live holds) (h : enter m attached connected syncOk irpOk = (m', .inl result)) :
    Grows m m' ∧ m'.Sound live holds ∧ result.abandoned = false := by
  unfold enter at h
  split at h
  · cases h
    exact ⟨.refl m, hm, rfl⟩
  split at h
  · cases h
    exact ⟨.refl m, hm, rfl⟩
  next sync heap hsync =>
  have hg := grows_alloc hsync
  have hs := hm.alloc hsync
  split at h
  · cases h
    exact ⟨hg.trans (grows_free _ _), hs.free, rfl⟩
  next irp heap' hirp =>
  have hg' := hg.trans (grows_alloc (m := { m with heap := heap }) hirp)
  have hi := hs.alloc hirp
  split at h
  · cases h
    exact ⟨(hg'.trans (grows_free _ _)).trans (grows_free _ _), hi.free.free, rfl⟩
  · cases h

theorem enter_submitted {attached : List ℕ} {connected syncOk irpOk : Bool}
    (hm : m.Sound live holds) (h : enter m attached connected syncOk irpOk = (m', .inr w)) :
    Grows m m' ∧ m'.Sound (w.blocks ++ live) (w.request.hold :: holds) ∧ w.Sound m' ∧
      w.request.attached = attached := by
  unfold enter at h
  split at h
  · cases h
  split at h
  · cases h
  next sync heap hsync =>
  have hg := grows_alloc hsync
  have hs := hm.alloc hsync
  split at h
  · cases h
  next irp heap' hirp =>
  have hg' := hg.trans (grows_alloc (m := { m with heap := heap }) hirp)
  have hi := hs.alloc hirp
  split at h
  · cases h
  next hold lock hlock =>
  cases h
  exact ⟨hg'.trans (grows_acquire (m := { m with heap := heap' }) hlock), hi.acquire hlock,
    .waiting (.inl rfl) (.atBus rfl rfl rfl), rfl⟩

end Submit

/-- Whether the site submits before its call has any memory. -/
def Site.bare : Site → Bool
  | .plain | .refresh => true
  | _ => false

/-- The blocks a call has where it goes on with `pc`. -/
def Pc.Fits : Pc → List ℕ → Prop
  | .alloc next, bs => ∀ b, next.Fits (b :: bs)
  | .submit site, bs => site.bare = true → bs = []
  | .copyOut abandoned, _ => abandoned = false
  | .free, _ => True

theorem Entry.fits (entry : Entry) : entry.pc.Fits [] := by
  cases entry with
  | transfer resetPending => cases resetPending <;> simp [Entry.pc, Pc.transfer, Pc.Fits, Site.bare]
  | plain | hostInfo | directory => simp [Entry.pc, Pc.Fits, Site.bare]

namespace Call

/-- What a call goes on with after a submission: everything it passed, unless the submission
was abandoned, and nothing of what it passed in that case. -/
def kept (site : Site) (blocks : List ℕ) (abandoned : Bool) : List ℕ :=
  if abandoned && site.carries then [] else blocks

theorem deliver_cases (blocks : List ℕ) {result : Result}
    (hr : result.abandoned = true → ntSuccess result.status = false) :
    (deliver result blocks = none ∧ result.abandoned = true) ∨
      ∃ pc, deliver result blocks = some (.running pc blocks) ∧ pc.Fits blocks ∧
        result.abandoned = false := by
  obtain ⟨status, abandoned⟩ := result
  cases abandoned with
  | true => simp [deliver, finish, hr rfl]
  | false =>
    right
    by_cases hs : ntSuccess status = true
    · exact ⟨.copyOut false, by simp [deliver, hs], rfl, rfl⟩
    · exact ⟨.free, by simp [deliver, hs, finish], trivial, rfl⟩

theorem resume_cases {site : Site} {blocks : List ℕ} {result : Result}
    (hb : site.bare = true → blocks = [])
    (hr : result.abandoned = true → ntSuccess result.status = false) :
    (resume site blocks result = none ∧ kept site blocks result.abandoned = []) ∨
      ∃ pc, resume site blocks result = some (.running pc (kept site blocks result.abandoned)) ∧
        pc.Fits (kept site blocks result.abandoned) := by
  -- what three of the sites come to: the result is handed out if there is one
  have hdeliver (hc : site.carries = true) (he : resume site blocks result = deliver result blocks) :
      (resume site blocks result = none ∧ kept site blocks result.abandoned = []) ∨
        ∃ pc, resume site blocks result = some (.running pc (kept site blocks result.abandoned)) ∧
          pc.Fits (kept site blocks result.abandoned) := by
    rcases deliver_cases blocks hr with ⟨hd, ha⟩ | ⟨pc, hd, hf, ha⟩
    · exact .inl ⟨he.trans hd, by simp [kept, ha, hc]⟩
    · exact .inr ⟨pc, by simp [he, hd, kept, ha], by simpa [kept, ha] using hf⟩
  obtain ⟨status, abandoned⟩ := result
  cases site with
  | plain => exact .inl ⟨rfl, by simp [kept, hb rfl]⟩
  | refresh =>
    exact .inr ⟨.transfer, by simp [resume, kept, hb rfl],
      by simp [Pc.transfer, Pc.Fits, Site.bare]⟩
  | transfer =>
    -- a stale generation is asked for once more, if the request came back at all
    by_cases hg : status = statusInvalidGeneration ∧ abandoned = false
    · exact .inr ⟨.submit .requery, by simp [resume, hg, kept], by simp [Pc.Fits, Site.bare]⟩
    · exact hdeliver rfl (by simp only [resume, if_neg hg])
  | requery =>
    right
    by_cases hs : ntSuccess status = true
    · exact ⟨.submit .retry, by simp [resume, hs, kept, Site.carries], by simp [Pc.Fits, Site.bare]⟩
    · exact ⟨.free, by simp [resume, hs, kept, Site.carries], trivial⟩
  | retry => exact hdeliver rfl rfl
  | hostInfo => exact hdeliver rfl rfl
  | sizeQuery =>
    by_cases hs : ntSuccess status = true
    · have ha : abandoned = false := by
        by_contra h
        simp [hr (by simpa using h)] at hs
      exact .inr ⟨.alloc (.submit .fetch), by simp [resume, hs, kept, ha],
        by simp [Pc.Fits, Site.bare]⟩
    · cases abandoned with
      | true => exact .inl (by simp [resume, hs, finish, kept, Site.carries])
      | false => exact .inr ⟨.free, by simp [resume, hs, finish, kept], trivial⟩
  | fetch =>
    by_cases hs : ntSuccess status = true
    · have ha : abandoned = false := by
        by_contra h
        simp [hr (by simpa using h)] at hs
      exact .inr ⟨.copyOut false, by simp [resume, hs, kept, ha], rfl⟩
    · cases abandoned with
      | true => exact .inl (by simp [resume, hs, finish, kept, Site.carries])
      | false => exact .inr ⟨.free, by simp [resume, hs, finish, kept], trivial⟩

/-- The blocks in the hands of a call, its request included. -/
def blocks : Call → List ℕ
  | .running _ bs => bs
  | .submitting _ bs w => bs ++ w.blocks

def holds : Call → List ℕ
  | .running .. => []
  | .submitting _ _ w => [w.request.hold]

inductive Sound (m : Mem) : Call → Prop
  | running {pc : Pc} {bs : List ℕ} (hf : pc.Fits bs) : Sound m (.running pc bs)
  | submitting {site : Site} {bs : List ℕ} {w : Submit} (hw : w.Sound m)
      (ha : w.request.attached = if site.carries then bs else [])
      (hb : site.bare = true → bs = []) : Sound m (.submitting site bs w)

variable {m m' : Mem} {c : Call} {live holds : List ℕ}

theorem Sound.mono (h : c.Sound m) (hg : Grows m m') (hm : m'.Sound live holds) : c.Sound m' := by
  cases h with
  | running hf => exact .running hf
  | submitting hw ha hb => exact .submitting (hw.mono hg hm) ha hb

theorem run_sound {pc : Pc} {bs : List ℕ} {ok : Bool} {c' : Option Call}
    (hm : m.Sound (bs ++ live) holds) (hf : pc.Fits bs) (h : run m pc bs ok = some (m', c')) :
    Grows m m' ∧ ((c' = none ∧ m'.Sound live holds) ∨
      ∃ pc' bs', c' = some (.running pc' bs') ∧ pc'.Fits bs' ∧ m'.Sound (bs' ++ live) holds) := by
  cases pc with
  | alloc next =>
    simp only [run] at h
    split at h
    · cases h
      exact ⟨.refl m, .inr ⟨_, _, rfl, trivial, hm⟩⟩
    · next b heap hb =>
      cases h
      exact ⟨grows_alloc hb, .inr ⟨_, _, rfl, hf b, hm.alloc hb⟩⟩
  | submit site => cases h
  | copyOut abandoned =>
    cases h
    cases (show abandoned = false from hf)
    exact ⟨grows_touch _ _, .inr ⟨_, _, rfl, trivial, hm.touch (by simp +contextual)⟩⟩
  | free =>
    cases bs with
    | nil =>
      cases h
      exact ⟨.refl m, .inl ⟨rfl, hm⟩⟩
    | cons b bs =>
      cases h
      exact ⟨grows_free _ _, .inr ⟨_, _, rfl, trivial, hm.free⟩⟩

end Call

namespace World

def blocks (s : World) : List ℕ :=
  s.calls.flatMap Call.blocks ++ s.orphans.flatMap Request.orphanBlocks

def holds (s : World) : List ℕ :=
  s.calls.flatMap Call.holds ++ s.orphans.flatMap Request.orphanHolds

/-- What is known of every party for itself. -/
structure Parties (s : World) (m : Mem) : Prop where
  calls : ∀ c ∈ s.calls, c.Sound m
  orphans : ∀ r ∈ s.orphans, r.Orphaned m
  collected : ∀ r ∈ s.collected, r.Collected m

structure Sound (s : World) : Prop where
  mem : s.mem.Sound s.blocks s.holds
  parties : s.Parties s.mem

variable {s s' : World} {m : Mem} {c : Call}

theorem Parties.mono {m m' : Mem} {live holds : List ℕ} (h : s.Parties m) (hg : Grows m m')
    (hm : m'.Sound live holds) : s.Parties m' :=
  ⟨fun c hc => (h.calls c hc).mono hg hm, fun r hr => (h.orphans r hr).mono hg hm,
    fun r hr => (h.collected r hr).mono hg hm⟩

theorem Sound.put_none (hp : s.Parties m) (hm : m.Sound s.blocks s.holds) :
    (s.put m none).Sound :=
  ⟨hm, hp.calls, hp.orphans, hp.collected⟩

theorem Sound.put_some (hp : s.Parties m) (hc : c.Sound m)
    (hm : m.Sound (c.blocks ++ s.blocks) (c.holds ++ s.holds)) : (s.put m (some c)).Sound := by
  refine ⟨?_, ?_, hp.orphans, hp.collected⟩
  · simpa [put, blocks, holds] using hm
  · intro c' hc'
    rcases List.mem_cons.mp hc' with rfl | hc'
    · exact hc
    · exact hp.calls c' hc'

theorem Sound.put_resume {site : Site} {bs : List ℕ} (result : Result) (hp : s.Parties m)
    (hb : site.bare = true → bs = [])
    (hr : result.abandoned = true → ntSuccess result.status = false)
    (hm : m.Sound (Call.kept site bs result.abandoned ++ s.blocks) s.holds) :
    (s.put m (Call.resume site bs result)).Sound := by
  rcases Call.resume_cases hb hr with ⟨hres, hk⟩ | ⟨pc, hres, hf⟩
  · rw [hres]
    exact .put_none hp (by simpa [hk] using hm)
  · rw [hres]
    exact .put_some hp (.running hf) hm

theorem stepCall_sound {a : CallAct} (hp : s.Parties s.mem) (hc : c.Sound s.mem)
    (hm : s.mem.Sound (c.blocks ++ s.blocks) (c.holds ++ s.holds)) (h : s.stepCall c a = some s') :
    s'.Sound := by
  cases hc with
  | @running pc bs hf =>
    cases a with
    | run ok =>
      simp only [stepCall, Option.map_eq_some_iff, Prod.exists] at h
      obtain ⟨m, c', hrun, rfl⟩ := h
      obtain ⟨hg, ⟨rfl, hm'⟩ | ⟨pc', bs', rfl, hf', hm'⟩⟩ := Call.run_sound hm hf hrun
      · exact .put_none (hp.mono hg hm') hm'
      · exact .put_some (hp.mono hg hm') (.running hf') hm'
    | enter connected syncOk irpOk =>
      cases pc with
      | submit site =>
        simp only [stepCall] at h
        split at h
        · next m result he =>
          cases h
          obtain ⟨hg, hm', ha⟩ := Submit.enter_failed hm he
          refine .put_resume _ (hp.mono hg hm') hf (by simp [ha]) ?_
          simpa [Call.kept, ha, Call.blocks, Call.holds] using hm'
        · next m w he =>
          cases h
          obtain ⟨hg, hm', hw, ha⟩ := Submit.enter_submitted hm he
          refine .put_some (hp.mono hg hm') (.submitting hw ha hf) (hm'.perm ?_ (.refl _))
          exact List.perm_append_comm_assoc _ _ _ |>.trans (by simp [Call.blocks])
      | alloc _ | copyOut _ | free => cases h
    | thread _ | complete _ | dma => cases h
  | @submitting site bs w hw ha hb =>
    -- the request of the call goes to the front, where the lemmas about a submission want it
    have hm₀ : s.mem.Sound (w.blocks ++ (bs ++ s.blocks)) (w.request.hold :: s.holds) := by
      refine hm.perm ?_ (.refl _)
      simpa [Call.blocks] using List.perm_append_comm_assoc bs w.blocks s.blocks
    cases a with
    | run _ | enter _ _ _ => cases h
    | thread timedOut =>
      simp only [stepCall] at h
      split at h
      · cases h
      · next m w' ht =>
        cases h
        obtain ⟨hg, ha', hw', hm'⟩ := Submit.thread_sound hm₀ hw ht
        refine .put_some (hp.mono hg hm') (.submitting hw' (ha'.trans ha) hb) (hm'.perm ?_ (.refl _))
        simpa [Call.blocks] using List.perm_append_comm_assoc w'.blocks bs s.blocks
      -- collected: IRP and sync block are freed, the hold is released
      · next m r status ht =>
        cases h
        obtain ⟨hg, hr, hm'⟩ := Submit.thread_sound hm₀ hw ht
        have hp' := hp.mono hg hm'
        refine Sound.put_resume (s := { s with collected := r :: s.collected }) ⟨status, false⟩
          ⟨hp'.calls, hp'.orphans, ?_⟩ hb (by simp) hm'
        simpa using ⟨hr, hp'.collected⟩
      -- the thread gives up: the buffer and the hold move over to the orphan
      · next m r ht =>
        cases h
        obtain ⟨hg, ha', hr, hm', hob, hoh⟩ := Submit.thread_sound hm₀ hw ht
        have hp' := hp.mono hg hm'
        refine Sound.put_resume (s := { s with orphans := r :: s.orphans }) ⟨statusIoTimeout, true⟩
          ⟨hp'.calls, ?_, hp'.collected⟩ hb
          (fun _ => by decide) (hm'.perm ?_ ?_)
        · simpa using ⟨hr, hp'.orphans⟩
        · rw [ha] at ha'
          simp only [List.perm_iff_count, Call.kept, blocks, List.flatMap_cons, hob, ha']
          intro b
          cases site.carries <;> simp [List.count_cons] <;> omega
        · simp only [List.perm_iff_count, holds, List.flatMap_cons, hoh]
          intro b
          simp [List.count_cons]
          omega
    | complete status =>
      simp only [stepCall, Option.map_eq_some_iff, Prod.exists] at h
      obtain ⟨m, r, hr, rfl⟩ := h
      obtain ⟨hg, ha', hw', hm'⟩ := Submit.complete_sound hm₀ hw hr
      refine .put_some (hp.mono hg hm') (.submitting hw' (ha'.trans ha) hb) (hm'.perm ?_ (.refl _))
      simpa [Call.blocks] using List.perm_append_comm_assoc (Submit.blocks ⟨r, w.pc⟩) bs s.blocks
    | dma =>
      simp only [stepCall, Option.map_eq_some_iff] at h
      obtain ⟨m, hr, rfl⟩ := h
      -- what the bus driver writes to is the caller's buffer, still in the caller's hands
      have hl : ∀ b ∈ w.request.attached, b ∈ bs ++ s.blocks := by
        intro b hmem
        rw [ha] at hmem
        split at hmem
        · exact List.mem_append_left _ hmem
        · cases hmem
      obtain ⟨hm', hg⟩ := Submit.dma_sound hm₀ hl hw hr
      refine .put_some (hp.mono hg hm') (.submitting (hw.mono hg hm') ha hb) (hm'.perm ?_ (.refl _))
      simpa [Call.blocks] using List.perm_append_comm_assoc w.blocks bs s.blocks

theorem blocks_take {i : ℕ} (hi : s.calls[i]? = some c) :
    (c.blocks ++ { s with calls := s.calls.eraseIdx i }.blocks).Perm s.blocks ∧
      (c.holds ++ { s with calls := s.calls.eraseIdx i }.holds).Perm s.holds := by
  obtain ⟨hlt, rfl⟩ := List.getElem?_eq_some_iff.mp hi
  have hp := List.getElem_cons_eraseIdx_perm hlt
  refine ⟨?_, ?_⟩
  · simpa [blocks] using (hp.flatMap_right Call.blocks).append_right (s.orphans.flatMap _)
  · simpa [holds] using (hp.flatMap_right Call.holds).append_right (s.orphans.flatMap _)

theorem blocks_take_orphan {i : ℕ} {r : Request} (hi : s.orphans[i]? = some r) :
    (r.orphanBlocks ++ { s with orphans := s.orphans.eraseIdx i }.blocks).Perm s.blocks ∧
      (r.orphanHolds ++ { s with orphans := s.orphans.eraseIdx i }.holds).Perm s.holds := by
  obtain ⟨hlt, rfl⟩ := List.getElem?_eq_some_iff.mp hi
  have hp := List.getElem_cons_eraseIdx_perm hlt
  refine ⟨?_, ?_⟩
  · refine (List.perm_append_comm_assoc _ _ _).trans ?_
    simpa [blocks] using (hp.flatMap_right Request.orphanBlocks).append_left (s.calls.flatMap _)
  · refine (List.perm_append_comm_assoc _ _ _).trans ?_
    simpa [holds] using (hp.flatMap_right Request.orphanHolds).append_left (s.calls.flatMap _)

theorem Sound.step {a : Act} (h : s.Sound) (hs : s.step a = some s') : s'.Sound := by
  obtain ⟨hm, hp⟩ := h
  cases a with
  | start entry =>
    cases hs
    exact .put_some hp (.running entry.fits) hm
  | call i a =>
    simp only [World.step, Option.bind_eq_some_iff] at hs
    obtain ⟨c, hi, hs⟩ := hs
    obtain ⟨hb, hh⟩ := blocks_take hi
    refine stepCall_sound (s := { s with calls := s.calls.eraseIdx i }) ⟨?_, hp.orphans, hp.collected⟩
      (hp.calls c (List.mem_of_getElem? hi)) (hm.perm hb.symm hh.symm) hs
    exact fun c' hc' => hp.calls c' (List.mem_of_mem_eraseIdx hc')
  | orphanComplete i status =>
    simp only [World.step, Option.bind_eq_some_iff, Option.map_eq_some_iff, Prod.exists] at hs
    obtain ⟨r, hi, m, r', hr, rfl⟩ := hs
    obtain ⟨hb, hh⟩ := blocks_take_orphan hi
    obtain ⟨hm', hg, hr'⟩ := Request.complete_orphaned (hm.perm hb.symm hh.symm)
      (hp.orphans r (List.mem_of_getElem? hi)) hr
    have hp' := hp.mono hg hm'
    refine ⟨hm'.perm ?_ ?_, hp'.calls, ?_, hp'.collected⟩
    · simpa [blocks] using List.perm_append_comm_assoc r'.orphanBlocks _ _
    · simpa [holds] using List.perm_append_comm_assoc r'.orphanHolds _ _
    · intro q hq
      rcases List.mem_cons.mp hq with rfl | hq
      · exact hr'
      · exact hp'.orphans q (List.mem_of_mem_eraseIdx hq)
  | orphanDma i =>
    simp only [World.step, Option.bind_eq_some_iff, Option.map_eq_some_iff] at hs
    obtain ⟨r, hi, m, hr, rfl⟩ := hs
    have hbus : r.completion = .atBus := by
      by_contra hc
      simp [Request.dma, hc] at hr
    have hl : ∀ b ∈ r.memory, b ∈ s.blocks := by
      intro b hb
      refine (blocks_take_orphan hi).1.subset (List.mem_append_left _ ?_)
      simpa [Request.orphanBlocks, hbus, Request.memory, or_assoc, or_comm, or_left_comm] using hb
    obtain ⟨hm', hg⟩ := Request.dma_sound hm hl hr
    have hp' := hp.mono hg hm'
    exact ⟨hm', hp'.calls, hp'.orphans, hp'.collected⟩
  | teardown =>
    cases hs
    have hm' : Mem.Sound { s.mem with removing := true } s.blocks s.holds :=
      ⟨hm.heap, hm.lock, hm.clean⟩
    have hg : Grows s.mem { s.mem with removing := true } := ⟨fun _ => le_rfl, fun _ => le_rfl⟩
    have hp' := hp.mono hg hm'
    exact ⟨hm', hp'.calls, hp'.orphans, hp'.collected⟩

theorem sound_of_reachable (h : machine.Reachable s) : s.Sound := by
  refine h.invariant (I := Sound) ?_ fun _ _ _ _ hi _ hs => hi.step hs
  exact ⟨⟨Heap.owned_empty, Heap.owned_empty, rfl⟩, fun _ h => absurd h List.not_mem_nil,
    fun _ h => absurd h List.not_mem_nil, fun _ h => absurd h List.not_mem_nil⟩

end World

namespace Request

/-- The steps the completion routine has ahead. -/
def left (r : Request) : ℕ :=
  match r.completion with
  | .atBus => r.attached.length + 5
  | .stored => r.attached.length + 4
  | .waking => 1
  | .freeing bs => bs.length + 1
  | .done => 0

theorem complete_goes {m : Mem} {r : Request} (h : r.completion ≠ .done) (status : NtStatus) :
    ∃ m' r', r.complete m status = some (m', r') ∧ r'.left < r.left := by
  cases hc : r.completion with
  | done => exact (h hc).elim
  | atBus => exact ⟨_, _, by simp only [complete, hc]; rfl, by simp [left, hc]⟩
  | stored =>
    refine ⟨_, _, by simp only [complete, hc]; rfl, ?_⟩
    by_cases hs : r.state = .abandoned <;> simp [left, hc, hs]
  | waking => exact ⟨_, _, by simp only [complete, hc]; rfl, by simp [left, hc]⟩
  | freeing bs =>
    cases bs with
    | nil => exact ⟨_, _, by simp only [complete, hc]; rfl, by simp [left, hc]⟩
    | cons b bs => exact ⟨_, _, by simp only [complete, hc]; rfl, by simp [left, hc]⟩

end Request

namespace Submit

/-- The steps the submitting thread has ahead. -/
def left (w : Submit) : ℕ :=
  match w.pc with
  | .first => 9
  | .cancelling => 8
  | .second => 7
  | .claiming => 6
  | .third => 5
  | .collect => 4
  | .freeIrp _ => 3
  | .freeSync _ => 2
  | .release _ => 1

theorem thread_goes {m m' : Mem} {w : Submit} (hw : w.Sound m)
    (hc : w.request.completion = .done) :
    ∃ m'' o, w.thread m' false = some (m'', o) ∧ ∀ w', o = .waiting w' → w'.left < w.left := by
  have hwait {late : Option SubmitPc} (he : w.request.event = true) (h4 : 4 < w.left) :
      ∃ m'' o, wait m' w false late = some (m'', o) ∧ ∀ w', o = .waiting w' → w'.left < w.left := by
    refine ⟨_, _, by simp only [wait, he]; rfl, ?_⟩
    rintro w' ⟨⟩
    exact h4
  cases hw with
  | waiting hpc hr =>
    have hend : w.request.state = .completed ∧ w.request.event = true := by
      cases hr with
      | done _ hs he => exact ⟨hs, he⟩
      | atBus h _ _ | stored h _ _ | waking h _ _ => exact absurd hc (by simp [h])
    rcases hpc with hpc | hpc | hpc | hpc
    · simp only [thread, hpc]
      exact hwait hend.2 (by simp [left, hpc])
    · refine ⟨_, _, by simp only [thread, hpc]; rfl, ?_⟩
      rintro w' ⟨⟩
      simp [left, hpc]
    · simp only [thread, hpc]
      exact hwait hend.2 (by simp [left, hpc])
    · refine ⟨_, _, by simp only [thread, hpc, if_pos hend.1]; rfl, ?_⟩
      rintro w' ⟨⟩
      simp [left, hpc]
  | waking hpc h _ => exact absurd hc (by simp [h])
  | woken hpc _ he =>
    simp only [thread, hpc]
    exact hwait he (by simp [left, hpc])
  | collect hpc _ | freeIrp hpc _ | freeSync hpc _ _ =>
    refine ⟨_, _, by simp only [thread, hpc]; rfl, ?_⟩
    rintro w' ⟨⟩
    simp [left, hpc]
  | release hpc _ _ _ =>
    refine ⟨_, _, by simp only [thread, hpc]; rfl, ?_⟩
    rintro w' ⟨⟩

end Submit

/-- What a party may still touch is in its hands. -/
theorem Call.Sound.memory_mem {m : Mem} {site : Site} {bs : List ℕ} {w : Submit}
    (h : Call.Sound m (.submitting site bs w)) (ho : w.request.completion ≠ .done) {b : ℕ}
    (hb : b ∈ w.request.memory) : b ∈ Call.blocks (.submitting site bs w) := by
  cases h with
  | submitting hw ha _ =>
    simp only [Call.blocks, hw.blocks_eq ho, List.mem_append, List.mem_cons, List.not_mem_nil,
      or_false]
    simp only [Request.memory, List.mem_cons] at hb
    rcases hb with rfl | rfl | hb
    · exact .inr (.inl rfl)
    · exact .inr (.inr rfl)
    · rw [ha] at hb
      split at hb
      · exact .inl hb
      · cases hb

theorem Request.Orphaned.memory_mem {m : Mem} {r : Request} (h : r.Orphaned m)
    (ho : r.completion ≠ .done) {b : ℕ} (hb : b ∈ r.memory) :
    b ∈ r.orphanBlocks ∨ m.Freed b := by
  cases h with
  | atBus hc _ | stored hc _ =>
    left
    simpa [Request.orphanBlocks, hc, Request.memory, or_assoc, or_comm, or_left_comm] using hb
  | @freeing bs hc hf =>
    by_cases hbs : b ∈ bs ++ [r.sync]
    · exact .inl (by simpa only [Request.orphanBlocks, hc] using hbs)
    · exact .inr (hf b hb hbs)
  | freed hc hf => exact .inr (hf b hb)
  | done hc _ _ => exact (ho hc).elim

namespace World

variable {s : World}

/-- The requests that the bus driver or the completion routine may still touch. -/
def inFlight (s : World) : List Request :=
  (s.calls.filterMap fun
    | .submitting _ _ w => some w.request
    | .running .. => none).filter (·.completion ≠ .done) ++
  s.orphans.filter (·.completion ≠ .done)

theorem mem_inFlight {r : Request} :
    r ∈ s.inFlight ↔ r.completion ≠ .done ∧
      ((∃ site bs w, .submitting site bs w ∈ s.calls ∧ w.request = r) ∨ r ∈ s.orphans) := by
  simp only [inFlight, List.mem_append, List.mem_filter, List.mem_filterMap, decide_eq_true_eq]
  constructor
  · rintro (⟨⟨c, hc, hr⟩, ho⟩ | ⟨hr, ho⟩)
    · cases c with
      | running pc bs => cases hr
      | submitting site bs w => exact ⟨ho, .inl ⟨site, bs, w, hc, Option.some.inj hr⟩⟩
    · exact ⟨ho, .inr hr⟩
  · rintro ⟨ho, ⟨site, bs, w, hc, rfl⟩ | hr⟩
    · exact .inl ⟨⟨_, hc, rfl⟩, ho⟩
    · exact .inr ⟨hr, ho⟩

theorem Sound.alone (h : s.Sound) {i : ℕ} {pc : Pc} {bs : List ℕ}
    (hi : s.calls[i]? = some (.running pc bs)) {r : Request} (hr : r ∈ s.inFlight) {b : ℕ}
    (hb : b ∈ bs) : b ∉ r.memory := by
  intro hmem
  have hp := (blocks_take hi).1
  have hdis := List.disjoint_of_nodup_append (hp.nodup_iff.mpr h.mem.heap.nodup)
  have hzero : s.mem.heap.frees b = 0 :=
    h.mem.heap.frees_eq_zero (hp.subset (List.mem_append_left _ hb))
  refine hdis hb ?_
  simp only [blocks, List.mem_append, List.mem_flatMap]
  obtain ⟨ho, ⟨site, bs', w, hc, rfl⟩ | hr⟩ := mem_inFlight.mp hr
  · left
    refine ⟨_, ?_, (h.parties.calls _ hc).memory_mem ho hmem⟩
    obtain ⟨j, hlt, hj⟩ := List.getElem_of_mem hc
    refine List.mem_eraseIdx_iff_getElem.mpr ⟨j, hlt, ?_, hj⟩
    rintro rfl
    rw [List.getElem?_eq_getElem hlt, hj] at hi
    cases hi
  · right
    rcases (h.parties.orphans r hr).memory_mem ho hmem with hm | hm
    · exact ⟨r, hr, hm⟩
    · exact absurd hzero (by simp [show s.mem.heap.frees b = 1 from hm])

theorem Sound.held (h : s.Sound) {r : Request} (hr : r ∈ s.inFlight) (hc : r.completion = .atBus) :
    s.mem.lock.frees r.hold = 0 := by
  refine h.mem.lock.frees_eq_zero ?_
  simp only [holds, List.mem_append, List.mem_flatMap]
  obtain ⟨ho, ⟨site, bs', w, hm, rfl⟩ | hr⟩ := mem_inFlight.mp hr
  · exact .inl ⟨_, hm, by simp [Call.holds]⟩
  · exact .inr ⟨r, hr, by simp [Request.orphanHolds, hc]⟩

end World

/-- The handshake of submitter and completion routine. No step touches or frees what was
freed, or releases the remove lock twice; every block that was allocated is in the hands of
one party or was freed once, and so with the acquisitions of the remove lock. The
acquisition of a request stays until its IRP completes; of a request whose submitter gave up
everything it referenced is freed once when the completion routine is through, and of one
whose submitter stayed the IRP and the sync block are; either way a request that completed
has always a next step, and only so many of them. A call that is not inside a submission,
that is which was told that its request was not abandoned, is alone with its memory. -/
theorem irb_timeout_handshake {s : World} (h : machine.Reachable s) :
    s.mem.fault = false ∧ s.mem.heap.Owned s.blocks ∧ s.mem.lock.Owned s.holds ∧
      (∀ r ∈ s.inFlight, r.completion = .atBus → s.mem.lock.frees r.hold = 0) ∧
      (∀ r ∈ s.orphans, r.completion = .done →
        (∀ b ∈ r.memory, s.mem.heap.frees b = 1) ∧ s.mem.lock.frees r.hold = 1) ∧
      (∀ r ∈ s.collected, r.completion = .done ∧ s.mem.heap.frees r.irp = 1 ∧
        s.mem.heap.frees r.sync = 1 ∧ s.mem.lock.frees r.hold = 1) ∧
      (∀ r ∈ s.inFlight, ∀ status, ∃ m r', r.complete s.mem status = some (m, r') ∧
        r'.left < r.left) ∧
      (∀ site bs w, Call.submitting site bs w ∈ s.calls → w.request.completion = .done →
        ∃ m o, w.thread s.mem false = some (m, o) ∧ ∀ w', o = .waiting w' → w'.left < w.left) ∧
      ∀ (i : ℕ) (pc : Pc) (bs : List ℕ), s.calls[i]? = some (.running pc bs) →
        bs.Nodup ∧ (∀ b ∈ bs, s.mem.heap.frees b = 0) ∧
          ∀ r ∈ s.inFlight, ∀ b ∈ bs, b ∉ r.memory := by
  have hs := World.sound_of_reachable h
  refine ⟨hs.mem.clean, hs.mem.heap, hs.mem.lock, fun r hr => hs.held hr, ?_, ?_, ?_, ?_, ?_⟩
  · intro r hr hc
    cases hs.parties.orphans r hr with
    | done _ hf hrel => exact ⟨hf, hrel⟩
    | atBus h _ | stored h _ | freeing h _ | freed h _ => exact absurd hc (by simp [h])
  · intro r hr
    have hc := hs.parties.collected r hr
    exact ⟨hc.done, hc.irp, hc.sync, hc.hold⟩
  · intro r hr status
    exact Request.complete_goes (World.mem_inFlight.mp hr).1 status
  · intro site bs w hw hc
    cases hs.parties.calls _ hw with
    | submitting hw _ _ => exact Submit.thread_goes hw hc
  · intro i pc bs hi
    have hp := (World.blocks_take hi).1
    refine ⟨?_, ?_, fun r hr b hb => hs.alone hi hr hb⟩
    · exact (hp.nodup_iff.mpr hs.mem.heap.nodup).of_append_left
    · exact fun b hb => hs.mem.heap.frees_eq_zero (hp.subset (List.mem_append_left _ hb))

/-- A transfer that times out twice and is given up, and whose IRP completes afterwards. -/
def lateCompletion : List Act :=
  [Act.start (.transfer false), .call 0 (.run true), .call 0 (.run true),
    .call 0 (.enter true true true), .call 0 (.thread true), .call 0 (.thread false),
    .call 0 (.thread true), .call 0 (.thread false)] ++
  List.replicate 7 (Act.orphanComplete 0 statusCancelled)

def lateRequest : Request := ⟨3, 2, [1, 0], 0, .completed, false, statusCancelled, .done⟩

theorem irb_timeout_handshake_late :
    let s := machine.after (fun _ _ => True) lateCompletion
    lateRequest ∈ s.orphans ∧ s.mem.fault = false ∧ s.mem.heap.frees 1 = 1 := by
  have h := irb_timeout_handshake (machine.reaches_after (fun _ _ => True) lateCompletion)
  have hr : lateRequest ∈ (machine.after (fun _ _ => True) lateCompletion).orphans := by decide
  exact ⟨hr, h.1, (h.2.2.2.2.1 lateRequest hr rfl).1 1 (by decide)⟩

end Irb
end Photonic
