import Mathlib.Data.Multiset.AddSub
import Photonic.Lib.Machine
import Photonic.Interface.Exclusion

namespace Photonic

/-- The file object at an address: there is none, its handle is open, its cleanup waits for
the mutex, or has finished. -/
inductive FilePhase
  | absent
  | opened
  | closing
  | cleaned
  deriving DecidableEq, Repr

/-- A request in flight. The verbs that neither prepare nor unprepare leave the slot's
owner alone. -/
inductive Request
  | prepare (allowReprepare : Bool)
  | unprepare
  | other
  deriving DecidableEq, Repr

/-- The device with the file objects on it. `generation` counts the file objects an address
has had, and `preparer` is the generation of the one the last slot was prepared on. Requests and cleanups run in any order in
which they obtain `InterfaceMutex`. A slot remembers an address, which is used again once its file
object is gone. -/
structure Handles where
  ext : Extension
  phase : ℕ → FilePhase
  generation : ℕ → ℕ
  preparer : ℕ
  inFlight : Multiset (ℕ × Request)

namespace Handles

/-- The steps: of the I/O manager, of a request or a cleanup that obtains the mutex, and the
operations that come on no handle. -/
inductive Act
  | openFile (a : ℕ)
  | dispatch (a : ℕ) (r : Request)
  | closeHandle (a : ℕ)
  | deleteFile (a : ℕ)
  | run (a : ℕ) (r : Request) (answer : Extension.PrepareAnswer)
  | cleanup (a : ℕ) (quarantined : Bool)
  | streamOpen (stream : ℕ) (answer : Extension.OpenAnswer)
  | streamClose (quarantined : Bool)
  | surpriseRemoval
  | setStreamState (st : KsState)

def setPhase (s : Handles) (a : ℕ) (p : FilePhase) : Handles :=
  { s with phase := Function.update s.phase a p }

def perform (s : Handles) (a : ℕ) (answer : Extension.PrepareAnswer) : Request → Handles
  | .prepare allow =>
    { s with
      ext := (s.ext.prepare a allow answer).2
      preparer := if ntSuccess (s.ext.prepare a allow answer).1 then s.generation a else s.preparer }
  | .unprepare => { s with ext := (s.ext.unprepare a answer.quarantined).2 }
  | .other => s

def step (s : Handles) : Act → Option Handles
  | .openFile a =>
    if s.phase a = .absent then
      some { s.setPhase a .opened with
        generation := Function.update s.generation a (s.generation a + 1) }
    else none
  | .dispatch a r =>
    if s.phase a = .opened then some { s with inFlight := (a, r) ::ₘ s.inFlight } else none
  | .closeHandle a => if s.phase a = .opened then some (s.setPhase a .closing) else none
  | .deleteFile a =>
    -- a request in flight references its file object
    if s.phase a = .cleaned ∧ ∀ r ∈ s.inFlight, r.1 ≠ a then some (s.setPhase a .absent) else none
  | .run a r answer =>
    if (a, r) ∈ s.inFlight then
      some ({ s with inFlight := s.inFlight.erase (a, r) }.perform a answer r)
    else none
  | .cleanup a quarantined =>
    if s.phase a = .closing then
      some { s.setPhase a .cleaned with ext := s.ext.cleanup a quarantined }
    else none
  | .streamOpen stream answer => some { s with ext := (s.ext.streamOpen stream answer).2 }
  | .streamClose quarantined => some { s with ext := s.ext.streamClose quarantined }
  | .surpriseRemoval => some { s with ext := { s.ext with removed := true } }
  | .setStreamState st => some { s with ext := s.ext.setStreamState st }

def machine : Machine Handles Act := ⟨⟨.create, fun _ => .absent, fun _ => 0, 0, 0⟩, step⟩

/-- The cleanup and all requests of the file object have finished. -/
def Finished (s : Handles) (a : ℕ) : Prop :=
  (s.phase a = .cleaned ∨ s.phase a = .absent) ∧ ∀ r ∈ s.inFlight, r.1 ≠ a

instance (s : Handles) (a : ℕ) : Decidable (s.Finished a) := inferInstanceAs (Decidable (_ ∧ _))

/-- A prepare that obtains the mutex behind its file object's cleanup finds the device
removed, or a session active. -/
def NoLatePrepare (s : Handles) : Act → Prop
  | .run a (.prepare _) _ =>
    s.phase a = .cleaned → s.ext.removed = true ∨ s.ext.activeCaptureStream ≠ none
  | _ => True

instance (s : Handles) (a : Act) : Decidable (s.NoLatePrepare a) :=
  match a with
  | .run _ (.prepare _) _ => inferInstanceAs (Decidable (_ → _ ∨ _))
  | .run _ .unprepare _ | .run _ .other _ | .openFile _ | .dispatch _ _ | .closeHandle _
  | .deleteFile _ | .cleanup _ _ | .streamOpen _ _ | .streamClose _ | .surpriseRemoval
  | .setStreamState _ => .isTrue trivial

end Handles

namespace Extension
variable {x : Extension} {a b : ℕ}

theorem captureRelease_isOwner {quarantined : Bool} : ¬(x.captureRelease quarantined).IsOwner b := by
  rintro ⟨c, hc, -⟩
  unfold captureRelease at hc
  split at hc
  · next hn =>
    rw [hn] at hc
    cases hc
  · unfold captureDestroy at hc
    split at hc <;> cases hc

theorem streamOpen_isOwner {stream : ℕ} {answer : OpenAnswer} :
    (x.streamOpen stream answer).2.IsOwner b ↔ x.IsOwner b := by
  unfold streamOpen
  repeat' split
  all_goals exact Iff.rfl

theorem streamClose_isOwner {quarantined : Bool} :
    (x.streamClose quarantined).IsOwner b ↔ x.IsOwner b := by
  unfold streamClose captureDestroy
  repeat' split
  all_goals exact Iff.rfl

theorem setStreamState_isOwner {st : KsState} : (x.setStreamState st).IsOwner b ↔ x.IsOwner b := by
  simp [IsOwner, setStreamState]

theorem prepare_failed_isOwner {allow : Bool} {answer : PrepareAnswer}
    (hf : ntSuccess (x.prepare a allow answer).1 = false)
    (h : (x.prepare a allow answer).2.IsOwner b) : x.IsOwner b := by
  revert hf h
  unfold prepare
  split
  · exact fun _ h => h
  split
  · intro hf h
    obtain ⟨heap, heq⟩ := prepareFree_failed hf
    rw [heq] at h
    exact h
  split
  · intro hf h
    obtain ⟨heap, heq⟩ := prepareFree_failed hf
    rw [heq] at h
    exact absurd h captureRelease_isOwner
  · exact fun _ h => h

theorem prepareSlot_isOwner {answer : PrepareAnswer} (hs : ntSuccess (x.prepareSlot a answer).1 = true)
    (h : (x.prepareSlot a answer).2.IsOwner b) : b = a := by
  revert hs h
  unfold prepareSlot
  split
  · exact fun hs => absurd hs (by simp)
  split
  · next hm => exact fun hs => by simp_all
  split
  · exact fun hs => absurd hs (by simp)
  split
  · exact fun hs => absurd hs (by simp)
  · rintro - ⟨c, hc, rfl⟩
    cases hc
    rfl

theorem prepareFree_isOwner {answer : PrepareAnswer} (hs : ntSuccess (x.prepareFree a answer).1 = true)
    (h : (x.prepareFree a answer).2.IsOwner b) : b = a ∧ x.activeCaptureStream = none := by
  unfold prepareFree at hs h
  split at hs
  · exact absurd hs (by simp)
  · next hact =>
    rw [if_neg hact] at h
    exact ⟨prepareSlot_isOwner hs h, not_not.mp hact⟩

/-- A prepare that succeeds makes its own file object the owner. It found the device there
and no session, or its own. -/
theorem prepare_isOwner {allow : Bool} {answer : PrepareAnswer}
    (hs : ntSuccess (x.prepare a allow answer).1 = true)
    (h : (x.prepare a allow answer).2.IsOwner b) :
    b = a ∧ x.removed = false ∧ (x.activeCaptureStream = none ∨ x.IsOwner a) := by
  revert hs h
  unfold prepare
  split
  · exact fun hs => absurd hs (by simp)
  next hr =>
  have hr : x.removed = false := by simpa using hr
  split
  · intro hs h
    obtain ⟨hb, hact⟩ := prepareFree_isOwner hs h
    exact ⟨hb, hr, .inl hact⟩
  next c hc =>
  split
  · next hre =>
    intro hs h
    exact ⟨(prepareFree_isOwner hs h).1, hr, .inr ⟨c, hc, hre.2.2⟩⟩
  · exact fun hs => absurd hs (by simp)

end Extension

namespace Handles

/-- A slot's owner is a file object whose cleanup has not run, and the one it was prepared
on. A request in flight references its file object. -/
structure Held (s : Handles) : Prop where
  owner : ∀ a, s.ext.IsOwner a →
    (s.phase a = .opened ∨ s.phase a = .closing) ∧ s.preparer = s.generation a
  inFlight : ∀ r ∈ s.inFlight, s.phase r.1 ≠ .absent

section
variable {s s' : Handles}

theorem Held.keep (h : s.Held) {x : Extension} (hx : ∀ a, x.IsOwner a → s.ext.IsOwner a) :
    { s with ext := x }.Held :=
  ⟨fun a ha => h.owner a (hx a ha), h.inFlight⟩

theorem Held.done (h : s.Held) (r : ℕ × Request) :
    { s with inFlight := s.inFlight.erase r }.Held :=
  ⟨h.owner, fun q hq => h.inFlight q (Multiset.mem_of_mem_erase hq)⟩

theorem Held.perform (h : s.Held) {a : ℕ} {r : Request} {answer : Extension.PrepareAnswer}
    (hlive : s.phase a ≠ .absent) (hn : s.NoLatePrepare (.run a r answer)) :
    (s.perform a answer r).Held := by
  cases r with
  | other => exact h
  | unprepare =>
    refine h.keep fun b hb => ?_
    unfold Extension.unprepare at hb
    split at hb
    · exact absurd hb Extension.captureRelease_isOwner
    · exact hb
  | prepare allow =>
    refine ⟨fun b hb => ?_, h.inFlight⟩
    cases hst : ntSuccess (s.ext.prepare a allow answer).1 with
    | false =>
      simp only [Handles.perform, hst]
      exact h.owner b (Extension.prepare_failed_isOwner hst hb)
    | true =>
      obtain ⟨rfl, hr, hact⟩ := Extension.prepare_isOwner hst hb
      simp only [Handles.perform, hst, if_true, and_true]
      cases hp : s.phase b with
      | absent => exact absurd hp hlive
      | opened => exact .inl rfl
      | closing => exact .inr rfl
      | cleaned =>
        -- its slot is gone with the cleanup, so the prepare found another session
        have hno : ¬s.ext.IsOwner b := fun hb => by
          have := (h.owner b hb).1
          simp [hp] at this
        rcases hn hp with hrem | hne
        · rw [hr] at hrem
          cases hrem
        · exact absurd (hact.resolve_right hno) hne

theorem Held.step {a : Act} (h : s.Held) (hn : s.NoLatePrepare a) (hs : s.step a = some s') :
    s'.Held := by
  cases a with
  | openFile a =>
    simp only [Handles.step] at hs
    split at hs <;> cases hs
    next hp =>
    constructor
    · intro b hb
      -- the owner has been opened, and `a` has not
      have hne : b ≠ a := by
        rintro rfl
        have := (h.owner b hb).1
        simp [hp] at this
      simpa [setPhase, Function.update_of_ne hne] using h.owner b hb
    · intro r hr
      have hne : r.1 ≠ a := fun heq => h.inFlight r hr (heq ▸ hp)
      simpa [setPhase, Function.update_of_ne hne] using h.inFlight r hr
  -- requests are dispatched on file objects that are there
  | dispatch a r =>
    simp only [Handles.step] at hs
    split at hs <;> cases hs
    next hp =>
    refine ⟨h.owner, fun q hq => ?_⟩
    rcases Multiset.mem_cons.mp hq with rfl | hq
    · simp [hp]
    · exact h.inFlight q hq
  | closeHandle a =>
    simp only [Handles.step] at hs
    split at hs <;> cases hs
    constructor
    · intro b hb
      by_cases heq : b = a
      · subst heq
        exact ⟨.inr (Function.update_self ..), (h.owner b hb).2⟩
      · simpa [setPhase, Function.update_of_ne heq] using h.owner b hb
    · intro r hr
      by_cases heq : r.1 = a
      · simp [setPhase, heq]
      · simpa [setPhase, Function.update_of_ne heq] using h.inFlight r hr
  | deleteFile a =>
    simp only [Handles.step] at hs
    split at hs <;> cases hs
    next hp =>
    constructor
    · intro b hb
      have hne : b ≠ a := by
        rintro rfl
        have := (h.owner b hb).1
        simp [hp.1] at this
      simpa [setPhase, Function.update_of_ne hne] using h.owner b hb
    · intro r hr
      simpa [setPhase, Function.update_of_ne (hp.2 r hr)] using h.inFlight r hr
  -- the one step that makes an owner: `NoLatePrepare` looks at it
  | run a r answer =>
    simp only [Handles.step] at hs
    split at hs <;> cases hs
    next hmem => exact (h.done (a, r)).perform (h.inFlight _ hmem) hn
  -- the cleanup releases the slot of its own file object and leaves every other one alone
  | cleanup a quarantined =>
    simp only [Handles.step] at hs
    split at hs <;> cases hs
    constructor
    · intro b hb
      simp only [Extension.cleanup] at hb
      split at hb
      · exact absurd hb Extension.captureRelease_isOwner
      · next hno =>
        have hne : b ≠ a := fun heq => hno (heq ▸ hb)
        simpa [setPhase, Function.update_of_ne hne] using h.owner b hb
    · intro r hr
      by_cases heq : r.1 = a
      · simp [setPhase, heq]
      · simpa [setPhase, Function.update_of_ne heq] using h.inFlight r hr
  | streamOpen stream answer =>
    cases hs
    exact h.keep fun _ => Extension.streamOpen_isOwner.mp
  | streamClose quarantined =>
    cases hs
    exact h.keep fun _ => Extension.streamClose_isOwner.mp
  | surpriseRemoval =>
    cases hs
    exact h.keep fun _ hb => hb
  | setStreamState st =>
    cases hs
    exact h.keep fun _ => Extension.setStreamState_isOwner.mp

theorem Held.of_reaches (h : machine.Reaches NoLatePrepare s) : s.Held := by
  refine h.invariant (I := Held) ⟨?_, ?_⟩ ?_
  · rintro a ⟨c, hc, -⟩
    cases hc
  · exact fun r hr => absurd hr (Multiset.notMem_zero r)
  · intro s a s' _ hi hp hs
    exact hi.step hp hs

end

/-- If no prepare behind its file object's cleanup finds the device idle, a file object
whose cleanup and requests have finished owns no slot, and the owner of a slot is the file
object it was prepared on. -/
theorem closed_handle_owns_nothing {s : Handles} (h : machine.Reaches NoLatePrepare s) :
    (∀ a, s.Finished a → ¬s.ext.IsOwner a) ∧
      ∀ a, s.phase a ≠ .absent → s.ext.IsOwner a → s.preparer = s.generation a := by
  have hi := Held.of_reaches h
  constructor
  · rintro a ⟨hp, -⟩ ho
    have := (hi.owner a ho).1
    rcases hp with hp | hp <;> simp [hp] at this
  · exact fun a _ ho => (hi.owner a ho).2

/-- A handle prepares the slot and is closed, with a second prepare dispatched. The slot goes with
its cleanup, another handle prepares, and the second prepare runs behind that and is refused. -/
def closeRun : List Act :=
  [.openFile 5, .dispatch 5 (.prepare true), .dispatch 5 (.prepare true), .run 5 (.prepare true) .good,
    .closeHandle 5, .cleanup 5 false, .openFile 6, .dispatch 6 (.prepare true),
    .run 6 (.prepare true) .good, .run 5 (.prepare true) .good]

theorem closed_handle_owns_nothing_closeRun :
    let s := machine.after NoLatePrepare closeRun
    s.Finished 5 ∧ ¬s.ext.IsOwner 5 ∧ s.ext.IsOwner 6 ∧ s.preparer = s.generation 6 := by
  have hr := machine.reaches_after NoLatePrepare closeRun
  have hf : (machine.after NoLatePrepare closeRun).Finished 5 := by decide
  have ho : (machine.after NoLatePrepare closeRun).ext.IsOwner 6 := by decide
  have howns := closed_handle_owns_nothing hr
  exact ⟨hf, howns.1 5 hf, ho, howns.2 6 (by decide) ho⟩

def latePrepareRun : List Act :=
  [.openFile 5, .dispatch 5 (.prepare true), .closeHandle 5, .cleanup 5 false,
    .run 5 (.prepare true) .good]

/-- Without the condition a closed handle keeps the slot, and the next file object at its
address is taken for the owner. -/
theorem late_prepare_owns :
    (¬∀ s, machine.Reachable s → ∀ a, s.Finished a → ¬s.ext.IsOwner a) ∧
      ¬∀ s, machine.Reachable s → ∀ a, s.phase a ≠ .absent → s.ext.IsOwner a →
        s.preparer = s.generation a := by
  constructor
  · intro h
    have hf : (machine.after (fun _ _ => True) latePrepareRun).Finished 5 := by decide
    have ho : (machine.after (fun _ _ => True) latePrepareRun).ext.IsOwner 5 := by decide
    exact h _ (machine.reaches_after _ latePrepareRun) 5 hf ho
  · intro h
    let run := latePrepareRun ++ [.deleteFile 5, .openFile 5]
    have ho : (machine.after (fun _ _ => True) run).ext.IsOwner 5 := by decide
    have hg : (machine.after (fun _ _ => True) run).preparer ≠
        (machine.after (fun _ _ => True) run).generation 5 := by decide
    exact hg (h _ (machine.reaches_after _ run) 5 (by decide) ho)

end Handles
end Photonic
