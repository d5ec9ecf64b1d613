import Photonic.Device.Projection

namespace Photonic

/-- Where a descriptor can be. -/
inductive Place
  | onFreeList
  | heldByLap
  | onPendingList
  | detaching
  | quarantined
  deriving DecidableEq, Repr

namespace Engine

/-- Descriptor `d` is at a place, with the matching state and list membership. -/
def At (e : Engine) (d : FrameId) : Place → Prop
  | .onFreeList =>
    (e.cap.frames d).state = .free ∧ e.cap.freeList.count d = 1 ∧ e.cap.pendingList.count d = 0 ∧
      held e.pool d .lap = 0
  | .heldByLap =>
    (e.cap.frames d).state = .free ∧ e.cap.freeList.count d = 0 ∧ e.cap.pendingList.count d = 0 ∧
      held e.pool d .lap = 1 ∧ runners e.pool = 1
  | .onPendingList =>
    ((e.cap.frames d).state = .attaching ∨ (e.cap.frames d).state = .completedWhileAttaching ∨
      (e.cap.frames d).state = .pending) ∧ e.cap.freeList.count d = 0 ∧
      e.cap.pendingList.count d = 1 ∧ held e.pool d .lap = 0
  | .detaching =>
    (e.cap.frames d).state = .detaching ∧ e.cap.freeList.count d = 0 ∧ e.cap.pendingList.count d = 0 ∧
      held e.pool d .lap = 0
  | .quarantined =>
    (e.cap.frames d).state = .detachFailed ∧ e.cap.freeList.count d = 0 ∧
      e.cap.pendingList.count d = 0 ∧ held e.pool d .lap = 0

instance (e : Engine) (d : FrameId) (p : Place) : Decidable (e.At d p) :=
  match p with
  | .onFreeList | .detaching | .quarantined => inferInstanceAs (Decidable (_ ∧ _ ∧ _ ∧ _))
  | .heldByLap => inferInstanceAs (Decidable (_ ∧ _ ∧ _ ∧ _ ∧ _))
  | .onPendingList => inferInstanceAs (Decidable ((_ ∨ _ ∨ _) ∧ _ ∧ _ ∧ _))

/-- The attach and detach IRPs of `d` the bus driver has. -/
def irpsAtBus (e : Engine) (d : FrameId) : ℕ :=
  e.pool.countP fun pc => pc = .attachAtBus d ∨ pc = .detachAtBus d

end Engine

theorem runs_of_owns_lap {pc : Pc} {d : FrameId} (h : pc.owns = some (d, .lap)) :
    pc.runs = true := by
  cases pc with
  | pump k pc => cases pc <;> simp_all
  | _ => simp_all

theorem held_lap_le_runners (pool : Multiset Pc) (d : FrameId) : held pool d .lap ≤ runners pool :=
  Pool.countP_mono pool fun _ _ => runs_of_owns_lap

theorem irpsAtBus_le (e : Engine) (d : FrameId) :
    e.irpsAtBus d ≤ held e.pool d .attach + held e.pool d .detach := by
  unfold Engine.irpsAtBus held
  generalize e.pool = pool
  induction pool using Multiset.induction_on with
  | empty => simp
  | cons pc pool ih =>
    simp only [Multiset.countP_cons]
    split_ifs with h
    all_goals first | omega | (rcases h with rfl | rfl <;> simp_all)

namespace Engine

theorem exists_at {e : Engine} (hp : Placed e.cap e.pool) (he : Elected e.cap e.pool) (d : FrameId) :
    ∃ p, e.At d p := by
  have h := hp d
  have hr := he.runners_le_one
  have hl := held_lap_le_runners e.pool d
  simp only [PlacedAt, Spot.Fits, Capture.spot] at h
  cases hs : (e.cap.frames d).state with
  | free =>
    simp only [hs] at h
    by_cases hf : e.cap.freeList.count d = 1
    · exact ⟨.onFreeList, hs, hf, by omega, by omega⟩
    · exact ⟨.heldByLap, hs, by omega, by omega, by omega, by omega⟩
  | attaching =>
    simp only [hs] at h
    exact ⟨.onPendingList, .inl hs, by omega, by omega, by omega⟩
  | completedWhileAttaching =>
    simp only [hs] at h
    exact ⟨.onPendingList, .inr (.inl hs), by omega, by omega, by omega⟩
  | pending =>
    simp only [hs] at h
    exact ⟨.onPendingList, .inr (.inr hs), by omega, by omega, by omega⟩
  | detaching =>
    simp only [hs] at h
    exact ⟨.detaching, hs, by omega, by omega, by omega⟩
  | detachFailed =>
    simp only [hs] at h
    exact ⟨.quarantined, hs, by omega, by omega, by omega⟩

/-- No descriptor is in two places. -/
theorem at_unique {e : Engine} {d : FrameId} {p q : Place} (hp : e.At d p) (hq : e.At d q) :
    p = q := by
  cases p <;> cases q <;> simp_all [At]

theorem irpsAtBus_le_one {e : Engine} (hp : Placed e.cap e.pool) (d : FrameId) :
    e.irpsAtBus d ≤ 1 := by
  refine (irpsAtBus_le e d).trans ?_
  have h := hp d
  simp only [PlacedAt, Spot.Fits] at h
  split at h <;> omega

end Engine

/-- In every reachable state every descriptor is in exactly one place, has at most one
IRP at the bus driver, and `InFlightIrps` is the number of descriptors Attaching,
CompletedWhileAttaching or Detaching plus the number of completion routines that have
moved their descriptor on and not yet decremented it. -/
theorem descriptor_partition {s : Device} (hs : Device.machine.Reachable s) :
    (∀ d, ∃! p, s.eng.At d p) ∧ (∀ d, s.eng.irpsAtBus d ≤ 1) ∧
      s.eng.cap.inFlightIrps = (framesAtBus s.eng.cap.frames + owing s.eng.pool : ℕ) ∧
      0 ≤ s.eng.cap.inFlightIrps := by
  have he := Device.engine_reachable hs
  have hp := Placed.of_reachable he
  have hc : s.eng.cap.inFlightIrps = _ := Counted.of_reachable he
  refine ⟨fun d => ?_, fun d => Engine.irpsAtBus_le_one hp d, hc, by omega⟩
  obtain ⟨p, hat⟩ := Engine.exists_at hp (.of_reachable he) d
  exact ⟨p, hat, fun q hq => Engine.at_unique hq hat⟩

namespace Device

/-- The executor goes on, and every request it makes succeeds. -/
def Act.go : Act := .ctl ⟨.completed statusSuccess, 1, true, true, 8, false⟩

/-- The executor goes on with the request's outcome given. -/
def Act.goWith (irb : IrbOutcome) : Act := .ctl ⟨irb, 1, true, true, 8, false⟩

/-- An activity goes on. IRPs succeed, and the front-end has no buffer. -/
def Act.runs (pc : Pc) : Act := .run pc ⟨statusSuccess, none, true⟩

def lapRun (k : Caller) (d d' : FrameId) (cookie : Cookie) : List Act :=
  [.runs (.pump k .elect), .runs (.pump k .top), .runs (.pump k (.claim 0)),
    .run (.pump k (.acquire 0 d)) ⟨statusSuccess, some (cookie, some 8), true⟩,
    .runs (.pump k (.publish 0 d cookie)), .runs (.pump k (.beginAttach 0 d)),
    .runs (.pump k (.claim 1)), .runs (.pump k (.acquire 1 d')), .runs (.pump k (.giveBack d')),
    .runs (.pump k .bottom)]

/-- Start, with the attach of the first buffer at the bus driver. -/
def startRun : List Act :=
  [Act.acquireMutex, .api (.start true)] ++ List.replicate 11 Act.go ++ lapRun .control 0 1 7

def listeningRun : List Act :=
  startRun ++ [Act.runs (.attachAtBus 0), .runs (.attachComplete 0 statusSuccess 7),
    .runs (.attachLive true), .runs (.requestWork .completion .exchange),
    .runs (.requestWork .completion .acquireLock), .runs (.requestWork .completion .queue),
    .runs .irpDone, .runs .irpDoneTest] ++ List.replicate 8 Act.go ++ [Act.releaseMutex]

/-- The first frame completes, and the read it frees a descriptor for is attached. -/
def frameRun : List Act :=
  listeningRun ++ [Act.callback 0 statusSuccess, .runs (.beginDetach .handler 0), .runs (.detachAtBus 0),
    .runs (.detachComplete 0 statusSuccess 7 8 statusSuccess),
    .runs (.detachDeliver 7 8 statusSuccess)] ++ lapRun .completion 1 2 9 ++ [Act.runs .irpDone]

end Device

theorem descriptor_partition_frameRun :
    let s := Device.machine.after (fun _ _ => True) Device.frameRun
    s.eng.At 1 .onPendingList ∧ s.eng.cap.inFlightIrps = 1 ∧ ∀ d, ∃! p, s.eng.At d p := by
  refine ⟨by decide, by decide, ?_⟩
  exact (descriptor_partition (Device.machine.reaches_after _ Device.frameRun)).1

end Photonic
