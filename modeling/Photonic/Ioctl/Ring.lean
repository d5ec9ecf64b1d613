import Photonic.Engine.State

namespace Photonic

def maxVideoFrames : ℕ := 256

inductive RingFrameState
  | queued
  | inFlight
  | delivered
  deriving DecidableEq, Repr

/-- A memory descriptor list, named by its allocation. -/
structure Mdl where
  id : ℕ
  byteCount : ℕ
  deriving DecidableEq, Repr

structure RingFrame where
  mdl : Option Mdl
  state : RingFrameState
  deriving DecidableEq, Repr

/-- The frame array with its bookkeeping. The array is read and written below
`maxVideoFrames` only. -/
structure Ring where
  frames : ℕ → RingFrame
  mappedFrameCount : ℕ
  nextSubmitIndex : ℕ
  currentFrameIndex : BitVec 32
  totalFrameCount : BitVec 32
  pumpRingOnStart : Bool

namespace Ring

/-- A slot fresh from `ExAllocatePoolZero`, as the prepare initialises it. -/
def fresh : Ring where
  frames _ := ⟨none, .queued⟩
  mappedFrameCount := 0
  nextSubmitIndex := 0
  currentFrameIndex := -1
  totalFrameCount := 0
  pumpRingOnStart := false

def setFrame (r : Ring) (i : ℕ) (f : RingFrame) : Ring :=
  { r with frames := Function.update r.frames i f }

def setState (r : Ring) (i : ℕ) (state : RingFrameState) : Ring :=
  r.setFrame i { r.frames i with state }

/-- The test of `PhotonicIoctlFramesAcquire`. -/
def Acquirable (r : Ring) : Prop :=
  r.pumpRingOnStart = true ∧ r.mappedFrameCount ≠ 0 ∧ (r.frames r.nextSubmitIndex).state = .queued

instance (r : Ring) : Decidable r.Acquirable := inferInstanceAs (Decidable (_ ∧ _ ∧ _))

/-- The slot the rotation is at goes to the engine. -/
def take (r : Ring) : Ring :=
  { r.setState r.nextSubmitIndex .inFlight with
    nextSubmitIndex := (r.nextSubmitIndex + 1) % r.mappedFrameCount }

def framesAcquire (r : Ring) : Option ((Cookie × Option ℕ) × Ring) :=
  if r.Acquirable then
    some ((r.nextSubmitIndex, (r.frames r.nextSubmitIndex).mdl.map (·.byteCount)), r.take)
  else none

/-- The `(ULONG)` cast of a cookie. -/
def index (cookie : Cookie) : ℕ := cookie % 2 ^ 32

/-- The bookkeeping of a successful delivery. -/
def count (r : Ring) (i : ℕ) : Ring :=
  { r with currentFrameIndex := BitVec.ofNat 32 i, totalFrameCount := r.totalFrameCount + 1 }

def framesDeliver (oneShot : Bool) (r : Ring) (d : Delivery) : Ring :=
  if maxVideoFrames ≤ index d.cookie then r
  else if ntSuccess d.status then
    (r.setState (index d.cookie) (if oneShot then .delivered else .queued)).count (index d.cookie)
  else r.setState (index d.cookie) .queued

def framesRequeue (r : Ring) : Ring :=
  { r with frames := fun i =>
      if i < r.mappedFrameCount ∧ (r.frames i).state = .delivered then
        { r.frames i with state := .queued }
      else r.frames i }

/-- The ring of `frameCount` locked frames is published. -/
def publish (r : Ring) (frameCount : ℕ) : Ring :=
  { r with
    nextSubmitIndex := 0
    currentFrameIndex := -1
    totalFrameCount := 0
    mappedFrameCount := frameCount }

/-- The loop body of `PhotonicIoctlFramesUnmap` for a frame that is not held back. -/
def unmapFrame (r : Ring) (i : ℕ) : Ring := r.setFrame i ⟨none, .queued⟩

/-- What `PhotonicIoctlFramesUnmap` resets behind its loop. -/
def reset (r : Ring) : Ring :=
  { r with mappedFrameCount := 0, nextSubmitIndex := 0, currentFrameIndex := -1, totalFrameCount := 0 }

section
variable (r : Ring) (i j : ℕ) (f : RingFrame) (state : RingFrameState)

@[simp] theorem setState_frames : (r.setState i state).frames =
    Function.update r.frames i { r.frames i with state := state } := rfl
@[simp] theorem setState_mapped : (r.setState i state).mappedFrameCount = r.mappedFrameCount := rfl
@[simp] theorem setState_next : (r.setState i state).nextSubmitIndex = r.nextSubmitIndex := rfl
@[simp] theorem setState_current :
    (r.setState i state).currentFrameIndex = r.currentFrameIndex := rfl
@[simp] theorem setState_total : (r.setState i state).totalFrameCount = r.totalFrameCount := rfl
@[simp] theorem setState_pumpRing : (r.setState i state).pumpRingOnStart = r.pumpRingOnStart := rfl
@[simp] theorem count_frames : (r.count i).frames = r.frames := rfl
@[simp] theorem count_mapped : (r.count i).mappedFrameCount = r.mappedFrameCount := rfl
@[simp] theorem count_next : (r.count i).nextSubmitIndex = r.nextSubmitIndex := rfl
@[simp] theorem count_pumpRing : (r.count i).pumpRingOnStart = r.pumpRingOnStart := rfl

end

theorem framesRequeue_state (r : Ring) (i : ℕ) : (r.framesRequeue.frames i).state =
    if i < r.mappedFrameCount ∧ (r.frames i).state = .delivered then .queued
    else (r.frames i).state := by
  simp only [framesRequeue]
  split <;> rfl

end Ring
end Photonic
