import Photonic.Lib.Heap
import Photonic.Lib.Machine
import Photonic.Interface.Extension

namespace Photonic

def statusInvalidGeneration : NtStatus := 0xC000023E

@[simp] theorem ntSuccess_statusInvalidGeneration : ntSuccess statusInvalidGeneration = false := by
  decide

namespace Irb

structure Mem where
  heap : Heap
  /-- The acquisitions of `IrbRemoveLock`. -/
  lock : Heap
  /-- `IoReleaseRemoveLockAndWait` was called: the lock refuses acquisitions. -/
  removing : Bool
  fault : Bool

namespace Mem

def touch (m : Mem) (bs : List ℕ) : Mem :=
  { m with fault := m.fault || bs.any fun b => m.heap.frees b != 0 }

def free (m : Mem) (b : ℕ) : Mem :=
  let m := m.touch [b]
  { m with heap := m.heap.free b }

def release (m : Mem) (hold : ℕ) : Mem :=
  { m with fault := m.fault || m.lock.frees hold != 0, lock := m.lock.free hold }

end Mem

inductive State
  | pending
  | completed
  | abandoned
  deriving DecidableEq, Repr

/-- How far the bus driver and `PhotonicIrbComplete` are with a request. -/
inductive Completion
  | atBus
  | stored
  | waking
  | freeing (blocks : List ℕ)
  | done
  deriving DecidableEq, Repr

/-- `PHOTONIC_IRB_SYNC` with its IRP. `attached` is what of `Mdl`, `Buffer` and `Buffer2` is
set, `hold` the acquisition of the remove lock. -/
structure Request where
  irp : ℕ
  sync : ℕ
  attached : List ℕ
  hold : ℕ
  state : State
  event : Bool
  ioStatus : NtStatus
  completion : Completion
  deriving DecidableEq, Repr

namespace Request

/-- What the bus driver may access while it has the request. -/
def memory (r : Request) : List ℕ := r.irp :: r.sync :: r.attached

/-- The next step of `PhotonicIrbComplete`; the first is the bus driver's call of it. -/
def complete (m : Mem) (r : Request) (status : NtStatus) : Option (Mem × Request) :=
  match r.completion with
  | .atBus => some (m.touch [r.irp, r.sync], { r with ioStatus := status, completion := .stored })
  | .stored =>
    -- InterlockedExchange(&sync->State, PhotonicIrbCompleted)
    some (m.touch [r.sync],
      { r with
        state := .completed
        completion :=
          if r.state = .abandoned then .freeing (r.irp :: r.attached ++ [r.sync]) else .waking })
  | .waking => some (m.touch [r.sync], { r with event := true, completion := .done })
  | .freeing (b :: bs) => some ((m.touch [r.sync]).free b, { r with completion := .freeing bs })
  | .freeing [] => some (m.release r.hold, { r with completion := .done })
  | .done => none

def dma (m : Mem) (r : Request) : Option Mem :=
  if r.completion = .atBus then some (m.touch r.memory) else none

end Request

/-- Where the submitting thread is, behind its `IoCallDriver`. -/
inductive SubmitPc
  | first
  | cancelling
  | second
  | claiming
  | third
  | collect
  | freeIrp (status : NtStatus)
  | freeSync (status : NtStatus)
  | release (status : NtStatus)
  deriving DecidableEq, Repr

structure Submit where
  request : Request
  pc : SubmitPc
  deriving DecidableEq, Repr

/-- What `PhotonicSubmitIrbEx` returns. -/
structure Result where
  status : NtStatus
  abandoned : Bool
  deriving DecidableEq, Repr

inductive Outcome
  | waiting (w : Submit)
  | collected (r : Request) (status : NtStatus)
  | abandoned (r : Request)
  deriving DecidableEq, Repr

namespace Submit

def goto (w : Submit) (pc : SubmitPc) : Outcome := .waiting { w with pc := pc }

/-- A `KeWaitForSingleObject` on the event of the sync block. -/
def wait (m : Mem) (w : Submit) (timedOut : Bool) (late : Option SubmitPc) :
    Option (Mem × Outcome) :=
  let m := m.touch [w.request.sync]
  if w.request.event then
    if timedOut then none else some (m, w.goto .collect)
  else if timedOut then late.map fun pc => (m, w.goto pc)
  else none

/-- The thread's next step in `PhotonicSubmitIrbEx`. -/
def thread (m : Mem) (w : Submit) (timedOut : Bool) : Option (Mem × Outcome) :=
  let r := w.request
  match w.pc with
  | .first => wait m w timedOut (some .cancelling)
  | .cancelling => some (m.touch [r.irp], w.goto .second)
  | .second => wait m w timedOut (some .claiming)
  | .claiming =>
    -- InterlockedExchange(&sync->State, PhotonicIrbAbandoned)
    let r' := { r with state := .abandoned }
    some (m.touch [r.sync],
      if r.state = .completed then .waiting ⟨r', .third⟩ else .abandoned r')
  | .third => wait m w timedOut none
  | .collect => some (m.touch [r.sync], w.goto (.freeIrp r.ioStatus))
  | .freeIrp status => some (m.free r.irp, w.goto (.freeSync status))
  | .freeSync status => some (m.free r.sync, w.goto (.release status))
  | .release status => some (m.release r.hold, .collected r status)

/-- `PhotonicSubmitIrbEx` up to its `IoCallDriver`. -/
def enter (m : Mem) (attached : List ℕ) (connected syncOk irpOk : Bool) :
    Mem × (Result ⊕ Submit) :=
  if !connected then (m, .inl ⟨statusDeviceNotConnected, false⟩)
  else
    match m.heap.alloc syncOk with
    | (none, _) => (m, .inl ⟨statusInsufficientResources, false⟩)
    | (some sync, heap) =>
      match heap.alloc irpOk with
      | (none, _) =>
        ({ m with heap := heap }.free sync, .inl ⟨statusInsufficientResources, false⟩)
      | (some irp, heap) =>
        match m.lock.alloc !m.removing with
        | (none, _) =>
          (({ m with heap := heap }.free irp).free sync, .inl ⟨statusDeletePending, false⟩)
        | (some hold, lock) =>
          ({ m with heap := heap, lock := lock },
            .inr ⟨⟨irp, sync, attached, hold, .pending, false, 0, .atBus⟩, .first⟩)

end Submit

inductive Site
  /-- `PhotonicSubmitIrb` -/
  | plain
  /-- `PhotonicAsyncTransfer`: the refresh of a pending bus reset, the transfer, the refresh
  after a stale generation, the transfer once more -/
  | refresh
  | transfer
  | requery
  | retry
  /-- `PhotonicQueryLocalHostInfo` -/
  | hostInfo
  /-- `PhotonicGetUnitDependentDirectory`: its two passes -/
  | sizeQuery
  | fetch
  deriving DecidableEq, Repr

/-- Whether the site attaches the memory of its call. -/
def Site.carries : Site → Bool
  | .plain | .refresh | .requery => false
  | .transfer | .retry | .hostInfo | .sizeQuery | .fetch => true

/-- What a call does next when it is not in `PhotonicSubmitIrbEx`. -/
inductive Pc
  /-- allocate a block, and give up where that fails -/
  | alloc (next : Pc)
  | submit (site : Site)
  | copyOut (abandoned : Bool)
  | free
  deriving DecidableEq, Repr

/-- A call under way, with the blocks its local variables point to. -/
inductive Call
  | running (pc : Pc) (blocks : List ℕ)
  | submitting (site : Site) (blocks : List ℕ) (w : Submit)
  deriving DecidableEq, Repr

/-- `PhotonicAsyncTransfer` behind its bus reset check: the bounce buffer and its MDL. -/
def Pc.transfer : Pc := .alloc (.alloc (.submit .transfer))

inductive Entry
  | plain
  | transfer (resetPending : Bool)
  | hostInfo
  | directory
  deriving DecidableEq, Repr

def Entry.pc : Entry → Pc
  | .plain => .submit .plain
  | .transfer true => .submit .refresh
  | .transfer false => .transfer
  | .hostInfo => .alloc (.submit .hostInfo)
  | .directory => .alloc (.submit .sizeQuery)

namespace Call

/-- `if (!abandoned)` before the frees at the end of a call. -/
def finish (abandoned : Bool) (blocks : List ℕ) : Option Call :=
  if abandoned then none else some (.running .free blocks)

/-- The end of a call that hands its result out if there is one. -/
def deliver (result : Result) (blocks : List ℕ) : Option Call :=
  if ntSuccess result.status then some (.running (.copyOut result.abandoned) blocks)
  else finish result.abandoned blocks

/-- What a call goes on with after a submission, or that it returns. -/
def resume (site : Site) (blocks : List ℕ) (result : Result) : Option Call :=
  match site with
  | .plain => none
  | .refresh => some (.running .transfer [])
  | .transfer =>
    if result.status = statusInvalidGeneration ∧ result.abandoned = false then
      some (.running (.submit .requery) blocks)
    else deliver result blocks
  | .requery =>
    if ntSuccess result.status then some (.running (.submit .retry) blocks)
    else some (.running .free blocks)
  | .retry | .hostInfo => deliver result blocks
  | .sizeQuery =>
    if ntSuccess result.status then some (.running (.alloc (.submit .fetch)) blocks)
    else finish result.abandoned blocks
  | .fetch =>
    -- the directory outlives the call: its reader frees it
    if ntSuccess result.status then some (.running (.copyOut false) blocks)
    else finish result.abandoned blocks

/-- A step of a call between two submissions. -/
def run (m : Mem) (pc : Pc) (blocks : List ℕ) (ok : Bool) : Option (Mem × Option Call) :=
  match pc with
  | .alloc next =>
    match m.heap.alloc ok with
    | (none, _) => some (m, some (.running .free blocks))
    | (some b, heap) => some ({ m with heap := heap }, some (.running next (b :: blocks)))
  | .submit _ => none
  | .copyOut abandoned => some (m.touch blocks, finish abandoned blocks)
  | .free =>
    match blocks with
    | [] => some (m, none)
    | b :: bs => some (m.free b, some (.running .free bs))

end Call

structure World where
  mem : Mem
  calls : List Call
  /-- The requests whose submitter gave up. -/
  orphans : List Request
  /-- The requests whose submitter saw them complete. -/
  collected : List Request

inductive CallAct
  | run (ok : Bool)
  | enter (connected syncOk irpOk : Bool)
  | thread (timedOut : Bool)
  | complete (status : NtStatus)
  | dma
  deriving DecidableEq, Repr

inductive Act
  | start (entry : Entry)
  | call (i : ℕ) (a : CallAct)
  | orphanComplete (i : ℕ) (status : NtStatus)
  | orphanDma (i : ℕ)
  | teardown
  deriving DecidableEq, Repr

namespace World

def init : World := ⟨⟨.empty, .empty, false, false⟩, [], [], []⟩

def put (s : World) (m : Mem) (c : Option Call) : World :=
  { s with mem := m, calls := c.toList ++ s.calls }

def stepCall (s : World) (c : Call) (a : CallAct) : Option World :=
  match c, a with
  | .running pc blocks, .run ok =>
    (Call.run s.mem pc blocks ok).map fun (m, c) => s.put m c
  | .running (.submit site) blocks, .enter connected syncOk irpOk =>
    match Submit.enter s.mem (if site.carries then blocks else []) connected syncOk irpOk with
    | (m, .inl result) => some (s.put m (Call.resume site blocks result))
    | (m, .inr w) => some (s.put m (some (.submitting site blocks w)))
  | .submitting site blocks w, .thread timedOut =>
    match w.thread s.mem timedOut with
    | none => none
    | some (m, .waiting w) => some (s.put m (some (.submitting site blocks w)))
    | some (m, .collected r status) =>
      some { s.put m (Call.resume site blocks ⟨status, false⟩) with collected := r :: s.collected }
    | some (m, .abandoned r) =>
      some { s.put m (Call.resume site blocks ⟨statusIoTimeout, true⟩) with
        orphans := r :: s.orphans }
  | .submitting site blocks w, .complete status =>
    (w.request.complete s.mem status).map fun (m, r) =>
      s.put m (some (.submitting site blocks { w with request := r }))
  | .submitting site blocks w, .dma =>
    (w.request.dma s.mem).map fun m => s.put m (some (.submitting site blocks w))
  | _, _ => none

/-- A step is one access to memory that another party may share: the bus driver, the completion
routine and the submitting thread of a request interleave freely, and a wait may time out whenever
its event is not set. What touches or frees a block after its free, or releases an acquisition
twice, sets `fault`. -/
def step (s : World) (a : Act) : Option World :=
  match a with
  | .start entry => some (s.put s.mem (some (.running entry.pc [])))
  | .call i a =>
    s.calls[i]?.bind fun c => { s with calls := s.calls.eraseIdx i }.stepCall c a
  | .orphanComplete i status =>
    s.orphans[i]?.bind fun r => (r.complete s.mem status).map fun (m, r) =>
      { s with mem := m, orphans := r :: s.orphans.eraseIdx i }
  | .orphanDma i =>
    s.orphans[i]?.bind fun r => (r.dma s.mem).map fun m => { s with mem := m }
  | .teardown => some { s with mem := { s.mem with removing := true } }

end World

def machine : Machine World Act := ⟨World.init, World.step⟩

end Irb
end Photonic
