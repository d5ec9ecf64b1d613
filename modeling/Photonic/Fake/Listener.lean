import Mathlib.Algebra.Ring.Nat
import Mathlib.Data.List.Chain
import Mathlib.Algebra.BigOperators.Group.List.Basic

namespace Photonic
namespace Fake

/-- Sums and differences of `uint64_t`. -/
def add64 (a b : ℕ) : ℕ := (a + b) % 2 ^ 64
def sub64 (a b : ℕ) : ℕ := (a + (2 ^ 64 - b)) % 2 ^ 64

def uint64Max : ℕ := 2 ^ 64 - 1
def uint32Max : ℕ := 2 ^ 32 - 1

/-- `IRL_CYCLES_PER_WRAP` -/
def cyclesPerWrap : ℕ := 8 * 8000

/-- `IRL_BURST_GAP_CYCLES` -/
def burstGapCycles : ℕ := 16

/-- What `account_packet` is told of a packet. -/
structure Packet where
  length : ℕ
  sy : ℕ
  ts : ℕ
  deriving DecidableEq

/-- The cycle of a timestamp, within the wrap. -/
def now (ts : ℕ) : ℕ := ts / 2 ^ 13 % 8 * 8000 + ts % 2 ^ 13

structure Clock where
  inSegment : Bool := false
  absCycle : ℕ := 0
  segLost : ℕ := 0
  deriving DecidableEq

structure Bursts where
  segBursts : ℕ := 0
  lastLoss : ℕ := 0
  burstStart : ℕ := 0
  spaceSum : ℕ := 0
  spaceMin : ℕ := uint64Max
  spaceMax : ℕ := 0
  deriving DecidableEq

structure Reception where
  prevTs : ℕ := 0
  segPackets : ℕ := 0
  segFrames : ℕ := 0
  frameOpen : Bool := false
  frameStart : ℕ := 0
  framePkts : ℕ := 0
  frameLenMin : ℕ := uint32Max
  frameLenMax : ℕ := 0
  deriving DecidableEq

structure FrameLosses where
  frameLost : ℕ := 0
  frameBursts : ℕ := 0
  deriving DecidableEq

structure Totals where
  totalPackets : ℕ := 0
  totalLost : ℕ := 0
  totalBursts : ℕ := 0
  totalFrames : ℕ := 0
  totalSegments : ℕ := 0
  deriving DecidableEq

/-- `listener_stats_t`, with the values `main` starts it with. -/
structure ListenerStats extends Clock, Bursts, Reception, FrameLosses, Totals
  deriving DecidableEq

/-- The `[frame]` line. -/
structure FrameReport where
  packets : ℕ
  cycles : ℕ
  lost : ℕ
  bursts : ℕ
  lenMin : ℕ
  lenMax : ℕ
  deriving DecidableEq

/-- The burst spacing of the `[segment]` line. -/
structure Spacing where
  min : ℕ
  avg : ℕ
  max : ℕ
  deriving DecidableEq

/-- The `[segment]` line. -/
structure SegmentReport where
  packets : ℕ
  frames : ℕ
  lost : ℕ
  bursts : ℕ
  spacing : Option Spacing
  deriving DecidableEq

/-- A line of the log, or a burst spacing that was folded into the statistics. -/
inductive Event
  | space (cycles : ℕ)
  | frame (report : FrameReport)
  | segment (report : SegmentReport)
  deriving DecidableEq

def Event.space? : Event → Option ℕ
  | .space n => some n
  | _ => none

def Event.frame? : Event → Option FrameReport
  | .frame r => some r
  | _ => none

def Event.segment? : Event → Option SegmentReport
  | .segment r => some r
  | _ => none

namespace ListenerStats

def flushFrame (st : ListenerStats) : ListenerStats × List Event :=
  if st.frameOpen then
    ({ st with frameOpen := false, framePkts := 0, frameLost := 0, frameBursts := 0,
               frameLenMin := uint32Max, frameLenMax := 0 },
      [.frame ⟨st.framePkts, add64 (sub64 st.absCycle st.frameStart) 1, st.frameLost,
        st.frameBursts, st.frameLenMin, st.frameLenMax⟩])
  else (st, [])

/-- The burst spacing that `flush_segment` logs. -/
def spacing (st : ListenerStats) : Option Spacing :=
  if 2 ≤ st.segBursts then
    some ⟨st.spaceMin, st.spaceSum / (st.segBursts - 1), st.spaceMax⟩
  else none

def report (st : ListenerStats) : SegmentReport :=
  ⟨st.segPackets, st.segFrames, st.segLost, st.segBursts, st.spacing⟩

/-- What `flush_segment` does once the frame is flushed. -/
def closeSegment (st : ListenerStats) : ListenerStats × List Event :=
  ({ st with totalPackets := add64 st.totalPackets st.segPackets
             totalLost := add64 st.totalLost st.segLost
             totalBursts := add64 st.totalBursts st.segBursts
             totalFrames := add64 st.totalFrames st.segFrames
             totalSegments := add64 st.totalSegments 1
             inSegment := false, segPackets := 0, segLost := 0, segBursts := 0, segFrames := 0,
             spaceSum := 0, spaceMin := uint64Max, spaceMax := 0 },
    [.segment st.report])

def flushSegment (st : ListenerStats) : ListenerStats × List Event :=
  if st.inSegment then
    let frame := st.flushFrame
    let segment := frame.1.closeSegment
    (segment.1, frame.2 ++ segment.2)
  else (st, [])

/-- The cycles since the packet before; two packets of one cycle count as neighbours. -/
def delta (st : ListenerStats) (now : ℕ) : ℕ :=
  let delta := (now + cyclesPerWrap + 2 ^ 32 - st.prevTs) % 2 ^ 32 % cyclesPerWrap
  if delta = 0 then 1 else delta

/-- Folds the spacing of two bursts in. -/
def foldSpace (st : ListenerStats) (space : ℕ) : ListenerStats :=
  { st with spaceSum := add64 st.spaceSum space
            spaceMin := if space < st.spaceMin then space else st.spaceMin
            spaceMax := if st.spaceMax < space then space else st.spaceMax }

def startBurst (st : ListenerStats) : ListenerStats × List Event :=
  let space := sub64 st.absCycle st.burstStart
  let spaced := if st.burstStart ≠ 0 then (st.foldSpace space, [Event.space space]) else (st, [])
  ({ spaced.1 with burstStart := st.absCycle, segBursts := add64 st.segBursts 1,
                   frameBursts := add64 st.frameBursts 1 }, spaced.2)

def clusterLoss (st : ListenerStats) : ListenerStats × List Event :=
  let burst :=
    if st.lastLoss = 0 ∨ burstGapCycles < sub64 st.absCycle st.lastLoss then st.startBurst
    else (st, [])
  ({ burst.1 with lastLoss := st.absCycle }, burst.2)

def countLost (st : ListenerStats) (missing : ℕ) : ListenerStats :=
  { st with segLost := add64 st.segLost missing, frameLost := add64 st.frameLost missing }

def lose (st : ListenerStats) (missing : ℕ) : ListenerStats × List Event :=
  (st.countLost missing).clusterLoss

/-- The packet is this many cycles after the one before. -/
def advanceBy (st : ListenerStats) (delta : ℕ) : ListenerStats × List Event :=
  let st := { st with absCycle := add64 st.absCycle delta }
  if 1 < delta then st.lose (delta - 1) else (st, [])

/-- The first half of `account_packet`: the cycle of the packet and the losses before it. -/
def advance (st : ListenerStats) (now : ℕ) : ListenerStats × List Event :=
  if st.inSegment then st.advanceBy (st.delta now)
  else ({ st with inSegment := true, absCycle := 0 }, [])

def startFrame (st : ListenerStats) : ListenerStats × List Event :=
  let frame := st.flushFrame
  ({ frame.1 with frameOpen := true, frameStart := st.absCycle,
                  segFrames := add64 st.segFrames 1 }, frame.2)

def countPacket (st : ListenerStats) (ts : ℕ) : ListenerStats :=
  { st with prevTs := now ts, segPackets := add64 st.segPackets 1 }

def joinFrame (st : ListenerStats) (length : ℕ) : ListenerStats :=
  { st with framePkts := add64 st.framePkts 1
            frameLenMin := if length < st.frameLenMin then length else st.frameLenMin
            frameLenMax := if st.frameLenMax < length then length else st.frameLenMax }

/-- The second half of `account_packet`: the packet and its frame. -/
def receive (st : ListenerStats) (p : Packet) : ListenerStats × List Event :=
  let st := st.countPacket p.ts
  let frame := if p.sy ≠ 0 then st.startFrame else (st, [])
  (frame.1.joinFrame p.length, frame.2)

def accountPacket (st : ListenerStats) (p : Packet) : ListenerStats × List Event :=
  let advanced := st.advance (now p.ts)
  let received := advanced.1.receive p
  (received.1, advanced.2 ++ received.2)

def accountAll (st : ListenerStats) : List Packet → ListenerStats × List Event
  | [] => (st, [])
  | p :: packets =>
    let packet := st.accountPacket p
    let later := packet.1.accountAll packets
    (later.1, packet.2 ++ later.2)

def listenSegment (st : ListenerStats) (packets : List Packet) : ListenerStats × List Event :=
  let heard := st.accountAll packets
  let flushed := heard.1.flushSegment
  (flushed.1, heard.2 ++ flushed.2)

/-- The segments that idle flushes cut a run into, and what each of them leaves in the log. -/
def listen (st : ListenerStats) : List (List Packet) → ListenerStats × List (List Event)
  | [] => (st, [])
  | packets :: segments =>
    let segment := st.listenSegment packets
    let later := segment.1.listen segments
    (later.1, segment.2 :: later.2)

end ListenerStats

structure Arrival extends Packet where
  cycle : ℕ
  field_lt : ts % 2 ^ 13 < 8000
  stamped : now ts = cycle % cyclesPerWrap

/-- The next packet is later, by less than a wrap. -/
def Arrival.Before (a b : Arrival) : Prop := a.cycle < b.cycle ∧ b.cycle < a.cycle + cyclesPerWrap

/-- The packets between two silences. -/
structure Segment where
  first : Arrival
  rest : List Arrival
  advances : (first :: rest).IsChain Arrival.Before

namespace Arrival

/-- The cycles without a packet between the first packet and the last. -/
def lost : List Arrival → ℕ
  | a :: b :: l => b.cycle - a.cycle - 1 + lost (b :: l)
  | _ => 0

/-- The cycles, from a first one on, that follow a lost one. -/
def losses (base : ℕ) : List Arrival → List ℕ
  | a :: b :: l =>
    if a.cycle + 1 < b.cycle then (b.cycle - base) :: losses base (b :: l) else losses base (b :: l)
  | _ => []

/-- The packets before the next that starts a frame. -/
def body (l : List Arrival) : List Arrival := l.takeWhile fun a => a.sy = 0

end Arrival

/-- The losses that are not close to the one before them. -/
def burstStarts : Option ℕ → List ℕ → List ℕ
  | _, [] => []
  | previous, c :: l =>
    if ∀ p ∈ previous, p + burstGapCycles < c then c :: burstStarts (some c) l
    else burstStarts (some c) l

def differences (l : List ℕ) : List ℕ := List.zipWith (fun a b => b - a) l l.tail

structure FrameSpan where
  packets : ℕ
  lost : ℕ
  deriving DecidableEq

/-- The frames of the packets, each from a packet with a sy field on. -/
def frameSpans : List Arrival → List FrameSpan
  | [] => []
  | a :: l =>
    if a.sy ≠ 0 then
      ⟨1 + (Arrival.body l).length,
        Arrival.lost (a :: (Arrival.body l ++ (l.drop (Arrival.body l).length).take 1))⟩ ::
          frameSpans l
    else frameSpans l

namespace Segment

def arrivals (s : Segment) : List Arrival := s.first :: s.rest
def packets (s : Segment) : List Packet := s.arrivals.map Arrival.toPacket
def last (s : Segment) : Arrival := s.arrivals.getLast (List.cons_ne_nil _ _)

def span (s : Segment) : ℕ := s.last.cycle - s.first.cycle + 1

def lost (s : Segment) : ℕ := Arrival.lost s.arrivals

/-- Where in the segment its bursts start. -/
def starts (s : Segment) : List ℕ := burstStarts none (Arrival.losses s.first.cycle s.arrivals)

def frames (s : Segment) : List FrameSpan := frameSpans s.arrivals

/-- Some cycle between the first packet and the last brought none. -/
def Lossy (s : Segment) : Prop := s.lost ≠ 0

/-- Some packet starts a frame. -/
def HasSy (s : Segment) : Prop := ∃ a ∈ s.arrivals, a.sy ≠ 0

def OneFrame (s : Segment) : Prop := s.first.sy ≠ 0 ∧ ∀ a ∈ s.rest, a.sy = 0

end Segment

def FrameRight (f : FrameSpan) (r : FrameReport) : Prop :=
  r.packets = f.packets ∧ r.lost = f.lost ∧ add64 r.packets r.lost = r.cycles

/-- The lines of a segment, and the spacings folded into its statistics. -/
structure SegmentRight (s : Segment) (events : List Event) : Prop where
  counted : ∃ r, events.filterMap Event.segment? = [r] ∧
    add64 r.packets r.lost = s.span ∧ r.bursts = s.starts.length ∧
    ∀ q ∈ r.spacing, q.min ≤ q.avg ∧ q.avg ≤ q.max
  spaced : events.filterMap Event.space? = differences s.starts
  framed : List.Forall₂ FrameRight s.frames (events.filterMap Event.frame?)

structure TotalsRight (st : ListenerStats) (reports : List SegmentReport) : Prop where
  packets : st.totalPackets = (reports.map SegmentReport.packets).sum
  lost : st.totalLost = (reports.map SegmentReport.lost).sum
  bursts : st.totalBursts = (reports.map SegmentReport.bursts).sum
  frames : st.totalFrames = (reports.map SegmentReport.frames).sum
  segments : st.totalSegments = reports.length

/-- A run from the start accounts for the segments it heard. -/
def AccountsFor (segments : List Segment) : Prop :=
  let run := ListenerStats.listen {} (segments.map Segment.packets)
  List.Forall₂ SegmentRight segments run.2 ∧
    TotalsRight run.1 (run.2.flatMap fun events => events.filterMap Event.segment?)

end Fake
end Photonic
