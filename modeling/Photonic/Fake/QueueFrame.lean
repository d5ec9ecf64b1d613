import Photonic.Fake.Agreement

namespace Photonic
namespace Fake

def isoMaxPktsPerQueue : ℕ := 512
def isoIntrStride : ℕ := 512

/-- What `parse_iso_config` and the geometry leave for the packets of a frame. -/
structure PacketConfig where
  isoTag : ℕ
  isoSyAll : Bool
  tag_lt : isoTag < 4

/-- `FW_CDEV_ISO_INTERRUPT`, `FW_CDEV_ISO_TAG` and `FW_CDEV_ISO_SY` -/
def isoFlags (tag sy : ℕ) (interrupt : Bool) : BitVec 32 :=
  BitVec.ofNat 32 tag <<< 18 ||| BitVec.ofNat 32 sy <<< 20 |||
    if interrupt then 1 <<< 16 else 0

section
variable (cfg : PacketConfig) (iso : IsoGeometry)

def packetSy (pkt : ℕ) : ℕ := if cfg.isoSyAll ∨ pkt = 0 then 1 else 0

def packetInterrupt (pkt : ℕ) : Bool := pkt = iso.isoPpf - 1 ∨ (pkt + 1) % isoIntrStride = 0

def control (pkt : ℕ) : BitVec 32 :=
  BitVec.ofNat 32 iso.isoBpp ||| isoFlags cfg.isoTag (packetSy cfg pkt) (packetInterrupt iso pkt)

end

/-- A packet as the kernel queues it (`fw_iso_packet`, with its payload). -/
structure IsoPacket where
  payload : ℕ
  length : BitVec 16
  tag : BitVec 2
  sy : BitVec 4
  interrupt : Bool
  deriving DecidableEq

def IsoPacket.ofControl (payload : ℕ) (control : BitVec 32) : IsoPacket where
  payload := payload
  length := control.setWidth 16
  tag := (control >>> 18).setWidth 2
  sy := (control >>> 20).setWidth 4
  interrupt := (control >>> 16).getLsbD 0

def takePackets : ℕ → List (BitVec 32) → List IsoPacket
  | _, [] => []
  | data, control :: controls =>
    let packet := IsoPacket.ofControl data control
    packet :: takePackets (data + packet.length.toNat) controls

/-- `fw_cdev_queue_iso`: the controls as an index into the batch, the payload as an offset into the
buffer, the size in bytes. -/
structure QueueIso where
  packets : ℕ
  data : ℕ
  size : ℕ

/-- What the calls of `FW_CDEV_IOC_QUEUE_ISO` answer in turn: the packets taken of those offered, or
a failure. -/
def Answers : Type := ℕ → Option ℕ

structure Submission where
  calls : ℕ
  sent : List IsoPacket
  q : QueueIso

def Submission.queueIso (answers : Answers) (controls : List (BitVec 32)) (s : Submission) :
    Option Submission :=
  (answers s.calls).map fun n =>
    let taken := min n (s.q.size / 4)
    { s with
      calls := s.calls + 1
      sent := s.sent ++ takePackets s.q.data ((controls.drop s.q.packets).take taken)
      q := { s.q with size := s.q.size - 4 * taken } }

inductive BatchEnd
  | failed (sent : List IsoPacket)
  | ended (s : Submission)

/-- The inner loop, with the packets taken of the batch; `none` is a loop that goes on. -/
def submitBatch (answers : Answers) (controls : List (BitVec 32)) (frameBase bpp queued : ℕ) :
    ℕ → ℕ → Submission → Option BatchEnd
  | 0, _, _ => none
  | fuel + 1, done, s =>
    match s.queueIso answers controls with
    | none => some (.failed s.sent)
    | some s' =>
      if s'.q.size = s.q.size then some (.ended s')
      else
        let done := done + (s.q.size - s'.q.size) / 4
        if s'.q.size = 0 then some (.ended s')
        else submitBatch answers controls frameBase bpp queued fuel done
          { s' with q := ⟨done, frameBase + (queued + done) * bpp, s'.q.size⟩ }

section
variable (cfg : PacketConfig) (iso : IsoGeometry) (answers : Answers) (slot : ℕ)

def queueFrom : ℕ → ℕ → ℕ → List IsoPacket → Option (List IsoPacket)
  | 0, _, _, _ => none
  | fuel + 1, queued, calls, sent =>
    if queued < iso.isoPpf then
      let chunk := if isoMaxPktsPerQueue < iso.isoPpf - queued then isoMaxPktsPerQueue
        else iso.isoPpf - queued
      let controls := (List.range chunk).map fun i => control cfg iso (queued + i)
      let frameBase := slot * iso.frameBytes
      let batch := submitBatch answers controls frameBase iso.isoBpp queued
        (isoMaxPktsPerQueue + 1) 0 ⟨calls, sent, ⟨0, frameBase + queued * iso.isoBpp, chunk * 4⟩⟩
      match batch with
      | none => none
      | some (.failed sent) => some sent
      | some (.ended s) =>
        if s.q.size ≠ 0 then some s.sent else queueFrom fuel (queued + chunk) s.calls s.sent
    else some sent

/-- `iso_queue_frame`: the packets the kernel takes of a frame. Every batch has a packet, so the
packets bound the laps. -/
def isoQueueFrame : Option (List IsoPacket) := queueFrom cfg iso answers slot (iso.isoPpf + 1) 0 0 []

end

section
variable (cfg : PacketConfig) (iso : IsoGeometry) (slot : ℕ)

def framePacket (pkt : ℕ) : IsoPacket :=
  .ofControl (slot * iso.frameBytes + pkt * iso.isoBpp) (control cfg iso pkt)

/-- The packets queued for a frame are its first ones, whatever the kernel took of each call. -/
structure FrameQueued (answers : Answers) (sent : List IsoPacket) : Prop where
  length_le : sent.length ≤ iso.isoPpf
  payload : ∀ i p, sent[i]? = some p →
    p.payload = slot * iso.frameBytes + i * iso.isoBpp ∧ p.length.toNat = iso.isoBpp
  sync : ∀ i p, sent[i]? = some p → (p.sy ≠ 0#4 ↔ cfg.isoSyAll = true ∨ i = 0)
  last : ∀ p, sent[iso.isoPpf - 1]? = some p → p.interrupt = true
  stride : ∀ i, i + isoIntrStride ≤ sent.length →
    ∃ j p, i ≤ j ∧ j < i + isoIntrStride ∧ sent[j]? = some p ∧ p.interrupt = true
  whole : (∀ call, ∃ n, answers call = some n ∧ 0 < n) → sent.length = iso.isoPpf

/-- However the kernel answers, the loops end with the packets of a prefix of the frame queued. -/
def QueuesRight : Prop :=
  ∀ (answers : Answers) (slot : ℕ), ∃ sent,
    isoQueueFrame cfg iso answers slot = some sent ∧ FrameQueued cfg iso slot answers sent

end

section
variable {cfg : PacketConfig} {iso : IsoGeometry} {slot : ℕ}

theorem isoFlags_fields : ∀ tag < 4, ∀ sy < 2, ∀ interrupt : Bool,
    (isoFlags tag sy interrupt).setWidth 16 = 0#16 ∧
      ((isoFlags tag sy interrupt) >>> 20).setWidth 4 = BitVec.ofNat 4 sy ∧
      ((isoFlags tag sy interrupt) >>> 16).getLsbD 0 = interrupt := by
  decide

theorem payload_shiftRight {bpp k : ℕ} (h : bpp < 2 ^ 16) (hk : 16 ≤ k) :
    BitVec.ofNat 32 bpp >>> k = 0#32 := by
  apply BitVec.eq_of_toNat_eq
  rw [BitVec.toNat_ushiftRight, BitVec.toNat_ofNat, Nat.shiftRight_eq_div_pow,
    Nat.mod_eq_of_lt (by omega)]
  exact Nat.div_eq_of_lt (h.trans_le (Nat.pow_le_pow_right (by decide) hk))

theorem packetSy_lt (cfg : PacketConfig) (pkt : ℕ) : packetSy cfg pkt < 2 := by
  unfold packetSy
  split <;> decide

theorem framePacket_fields (cfg : PacketConfig) (h : iso.isoBpp < 2 ^ 16) (slot pkt : ℕ) :
    (framePacket cfg iso slot pkt).length.toNat = iso.isoBpp ∧
      (framePacket cfg iso slot pkt).sy = BitVec.ofNat 4 (packetSy cfg pkt) ∧
      (framePacket cfg iso slot pkt).interrupt = packetInterrupt iso pkt := by
  obtain ⟨hlength, hsy, hinterrupt⟩ :=
    isoFlags_fields _ cfg.tag_lt _ (packetSy_lt cfg pkt) (packetInterrupt iso pkt)
  refine ⟨?_, ?_, ?_⟩
  · simp only [framePacket, IsoPacket.ofControl, control, BitVec.setWidth_or, hlength]
    rw [BitVec.or_zero, BitVec.toNat_setWidth, BitVec.toNat_ofNat]
    omega
  · simp only [framePacket, IsoPacket.ofControl, control, BitVec.ushiftRight_or_distrib,
      payload_shiftRight h (by decide : 16 ≤ 20), BitVec.zero_or]
    exact hsy
  · simp only [framePacket, IsoPacket.ofControl, control, BitVec.ushiftRight_or_distrib,
      payload_shiftRight h (by decide : 16 ≤ 16), BitVec.zero_or]
    exact hinterrupt

def framePackets (cfg : PacketConfig) (iso : IsoGeometry) (slot start count : ℕ) : List IsoPacket :=
  (List.range' start count).map (framePacket cfg iso slot)

theorem framePackets_append (cfg : PacketConfig) (iso : IsoGeometry) (slot start m n : ℕ) :
    framePackets cfg iso slot start m ++ framePackets cfg iso slot (start + m) n =
      framePackets cfg iso slot start (m + n) := by
  rw [framePackets, framePackets, framePackets, ← List.map_append, List.range'_append_1]

theorem takePackets_eq (h : iso.isoBpp < 2 ^ 16) (start count : ℕ) :
    takePackets (slot * iso.frameBytes + start * iso.isoBpp)
        ((List.range' start count).map (control cfg iso)) =
      framePackets cfg iso slot start count := by
  induction count generalizing start with
  | zero => rfl
  | succ count ih =>
    have hlength := (framePacket_fields cfg h slot start).1
    rw [List.range'_succ, List.map_cons, takePackets, framePackets, List.range'_succ, List.map_cons]
    congr 1
    rw [framePacket] at hlength
    rw [hlength, Nat.add_assoc, ← Nat.succ_mul]
    exact ih (start + 1)

/-- A batch in progress: some of its packets are left, and the call is set up for them. -/
structure Offering (cfg : PacketConfig) (iso : IsoGeometry) (slot queued chunk done : ℕ)
    (s : Submission) : Prop where
  left : done < chunk
  packets : s.q.packets = done
  data : s.q.data = slot * iso.frameBytes + (queued + done) * iso.isoBpp
  size : s.q.size = 4 * (chunk - done)
  sent : s.sent = framePackets cfg iso slot 0 (queued + done)

inductive BatchRight (cfg : PacketConfig) (iso : IsoGeometry) (answers : Answers)
    (slot queued chunk : ℕ) : BatchEnd → Prop
  /-- The kernel took it all. -/
  | all (s : Submission) (hsize : s.q.size = 0)
      (hsent : s.sent = framePackets cfg iso slot 0 (queued + chunk)) : BatchRight _ _ _ _ _ _ (.ended s)
  /-- A call took nothing. -/
  | stalled (s : Submission) (n : ℕ) (hsize : s.q.size ≠ 0) (hn : n ≤ chunk)
      (hsent : s.sent = framePackets cfg iso slot 0 (queued + n))
      (hstuck : ¬∀ call, ∃ n, answers call = some n ∧ 0 < n) : BatchRight _ _ _ _ _ _ (.ended s)
  | failed (sent : List IsoPacket) (n : ℕ) (hn : n ≤ chunk)
      (hsent : sent = framePackets cfg iso slot 0 (queued + n))
      (hstuck : ¬∀ call, ∃ n, answers call = some n ∧ 0 < n) : BatchRight _ _ _ _ _ _ (.failed sent)

section
variable {answers : Answers} {queued chunk done : ℕ} {s : Submission}

def batchControls (cfg : PacketConfig) (iso : IsoGeometry) (queued chunk : ℕ) : List (BitVec 32) :=
  (List.range chunk).map fun i => control cfg iso (queued + i)

theorem batchControls_slice {taken : ℕ} (h : taken ≤ chunk - done) :
    ((batchControls cfg iso queued chunk).drop done).take taken =
      (List.range' (queued + done) taken).map (control cfg iso) := by
  have hrange : batchControls cfg iso queued chunk =
      (List.range' queued chunk).map (control cfg iso) := by
    rw [batchControls, List.range'_eq_map_range, List.map_map]
    rfl
  rw [hrange, ← List.map_drop, ← List.map_take, List.drop_range', Nat.mul_one,
    List.take_range'_of_length_ge h]

theorem Offering.queueIso (h : Offering cfg iso slot queued chunk done s)
    (hbpp : iso.isoBpp < 2 ^ 16) {n : ℕ} (hn : answers s.calls = some n) :
    s.queueIso answers (batchControls cfg iso queued chunk) =
      some ⟨s.calls + 1, framePackets cfg iso slot 0 (queued + done + min n (chunk - done)),
        ⟨done, s.q.data, 4 * (chunk - done - min n (chunk - done))⟩⟩ := by
  have hoffered : s.q.size / 4 = chunk - done := by
    rw [h.size]
    omega
  have hsize : s.q.size - 4 * min n (chunk - done) = 4 * (chunk - done - min n (chunk - done)) := by
    rw [h.size]
    omega
  rw [Submission.queueIso, hn, Option.map_some]
  simp only [hoffered, hsize, h.packets]
  rw [batchControls_slice (Nat.min_le_right _ _), h.data, takePackets_eq hbpp, h.sent]
  have happend := framePackets_append cfg iso slot 0 (queued + done) (min n (chunk - done))
  rw [Nat.zero_add] at happend
  rw [happend]

theorem Offering.submitBatch (h : Offering cfg iso slot queued chunk done s)
    (hbpp : iso.isoBpp < 2 ^ 16) (answers : Answers) {fuel : ℕ} (hfuel : chunk - done < fuel) :
    ∃ r, submitBatch answers (batchControls cfg iso queued chunk) (slot * iso.frameBytes) iso.isoBpp
        queued fuel done s = some r ∧ BatchRight cfg iso answers slot queued chunk r := by
  induction fuel generalizing done s with
  | zero => omega
  | succ fuel ih =>
    have hleft := h.left
    cases hn : answers s.calls with
    | none =>
      refine ⟨.failed s.sent, ?_, .failed _ done (by omega) h.sent fun hall => ?_⟩
      · rw [Fake.submitBatch, Submission.queueIso, hn]
        rfl
      · obtain ⟨n, hsome, -⟩ := hall s.calls
        rw [hn] at hsome
        cases hsome
    | some n =>
      have htaken : min n (chunk - done) ≤ chunk - done := Nat.min_le_right _ _
      have hpos : min n (chunk - done) = 0 → n = 0 := by omega
      rw [Fake.submitBatch, h.queueIso hbpp hn]
      generalize min n (chunk - done) = taken at htaken hpos
      simp only [h.size]
      by_cases hzero : taken = 0
      · -- the call took nothing
        rw [if_pos (by omega)]
        refine ⟨_, rfl, .stalled _ (done + taken) ?_ (by omega) (by rw [Nat.add_assoc]) fun hall => ?_⟩
        · exact Nat.mul_ne_zero (by decide) (by omega)
        · obtain ⟨m, hsome, hm⟩ := hall s.calls
          rw [hn] at hsome
          cases hsome
          exact absurd (hpos hzero) (Nat.ne_of_gt hm)
      rw [if_neg (by omega)]
      by_cases hall : taken = chunk - done
      · -- the rest of the batch went in one call
        rw [if_pos (by omega)]
        refine ⟨_, rfl, .all _ (by simp only; omega) ?_⟩
        simp only
        rw [hall, Nat.add_assoc, Nat.add_sub_cancel' hleft.le]
      · -- resubmit what is left over
        have hdone : done + (4 * (chunk - done) - 4 * (chunk - done - taken)) / 4 = done + taken := by
          omega
        rw [if_neg (by omega), hdone]
        refine ih (Offering.mk (by omega) rfl rfl ?_ ?_) (by omega)
        · simp only
          omega
        · rw [Nat.add_assoc]

end

theorem queueFrom_eq (cfg : PacketConfig) (hbpp : iso.isoBpp < 2 ^ 16) (answers : Answers)
    (slot : ℕ) {fuel queued : ℕ}
    (hqueued : queued ≤ iso.isoPpf) (hfuel : iso.isoPpf - queued < fuel) (calls : ℕ) :
    ∃ n, n ≤ iso.isoPpf ∧
      queueFrom cfg iso answers slot fuel queued calls (framePackets cfg iso slot 0 queued) =
        some (framePackets cfg iso slot 0 n) ∧
      ((∀ call, ∃ n, answers call = some n ∧ 0 < n) → n = iso.isoPpf) := by
  induction fuel generalizing queued calls with
  | zero => omega
  | succ fuel ih =>
    rw [queueFrom]
    by_cases hlt : queued < iso.isoPpf
    · rw [if_pos hlt]
      have hchunk : (if isoMaxPktsPerQueue < iso.isoPpf - queued then isoMaxPktsPerQueue
          else iso.isoPpf - queued) = min isoMaxPktsPerQueue (iso.isoPpf - queued) := by
        split <;> omega
      have hpos : 0 < min isoMaxPktsPerQueue (iso.isoPpf - queued) := by
        rw [isoMaxPktsPerQueue]
        omega
      have hle : min isoMaxPktsPerQueue (iso.isoPpf - queued) ≤ iso.isoPpf - queued :=
        Nat.min_le_right _ _
      have hmax : min isoMaxPktsPerQueue (iso.isoPpf - queued) ≤ isoMaxPktsPerQueue :=
        Nat.min_le_left _ _
      simp only [hchunk]
      generalize min isoMaxPktsPerQueue (iso.isoPpf - queued) = chunk at *
      have hoffer : Offering cfg iso slot queued chunk 0 ⟨calls, framePackets cfg iso slot 0 queued,
          ⟨0, slot * iso.frameBytes + queued * iso.isoBpp, chunk * 4⟩⟩ :=
        ⟨hpos, rfl, rfl, Nat.mul_comm _ _, rfl⟩
      have hfuel' : chunk - 0 < isoMaxPktsPerQueue + 1 := by omega
      obtain ⟨r, hr, hright⟩ := hoffer.submitBatch hbpp answers hfuel'
      rw [batchControls] at hr
      rw [hr]
      -- only a batch that went whole lets the frame go on
      cases hright with
      | all s hsize hsent =>
        simp only [hsize, hsent]
        exact ih (by omega) (by omega) s.calls
      | stalled s n hsize hn hsent hstuck =>
        simp only [hsent]
        exact ⟨queued + n, by omega, if_pos hsize, fun hall => absurd hall hstuck⟩
      | failed sent n hn hsent hstuck =>
        simp only [hsent]
        exact ⟨queued + n, by omega, rfl, fun hall => absurd hall hstuck⟩
    · rw [if_neg hlt]
      exact ⟨queued, hqueued, rfl, fun _ => by omega⟩

theorem length_framePackets (cfg : PacketConfig) (iso : IsoGeometry) (slot start n : ℕ) :
    (framePackets cfg iso slot start n).length = n := by
  rw [framePackets, List.length_map, List.length_range']

theorem getElem?_framePackets {n i : ℕ} (hi : i < n) :
    (framePackets cfg iso slot 0 n)[i]? = some (framePacket cfg iso slot i) := by
  rw [framePackets, List.getElem?_map, List.getElem?_range' hi, Option.map_some, Nat.zero_add,
    Nat.one_mul]

theorem of_getElem?_framePackets {n i : ℕ} {p : IsoPacket}
    (h : (framePackets cfg iso slot 0 n)[i]? = some p) : i < n ∧ p = framePacket cfg iso slot i := by
  have hi : i < n := length_framePackets cfg iso slot 0 n ▸ (List.getElem?_eq_some_iff.mp h).1
  rw [getElem?_framePackets hi] at h
  exact ⟨hi, (Option.some.inj h).symm⟩

theorem frameQueued_framePackets (hbpp : iso.isoBpp < 2 ^ 16) {answers : Answers} {n : ℕ}
    (hn : n ≤ iso.isoPpf)
    (hwhole : (∀ call, ∃ n, answers call = some n ∧ 0 < n) → n = iso.isoPpf) :
    FrameQueued cfg iso slot answers (framePackets cfg iso slot 0 n) where
  length_le := by rwa [length_framePackets]
  payload i p hp := by
    obtain ⟨-, rfl⟩ := of_getElem?_framePackets hp
    exact ⟨rfl, (framePacket_fields cfg hbpp slot i).1⟩
  sync i p hp := by
    obtain ⟨-, rfl⟩ := of_getElem?_framePackets hp
    rw [(framePacket_fields cfg hbpp slot i).2.1, packetSy]
    by_cases hsy : cfg.isoSyAll = true ∨ i = 0
    · rw [if_pos hsy]
      exact ⟨fun _ => hsy, fun _ => by decide⟩
    · rw [if_neg hsy]
      exact ⟨fun hne => absurd rfl hne, fun hall => absurd hall hsy⟩
  last p hp := by
    obtain ⟨-, rfl⟩ := of_getElem?_framePackets hp
    rw [(framePacket_fields cfg hbpp slot _).2.2]
    exact decide_eq_true (.inl rfl)
  stride i hi := by
    rw [length_framePackets] at hi
    -- the last packet before the next multiple of the stride
    refine ⟨i + (isoIntrStride - 1 - i % isoIntrStride), _, by omega, ?_, getElem?_framePackets ?_, ?_⟩
    · simp only [isoIntrStride]
      omega
    · simp only [isoIntrStride] at hi ⊢
      omega
    · rw [(framePacket_fields cfg hbpp slot _).2.2]
      refine decide_eq_true (.inr ?_)
      simp only [isoIntrStride]
      omega
  whole hall := by
    rw [length_framePackets]
    exact hwhole hall

/-- A packet of a queued frame has as many bytes as its control word can say. -/
theorem isoBpp_lt (h : QueuesRight cfg iso) (hppf : iso.isoPpf ≠ 0) : iso.isoBpp < 2 ^ 16 := by
  obtain ⟨sent, -, hsent⟩ := h (fun _ => some 1) 0
  have hlength := hsent.whole fun _ => ⟨1, rfl, Nat.one_pos⟩
  obtain ⟨first, hfirst⟩ : ∃ first, sent[0]? = some first :=
    ⟨_, List.getElem?_eq_getElem (by omega)⟩
  rw [← (hsent.payload 0 _ hfirst).2]
  exact BitVec.isLt _

end

/-- The packets of a frame are queued right, whatever the kernel takes, when their size fits the
sixteen bits of the control word. -/
theorem queuesRight_iff (cfg : PacketConfig) (iso : IsoGeometry) :
    QueuesRight cfg iso ↔ iso.isoBpp < 2 ^ 16 ∨ iso.isoPpf = 0 := by
  constructor
  · intro h
    by_cases hppf : iso.isoPpf = 0
    · exact .inr hppf
    · exact .inl (isoBpp_lt h hppf)
  · intro h answers slot
    rcases h with hbpp | hppf
    · obtain ⟨n, hn, hsent, hwhole⟩ :=
        queueFrom_eq cfg hbpp answers slot (Nat.zero_le _) (Nat.lt_succ_self _) 0
      exact ⟨_, hsent, frameQueued_framePackets hbpp hn hwhole⟩
    · refine ⟨[], ?_, by simp, by simp, by simp, by simp, fun i hi => ?_, fun _ => hppf.symm⟩
      · rw [isoQueueFrame, hppf, queueFrom, if_neg (by omega)]
      · simp [isoIntrStride] at hi

/-- Two lines of 32768 pixels in 16-bit mono. -/
def wideMono16 : IsoGeometry := ⟨65536, 2, 131072, Dcam.pixMono16, 32768, 2⟩

/-- The registers take such lines, and their packets are queued with a length of zero. -/
theorem not_queuesRight_wide :
    (((Camera.powerUp fun _ => 0).csrWrite ⟨0, by decide⟩ Dcam.f7ImageSize (word 32768 2)).bind
      fun cam => (cam.csrWrite ⟨0, by decide⟩ Dcam.f7ColorCodingId 0x05000000).bind fun cam =>
        isoComputeGeometry { cam with curFormat := Dcam.f7Format, curMode := 0 }) =
      some wideMono16 ∧ ¬QueuesRight ⟨0, false, by decide⟩ wideMono16 := by
  refine ⟨by decide +kernel, fun h => ?_⟩
  exact absurd (isoBpp_lt h (by decide)) (by decide)

end Fake
end Photonic
