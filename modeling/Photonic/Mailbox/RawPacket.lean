import Photonic.Mailbox.Head
import Photonic.Ioctl.Slot

namespace Photonic

def statusInvalidBufferSize : NtStatus := 0xC0000206

@[simp] theorem ntSuccess_statusInvalidBufferSize : ntSuccess statusInvalidBufferSize = false := by
  decide

namespace Mailbox
open Head

def ulongOfBytes (q : Quad Byte) : BitVec 32 := q.b3 ++ q.b2 ++ q.b1 ++ q.b0

def bytesOfUlong (w : BitVec 32) : Quad Byte :=
  ⟨w.extractLsb' 0 8, w.extractLsb' 8 8, w.extractLsb' 16 8, w.extractLsb' 24 8⟩

def rtlUlongByteSwap (w : BitVec 32) : BitVec 32 :=
  w.extractLsb' 0 8 ++ w.extractLsb' 8 8 ++ w.extractLsb' 16 8 ++ w.extractLsb' 24 8

@[simp] theorem bytesOfUlong_ulongOfBytes (q : Quad Byte) : bytesOfUlong (ulongOfBytes q) = q := by
  obtain ⟨a, b, c, d⟩ := q
  simp only [bytesOfUlong, ulongOfBytes, Quad.mk.injEq]
  refine ⟨?_, ?_, ?_, ?_⟩ <;> ext i hi <;>
    simp only [BitVec.getElem_extractLsb', BitVec.getLsbD_append] <;> grind

@[simp] theorem ulongOfBytes_bytesOfUlong (w : BitVec 32) : ulongOfBytes (bytesOfUlong w) = w := by
  simp only [ulongOfBytes, bytesOfUlong]
  ext i hi
  simp only [BitVec.getElem_append, BitVec.getElem_extractLsb']
  grind

theorem bytesOfUlong_byteSwap (w : BitVec 32) :
    bytesOfUlong (rtlUlongByteSwap w) = (bytesOfUlong w).reverse :=
  bytesOfUlong_ulongOfBytes (bytesOfUlong w).reverse

/-- The loop that swaps every `ULONG` of a buffer in place. -/
def swapUlongs : List Byte → List Byte :=
  Quads.each fun q => bytesOfUlong (rtlUlongByteSwap (ulongOfBytes q))

theorem swapUlongs_eq_swapDwords : swapUlongs = Camera.swapDwords := by
  unfold swapUlongs Camera.swapDwords
  congr 1
  funext q
  rw [bytesOfUlong_byteSwap, bytesOfUlong_ulongOfBytes]

theorem swapDwords_swapUlongs (l : List Byte) : Camera.swapDwords (swapUlongs l) = l := by
  rw [swapUlongs_eq_swapDwords]
  exact Quads.each_cancel Quad.reverse_reverse l

theorem swapUlongs_swapDwords (l : List Byte) : swapUlongs (Camera.swapDwords l) = l := by
  rw [swapUlongs_eq_swapDwords]
  exact Quads.each_cancel Quad.reverse_reverse l

@[simp] theorem length_swapUlongs (l : List Byte) : (swapUlongs l).length = l.length :=
  Quads.length_each _ _

/-- What carries block transactions to a node: the camera, or a bus that loses them. -/
structure BlockPort (σ : Type*) where
  write : ℕ → List Byte → σ → NtStatus × σ
  read : ℕ → ℕ → σ → (NtStatus × List Byte) × σ

/-- `PHOTONIC_IOCTL_REQUEST`, of what this verb reads. `buffer` is the system buffer, which
the input and the output share. -/
structure RawRequest where
  buffer : List Byte
  inputLength : ℕ
  outputLength : ℕ
  deriving DecidableEq, Repr

structure RawReply where
  status : NtStatus
  error : PlError
  information : ℕ
  buffer : List Byte
  deriving DecidableEq, Repr

def mailboxBaseCsrAddr : ℕ := 0xF0204000

def maxPacketBytes : ℕ := 4096

variable {σ : Type*}

/-- `Photonic1394WriteBlock` -/
def writeBlock (port : BlockPort σ) (address : ℕ) (data : List Byte) (s : σ) : NtStatus × σ :=
  if data.length = 0 then (statusInvalidParameter, s) else port.write address data s

/-- `Photonic1394ReadBlock`. The bounce buffer starts out as zeros. -/
def readBlock (port : BlockPort σ) (address length : ℕ) (s : σ) : (NtStatus × List Byte) × σ :=
  if length = 0 then ((statusInvalidParameter, []), s)
  else
    let ((status, resp), s) := port.read address length s
    ((status, (resp ++ List.replicate length 0).take length), s)

def rawPacket (port : BlockPort σ) (request : RawRequest) (s : σ) : RawReply × σ :=
  let inLen := request.inputLength
  let outLen := request.outputLength
  let address := 0xFFFF <<< 32 ||| mailboxBaseCsrAddr
  if inLen % 4 ≠ 0 ∨ outLen % 4 ≠ 0 then
    (⟨statusInvalidBufferSize, .invalidCount, 0, request.buffer⟩, s)
  else if maxPacketBytes < inLen ∨ maxPacketBytes < outLen then
    (⟨statusInvalidBufferSize, .invalidCount, 0, request.buffer⟩, s)
  else
    let buffer := swapUlongs (request.buffer.take inLen) ++ request.buffer.drop inLen
    let (status, s) := writeBlock port address (buffer.take inLen) s
    if !ntSuccess status then (⟨status, .hardware, 0, buffer⟩, s)
    else if 0 < outLen then
      let ((status, data), s) := readBlock port address outLen s
      if !ntSuccess status then (⟨status, .hardware, 0, buffer⟩, s)
      else (⟨statusSuccess, .success, outLen, swapUlongs data ++ buffer.drop outLen⟩, s)
    else (⟨statusSuccess, .success, 0, buffer⟩, s)

/-- `PHOTONIC_MAILBOX_PKT1008_IN`, behind its command word. -/
structure Pkt1008In where
  deviceAddr : Byte
  subCommand : Byte
  mode : Byte
  pad : Byte
  deriving DecidableEq, Repr

/-- `PHOTONIC_MAILBOX_PKT1009_IN`, behind its command word. -/
structure Pkt1009In where
  deviceAddr : Byte
  subCommand : Byte
  mode : Byte
  pad : Byte
  value : Byte
  reserved : Byte × Byte × Byte
  deriving DecidableEq, Repr

def commandBytes (command : BitVec 32) : List Byte :=
  let q := bytesOfUlong command
  [q.b0, q.b1, q.b2, q.b3]

theorem command_commandBytes (w : BitVec 32) (l : List Byte) :
    Camera.command (commandBytes w ++ l) = w :=
  ulongOfBytes_bytesOfUlong w

def Pkt1008In.bytes (p : Pkt1008In) : List Byte :=
  commandBytes 0x1008 ++ [p.deviceAddr, p.subCommand, p.mode, p.pad]

def Pkt1009In.bytes (p : Pkt1009In) : List Byte :=
  commandBytes 0x1009 ++
    [p.deviceAddr, p.subCommand, p.mode, p.pad, p.value, p.reserved.1, p.reserved.2.1, p.reserved.2.2]

@[simp] theorem Pkt1008In.length_bytes (p : Pkt1008In) : p.bytes.length = 8 := rfl
@[simp] theorem Pkt1009In.length_bytes (p : Pkt1009In) : p.bytes.length = 12 := rfl

def dcamMailboxAddr : ℕ := 0xfffff0000000 + 0x204000
def dcamMailboxLength : ℕ := 0x1000

/-- `find_region`, of the mailbox. -/
def inMailbox (address : ℕ) : Bool :=
  decide (dcamMailboxAddr ≤ address ∧ address < dcamMailboxAddr + dcamMailboxLength)

/-- `dispatch_request`: every transaction completes, outside a region without an effect. -/
def cameraPort : BlockPort Camera where
  write address data cam :=
    (statusSuccess, if inMailbox address then cam.onMailboxWrite data else cam)
  read address length cam :=
    ((statusSuccess,
      if inMailbox address then cam.onMailboxRead length else
        List.replicate (min length mailboxSize) 0), cam)

theorem inMailbox_rawPacket : inMailbox (0xFFFF <<< 32 ||| mailboxBaseCsrAddr) = true := by decide

/-- What a packet that meets the verb's checks does: the camera latches it, and its answer is
in the buffer, padded with zeros. -/
theorem rawPacket_cameraPort (packet : List Byte) {outLen : ℕ} (rest : List Byte) (cam : Camera)
    (hin : packet.length % 4 = 0) (hmax : packet.length ≤ maxPacketBytes) (h0 : 0 < packet.length)
    (hout : outLen % 4 = 0) (homax : outLen ≤ maxPacketBytes) :
    let cam' := cam.onMailboxWrite (swapUlongs packet)
    let done := rawPacket cameraPort ⟨packet ++ rest, packet.length, outLen⟩ cam
    done.2 = cam' ∧ done.1.status = statusSuccess ∧ done.1.information = outLen ∧
      done.1.buffer.take outLen = swapUlongs
        ((cam'.onMailboxRead outLen ++ List.replicate outLen 0).take outLen) := by
  have hne : packet.length ≠ 0 := by omega
  have hw : writeBlock cameraPort (0xFFFF <<< 32 ||| mailboxBaseCsrAddr) (swapUlongs packet) cam =
      (statusSuccess, cam.onMailboxWrite (swapUlongs packet)) := by
    simp only [writeBlock, length_swapUlongs, if_neg hne, cameraPort, inMailbox_rawPacket, if_true]
  have htake : (swapUlongs packet ++ rest).take packet.length = swapUlongs packet := by
    rw [List.take_left' (length_swapUlongs packet)]
  simp only [rawPacket, hin, hout, ne_eq, not_true_eq_false, or_self, if_false, not_lt.2 hmax,
    not_lt.2 homax, List.take_left', List.drop_left', htake, hw, ntSuccess_statusSuccess,
    Bool.not_true, Bool.false_eq_true]
  by_cases ho : 0 < outLen
  · have hr : outLen ≠ 0 := by omega
    simp only [if_pos ho, readBlock, if_neg hr, cameraPort, inMailbox_rawPacket, if_true,
      ntSuccess_statusSuccess, Bool.not_true, Bool.false_eq_true, if_false, true_and]
    exact List.take_left' (by simp)
  · have hz : outLen = 0 := by omega
    subst hz
    simp [swapUlongs, Quads.each]

theorem rawPacket_response {packet : List Byte} {outLen : ℕ} (rest : List Byte) (cam : Camera)
    (hin : packet.length % 4 = 0) (hmax : packet.length ≤ maxPacketBytes) (h0 : 0 < packet.length)
    (hout : outLen % 4 = 0) (homax : outLen ≤ maxPacketBytes) {i : ℕ} (hi : i < outLen)
    (him : i < mailboxSize) :
    (rawPacket cameraPort ⟨packet ++ rest, packet.length, outLen⟩ cam).1.buffer.getD i 0 =
      ((cam.onMailboxWrite (swapUlongs packet)).response (min outLen mailboxSize)).getD i 0 := by
  obtain ⟨-, -, -, hb⟩ := rawPacket_cameraPort _ rest cam hin hmax h0 hout homax
  set cam' := cam.onMailboxWrite (swapUlongs packet)
  set done := rawPacket cameraPort ⟨packet ++ rest, packet.length, outLen⟩ cam
  have hlen : 4 ∣ (cam'.onMailboxRead outLen).length := by
    simp only [Camera.length_onMailboxRead, mailboxSize]
    omega
  have hcut : done.1.buffer.take outLen =
      (cam'.response (min outLen mailboxSize) ++
        swapUlongs (List.replicate outLen 0)).take outLen := by
    obtain ⟨k, rfl⟩ : 4 ∣ outLen := by omega
    rw [hb, swapUlongs, Quads.each_take, Quads.each_append _ hlen]
    congr 2
    exact swapUlongs_swapDwords _
  have hget := congrArg (fun l => l.getD i 0) hcut
  simp only [List.getD_eq_getElem?_getD, List.getElem?_take_of_lt hi] at hget ⊢
  rw [hget, List.getElem?_append_left (by simp; omega)]

/-- A register write packet sets the register it names. -/
theorem onMailboxWrite_pkt1009 (p : Pkt1009In) (cam : Camera) (ha : p.deviceAddr = i2cDevAddr) :
    cam.onMailboxWrite (swapUlongs p.bytes) =
      { cam with mailboxCmd := p.bytes }.i2cWriteReg p.subCommand.toNat p.value := by
  refine Camera.onMailboxWrite_of_write p.bytes ?_ (by simp)
    (command_commandBytes _ _) ha
  rw [List.take_of_length_le (by simp [mailboxSize])]
  exact swapDwords_swapUlongs _

theorem onMailboxWrite_pkt1008 (p : Pkt1008In) (cam : Camera) :
    cam.onMailboxWrite (swapUlongs p.bytes) = { cam with mailboxCmd := p.bytes } := by
  refine Camera.onMailboxWrite_of_read p.bytes ?_ (command_commandBytes _ _)
  rw [List.take_of_length_le (by simp [mailboxSize])]
  exact swapDwords_swapUlongs _

theorem rawPacket_pkt1008 (p : Pkt1008In) (rest : List Byte) (cam : Camera)
    (ha : p.deviceAddr = i2cDevAddr) {outLen : ℕ} (hout : outLen % 4 = 0) (hmin : 12 ≤ outLen)
    (hmax : outLen ≤ maxPacketBytes) :
    (rawPacket cameraPort ⟨p.bytes ++ rest, p.bytes.length, outLen⟩ cam).1.buffer.getD 8 0 =
      cam.i2cReadReg p.subCommand.toNat := by
  rw [rawPacket_response rest cam (by simp) (by simp [maxPacketBytes]) (by simp) hout hmax
    (by omega) (by simp [mailboxSize]), onMailboxWrite_pkt1008]
  exact Camera.response_of_read (command_commandBytes _ _) (by simp) ha
    (by simp only [mailboxSize]; omega)

/-- A head register written through the driver's verb and the camera's mailbox reads back as
what was written, and it is the only register written. The padding of the packets and the
response lengths are the client's choice. Status is made up from the trigger mode among
others, so that it can only show a write to that one. -/
theorem head_register_round_trip (cam : Camera) (write : Pkt1009In) (read : Pkt1008In)
    (wrest rrest : List Byte) (wout rout : ℕ)
    (hwa : write.deviceAddr = i2cDevAddr) (hra : read.deviceAddr = i2cDevAddr)
    (hsame : read.subCommand = write.subCommand)
    (hcount : write.subCommand.toNat < count) (hstatus : write.subCommand.toNat ≠ status)
    (hwout : wout % 4 = 0 ∧ wout ≤ maxPacketBytes)
    (hrout : rout % 4 = 0 ∧ 12 ≤ rout ∧ rout ≤ maxPacketBytes) :
    let written := rawPacket cameraPort ⟨write.bytes ++ wrest, write.bytes.length, wout⟩ cam
    let back := rawPacket cameraPort ⟨read.bytes ++ rrest, read.bytes.length, rout⟩ written.2
    let reg := write.subCommand.toNat
    written.1.status = statusSuccess ∧ back.1.status = statusSuccess ∧
      back.1.information = rout ∧ back.1.buffer.getD 8 0 = write.value ∧
      (∀ i (hi : i < count), i ≠ reg → back.2.i2cRegs[i] = cam.i2cRegs[i]) ∧
      (∀ i, i ≠ status → i ≠ reg → back.2.i2cReadReg i = cam.i2cReadReg i) ∧
      (reg ≠ triggerMode → back.2.i2cReadReg status = cam.i2cReadReg status) ∧
      ∀ packet : List Byte, 4 ∣ packet.length → packet.length ≤ mailboxSize →
        Camera.swapDwords (swapUlongs packet) = packet ∧
          swapUlongs (Camera.swapDwords packet) = packet := by
  intro written back reg
  obtain ⟨hw, hws, -, -⟩ := rawPacket_cameraPort write.bytes wrest cam (by simp)
    (by simp [maxPacketBytes]) (by simp) hwout.1 hwout.2
  obtain ⟨hb, hbs, hbi, -⟩ := rawPacket_cameraPort read.bytes rrest written.2 (by simp)
    (by simp [maxPacketBytes]) (by simp) hrout.1 hrout.2.2
  rw [onMailboxWrite_pkt1009 write cam hwa] at hw
  rw [onMailboxWrite_pkt1008] at hb
  have hread : back.1.buffer.getD 8 0 = written.2.i2cReadReg reg := by
    have h := rawPacket_pkt1008 read rrest written.2 hra hrout.1 hrout.2.1 hrout.2.2
    rwa [hsame] at h
  have hregs (i : ℕ) (hi : i < count) :
      back.2.i2cRegs[i] = if i = reg then write.value else cam.i2cRegs[i] := by
    rw [← Camera.getElem_i2cWriteReg { cam with mailboxCmd := write.bytes } _ hstatus hcount,
      ← hw, hb]
  have hreads (i : ℕ) (hi : i ≠ status) :
      written.2.i2cReadReg i = if i = reg then write.value else cam.i2cReadReg i := by
    rw [hw, Camera.i2cReadReg_i2cWriteReg hstatus hcount hi]
    rfl
  refine ⟨hws, hbs, hbi, ?_, ?_, ?_, ?_, ?_⟩
  · rw [hread, hreads reg hstatus, if_pos rfl]
  · intro i hi hne
    rw [hregs i hi, if_neg hne]
  · intro i hi hne
    rw [hb]
    exact (hreads i hi).trans (if_neg hne)
  · intro ht
    rw [hb]
    calc written.2.i2cStatus
        = { cam with mailboxCmd := write.bytes }.i2cStatus := by
          rw [hw, Camera.i2cStatus_i2cWriteReg hstatus hcount ht]
      _ = cam.i2cStatus := rfl
  · intro packet _ _
    exact ⟨swapDwords_swapUlongs packet, swapUlongs_swapDwords packet⟩

/-- A camera fresh from reset, on which X binning is set to 4 and read back. -/
def resetCamera : Camera :=
  ⟨[], powerUpRegs, 0, false⟩

theorem head_register_round_trip_binning :
    let write : Pkt1009In := ⟨i2cDevAddr, 0x0C, 1, 0, 4, (0, 0, 0)⟩
    let read : Pkt1008In := ⟨i2cDevAddr, 0x0C, 1, 0⟩
    let written := rawPacket cameraPort ⟨write.bytes, 12, 8⟩ resetCamera
    let back := rawPacket cameraPort ⟨read.bytes ++ [0, 0, 0, 0], 8, 12⟩ written.2
    back.1.buffer.getD 8 0 = 4 := by
  have h := head_register_round_trip resetCamera ⟨i2cDevAddr, 0x0C, 1, 0, 4, (0, 0, 0)⟩
    ⟨i2cDevAddr, 0x0C, 1, 0⟩ [] [0, 0, 0, 0] 8 12 rfl rfl rfl (by decide) (by decide) (by decide)
    (by decide)
  exact h.2.2.2.1

end Mailbox
end Photonic
