import Photonic.Lib.Quads
import Photonic.Engine.State

namespace Photonic

abbrev Byte := BitVec 8

namespace Head

def i2cDevAddr : Byte := 0x14
def count : ℕ := 0x30
def status : ℕ := 0x2A
def triggerMode : ℕ := 0x2C
def statusFrameReady : Byte := 0x04
def triggerExternal : Byte := 0x31

/-- `sizeof(cam->mailbox_cmd)`, and of the response buffers. -/
def mailboxSize : ℕ := 512

/-- `dcam_camera`. `mailboxCmd` is the first `mailbox_cmd_len` bytes of its array: every
read of the array is behind a test of that length. -/
structure Camera where
  mailboxCmd : List Byte
  i2cRegs : Vector Byte count
  triggerPending : ℕ
  isoRunning : Bool
  deriving DecidableEq, Repr

/-- `dcam_i2c_reset`: gains and binning factors power up at 1. -/
def powerUpRegs : Vector Byte count :=
  ((((Vector.replicate count 0).set 0x00 1 (by decide)).set 0x02 1 (by decide)).set 0x0C 1
    (by decide)).set 0x0D 1 (by decide)

namespace Camera

def i2cStatus (cam : Camera) : Byte :=
  if cam.i2cRegs[triggerMode] = triggerExternal then
    if 0 < cam.triggerPending then statusFrameReady else 0
  else
    if cam.isoRunning then statusFrameReady else 0

def i2cReadReg (cam : Camera) (reg : ℕ) : Byte :=
  if reg = status then cam.i2cStatus
  else if h : reg < count then cam.i2cRegs[reg]
  else 0

/-- `dcam_i2c_write_reg`. Leaving external trigger mode drops the pulses not read out. -/
def i2cWriteReg (cam : Camera) (reg : ℕ) (value : Byte) : Camera :=
  if h : reg = status ∨ count ≤ reg then cam
  else
    { cam with
      i2cRegs := cam.i2cRegs.set reg value (by omega)
      triggerPending :=
        if reg = triggerMode ∧ value ≠ triggerExternal then 0 else cam.triggerPending }

def swapDwords : List Byte → List Byte := Quads.each Quad.reverse

def command (packet : List Byte) : BitVec 32 :=
  packet.getD 3 0 ++ packet.getD 2 0 ++ packet.getD 1 0 ++ packet.getD 0 0

def onMailboxWrite (cam : Camera) (wire : List Byte) : Camera :=
  let packet := swapDwords (wire.take mailboxSize)
  let cam := { cam with mailboxCmd := packet }
  if 9 ≤ packet.length ∧ command packet = 0x1009 ∧ packet.getD 4 0 = i2cDevAddr then
    cam.i2cWriteReg (packet.getD 5 0).toNat (packet.getD 8 0)
  else cam

/-- What `dcam_on_mailbox_read` puts into its `resp` of `outlen` bytes. -/
def response (cam : Camera) (outlen : ℕ) : List Byte :=
  let resp := List.replicate outlen 0
  let cmd := if 4 ≤ cam.mailboxCmd.length then command cam.mailboxCmd else 0
  if cmd = 0x1008 then
    if 8 < outlen ∧ 5 < cam.mailboxCmd.length then
      if cam.mailboxCmd.getD 4 0 = i2cDevAddr then
        resp.set 8 (cam.i2cReadReg (cam.mailboxCmd.getD 5 0).toNat)
      else resp.set 8 1
    else resp
  else if cmd = 0x100d then
    -- no external I2C peripheral: the length is echoed over zero data
    if 5 < outlen ∧ 4 < cam.mailboxCmd.length then resp.set 5 (cam.mailboxCmd.getD 4 0) else resp
  else resp

def onMailboxRead (cam : Camera) (length : ℕ) : List Byte :=
  swapDwords (cam.response (min length mailboxSize))

variable {cam : Camera} {reg : ℕ} {value : Byte}

theorem i2cWriteReg_eq (hs : reg ≠ status) (hc : reg < count) :
    cam.i2cWriteReg reg value =
      { cam with
        i2cRegs := cam.i2cRegs.set reg value hc
        triggerPending :=
          if reg = triggerMode ∧ value ≠ triggerExternal then 0 else cam.triggerPending } := by
  have h : ¬(reg = status ∨ count ≤ reg) := by omega
  simp only [i2cWriteReg, dif_neg h]

theorem i2cReadReg_eq (hs : reg ≠ status) (hc : reg < count) :
    cam.i2cReadReg reg = cam.i2cRegs[reg] := by
  simp only [i2cReadReg, if_neg hs, dif_pos hc]

@[simp] theorem mailboxCmd_i2cWriteReg : (cam.i2cWriteReg reg value).mailboxCmd = cam.mailboxCmd := by
  unfold i2cWriteReg
  split <;> rfl

/-- A register is written into its own byte of the file and no other. -/
theorem getElem_i2cWriteReg (cam : Camera) (value : Byte) (hs : reg ≠ status) (hc : reg < count)
    {i : ℕ} (hi : i < count) :
    (cam.i2cWriteReg reg value).i2cRegs[i] = if i = reg then value else cam.i2cRegs[i] := by
  rw [i2cWriteReg_eq hs hc]
  simp only [Vector.getElem_set, eq_comm]

theorem i2cStatus_i2cWriteReg (hs : reg ≠ status) (hc : reg < count) (ht : reg ≠ triggerMode) :
    (cam.i2cWriteReg reg value).i2cStatus = cam.i2cStatus := by
  have hr := getElem_i2cWriteReg cam value hs hc (i := triggerMode) (by decide)
  rw [if_neg (Ne.symm ht)] at hr
  unfold i2cStatus
  rw [hr]
  simp [i2cWriteReg_eq hs hc, ht]

theorem i2cReadReg_i2cWriteReg (hs : reg ≠ status) (hc : reg < count) {i : ℕ} (hi : i ≠ status) :
    (cam.i2cWriteReg reg value).i2cReadReg i = if i = reg then value else cam.i2cReadReg i := by
  by_cases hic : i < count
  · rw [i2cReadReg_eq hi hic, i2cReadReg_eq hi hic, getElem_i2cWriteReg cam value hs hc hic]
  · have hne : i ≠ reg := by omega
    simp [i2cReadReg, hi, hic, hne]

@[simp] theorem length_swapDwords (l : List Byte) : (swapDwords l).length = l.length :=
  Quads.length_each _ _

@[simp] theorem length_response (n : ℕ) : (cam.response n).length = n := by
  simp only [response]
  split_ifs <;> simp

@[simp] theorem length_onMailboxRead (n : ℕ) :
    (cam.onMailboxRead n).length = min n mailboxSize := by
  simp [onMailboxRead]

theorem onMailboxWrite_of_write {wire : List Byte} (packet : List Byte)
    (hp : swapDwords (wire.take mailboxSize) = packet) (hl : 9 ≤ packet.length)
    (hc : command packet = 0x1009) (ha : packet.getD 4 0 = i2cDevAddr) :
    cam.onMailboxWrite wire =
      { cam with mailboxCmd := packet }.i2cWriteReg (packet.getD 5 0).toNat (packet.getD 8 0) := by
  subst hp
  simp only [onMailboxWrite]
  rw [if_pos ⟨hl, hc, ha⟩]

theorem onMailboxWrite_of_read {wire : List Byte} (packet : List Byte)
    (hp : swapDwords (wire.take mailboxSize) = packet) (hc : command packet = 0x1008) :
    cam.onMailboxWrite wire = { cam with mailboxCmd := packet } := by
  subst hp
  have h : ¬command (swapDwords (wire.take mailboxSize)) = 0x1009 := by rw [hc]; decide
  simp only [onMailboxWrite, h, false_and, and_false, if_false]

theorem response_of_read {n : ℕ} (hc : command cam.mailboxCmd = 0x1008)
    (hl : 5 < cam.mailboxCmd.length) (ha : cam.mailboxCmd.getD 4 0 = i2cDevAddr) (hn : 8 < n) :
    (cam.response n).getD 8 0 = cam.i2cReadReg (cam.mailboxCmd.getD 5 0).toNat := by
  have h4 : 4 ≤ cam.mailboxCmd.length := by omega
  simp only [response, if_pos h4, if_pos hc, if_pos (And.intro hn hl), if_pos ha]
  simp [List.getD_eq_getElem?_getD, hn]

end Camera
end Head
end Photonic
