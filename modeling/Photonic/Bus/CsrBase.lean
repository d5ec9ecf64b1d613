import Photonic.Fake.ConfigRom
import Photonic.Fake.Format7

namespace Photonic
namespace CsrBase
open Dcam Fake Mailbox

def registerSpaceHigh : BitVec 64 := 0xFFFF
def registerSpaceLow : BitVec 32 := 0xF0000000
def csrBaseMin : BitVec 32 := 0xF0000000
def csrBaseMax : BitVec 32 := 0xF1000000
def keyCommandBase : BitVec 32 := 0x40

def configRomSignature : BitVec 32 := 0x31333934

/-- `REQUEST_GET_CONFIGURATION_INFO` to the bus driver: the size it asks for in bytes, then the
signature of the bus-info block and the quadlets it copies. -/
structure ConfigurationInfo where
  sizeQuery : Except NtStatus ℕ
  fetch : ℕ → Except NtStatus (BitVec 32 × List (BitVec 32))

def getUnitDependentDirectory (bus : ConfigurationInfo) : Except NtStatus (List (BitVec 32)) := do
  let size ← bus.sizeQuery
  if size < 4 then throw statusDeviceConfigurationError
  else
    let r ← bus.fetch size
    -- the buffer is zeroed before the bus driver copies into it
    let buffer := (List.range (size / 4)).map fun i => r.2.getD i 0
    if r.1 = rtlUlongByteSwap configRomSignature then return buffer.map rtlUlongByteSwap
    else return buffer

/-- `Photonic1394DiscoverCsrBase`: what `CsrBaseAddress` becomes. -/
def discoverCsrBase (bus : ConfigurationInfo) : Except NtStatus (BitVec 64) := do
  let directory ← getUnitDependentDirectory bus
  match directory.find? fun (w : BitVec 32) => w >>> 24 &&& 0xFF == keyCommandBase with
  | none => throw statusDeviceConfigurationError
  | some w =>
    let csrBaseLow := registerSpaceLow + (w &&& 0x00FFFFFF) <<< 2
    if csrBaseLow < csrBaseMin ∨ csrBaseMax ≤ csrBaseLow then throw statusDeviceConfigurationError
    else return registerSpaceHigh <<< 32 ||| csrBaseLow.setWidth 64

/-- `Photonic1394CsrPointerToOffset` in the 64-bit arithmetic it is written in. -/
def csrPointerToOffset64 (csrBaseAddress : BitVec 64) (pointer blockBytes : BitVec 32) :
    Except NtStatus (BitVec 32) :=
  let base := registerSpaceHigh <<< 32 ||| registerSpaceLow.setWidth 64
  let absolute := base + pointer.setWidth 64 * 4
  let windowMin := registerSpaceHigh <<< 32 ||| csrBaseMin.setWidth 64
  let windowMax := registerSpaceHigh <<< 32 ||| csrBaseMax.setWidth 64
  if absolute < windowMin ∨ windowMax < absolute + blockBytes.setWidth 64 ∨
      absolute < csrBaseAddress then .error statusDeviceConfigurationError
  else .ok ((absolute - csrBaseAddress).setWidth 32)

/-- The 64-bit arithmetic does not wrap, whatever pointer the device returns: the routine is
the one the mode enumeration uses. -/
theorem csrPointerToOffset64_exact (csrBaseAddress : BitVec 64) (pointer blockBytes : BitVec 32) :
    (csrPointerToOffset64 csrBaseAddress pointer blockBytes).map BitVec.toNat =
      csrPointerToOffset csrBaseAddress.toNat pointer blockBytes.toNat := by
  have hp := pointer.isLt
  have hb := blockBytes.isLt
  have hbase : registerSpaceHigh <<< 32 ||| registerSpaceLow.setWidth 64 = 0xFFFFF0000000#64 := by
    decide
  have hmin : registerSpaceHigh <<< 32 ||| csrBaseMin.setWidth 64 = 0xFFFFF0000000#64 := by decide
  have hmax : registerSpaceHigh <<< 32 ||| csrBaseMax.setWidth 64 = 0xFFFFF1000000#64 := by decide
  have habs : (0xFFFFF0000000#64 + pointer.setWidth 64 * 4).toNat =
      0xFFFFF0000000 + pointer.toNat * 4 := by
    simp
    omega
  simp only [csrPointerToOffset64, hbase, hmin, hmax]
  generalize hx : 0xFFFFF0000000#64 + pointer.setWidth 64 * 4 = absolute at habs ⊢
  have hend : (absolute + blockBytes.setWidth 64).toNat = absolute.toNat + blockBytes.toNat := by
    rw [BitVec.toNat_add, BitVec.toNat_setWidth]
    omega
  have hguard : (absolute < 0xFFFFF0000000#64 ∨
      0xFFFFF1000000#64 < absolute + blockBytes.setWidth 64 ∨ absolute < csrBaseAddress) ↔
      (absolute.toNat < 0xFFFFF0000000 ∨ 0xFFFFF1000000 < absolute.toNat + blockBytes.toNat ∨
        absolute.toNat < csrBaseAddress.toNat) := by
    rw [BitVec.lt_def, BitVec.lt_def, BitVec.lt_def, hend]
    rfl
  simp only [csrPointerToOffset, ← habs, hguard]
  split
  · rfl
  · next hok =>
    have hsub : (absolute - csrBaseAddress).toNat = absolute.toNat - csrBaseAddress.toNat :=
      BitVec.toNat_sub_of_le (BitVec.le_def.mpr (by omega))
    simp only [Except.map, BitVec.toNat_setWidth, hsub]

/-- The command registers and the Format 7 register blocks behind them. -/
def regionBytes : ℕ := f7CsrBlock + numF7Modes * f7CsrBlockLen

def dcamF7CsrPointer (csrBase : BitVec 32) (mode : ℕ) : BitVec 32 :=
  (csrBase - 0xf0000000 + BitVec.ofNat 32 (f7CsrBlock + mode * f7CsrBlockLen)) / 4

/-- The register that the emulated camera answers with. -/
theorem csrPointer_eq (cfg : Config) {mode : ℕ} (hmode : mode < numF7Modes) :
    cfg.csrPointer mode = dcamF7CsrPointer (BitVec.ofNat 32 cfg.csrBase) mode := by
  have hge := cfg.csrBase_ge
  have hle := cfg.csrBase_le
  have hlow : (0xf0000000 : BitVec 32).toNat = 0xf0000000 := rfl
  have hfour : (4 : BitVec 32).toNat = 4 := rfl
  simp only [numF7Modes] at hmode
  apply BitVec.eq_of_toNat_eq
  simp only [Config.csrPointer, hlow, hfour, dcamF7CsrPointer, f7CsrBlock, f7CsrBlockLen, BitVec.toNat_udiv,
    BitVec.toNat_add, BitVec.toNat_sub, BitVec.toNat_ofNat]
  omega

/-- The kernel ors a block's checksum into its header. -/
def fillChecksum (checksum : BitVec 16) : List Quadlet → List Quadlet
  | [] => []
  | header :: body => (header ||| checksum.setWidth 32) :: body

def inOrder (swapped : Bool) (w : BitVec 32) : BitVec 32 := if swapped then rtlUlongByteSwap w else w

/-- A bus driver that hands the signature and the directory over in one byte order. -/
def handsOver (swapped : Bool) (directory : List Quadlet) : ConfigurationInfo where
  sizeQuery := .ok (4 * directory.length)
  fetch _ := .ok (inOrder swapped configRomSignature, directory.map (inOrder swapped))

theorem byteSwap_byteSwap (w : BitVec 32) : rtlUlongByteSwap (rtlUlongByteSwap w) = w := by
  rw [← ulongOfBytes_bytesOfUlong (rtlUlongByteSwap (rtlUlongByteSwap w)),
    bytesOfUlong_byteSwap, bytesOfUlong_byteSwap w, Quad.reverse_reverse, ulongOfBytes_bytesOfUlong]

/-- The signature tells the byte order, and the directory comes out in the host's. -/
theorem getUnitDependentDirectory_handsOver (swapped : Bool) {directory : List Quadlet}
    (hne : directory ≠ []) :
    getUnitDependentDirectory (handsOver swapped directory) = .ok directory := by
  have hpos : ¬4 * directory.length < 4 := by
    have := List.length_pos_iff.mpr hne
    omega
  have hbuffer : ∀ l : List Quadlet, (List.range (4 * l.length / 4)).map (fun i => l.getD i 0) = l := by
    intro l
    rw [Nat.mul_div_cancel_left _ (by decide)]
    apply List.ext_getElem (by simp)
    intro i h₁ h₂
    simp [List.getD_eq_getElem?_getD, h₂]
  have hlen : (directory.map (inOrder swapped)).length = directory.length := List.length_map _
  have hread := hbuffer (directory.map (inOrder swapped))
  rw [hlen] at hread
  simp only [getUnitDependentDirectory, handsOver, bind, Except.bind, hpos, if_false, hread]
  cases swapped with
  | true => simp [inOrder, pure, Except.pure, byteSwap_byteSwap, Function.comp_def]
  | false =>
    have hsig : configRomSignature ≠ rtlUlongByteSwap configRomSignature := by decide
    have hid : inOrder false = id := rfl
    simp [hid, pure, Except.pure, hsig]

theorem header_not_key (checksum : BitVec 16) :
    ((romHeader 1 ||| checksum.setWidth 32) >>> 24 &&& 0xFF == keyCommandBase) = false := by
  have hc := checksum.isLt
  have hlt : (romHeader 1 ||| checksum.setWidth 32).toNat < 2 ^ 17 := by
    rw [BitVec.toNat_or]
    apply Nat.or_lt_two_pow
    · decide
    · rw [BitVec.toNat_setWidth]
      omega
  have hzero : (romHeader 1 ||| checksum.setWidth 32) >>> 24 = 0 := by
    apply BitVec.eq_of_toNat_eq
    rw [BitVec.toNat_ushiftRight, Nat.shiftRight_eq_div_pow]
    exact Nat.div_eq_of_lt (by omega)
  rw [hzero]
  decide

section Window
variable {csrBase : BitVec 32}

theorem toNat_dcamUdepEntry (hmin : csrBaseMin.toNat ≤ csrBase.toNat)
    (hmax : csrBase.toNat + regionBytes ≤ csrBaseMax.toNat) :
    (dcamUdepEntry csrBase).toNat = 0x40 * 2 ^ 24 + (csrBase.toNat - 0xF0000000) / 4 := by
  have hlow : csrBaseMin.toNat = 0xF0000000 := rfl
  have hhigh : csrBaseMax.toNat = 0xF1000000 := rfl
  have hmask : (0x03FFFFFF : Quadlet).toNat = 2 ^ 26 - 1 := rfl
  have hkey : (csrOffset <<< 24).toNat = 0x40 <<< 24 := rfl
  have hvalue : csrBase.toNat / 4 % 2 ^ 26 = (csrBase.toNat - 0xF0000000) / 4 := by omega
  rw [dcamUdepEntry, BitVec.toNat_or, BitVec.toNat_and, hmask, hkey, BitVec.toNat_ushiftRight,
    Nat.shiftRight_eq_div_pow, Nat.and_two_pow_sub_one_eq_mod, hvalue,
    ← Nat.shiftLeft_add_eq_or_of_lt (by omega), Nat.shiftLeft_eq]

theorem discoverCsrBase_handsOver (swapped : Bool) (checksum : BitVec 16)
    (halign : csrBase.toNat % 4 = 0) (hmin : csrBaseMin.toNat ≤ csrBase.toNat)
    (hmax : csrBase.toNat + regionBytes ≤ csrBaseMax.toNat) :
    discoverCsrBase (handsOver swapped
      (fillChecksum checksum [romHeader 1, dcamUdepEntry csrBase])) =
      .ok (registerSpaceHigh <<< 32 ||| csrBase.setWidth 64) := by
  have hentry := toNat_dcamUdepEntry hmin hmax
  have hlow : csrBaseMin.toNat = 0xF0000000 := rfl
  have hhigh : csrBaseMax.toNat = 0xF1000000 := rfl
  have hregion : regionBytes = 0xe00 := rfl
  have hkey : (dcamUdepEntry csrBase >>> 24 &&& 0xFF == keyCommandBase) = true := by
    rw [beq_iff_eq]
    apply BitVec.eq_of_toNat_eq
    rw [BitVec.toNat_and, BitVec.toNat_ushiftRight, hentry, Nat.shiftRight_eq_div_pow]
    have hdiv : (0x40 * 2 ^ 24 + (csrBase.toNat - 0xF0000000) / 4) / 2 ^ 24 = 0x40 := by omega
    rw [hdiv]
    rfl
  have hbase : registerSpaceLow + (dcamUdepEntry csrBase &&& 0x00FFFFFF) <<< 2 = csrBase := by
    have hmask : (0x00FFFFFF : BitVec 32).toNat = 2 ^ 24 - 1 := rfl
    have hspace : registerSpaceLow.toNat = 0xF0000000 := rfl
    apply BitVec.eq_of_toNat_eq
    rw [BitVec.toNat_add, BitVec.toNat_shiftLeft, BitVec.toNat_and, hentry, hmask, hspace,
      Nat.and_two_pow_sub_one_eq_mod, Nat.shiftLeft_eq]
    omega
  have hwindow : ¬(csrBase < csrBaseMin ∨ csrBaseMax ≤ csrBase) := by
    rw [BitVec.lt_def, BitVec.le_def]
    omega
  simp only [discoverCsrBase, getUnitDependentDirectory_handsOver swapped (List.cons_ne_nil _ _),
    fillChecksum, bind, Except.bind, List.find?_cons, header_not_key, hkey, hbase, hwindow,
    if_false]
  rfl

theorem toNat_dcamF7CsrPointer (halign : csrBase.toNat % 4 = 0)
    (hmin : csrBaseMin.toNat ≤ csrBase.toNat)
    (hmax : csrBase.toNat + regionBytes ≤ csrBaseMax.toNat) {mode : ℕ} (hmode : mode < numF7Modes) :
    (dcamF7CsrPointer csrBase mode).toNat * 4 =
      csrBase.toNat - 0xF0000000 + (f7CsrBlock + mode * f7CsrBlockLen) := by
  have hlow : csrBaseMin.toNat = 0xF0000000 := rfl
  have hhigh : csrBaseMax.toNat = 0xF1000000 := rfl
  have hspace : (0xf0000000 : BitVec 32).toNat = 0xf0000000 := rfl
  have hfour : (4 : BitVec 32).toNat = 4 := rfl
  simp only [numF7Modes] at hmode
  simp only [dcamF7CsrPointer, f7CsrBlock, f7CsrBlockLen, BitVec.toNat_udiv, BitVec.toNat_add,
    BitVec.toNat_sub, BitVec.toNat_ofNat, hspace, hfour]
  omega

end Window

theorem toNat_base {low : BitVec 32} :
    (registerSpaceHigh <<< 32 ||| low.setWidth 64).toNat = 0xFFFF00000000 + low.toNat := by
  have hlow := low.isLt
  have hhigh : (registerSpaceHigh <<< 32).toNat = 0xFFFF <<< 32 := rfl
  have hset : (low.setWidth 64).toNat = low.toNat := by
    rw [BitVec.toNat_setWidth]
    omega
  rw [BitVec.toNat_or, hhigh, hset, ← Nat.shiftLeft_add_eq_or_of_lt hlow, Nat.shiftLeft_eq]

theorem discoverCsrBase_window {bus : ConfigurationInfo} {base : BitVec 64}
    (h : discoverCsrBase bus = .ok base) :
    0xFFFFF0000000 ≤ base.toNat ∧ base.toNat < 0xFFFFF1000000 := by
  simp only [discoverCsrBase, bind, Except.bind] at h
  split at h
  · cases h
  · split at h
    · cases h
    · split at h
      · cases h
      · next hwindow =>
        obtain rfl := Except.ok.inj h
        rw [BitVec.lt_def, BitVec.le_def] at hwindow
        have hlow : csrBaseMin.toNat = 0xF0000000 := rfl
        have hhigh : csrBaseMax.toNat = 0xF1000000 := rfl
        rw [toNat_base]
        omega

/-- What the decoding accepts lies above the base and ends inside the window, and the offset is
the distance from the base itself. -/
theorem csrPointerToOffset64_sound {base : BitVec 64} {pointer blockBytes offset : BitVec 32}
    (hbase : 0xFFFFF0000000 ≤ base.toNat)
    (h : csrPointerToOffset64 base pointer blockBytes = .ok offset) :
    base.toNat + offset.toNat = 0xFFFFF0000000 + pointer.toNat * 4 ∧
      base.toNat + offset.toNat + blockBytes.toNat ≤ 0xFFFFF1000000 := by
  have hexact := csrPointerToOffset64_exact base pointer blockBytes
  rw [h] at hexact
  simp only [Except.map, csrPointerToOffset] at hexact
  split at hexact
  · cases hexact
  · next hguard =>
    have hoffset := Except.ok.inj hexact
    omega

theorem csrPointerToOffset64_csrPointer {csrBase : BitVec 32} (halign : csrBase.toNat % 4 = 0)
    (hmin : csrBaseMin.toNat ≤ csrBase.toNat)
    (hmax : csrBase.toNat + regionBytes ≤ csrBaseMax.toNat) {mode : ℕ} (hmode : mode < numF7Modes) :
    csrPointerToOffset64 (registerSpaceHigh <<< 32 ||| csrBase.setWidth 64)
      (dcamF7CsrPointer csrBase mode) (BitVec.ofNat 32 (f7BytePerPacket + 4)) =
      .ok (BitVec.ofNat 32 (f7CsrBlock + mode * f7CsrBlockLen)) := by
  have hexact := csrPointerToOffset64_exact (registerSpaceHigh <<< 32 ||| csrBase.setWidth 64)
    (dcamF7CsrPointer csrBase mode) (BitVec.ofNat 32 (f7BytePerPacket + 4))
  have hpointer := toNat_dcamF7CsrPointer halign hmin hmax hmode
  have hlow : csrBaseMin.toNat = 0xF0000000 := rfl
  have hhigh : csrBaseMax.toNat = 0xF1000000 := rfl
  have hbytes : (BitVec.ofNat 32 (f7BytePerPacket + 4)).toNat = 0x48 := rfl
  have hregion : regionBytes = 0xe00 := rfl
  have hblock : f7CsrBlock + mode * f7CsrBlockLen = 0xa00 + mode * 0x100 := rfl
  simp only [numF7Modes] at hmode
  rw [toNat_base, csrPointerToOffset, hpointer, hbytes, if_neg (by omega)] at hexact
  cases hd : csrPointerToOffset64 (registerSpaceHigh <<< 32 ||| csrBase.setWidth 64)
      (dcamF7CsrPointer csrBase mode) (BitVec.ofNat 32 (f7BytePerPacket + 4)) with
  | error e =>
    rw [hd] at hexact
    cases hexact
  | ok offset =>
    rw [hd] at hexact
    have hoffset := Except.ok.inj hexact
    congr 1
    apply BitVec.eq_of_toNat_eq
    rw [hoffset, BitVec.toNat_ofNat]
    omega

/-- For a base whose register region lies in the window, in either byte order and with any
checksum, the driver finds the base and each mode's register block; and from no device does it
accept a block outside the window or below the base it discovered. -/
theorem csr_base_agreement :
    (∀ (dev : FwDevice) (checksum : BitVec 16) (swapped : Bool), dev.haveCsrBase = true →
      dev.csrBase.toNat % 4 = 0 → csrBaseMin.toNat ≤ dev.csrBase.toNat →
      dev.csrBase.toNat + regionBytes ≤ csrBaseMax.toNat →
      ∃ base, discoverCsrBase (handsOver swapped (fillChecksum checksum dev.udepDirectory)) =
          .ok base ∧
        base.toNat = 0xFFFF00000000 + dev.csrBase.toNat ∧
        ∀ mode < numF7Modes, csrPointerToOffset64 base (dcamF7CsrPointer dev.csrBase mode)
          (BitVec.ofNat 32 (f7BytePerPacket + 4)) =
          .ok (BitVec.ofNat 32 (f7CsrBlock + mode * f7CsrBlockLen))) ∧
    (∀ (bus : ConfigurationInfo) (base : BitVec 64), discoverCsrBase bus = .ok base →
      ∀ pointer blockBytes offset, csrPointerToOffset64 base pointer blockBytes = .ok offset →
        0xFFFFF0000000 ≤ base.toNat ∧
        base.toNat + offset.toNat = 0xFFFFF0000000 + pointer.toNat * 4 ∧
        base.toNat + offset.toNat + blockBytes.toNat ≤ 0xFFFFF1000000) := by
  constructor
  · intro dev checksum swapped hb halign hmin hmax
    refine ⟨_, ?_, toNat_base, fun mode hmode =>
      csrPointerToOffset64_csrPointer halign hmin hmax hmode⟩
    rw [FwDevice.udepDirectory, if_pos hb]
    exact discoverCsrBase_handsOver swapped checksum halign hmin hmax
  · intro bus base hbase pointer blockBytes offset hoffset
    obtain ⟨hlow, -⟩ := discoverCsrBase_window hbase
    exact ⟨hlow, csrPointerToOffset64_sound hlow hoffset⟩

/-- A device whose register region ends where the window does. -/
def topmost : FwDevice :=
  ⟨.ids, ⟨[], by simp⟩, ⟨[], by simp⟩, 0, 0, 0x00A02D, 0x000100, true, 0xF0FFF200⟩

theorem csr_base_agreement_topmost :
    ∃ base, discoverCsrBase (handsOver true (fillChecksum 0xABCD topmost.udepDirectory)) = .ok base ∧
      base.toNat = 0xFFFFF0FFF200 ∧
      csrPointerToOffset64 base (dcamF7CsrPointer topmost.csrBase 3) 0x48 = .ok 0xd00 ∧
      base.toNat + (0xd00 : BitVec 32).toNat + (0x48 : BitVec 32).toNat ≤ 0xFFFFF1000000 := by
  obtain ⟨base, hdiscover, hbase, hpointer⟩ :=
    csr_base_agreement.1 topmost 0xABCD true rfl (by decide) (by decide) (by decide)
  have hthird := hpointer 3 (by decide)
  obtain ⟨-, -, hend⟩ := csr_base_agreement.2 _ base hdiscover _ _ _ hthird
  exact ⟨base, hdiscover, hbase, hthird, hend⟩

end CsrBase
end Photonic
