import Photonic.Lib.BoundedArray
import Photonic.Lib.Tiling
import Photonic.Mailbox.RawPacket

namespace Photonic
namespace Fake
open BoundedArray

abbrev Quadlet := BitVec 32

structure CString where
  bytes : List Byte
  terminated : 0 ∉ bytes

/-- `fw_rom_mode_t` -/
inductive RomMode
  | name
  | ids
  deriving DecidableEq, Repr

/-- What `create_device` and the setters leave of a device's identity. -/
structure FwDevice where
  romMode : RomMode
  vendor : CString
  modelName : CString
  vendorId : Quadlet
  modelId : Quadlet
  unitSpecId : Quadlet
  unitSwVersion : Quadlet
  haveCsrBase : Bool
  csrBase : Quadlet

def csrOffset : Quadlet := 0x40
def csrLeaf : Quadlet := 0x80
def csrDirectory : Quadlet := 0xc0
def csrDescriptor : Quadlet := 0x01
def csrVendor : Quadlet := 0x03
def csrSpecifierId : Quadlet := 0x12
def csrVersion : Quadlet := 0x13
def csrDependentInfo : Quadlet := 0x14
def csrModel : Quadlet := 0x17

def romEntry (key value : Quadlet) : Quadlet := key <<< 24 ||| value &&& 0x00FFFFFF

/-- A block's header without its checksum. -/
def romHeader (length : ℕ) : Quadlet := BitVec.ofNat 32 length <<< 16

def dcamUdepEntry (csrBase : Quadlet) : Quadlet := csrOffset <<< 24 ||| csrBase >>> 2 &&& 0x03FFFFFF

/-- Four characters in big-endian order; past the end of the string they are zero. -/
def packQuadlet (s : List Byte) (q : ℕ) : Quadlet :=
  (List.range 4).foldl (fun v b => v <<< 8 ||| (s.getD (q * 4 + b) 0).setWidth 32) 0

def packAscii (s : List Byte) (cap : ℕ) : List Quadlet :=
  (List.range (min ((s.length + 3) / 4) cap)).map (packQuadlet s)

def buildTextLeaf (s : List Byte) : List Quadlet :=
  let text := packAscii s 13
  romHeader (2 + text.length) :: 0 :: 0 :: text

/-- The output buffer and the index of the next directory entry. -/
structure Cursor where
  out : List (Option Quadlet)
  k : ℕ

def Cursor.push (c : Cursor) (v : Quadlet) : Option Cursor :=
  (put c.out c.k v).map fun out => ⟨out, c.k + 1⟩

@[simp] theorem Cursor.push_bind {β : Type} (c : Cursor) (v : Quadlet) (f : Cursor → Option β) :
    (c.push v).bind f = (put c.out c.k v).bind fun out => f ⟨out, c.k + 1⟩ :=
  Option.bind_map ..

/-- The entry that points to the block at index `target`. -/
def Cursor.pushPointer (c : Cursor) (key : Quadlet) (target : ℕ) : Option Cursor :=
  c.push (romEntry key (BitVec.ofNat 32 (target - c.k)))

def FwDevice.vendorLeaf (dev : FwDevice) : List Quadlet :=
  if dev.romMode = .name then buildTextLeaf dev.vendor.bytes else []

def FwDevice.modelLeaf (dev : FwDevice) : List Quadlet :=
  if dev.romMode = .name then buildTextLeaf dev.modelName.bytes else []

def FwDevice.numA (dev : FwDevice) : ℕ :=
  2 + (if dev.romMode = .name then 4 else 0) + (if dev.haveCsrBase then 1 else 0)

def FwDevice.blockVendor (dev : FwDevice) : ℕ := 1 + dev.numA
def FwDevice.blockModel (dev : FwDevice) : ℕ := dev.blockVendor + dev.vendorLeaf.length
def FwDevice.blockUdep (dev : FwDevice) : ℕ := dev.blockModel + dev.modelLeaf.length

/-- `build_unit_dir`: the buffer and the quadlets written, `none` for a write past its end. -/
def buildUnitDir (dev : FwDevice) (out : List (Option Quadlet)) :
    Option (List (Option Quadlet) × ℕ) := do
  let out ← put out 0 (romHeader dev.numA)
  let c : Cursor := ⟨out, 1⟩
  let c ← if dev.romMode = .name then do
      let c ← c.push (romEntry csrVendor dev.vendorId)
      c.pushPointer (csrLeaf ||| csrDescriptor) dev.blockVendor
    else some c
  let c ← c.push (romEntry csrSpecifierId dev.unitSpecId)
  let c ← c.push (romEntry csrVersion dev.unitSwVersion)
  let c ← if dev.romMode = .name then do
      let c ← c.push (romEntry csrModel dev.modelId)
      c.pushPointer (csrLeaf ||| csrDescriptor) dev.blockModel
    else some c
  let c ← if dev.haveCsrBase then
      c.pushPointer (csrDirectory ||| csrDependentInfo) dev.blockUdep
    else some c
  let out ← putAll c.out dev.blockVendor dev.vendorLeaf
  let out ← putAll out dev.blockModel dev.modelLeaf
  if dev.haveCsrBase then do
    let out ← put out dev.blockUdep (romHeader 1)
    let out ← put out (dev.blockUdep + 1) (dcamUdepEntry dev.csrBase)
    some (out, dev.blockUdep + 2)
  else some (out, dev.blockUdep)

/-- `unit_dir` of `fw_device_publish` -/
def unitDirQuads : ℕ := 32

namespace FwDevice
variable (dev : FwDevice)

/-- An entry at index `k` that points to the block at index `target`. -/
def pointer (key : Quadlet) (k target : ℕ) : Quadlet := romEntry key (BitVec.ofNat 32 (target - k))

def entries : List Quadlet :=
  match dev.romMode with
  | .name =>
    [romEntry csrVendor dev.vendorId, pointer (csrLeaf ||| csrDescriptor) 2 dev.blockVendor,
      romEntry csrSpecifierId dev.unitSpecId, romEntry csrVersion dev.unitSwVersion,
      romEntry csrModel dev.modelId, pointer (csrLeaf ||| csrDescriptor) 6 dev.blockModel] ++
    if dev.haveCsrBase then [pointer (csrDirectory ||| csrDependentInfo) 7 dev.blockUdep] else []
  | .ids =>
    [romEntry csrSpecifierId dev.unitSpecId, romEntry csrVersion dev.unitSwVersion] ++
    if dev.haveCsrBase then [pointer (csrDirectory ||| csrDependentInfo) 3 dev.blockUdep] else []

/-- The unit-dependent directory. -/
def udepDirectory : List Quadlet :=
  if dev.haveCsrBase then [romHeader 1, dcamUdepEntry dev.csrBase] else []

def rom : List Quadlet :=
  romHeader dev.numA :: dev.entries ++ dev.vendorLeaf ++ dev.modelLeaf ++ dev.udepDirectory

theorem length_entries : dev.entries.length = dev.numA := by
  unfold entries numA
  cases dev.romMode <;> cases dev.haveCsrBase <;> rfl

theorem length_rom : dev.rom.length = dev.blockUdep + dev.udepDirectory.length := by
  simp only [rom, List.length_append, List.length_cons, length_entries, blockUdep, blockModel,
    blockVendor]
  omega

/-- The writes follow each other from the low end of the buffer. -/
theorem buildUnitDir_eq_putAll (out : List (Option Quadlet)) :
    buildUnitDir dev out = (putAll out 0 dev.rom).bind fun out => some (out, dev.rom.length) := by
  have hblocks : putAll out 0 dev.rom =
      (putAll out 0 (romHeader dev.numA :: dev.entries)).bind fun out =>
        (putAll out dev.blockVendor dev.vendorLeaf).bind fun out =>
          (putAll out dev.blockModel dev.modelLeaf).bind fun out =>
            putAll out dev.blockUdep dev.udepDirectory := by
    rw [rom, putAll_append, putAll_append, putAll_append, Option.bind_assoc, Option.bind_assoc]
    simp only [List.length_append, List.length_cons, length_entries]
    have hv : 0 + (dev.numA + 1) = dev.blockVendor := by
      unfold blockVendor
      omega
    have hm : 0 + (dev.numA + 1 + dev.vendorLeaf.length) = dev.blockModel := by
      unfold blockModel
      omega
    have hu : 0 + (dev.numA + 1 + dev.vendorLeaf.length + dev.modelLeaf.length) =
        dev.blockUdep := by
      unfold blockUdep
      omega
    rw [hv, hm, hu]
  rw [hblocks, length_rom]
  unfold buildUnitDir
  cases hm : dev.romMode <;> cases hb : dev.haveCsrBase <;>
    simp [hm, hb, entries, pointer, udepDirectory, putAll, Cursor.pushPointer, Option.bind_assoc]

end FwDevice

def keyOf (entry : Quadlet) : ℕ := entry.toNat / 2 ^ 24
def valueOf (entry : Quadlet) : ℕ := entry.toNat % 2 ^ 24
def lengthOf (header : Quadlet) : ℕ := header.toNat / 2 ^ 16

def bodyAt (rom : List Quadlet) (i : ℕ) : List Quadlet :=
  ((rom.drop i).drop 1).take (lengthOf (rom.getD i 0))

/-- The index that the pointer at index `k` points to. -/
def resolve (rom : List Quadlet) (k : ℕ) : ℕ := k + valueOf (rom.getD k 0)

def bigEndianBytes (w : Quadlet) : List Byte :=
  [w.extractLsb' 24 8, w.extractLsb' 16 8, w.extractLsb' 8 8, w.extractLsb' 0 8]

/-- The string in a textual leaf. -/
def textOf (body : List Quadlet) : List Byte :=
  ((body.drop 2).flatMap bigEndianBytes).takeWhile (· ≠ 0)

@[simp] theorem lengthOf_romHeader {n : ℕ} (h : n < 2 ^ 16) : lengthOf (romHeader n) = n := by
  simp only [lengthOf, romHeader, BitVec.toNat_shiftLeft, BitVec.toNat_ofNat, Nat.shiftLeft_eq]
  omega

theorem toNat_romEntry {key : Quadlet} (hkey : key.toNat < 2 ^ 8) (value : Quadlet) :
    (romEntry key value).toNat = key.toNat * 2 ^ 24 + value.toNat % 2 ^ 24 := by
  have hmask : (0x00FFFFFF : Quadlet).toNat = 2 ^ 24 - 1 := rfl
  have hshift : (key <<< 24).toNat = key.toNat <<< 24 := by
    rw [BitVec.toNat_shiftLeft, Nat.shiftLeft_eq]
    omega
  simp only [romEntry, BitVec.toNat_or, BitVec.toNat_and, hmask, hshift,
    Nat.and_two_pow_sub_one_eq_mod]
  rw [← Nat.shiftLeft_add_eq_or_of_lt (Nat.mod_lt _ (by decide)), Nat.shiftLeft_eq]

theorem keyOf_romEntry {key : Quadlet} (hkey : key.toNat < 2 ^ 8) (value : Quadlet) :
    keyOf (romEntry key value) = key.toNat := by
  rw [keyOf, toNat_romEntry hkey]
  omega

theorem valueOf_romEntry {key : Quadlet} (hkey : key.toNat < 2 ^ 8) (value : Quadlet) :
    valueOf (romEntry key value) = value.toNat % 2 ^ 24 := by
  rw [valueOf, toNat_romEntry hkey]
  omega

/-- A block is read back where it starts. -/
theorem bodyAt_of_drop {rom : List Quadlet} {i : ℕ} (header : Quadlet) (body rest : List Quadlet)
    (h : rom.drop i = header :: (body ++ rest)) (hlen : lengthOf header = body.length) :
    rom.getD i 0 = header ∧ bodyAt rom i = body := by
  have hget : rom.getD i 0 = header := by
    have hi := congrArg List.head? h
    rw [List.head?_drop] at hi
    simp [List.getD_eq_getElem?_getD, hi]
  refine ⟨hget, ?_⟩
  rw [bodyAt, hget, h, hlen]
  simp

theorem bigEndianBytes_packQuadlet (s : List Byte) (q : ℕ) :
    bigEndianBytes (packQuadlet s q) =
      [s.getD (q * 4) 0, s.getD (q * 4 + 1) 0, s.getD (q * 4 + 2) 0, s.getD (q * 4 + 3) 0] := by
  have hrange : List.range 4 = [0, 1, 2, 3] := rfl
  simp only [packQuadlet, hrange, List.foldl_cons, List.foldl_nil, bigEndianBytes, Nat.add_zero]
  generalize s.getD (q * 4) 0 = a
  generalize s.getD (q * 4 + 1) 0 = b
  generalize s.getD (q * 4 + 2) 0 = c
  generalize s.getD (q * 4 + 3) 0 = d
  simp only [List.cons.injEq, and_true]
  refine ⟨?_, ?_, ?_, ?_⟩ <;> ext i hi <;> simp <;> grind

theorem flatMap_packQuadlet (s : List Byte) (n : ℕ) :
    ((List.range n).map (packQuadlet s)).flatMap bigEndianBytes =
      (List.range (n * 4)).map fun i => s.getD i 0 := by
  induction n with
  | zero => rfl
  | succ n ih =>
    rw [List.range_succ, List.map_append, List.flatMap_append, ih]
    have hn : (n + 1) * 4 = n * 4 + 1 + 1 + 1 + 1 := by omega
    simp [hn, List.range_succ, bigEndianBytes_packQuadlet]

theorem map_getD_range (s : List Byte) (n : ℕ) :
    (List.range n).map (fun i => s.getD i 0) = s.take n ++ List.replicate (n - s.length) 0 := by
  apply List.ext_getElem?
  intro i
  simp only [List.getElem?_map, List.getElem?_append, List.getElem?_replicate, List.length_take]
  grind

/-- The quadlets of text that a name takes, at most thirteen. -/
def textQuads (s : List Byte) : ℕ := min ((s.length + 3) / 4) 13

@[simp] theorem length_packAscii (s : List Byte) : (packAscii s 13).length = textQuads s := by
  simp [packAscii, textQuads]

theorem textQuads_le (s : List Byte) : textQuads s ≤ 13 := Nat.min_le_right _ _

@[simp] theorem length_buildTextLeaf (s : List Byte) :
    (buildTextLeaf s).length = 3 + textQuads s := by
  simp [buildTextLeaf]
  omega

theorem take_textQuads (s : List Byte) : s.take (textQuads s * 4) = s.take 52 := by
  by_cases h : s.length ≤ 52
  · rw [List.take_of_length_le h, List.take_of_length_le]
    unfold textQuads
    omega
  · have hq : textQuads s * 4 = 52 := by
      unfold textQuads
      omega
    rw [hq]

theorem textOf_textLeaf (name : CString) (a b : Quadlet) :
    textOf (a :: b :: packAscii name.bytes 13) = name.bytes.take 52 := by
  have hpos : ∀ c ∈ name.bytes.take 52, (c ≠ 0) = true := by
    intro c hc
    have hmem := List.mem_of_mem_take hc
    simpa using fun h0 : c = 0 => name.terminated (h0 ▸ hmem)
  have hbytes : (packAscii name.bytes 13).flatMap bigEndianBytes = name.bytes.take 52 ++
      List.replicate (textQuads name.bytes * 4 - name.bytes.length) 0 := by
    rw [← take_textQuads, ← map_getD_range, ← flatMap_packQuadlet]
    rfl
  simp only [textOf, List.drop_succ_cons, List.drop_zero, hbytes]
  rw [List.takeWhile_append_of_pos (by simpa using hpos)]
  simp

inductive RomBlock
  | unit
  | vendor
  | model
  | dependent
  deriving DecidableEq, Repr

namespace FwDevice
variable (dev : FwDevice)

/-- The blocks of a device in the order they are laid out. -/
def blocks : List RomBlock :=
  .unit :: (if dev.romMode = .name then [.vendor, .model] else []) ++
    if dev.haveCsrBase then [.dependent] else []

def start : RomBlock → ℕ
  | .unit => 0
  | .vendor => dev.blockVendor
  | .model => dev.blockModel
  | .dependent => dev.blockUdep

end FwDevice

/-- The header and what its length field counts. -/
def blockQuads (rom : List Quadlet) (i : ℕ) : ℕ := 1 + lengthOf (rom.getD i 0)

/-- The entry at index `k` is a pointer to such a block: a descriptor leaf describes the entry
before it. -/
def PointsTo (rom : List Quadlet) (k : ℕ) : RomBlock → Prop
  | .unit => False
  | .vendor => keyOf (rom.getD k 0) = 0x81 ∧ keyOf (rom.getD (k - 1) 0) = 0x03
  | .model => keyOf (rom.getD k 0) = 0x81 ∧ keyOf (rom.getD (k - 1) 0) = 0x17
  | .dependent => keyOf (rom.getD k 0) = 0xd4

/-- The blocks tile the ROM, so that every length field counts the quadlets up to the next
block; each pointer leads to the first quadlet of the block it is for, and each block but the
unit directory has a pointer; the names are read back up to 52 characters. -/
structure WellFormed (dev : FwDevice) (rom : List Quadlet) : Prop where
  tiles : Tiles dev.start (fun b => blockQuads rom (dev.start b)) 0 dev.blocks rom.length
  pointers : ∀ k, 0 < k → k ≤ lengthOf (rom.getD 0 0) → 0x80 ≤ keyOf (rom.getD k 0) →
    ∃ b ∈ dev.blocks, PointsTo rom k b ∧ resolve rom k = dev.start b
  pointed : ∀ b ∈ dev.blocks, b ≠ .unit → ∃ k, 0 < k ∧ k ≤ lengthOf (rom.getD 0 0) ∧
    PointsTo rom k b ∧ resolve rom k = dev.start b
  vendor : dev.romMode = .name → textOf (bodyAt rom dev.blockVendor) = dev.vendor.bytes.take 52
  model : dev.romMode = .name → textOf (bodyAt rom dev.blockModel) = dev.modelName.bytes.take 52
  dependent : dev.haveCsrBase → bodyAt rom dev.blockUdep = [dcamUdepEntry dev.csrBase]

theorem leaf_read {rom : List Quadlet} {i : ℕ} {name : CString} {rest : List Quadlet}
    (h : rom.drop i = buildTextLeaf name.bytes ++ rest) :
    blockQuads rom i = (buildTextLeaf name.bytes).length ∧
      textOf (bodyAt rom i) = name.bytes.take 52 := by
  have hq := textQuads_le name.bytes
  have hlen : lengthOf (romHeader (2 + textQuads name.bytes)) = 2 + textQuads name.bytes :=
    lengthOf_romHeader (by omega)
  obtain ⟨hget, hbody⟩ := bodyAt_of_drop (romHeader (2 + textQuads name.bytes))
    (0 :: 0 :: packAscii name.bytes 13) rest
    (by simpa [buildTextLeaf] using h) (by simp [hlen]; omega)
  refine ⟨?_, by rw [hbody, textOf_textLeaf]⟩
  rw [blockQuads, hget, hlen, length_buildTextLeaf]
  omega

namespace FwDevice
variable (dev : FwDevice)

theorem numA_le : dev.numA ≤ 7 := by
  unfold numA
  split <;> split <;> omega

theorem two_le_numA : 2 ≤ dev.numA := by
  unfold numA
  omega

theorem blockVendor_le : dev.blockVendor ≤ 8 := by
  have h := dev.numA_le
  unfold blockVendor
  omega

theorem length_vendorLeaf_le : dev.vendorLeaf.length ≤ 16 := by
  have h := textQuads_le dev.vendor.bytes
  unfold vendorLeaf
  split
  · rw [length_buildTextLeaf]
    omega
  · simp

theorem length_modelLeaf_le : dev.modelLeaf.length ≤ 16 := by
  have h := textQuads_le dev.modelName.bytes
  unfold modelLeaf
  split
  · rw [length_buildTextLeaf]
    omega
  · simp

theorem drop_rom_unit :
    dev.rom = romHeader dev.numA :: (dev.entries ++
      (dev.vendorLeaf ++ (dev.modelLeaf ++ dev.udepDirectory))) := by
  simp [rom, List.append_assoc]

theorem drop_rom_vendor :
    dev.rom.drop dev.blockVendor = dev.vendorLeaf ++ (dev.modelLeaf ++ dev.udepDirectory) := by
  have hlen : dev.blockVendor = dev.entries.length + 1 := by
    rw [length_entries, blockVendor, Nat.add_comm]
  rw [drop_rom_unit, hlen, List.drop_succ_cons, List.drop_left]

theorem drop_rom_model :
    dev.rom.drop dev.blockModel = dev.modelLeaf ++ dev.udepDirectory := by
  rw [blockModel, ← List.drop_drop, drop_rom_vendor, List.drop_left]

theorem drop_rom_udep : dev.rom.drop dev.blockUdep = dev.udepDirectory := by
  rw [blockUdep, ← List.drop_drop, drop_rom_model, List.drop_left]

theorem unit_read : dev.rom.getD 0 0 = romHeader dev.numA ∧ bodyAt dev.rom 0 = dev.entries := by
  have hnum := dev.numA_le
  refine bodyAt_of_drop (i := 0) _ _ _ dev.drop_rom_unit ?_
  rw [lengthOf_romHeader (by omega), length_entries]

theorem vendor_read (hm : dev.romMode = .name) :
    blockQuads dev.rom dev.blockVendor = dev.vendorLeaf.length ∧
      textOf (bodyAt dev.rom dev.blockVendor) = dev.vendor.bytes.take 52 := by
  have h := dev.drop_rom_vendor
  rw [vendorLeaf, if_pos hm] at h ⊢
  exact leaf_read h

theorem model_read (hm : dev.romMode = .name) :
    blockQuads dev.rom dev.blockModel = dev.modelLeaf.length ∧
      textOf (bodyAt dev.rom dev.blockModel) = dev.modelName.bytes.take 52 := by
  have h := dev.drop_rom_model
  rw [modelLeaf, if_pos hm] at h ⊢
  exact leaf_read h

theorem udep_read (hb : dev.haveCsrBase = true) :
    blockQuads dev.rom dev.blockUdep = 2 ∧
      bodyAt dev.rom dev.blockUdep = [dcamUdepEntry dev.csrBase] := by
  have h := dev.drop_rom_udep
  rw [udepDirectory, if_pos hb] at h
  have hlen : lengthOf (romHeader 1) = 1 := lengthOf_romHeader (by decide)
  obtain ⟨hget, hbody⟩ := bodyAt_of_drop (romHeader 1) [dcamUdepEntry dev.csrBase] [] h hlen
  exact ⟨by rw [blockQuads, hget, hlen], hbody⟩

theorem rom_getD_succ {k : ℕ} (hk : k < dev.numA) : dev.rom.getD (k + 1) 0 = dev.entries.getD k 0 := by
  rw [drop_rom_unit]
  have hlt : k < dev.entries.length := by rwa [length_entries]
  simp [List.getD_eq_getElem?_getD, List.getElem?_append_left hlt]

theorem blockQuads_unit : blockQuads dev.rom 0 = dev.blockVendor := by
  have hnum := dev.numA_le
  rw [blockQuads, dev.unit_read.1, lengthOf_romHeader (by omega), blockVendor]

theorem valueOf_pointer {key : Quadlet} (hkey : key.toNat < 2 ^ 8) {k target : ℕ}
    (hk : k ≤ target) (ht : target ≤ 40) : k + valueOf (pointer key k target) = target := by
  rw [pointer, valueOf_romEntry hkey, BitVec.toNat_ofNat]
  omega

theorem tiles_rom :
    Tiles dev.start (fun b => blockQuads dev.rom (dev.start b)) 0 dev.blocks dev.rom.length := by
  have hunit := dev.blockQuads_unit
  have hpos : 0 < dev.blockVendor := by
    unfold blockVendor
    omega
  have hmodel : dev.blockModel = dev.blockVendor + dev.vendorLeaf.length := rfl
  have hudep : dev.blockUdep = dev.blockModel + dev.modelLeaf.length := rfl
  rw [length_rom]
  unfold blocks
  cases hm : dev.romMode with
  | name =>
    have hv := (dev.vendor_read hm).1
    have hmod := (dev.model_read hm).1
    have hvpos : 0 < dev.vendorLeaf.length := by simp [vendorLeaf, hm]
    have hmpos : 0 < dev.modelLeaf.length := by simp [modelLeaf, hm]
    cases hb : dev.haveCsrBase with
    | true =>
      have hu := (dev.udep_read hb).1
      simp [Tiles, start, hunit, hv, hmod, hu, hpos, hvpos, hmpos, udepDirectory, hb]
      omega
    | false =>
      simp [Tiles, start, hunit, hv, hmod, hpos, hvpos, hmpos, udepDirectory, hb]
      omega
  | ids =>
    have hv : dev.vendorLeaf.length = 0 := by simp [vendorLeaf, hm]
    have hmod : dev.modelLeaf.length = 0 := by simp [modelLeaf, hm]
    cases hb : dev.haveCsrBase with
    | true =>
      have hu := (dev.udep_read hb).1
      simp [Tiles, start, hunit, hu, hpos, udepDirectory, hb]
      omega
    | false =>
      simp [Tiles, start, hunit, hpos, udepDirectory, hb]
      omega

theorem blockVendor_le_blockUdep :
    dev.blockVendor ≤ dev.blockModel ∧ dev.blockModel ≤ dev.blockUdep ∧ dev.blockUdep ≤ 40 := by
  have h := dev.blockVendor_le
  have hv := dev.length_vendorLeaf_le
  have hm := dev.length_modelLeaf_le
  unfold blockUdep blockModel
  omega

theorem name_entries (hm : dev.romMode = .name) :
    dev.rom.getD 1 0 = romEntry csrVendor dev.vendorId ∧
    dev.rom.getD 2 0 = pointer (csrLeaf ||| csrDescriptor) 2 dev.blockVendor ∧
    dev.rom.getD 3 0 = romEntry csrSpecifierId dev.unitSpecId ∧
    dev.rom.getD 4 0 = romEntry csrVersion dev.unitSwVersion ∧
    dev.rom.getD 5 0 = romEntry csrModel dev.modelId ∧
    dev.rom.getD 6 0 = pointer (csrLeaf ||| csrDescriptor) 6 dev.blockModel := by
  have hnum : 6 ≤ dev.numA := by
    simp [numA, hm]
  refine ⟨?_, ?_, ?_, ?_, ?_, ?_⟩ <;> rw [rom_getD_succ _ (by omega)] <;> simp [entries, hm]

theorem ids_entries (hm : dev.romMode = .ids) :
    dev.rom.getD 1 0 = romEntry csrSpecifierId dev.unitSpecId ∧
    dev.rom.getD 2 0 = romEntry csrVersion dev.unitSwVersion := by
  have hnum := dev.two_le_numA
  refine ⟨?_, ?_⟩ <;> rw [rom_getD_succ _ (by omega)] <;> simp [entries, hm]

theorem udep_entry (hb : dev.haveCsrBase = true) :
    dev.rom.getD dev.numA 0 =
      pointer (csrDirectory ||| csrDependentInfo) dev.numA dev.blockUdep := by
  cases hm : dev.romMode with
  | name =>
    have hnum : dev.numA = 6 + 1 := by simp [numA, hm, hb]
    rw [hnum, rom_getD_succ _ (by omega)]
    simp [entries, hm, hb]
  | ids =>
    have hnum : dev.numA = 2 + 1 := by simp [numA, hm, hb]
    rw [hnum, rom_getD_succ _ (by omega)]
    simp [entries, hm, hb]

theorem pointsTo_vendor (hm : dev.romMode = .name) :
    PointsTo dev.rom 2 .vendor ∧ resolve dev.rom 2 = dev.blockVendor := by
  obtain ⟨h1, h2, -⟩ := dev.name_entries hm
  have hle := dev.blockVendor_le
  have hge : 2 ≤ dev.blockVendor := by
    simp [blockVendor, numA]
    omega
  refine ⟨⟨?_, ?_⟩, ?_⟩
  · rw [h2, pointer, keyOf_romEntry (by decide)]
    rfl
  · rw [show 2 - 1 = 1 from rfl, h1, keyOf_romEntry (by decide)]
    rfl
  · rw [resolve, h2, valueOf_pointer (by decide) hge (by omega)]

theorem pointsTo_model (hm : dev.romMode = .name) :
    PointsTo dev.rom 6 .model ∧ resolve dev.rom 6 = dev.blockModel := by
  obtain ⟨-, -, -, -, h5, h6⟩ := dev.name_entries hm
  obtain ⟨hvm, hmu, hle⟩ := dev.blockVendor_le_blockUdep
  have hge : 6 ≤ dev.blockVendor := by
    simp [blockVendor, numA, hm]
    omega
  refine ⟨⟨?_, ?_⟩, ?_⟩
  · rw [h6, pointer, keyOf_romEntry (by decide)]
    rfl
  · rw [show 6 - 1 = 5 from rfl, h5, keyOf_romEntry (by decide)]
    rfl
  · rw [resolve, h6, valueOf_pointer (by decide) (by omega) (by omega)]

theorem pointsTo_dependent (hb : dev.haveCsrBase = true) :
    PointsTo dev.rom dev.numA .dependent ∧ resolve dev.rom dev.numA = dev.blockUdep := by
  have h := dev.udep_entry hb
  obtain ⟨hvm, hmu, hle⟩ := dev.blockVendor_le_blockUdep
  have hge : dev.numA ≤ dev.blockVendor := Nat.le_add_left _ _
  refine ⟨?_, ?_⟩
  · rw [PointsTo, h, pointer, keyOf_romEntry (by decide)]
    rfl
  · rw [resolve, h, valueOf_pointer (by decide) (by omega) hle]

theorem mem_blocks {b : RomBlock} : b ∈ dev.blocks ↔
    match b with
    | .unit => True
    | .vendor | .model => dev.romMode = .name
    | .dependent => dev.haveCsrBase = true := by
  unfold blocks
  cases b <;> cases dev.romMode <;> cases dev.haveCsrBase <;> simp

theorem pointer_index {k : ℕ} (hk : 0 < k) (hle : k ≤ dev.numA)
    (hkey : 0x80 ≤ keyOf (dev.rom.getD k 0)) :
    (dev.romMode = .name ∧ (k = 2 ∨ k = 6)) ∨ (dev.haveCsrBase = true ∧ k = dev.numA) := by
  have hplain : ∀ key value : Quadlet, key.toNat < 0x80 → keyOf (romEntry key value) < 0x80 := by
    intro key value hlt
    rwa [keyOf_romEntry (by omega)]
  by_cases hlast : dev.haveCsrBase = true ∧ k = dev.numA
  · exact .inr hlast
  refine .inl ?_
  cases hm : dev.romMode with
  | name =>
    obtain ⟨h1, -, h3, h4, h5, -⟩ := dev.name_entries hm
    refine ⟨rfl, ?_⟩
    by_contra hne
    have hk6 : k ≤ 6 := by
      simp only [numA, hm, if_true] at hle hlast
      cases hb : dev.haveCsrBase <;> simp [hb] at hle hlast <;> omega
    have hcases : k = 1 ∨ k = 3 ∨ k = 4 ∨ k = 5 := by omega
    obtain rfl | rfl | rfl | rfl := hcases
    · exact absurd (h1 ▸ hkey) (Nat.not_le.mpr (hplain _ _ (by decide)))
    · exact absurd (h3 ▸ hkey) (Nat.not_le.mpr (hplain _ _ (by decide)))
    · exact absurd (h4 ▸ hkey) (Nat.not_le.mpr (hplain _ _ (by decide)))
    · exact absurd (h5 ▸ hkey) (Nat.not_le.mpr (hplain _ _ (by decide)))
  | ids =>
    obtain ⟨h1, h2⟩ := dev.ids_entries hm
    have hk2 : k ≤ 2 := by
      simp only [numA, hm] at hle hlast
      cases hb : dev.haveCsrBase <;> simp [hb] at hle hlast <;> omega
    have hcases : k = 1 ∨ k = 2 := by omega
    obtain rfl | rfl := hcases
    · exact absurd (h1 ▸ hkey) (Nat.not_le.mpr (hplain _ _ (by decide)))
    · exact absurd (h2 ▸ hkey) (Nat.not_le.mpr (hplain _ _ (by decide)))

theorem wellFormed_rom : WellFormed dev dev.rom where
  tiles := dev.tiles_rom
  pointers k hk hle hkey := by
    have hnum := dev.numA_le
    rw [dev.unit_read.1, lengthOf_romHeader (by omega)] at hle
    obtain ⟨hm, rfl | rfl⟩ | ⟨hb, rfl⟩ := dev.pointer_index hk hle hkey
    · exact ⟨.vendor, dev.mem_blocks.mpr hm, dev.pointsTo_vendor hm⟩
    · exact ⟨.model, dev.mem_blocks.mpr hm, dev.pointsTo_model hm⟩
    · exact ⟨.dependent, dev.mem_blocks.mpr hb, dev.pointsTo_dependent hb⟩
  pointed b hmem hne := by
    have hnum := dev.numA_le
    rw [dev.unit_read.1, lengthOf_romHeader (by omega)]
    have hmem := dev.mem_blocks.mp hmem
    cases b with
    | unit => exact absurd rfl hne
    | vendor => exact ⟨2, by decide, dev.two_le_numA, dev.pointsTo_vendor hmem⟩
    | model => exact ⟨6, by decide, by simp [numA, hmem], dev.pointsTo_model hmem⟩
    | dependent => exact ⟨dev.numA, by simp [numA], le_rfl, dev.pointsTo_dependent hmem⟩
  vendor hm := (dev.vendor_read hm).2
  model hm := (dev.model_read hm).2
  dependent hb := (dev.udep_read hb).2

theorem buildUnitDir_blank (capacity : ℕ) : buildUnitDir dev (blank capacity) =
    if dev.rom.length ≤ capacity then some (filled capacity dev.rom, dev.rom.length) else none := by
  rw [buildUnitDir_eq_putAll, putAll_blank]
  split <;> rfl

/-- The directory is built inside its buffer, and what is written there is well formed. -/
def DirectoryRight : Prop :=
  ∃ out rom, buildUnitDir dev (blank unitDirQuads) = some (out, rom.length) ∧
    out.take rom.length = rom.map some ∧ WellFormed dev rom

/-- The names' text, and the three quadlets that a command base adds, leave room. -/
def RoomFor : Prop :=
  dev.romMode = .ids ∨
    textQuads dev.vendor.bytes + textQuads dev.modelName.bytes +
      (if dev.haveCsrBase then 3 else 0) ≤ 19

theorem directoryRight_iff_length : dev.DirectoryRight ↔ dev.rom.length ≤ unitDirQuads := by
  unfold DirectoryRight
  rw [buildUnitDir_blank]
  constructor
  · rintro ⟨out, rom, hbuild, -⟩
    by_contra hlong
    rw [if_neg hlong] at hbuild
    cases hbuild
  · intro hlen
    rw [if_pos hlen]
    exact ⟨_, dev.rom, rfl, take_filled _ _, dev.wellFormed_rom⟩

theorem length_rom_le_iff : dev.rom.length ≤ unitDirQuads ↔ dev.RoomFor := by
  have hcases : dev.romMode = .name ∨ dev.romMode = .ids := by
    cases dev.romMode
    · exact .inl rfl
    · exact .inr rfl
  unfold RoomFor unitDirQuads
  rw [length_rom, blockUdep, blockModel, blockVendor, numA, vendorLeaf, modelLeaf, udepDirectory]
  obtain hm | hm := hcases
  · cases hb : dev.haveCsrBase <;> simp [hm] <;> omega
  · cases hb : dev.haveCsrBase <;> simp [hm]

/-- The published unit directory is right if and only if its names leave room in the buffer. -/
theorem unitDirectory_right_iff : dev.DirectoryRight ↔ dev.RoomFor :=
  dev.directoryRight_iff_length.trans dev.length_rom_le_iff

end FwDevice

def longName : CString := ⟨List.replicate 52 0x41, by simp⟩

def longNamed : FwDevice :=
  ⟨.name, longName, longName, 0x001234, 0x000001, 0x00A02D, 0x000100, true, 0xF0F00000⟩

/-- Two names of full length: 42 quadlets do not fit in 32. -/
theorem not_directoryRight_longNamed : ¬longNamed.DirectoryRight := by
  rw [FwDevice.directoryRight_iff_length, FwDevice.length_rom_le_iff]
  unfold FwDevice.RoomFor
  decide

end Fake
end Photonic
