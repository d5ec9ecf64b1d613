import Photonic.Fake.Frame
import Photonic.Lib.IndexedFold
import Photonic.Mailbox.RawPacket

namespace Photonic
namespace Fake
open Dcam Mailbox

/-- The byte is of the checksum field. -/
def InChecksum (i : ℕ) : Prop := frameMetaChecksumOffset ≤ i ∧ i < frameMetaChecksumOffset + 4

instance (i : ℕ) : Decidable (InChecksum i) := inferInstanceAs (Decidable (_ ∧ _))

/-- A lap of the loop of `frame_meta_checksum`. -/
def checksumByte (i : ℕ) (hash : BitVec 32) (b : BitVec 8) : BitVec 32 :=
  (hash ^^^ (if InChecksum i then 0 else b).setWidth 32) * 16777619

def frameMetaChecksum (frame : List (BitVec 8)) : BitVec 32 :=
  frame.foldlIdx checksumByte 2166136261

def frameMetaMagic : BitVec 32 := 0x544F4850
def frameMetaVersion : BitVec 32 := 3
def frameMetaNumFeatures : ℕ := 13
def camregCount : ℕ := 0x30
def camregStatus : ℕ := 0x2A

/-- `frame_meta_t`, without its constants and the checksum. -/
structure FrameMeta where
  frameIndex : BitVec 32
  frameBytes : BitVec 32
  width : BitVec 32
  height : BitVec 32
  pixfmt : BitVec 32
  format : BitVec 32
  mode : BitVec 32
  rate : BitVec 32
  features : Vector (BitVec 32) frameMetaNumFeatures
  i2cRegs : Vector (BitVec 8) camregCount

def quadletBytes (w : BitVec 32) : List (BitVec 8) :=
  let q := bytesOfUlong w
  [q.b0, q.b1, q.b2, q.b3]

/-- The header in memory, with a checksum. -/
def FrameMeta.bytes (m : FrameMeta) (checksum : BitVec 32) : List (BitVec 8) :=
  ([frameMetaMagic, frameMetaVersion, m.frameIndex, m.frameBytes, m.width, m.height, m.pixfmt,
      m.format, m.mode, m.rate, BitVec.ofNat 32 frameMetaNumFeatures] ++ m.features.toList ++
    [BitVec.ofNat 32 camregCount]).flatMap quadletBytes ++ m.i2cRegs.toList ++ quadletBytes checksum

/-- `memcpy` over the bytes from an offset on. -/
def overwrite (frame : List (BitVec 8)) (offset : ℕ) (bytes : List (BitVec 8)) : List (BitVec 8) :=
  frame.take offset ++ bytes ++ frame.drop (offset + bytes.length)

/-- What of the camera goes into a header, with the status of its head. -/
structure CameraState where
  iso : IsoGeometry
  format : BitVec 32
  mode : BitVec 32
  rate : BitVec 32
  featValue : Vector (BitVec 32) frameMetaNumFeatures
  i2cRegs : Vector (BitVec 8) camregCount
  i2cStatus : BitVec 8

def CameraState.transmitBytes (cam : CameraState) : ℕ := cam.iso.isoBpp * cam.iso.isoPpf % 2 ^ 32

def CameraState.frameMeta (cam : CameraState) (frameNo : BitVec 32) : FrameMeta where
  frameIndex := frameNo
  frameBytes := BitVec.ofNat 32 cam.transmitBytes
  width := BitVec.ofNat 32 cam.iso.imgWidth
  height := BitVec.ofNat 32 cam.iso.imgHeight
  pixfmt := BitVec.ofNat 32 cam.iso.pixfmt
  format := cam.format
  mode := cam.mode
  rate := cam.rate
  features := cam.featValue
  i2cRegs := cam.i2cRegs.set camregStatus cam.i2cStatus (by decide)

/-- `embed_frame_meta`, over the bytes of the frame that are transmitted. -/
def CameraState.embedFrameMeta (cam : CameraState) (frameNo : BitVec 32) (dst : List (BitVec 8)) :
    List (BitVec 8) :=
  if cam.transmitBytes < frameMetaBytes then dst
  else
    let dst := overwrite dst 0 ((cam.frameMeta frameNo).bytes 0)
    overwrite dst frameMetaChecksumOffset
      (quadletBytes (frameMetaChecksum (dst.take cam.transmitBytes)))

def checksumField (frame : List (BitVec 8)) : BitVec 32 :=
  let byte := fun i => frame[frameMetaChecksumOffset + i]?.getD 0
  ulongOfBytes ⟨byte 0, byte 1, byte 2, byte 3⟩

/-- The check of the receiver. -/
def Verifies (frame : List (BitVec 8)) : Prop := frameMetaChecksum frame = checksumField frame

instance (frame : List (BitVec 8)) : Decidable (Verifies frame) :=
  inferInstanceAs (Decidable (_ = _))

theorem mul_prime_injective : Function.Injective fun w : BitVec 32 => w * 16777619 := by
  intro s t h
  have hprime : (16777619 : BitVec 32) * 899433627 = 1#32 := by decide
  have hmul : s * 16777619 * 899433627 = t * 16777619 * 899433627 := congrArg (· * 899433627) h
  rwa [BitVec.mul_assoc, BitVec.mul_assoc, hprime, BitVec.mul_one, BitVec.mul_one] at hmul

theorem checksumByte_injective (i : ℕ) (b : BitVec 8) :
    Function.Injective fun hash => checksumByte i hash b := by
  intro s t h
  exact (BitVec.xor_left_inj _).mp (mul_prime_injective h)

/-- Outside the field two bytes leave different states behind. -/
theorem checksumByte_heeds {i : ℕ} (hi : ¬InChecksum i) (hash : BitVec 32) :
    Function.Injective (checksumByte i hash) := by
  intro a b h
  have hword := (BitVec.xor_right_inj _).mp (mul_prime_injective h)
  rw [if_neg hi, if_neg hi] at hword
  simpa using congrArg (BitVec.setWidth 8) hword

theorem checksumByte_ignores {i : ℕ} (hi : InChecksum i) (hash : BitVec 32) (a b : BitVec 8) :
    checksumByte i hash a = checksumByte i hash b := by
  rw [checksumByte, checksumByte, if_pos hi, if_pos hi]

section
variable {frame bytes : List (BitVec 8)} {offset i : ℕ}

theorem length_overwrite (h : offset + bytes.length ≤ frame.length) :
    (overwrite frame offset bytes).length = frame.length := by
  simp only [overwrite, List.length_append, List.length_take, List.length_drop]
  omega

theorem getElem?_overwrite_of_mem (h : offset ≤ frame.length) (hi : i < bytes.length) :
    (overwrite frame offset bytes)[offset + i]? = bytes[i]? := by
  have htake : (frame.take offset).length = offset := by simpa using h
  rw [overwrite, List.append_assoc, List.getElem?_append_right (by omega), htake,
    Nat.add_sub_cancel_left, List.getElem?_append_left hi]

theorem getElem?_overwrite_of_not_mem (h : offset ≤ frame.length)
    (hi : i < offset ∨ offset + bytes.length ≤ i) :
    (overwrite frame offset bytes)[i]? = frame[i]? := by
  have htake : (frame.take offset).length = offset := by simpa using h
  rw [overwrite, List.append_assoc]
  obtain hi | hi := hi
  · rw [List.getElem?_append_left (by omega), List.getElem?_take_of_lt hi]
  · rw [List.getElem?_append_right (by omega), List.getElem?_append_right (by omega), htake,
      List.getElem?_drop]
    congr 1
    omega

theorem take_overwrite {n : ℕ} (h : offset + bytes.length ≤ n) (hn : n ≤ frame.length) :
    (overwrite frame offset bytes).take n = overwrite (frame.take n) offset bytes := by
  have hoffset : (frame.take offset).length = offset := List.length_take_of_le (by omega)
  have hdrop : n - offset - bytes.length = n - (offset + bytes.length) := by omega
  unfold overwrite
  rw [List.append_assoc, List.take_append, List.take_append, hoffset,
    List.take_of_length_le (show bytes.length ≤ n - offset by omega),
    List.take_of_length_le (show (frame.take offset).length ≤ n by omega), hdrop, List.drop_take,
    List.take_take, min_eq_left (by omega), List.append_assoc]

end

@[simp] theorem length_quadletBytes (w : BitVec 32) : (quadletBytes w).length = 4 := rfl

theorem length_bytes (m : FrameMeta) (checksum : BitVec 32) :
    (m.bytes checksum).length = frameMetaBytes := by
  simp only [FrameMeta.bytes, List.flatMap_append, List.length_append, List.length_flatMap,
    length_quadletBytes, Vector.length_toList, List.map_const', List.sum_replicate]
  rfl

theorem checksumField_overwrite {frame : List (BitVec 8)} (h : frameMetaBytes ≤ frame.length)
    (w : BitVec 32) :
    checksumField (overwrite frame frameMetaChecksumOffset (quadletBytes w)) = w := by
  have hoffset : frameMetaChecksumOffset ≤ frame.length := (show _ ≤ 152 by decide).trans h
  have hbyte : ∀ i < 4, (overwrite frame frameMetaChecksumOffset (quadletBytes w))[
      frameMetaChecksumOffset + i]? = (quadletBytes w)[i]? := fun i hi =>
    getElem?_overwrite_of_mem hoffset (by simpa using hi)
  simp only [checksumField, hbyte 0 (by decide), hbyte 1 (by decide), hbyte 2 (by decide),
    hbyte 3 (by decide)]
  exact ulongOfBytes_bytesOfUlong w

theorem frameMetaChecksum_overwrite {frame : List (BitVec 8)} (h : frameMetaBytes ≤ frame.length)
    (w : BitVec 32) :
    frameMetaChecksum (overwrite frame frameMetaChecksumOffset (quadletBytes w)) =
      frameMetaChecksum frame := by
  have hoffset : frameMetaChecksumOffset ≤ frame.length := (show _ ≤ 152 by decide).trans h
  refine IndexedFold.congr (length_overwrite h) (fun n a b ha hb s => ?_) _
  rw [Nat.zero_add]
  by_cases hn : InChecksum n
  · exact checksumByte_ignores hn s a b
  · rw [getElem?_overwrite_of_not_mem hoffset ?_, hb] at ha
    · rw [Option.some.inj ha]
    · simp only [InChecksum, not_and_or, not_le, not_lt] at hn
      exact hn

theorem verifies_overwrite {frame : List (BitVec 8)} (h : frameMetaBytes ≤ frame.length) :
    Verifies (overwrite frame frameMetaChecksumOffset (quadletBytes (frameMetaChecksum frame))) := by
  rw [Verifies, frameMetaChecksum_overwrite h, checksumField_overwrite h]

theorem not_verifies_set {frame : List (BitVec 8)} (h : Verifies frame) {i : ℕ} (hi : ¬InChecksum i)
    {a b : BitVec 8} (ha : frame[i]? = some a) (hab : b ≠ a) : ¬Verifies (frame.set i b) := by
  have hfield : checksumField (frame.set i b) = checksumField frame := by
    have hbyte : ∀ k < 4, (frame.set i b)[frameMetaChecksumOffset + k]? =
        frame[frameMetaChecksumOffset + k]? := fun k hk =>
      List.getElem?_set_ne fun heq : i = _ =>
        hi (heq ▸ ⟨Nat.le_add_right _ _, Nat.add_lt_add_left hk _⟩)
    simp only [checksumField, hbyte 0 (by decide), hbyte 1 (by decide), hbyte 2 (by decide),
      hbyte 3 (by decide)]
  rw [Verifies, hfield, ← h]
  exact IndexedFold.set_ne checksumByte_injective (i := 0)
    (fun s => checksumByte_heeds (by rwa [Nat.zero_add]) s) ha hab _

def paint (frame : List (BitVec 8)) (stores : List Store) : List (BitVec 8) :=
  stores.foldl (fun frame s => frame.set s.offset s.value) frame

theorem layDown_eq {n : ℕ} (offset : ℕ) (bytes : Vector (BitVec 8) n) :
    layDown offset bytes = (bytes.toList.zipIdx offset).map fun p => ⟨p.2, p.1⟩ := by
  refine List.ext_getElem (by simp [layDown]) fun i hi hi' => ?_
  simp [layDown, Vector.get]

theorem paint_zipIdx {bytes frame : List (BitVec 8)} {offset : ℕ}
    (h : offset + bytes.length ≤ frame.length) :
    paint frame ((bytes.zipIdx offset).map fun p => ⟨p.2, p.1⟩) = overwrite frame offset bytes := by
  induction bytes generalizing frame offset with
  | nil => simp [paint, overwrite]
  | cons b bytes ih =>
    rw [List.length_cons] at h
    have hlength : offset + 1 + bytes.length ≤ (frame.set offset b).length := by
      rw [List.length_set]
      omega
    refine (ih hlength).trans ?_
    have hset : (frame.set offset b).take (offset + 1) = frame.take offset ++ [b] := by
      rw [List.take_succ_eq_append_getElem (by rw [List.length_set]; omega), List.getElem_set_self,
        List.take_set_of_le le_rfl]
    unfold overwrite
    rw [hset, List.drop_set_of_lt (by omega), List.length_cons, List.append_assoc (frame.take offset),
      List.singleton_append, Nat.add_right_comm, Nat.add_assoc]

theorem paint_layDown {n offset : ℕ} {frame : List (BitVec 8)} (h : offset + n ≤ frame.length)
    (bytes : Vector (BitVec 8) n) :
    paint frame (layDown offset bytes) = overwrite frame offset bytes.toList := by
  rw [layDown_eq]
  exact paint_zipIdx (by rwa [Vector.length_toList])

def CameraState.stamp (cam : CameraState) (frameNo : BitVec 32) (dst : List (BitVec 8)) : Stamp where
  header := ⟨((cam.frameMeta frameNo).bytes 0).toArray, length_bytes _ _⟩
  checksum := ⟨(quadletBytes (frameMetaChecksum
    ((overwrite dst 0 ((cam.frameMeta frameNo).bytes 0)).take cam.transmitBytes))).toArray, rfl⟩

theorem paint_embedFrameMeta (cam : CameraState) (frameNo : BitVec 32) {dst : List (BitVec 8)}
    (hdst : frameMetaBytes ≤ dst.length) :
    paint dst (embedFrameMeta cam.iso (cam.stamp frameNo dst)) = cam.embedFrameMeta frameNo dst := by
  have hheader : 0 + ((cam.frameMeta frameNo).bytes 0).length ≤ dst.length := by
    rwa [Nat.zero_add, length_bytes]
  unfold Fake.embedFrameMeta CameraState.embedFrameMeta CameraState.transmitBytes
  split_ifs
  · rfl
  · have hlaid := paint_layDown (by rwa [Nat.zero_add]) (cam.stamp frameNo dst).header
    unfold paint at hlaid ⊢
    rw [List.foldl_append, hlaid]
    refine (paint_layDown ?_ (cam.stamp frameNo dst).checksum).trans rfl
    show frameMetaChecksumOffset + 4 ≤ (overwrite dst 0 ((cam.frameMeta frameNo).bytes 0)).length
    rwa [length_overwrite hheader]

/-- A stamped frame verifies, and no longer does once a byte outside the field is changed. -/
theorem frame_checksum_detects (cam : CameraState) (frameNo : BitVec 32) (dst : List (BitVec 8))
    (hheader : frameMetaBytes ≤ cam.transmitBytes) (hdst : cam.transmitBytes ≤ dst.length) :
    let frame := (cam.embedFrameMeta frameNo dst).take cam.transmitBytes
    frame.length = cam.transmitBytes ∧ Verifies frame ∧
      ∀ i a b, frame[i]? = some a → ¬InChecksum i → b ≠ a → ¬Verifies (frame.set i b) := by
  intro frame
  have hbytes : 0 + ((cam.frameMeta frameNo).bytes 0).length ≤ dst.length := by
    rw [Nat.zero_add, length_bytes]
    exact hheader.trans hdst
  have hlaid : (overwrite dst 0 ((cam.frameMeta frameNo).bytes 0)).length = dst.length :=
    length_overwrite hbytes
  generalize hdst' : overwrite dst 0 ((cam.frameMeta frameNo).bytes 0) = dst' at hlaid
  have hframe : frame = overwrite (dst'.take cam.transmitBytes) frameMetaChecksumOffset
      (quadletBytes (frameMetaChecksum (dst'.take cam.transmitBytes))) := by
    show (cam.embedFrameMeta frameNo dst).take cam.transmitBytes = _
    rw [CameraState.embedFrameMeta, if_neg (Nat.not_lt.mpr hheader)]
    dsimp only
    rw [hdst']
    exact take_overwrite hheader (hlaid ▸ hdst)
  have htaken : frameMetaBytes ≤ (dst'.take cam.transmitBytes).length := by
    rwa [List.length_take_of_le (hlaid ▸ hdst)]
  have hverifies : Verifies frame := hframe ▸ verifies_overwrite htaken
  refine ⟨?_, hverifies, fun i a b ha hi hab => not_verifies_set hverifies hi ha hab⟩
  rw [hframe, length_overwrite htaken, List.length_take_of_le (hlaid ▸ hdst)]

/-- A grey frame of 16x10 bytes in one packet. -/
def greyCamera : CameraState :=
  ⟨⟨160, 1, 160, pixMono8, 16, 10⟩, 0, 0, 0, Vector.replicate _ 0x80000000, Vector.replicate _ 0, 0⟩

theorem frame_checksum_detects_grey :
    let frame := (greyCamera.embedFrameMeta 0 (List.replicate 160 0xAA)).take 160
    Verifies frame ∧ ¬Verifies (frame.set 159 0x55) := by
  have h := frame_checksum_detects greyCamera 0 (List.replicate 160 0xAA) (by decide) (by decide +kernel)
  exact ⟨h.2.1, h.2.2 159 0xAA 0x55 (by decide +kernel) (by decide) (by decide)⟩

end Fake
end Photonic
