import Photonic.Stream.History
import Photonic.Stream.Intersection
import Photonic.Dcam.PacketSize

namespace Photonic
namespace Stream
open Dcam

structure Negotiates (e : VideoMode) (stream : Dcam.Stream) : Prop where
  width_le : stream.width ≤ e.width
  height_le : stream.height ≤ e.height
  fixed : e.isFormat7 = false → stream.width = e.width ∧ stream.height = e.height
  imageSize : stream.imageSize = imageBytes stream.width stream.height (codingBpp e.pixelFormat)

theorem Negotiates.imageSize_eq {e : VideoMode} {stream : Dcam.Stream} (h : Negotiates e stream)
    (he : e.Sized) :
    stream.imageSize = stream.width * stream.height * codingBpp e.pixelFormat / 8 ∧
      stream.imageSize ≤ maxImageBytes := by
  have hle : stream.width * stream.height * codingBpp e.pixelFormat / 8 ≤ maxImageBytes :=
    (Nat.div_le_div_right (Nat.mul_le_mul_right _ (Nat.mul_le_mul h.width_le h.height_le))).trans
      he.frameBytes_le
  have heq := h.imageSize.trans (imageBytes_eq hle)
  exact ⟨heq, heq ▸ hle⟩

theorem toUlong_lt (z : ℤ) : toUlong z < 2 ^ 32 := by
  simp only [toUlong]
  omega

/-- A cast that is positive has not changed its value. -/
theorem toLong_of_pos {n : ℕ} (hn : n < 2 ^ 32) (h : 0 < toLong n) : toLong n = n := by
  refine toLong_eq ?_
  by_contra hlarge
  rw [toLong, Nat.mod_eq_of_lt hn, if_neg hlarge] at h
  omega

theorem rangeCovers_window {e : VideoMode} (h : Negotiable e) {n : Negotiated}
    (hw : n.width < 2 ^ 32) (hh : n.height < 2 ^ 32)
    (hc : rangeCovers (modeRange (mediaOf e) e) n = true) :
    n.bitCount = codingBpp e.pixelFormat ∧ ((grid e).1 ≤ n.width ∧ n.width ≤ e.width) ∧
      (grid e).2 ≤ n.height ∧ n.height ≤ e.height := by
  obtain ⟨⟨hgw, -⟩, hgh, -⟩ := h.grid_spec
  rw [rangeCovers, decide_eq_true_eq, (modeRange_spec h (mediaOf e)).1] at hc
  obtain ⟨⟨hbits, -⟩, hwindow⟩ := hc
  simp only [not_or, not_lt] at hwindow
  obtain ⟨hwge, hwle, hhge, hhle⟩ := hwindow
  have hwidth := toLong_of_pos hw (by omega)
  have hheight := toLong_of_pos hh (by omega)
  refine ⟨?_, ⟨by omega, by omega⟩, by omega, by omega⟩
  rw [← media_bitCount h.coding h.pixelToMedia_eq]
  exact hbits.symm

theorem findNegotiatedMode_covers {modes : List VideoMode} (h : ∀ e ∈ modes, Negotiable e)
    (hlen : modes.length ≤ maxVideoModes) {n : Negotiated} {e : VideoMode}
    (hfind : findNegotiatedMode modes n = some e) :
    e ∈ modes ∧ rangeCovers (modeRange (mediaOf e) e) n = true := by
  have hsome : ∀ q : VideoMode → Bool, (∀ e, q e = true → rangeCovers (modeRange (mediaOf e) e) n) →
      modes.find? q = some e → e ∈ modes ∧ rangeCovers (modeRange (mediaOf e) e) n = true :=
    fun q hq hf => ⟨List.mem_of_find?_eq_some hf, hq e (List.find?_some hf)⟩
  rw [findNegotiatedMode_eq h hlen] at hfind
  obtain hf | ⟨-, hfind⟩ := Option.or_eq_some_iff.mp hfind
  · exact hsome _ (fun e he => (Bool.and_eq_true_iff.mp he).1) hf
  obtain hf | ⟨-, hf⟩ := Option.or_eq_some_iff.mp hfind
  · exact hsome _ (fun e he => (Bool.and_eq_true_iff.mp he).1) hf
  · exact hsome _ (fun _ => id) hf

theorem openStream_negotiates {modes : List VideoMode} (h : ∀ e ∈ modes, Negotiable e)
    (hlen : modes.length ≤ maxVideoModes) {f : Format} {stream : Dcam.Stream} {e : VideoMode}
    (hopen : openStream modes f = some stream) (hmode : stream.mode = some e) :
    e ∈ modes ∧ Negotiates e stream := by
  unfold openStream at hopen
  split_ifs at hopen
  cases hopen
  obtain ⟨he, hc⟩ := findNegotiatedMode_covers h hlen hmode
  obtain ⟨hbits, ⟨hgw, hw⟩, hgh, hh⟩ :=
    rangeCovers_window (h e he) (toUlong_lt _) (toUlong_lt _) hc
  refine ⟨he, hw, hh, fun h7 => ?_, ?_⟩
  · rw [grid, if_neg (by simp [h7])] at hgw hgh
    exact ⟨le_antisymm hw hgw, le_antisymm hh hgh⟩
  · rw [← hbits]
    rfl

theorem getCurrentMode_mem {σ : Type} (port : RegisterPort σ) (csrBase : ℕ) (modes : List VideoMode) :
    Routine.Keeps (fun _ => True) (getCurrentMode port csrBase modes) (· ∈ modes) := by
  refine .bind (Q := fun _ => True) (fun _ _ => ⟨trivial, fun _ _ => trivial⟩) fun live _ => ?_
  dsimp only
  split
  · exact .throw
  next e rest hentries =>
  have he : e ∈ modes := entriesFrom_subset (hentries ▸ List.mem_cons_self)
  refine .ite (fun _ => .pure he) fun _ => ?_
  refine .bind (Q := fun _ => True) (fun _ _ => ⟨trivial, fun _ _ => trivial⟩) fun v _ => ?_
  cases v with
  | error _ => exact .pure he
  | ok v => exact .pure (refineCoding_mem hentries).1

theorem prepareStream_negotiates {σ : Type} {port : RegisterPort σ} {csrBase : ℕ}
    {modes : List VideoMode} (h : ∀ e ∈ modes, Negotiable e) {s : σ} {stream : Dcam.Stream}
    (hprepare : (prepareStream port csrBase modes s).1 = .ok stream) :
    ∃ e ∈ modes, stream.mode = some e ∧ Negotiates e stream := by
  obtain ⟨e, hmode, hrest⟩ := Routine.ok_of_bind hprepare
  have he : e ∈ modes := (getCurrentMode_mem port csrBase modes s trivial).2 e hmode
  dsimp only at hrest
  split_ifs at hrest
  · cases hrest
  obtain ⟨interval, -, hpure⟩ := Routine.ok_of_bind hrest
  cases hpure
  exact ⟨e, he, rfl, (h e he).sized.defaultWidth_le, (h e he).sized.defaultHeight_le, (h e he).fixed, rfl⟩

/-- A stream extension as one of the two front-ends leaves it: of an open, or behind a prepare. -/
inductive Extends {σ : Type} (port : RegisterPort σ) (csrBase : ℕ) (modes : List VideoMode) :
    Dcam.Stream → Prop
  | opened {f : Format} {stream : Dcam.Stream} (h : openStream modes f = some stream) :
      Extends port csrBase modes stream
  | prepared {s : σ} {stream : Dcam.Stream} (h : (prepareStream port csrBase modes s).1 = .ok stream) :
      Extends port csrBase modes stream

theorem Extends.negotiates {σ : Type} {port : RegisterPort σ} {csrBase : ℕ} {modes : List VideoMode}
    {stream : Dcam.Stream} (hs : Extends port csrBase modes stream) (h : ∀ e ∈ modes, Negotiable e)
    (hlen : modes.length ≤ maxVideoModes) {e : VideoMode} (hmode : stream.mode = some e) :
    e ∈ modes ∧ Negotiates e stream := by
  cases hs with
  | opened hopen => exact openStream_negotiates h hlen hopen hmode
  | prepared hprepare =>
    obtain ⟨e', he', hmode', hn⟩ := prepareStream_negotiates h hprepare
    obtain rfl : e' = e := Option.some.inj (hmode'.symm.trans hmode)
    exact ⟨he', hn⟩

theorem packetTable_frameBytes : ∀ format < numFormats, ∀ mode < numModes, ∀ rate < numRates,
    (packetGeometry format mode rate).bytesPerPacket ≠ 0 →
      0 < (packetGeometry format mode rate).packetsPerFrame ∧
        (packetGeometry format mode rate).bytesPerPacket *
            (packetGeometry format mode rate).packetsPerFrame =
          (geometry format mode).width * (geometry format mode).height *
            codingBpp (geometry format mode).pixelFormat / 8 := by
  decide +kernel

/-- A standard mode is at the size and in the coding of its table entry. -/
theorem geometry_of_built {σ : Type} {port : RegisterPort σ} {csrBase : ℕ} {e : VideoMode}
    (he : Built port csrBase e) (h7 : e.isFormat7 = false) :
    geometry e.format e.mode = ⟨e.pixelFormat, e.width, e.height⟩ := by
  cases he with
  | fixed => rfl
  | format7 => cases h7

/-- The packetisation is that of the stream's frame, which is an image at the stream's size. -/
structure Packetises (e : VideoMode) (stream : Dcam.Stream) (p : Packetisation) : Prop where
  bytesPerPacket_pos : 0 < p.bytesPerPacket
  packetsPerFrame_pos : 0 < p.packetsPerFrame
  noWrap : p.bytesPerPacket * p.packetsPerFrame < 2 ^ 32
  frameBytes : p.bytesPerPacket * p.packetsPerFrame = stream.imageSize
  imageSize : stream.imageSize = stream.width * stream.height * codingBpp e.pixelFormat / 8
  imageSize_le : stream.imageSize ≤ maxImageBytes

section
variable {σ τ : Type} {builder : RegisterPort σ} {csrBase : ℕ} {camera : RegisterPort τ}
  {e : VideoMode} {stream : Dcam.Stream} {maxSpeedCode : ℕ} {t : τ} {p : Packetisation}

theorem configureStream_fixed (he : Built builder csrBase e) (h7 : e.isFormat7 = false)
    (hmode : stream.mode = some e) (h : (configureStream camera stream maxSpeedCode t).1 = .ok p) :
    0 < p.bytesPerPacket ∧ 0 < p.packetsPerFrame ∧
      p.bytesPerPacket * p.packetsPerFrame = e.width * e.height * codingBpp e.pixelFormat / 8 := by
  obtain ⟨hformat, hm, -⟩ := he.fixed_of_isFormat7 h7
  simp only [configureStream, hmode, h7, Bool.false_eq_true, if_false] at h
  obtain ⟨hnone, -⟩ | ⟨hlt, hstream, -⟩ := selectRate_spec e.format e.mode e.rateMask
    stream.frameInterval (maxIsochPayload maxSpeedCode)
  · rw [if_pos hnone.ge] at h
    cases h
  · rw [if_neg (Nat.not_le.mpr hlt)] at h
    obtain ⟨-, -, h⟩ := Routine.ok_of_bind h
    obtain ⟨-, -, h⟩ := Routine.ok_of_bind h
    obtain ⟨-, -, h⟩ := Routine.ok_of_bind h
    cases h
    simp only [streamable, Bool.and_eq_true, decide_eq_true_eq] at hstream
    have htable := packetTable_frameBytes _ hformat _ hm _ hlt hstream.1.2
    rw [geometry_of_built he h7] at htable
    exact ⟨Nat.pos_of_ne_zero hstream.1.2, htable⟩

theorem configureStream_format7 (h7 : e.isFormat7 = true) (hmode : stream.mode = some e)
    (h : (configureStream camera stream maxSpeedCode t).1 = .ok p) :
    0 < p.bytesPerPacket ∧ 0 < p.packetsPerFrame ∧
      p.bytesPerPacket * p.packetsPerFrame = stream.imageSize := by
  simp only [configureStream, hmode, h7, if_true] at h
  obtain ⟨hframe, packetPara, -, -, hsize, hppf⟩ := configureFormat7_ok h
  obtain ⟨hpos, -, -, hdvd⟩ := packetSize_spec hsize
  rw [hppf]
  exact ⟨hpos, Nat.div_pos (Nat.le_of_dvd hframe hdvd) hpos, Nat.mul_div_cancel' hdvd⟩

theorem configureStream_packetises (he : Built builder csrBase e) (hn : Negotiates e stream)
    (hmode : stream.mode = some e) (h : (configureStream camera stream maxSpeedCode t).1 = .ok p) :
    Packetises e stream p := by
  obtain ⟨himage, hle⟩ := hn.imageSize_eq he.sized
  have hframe : 0 < p.bytesPerPacket ∧ 0 < p.packetsPerFrame ∧
      p.bytesPerPacket * p.packetsPerFrame = stream.imageSize := by
    cases h7 : e.isFormat7 with
    | true => exact configureStream_format7 h7 hmode h
    | false =>
      obtain ⟨hw, hh⟩ := hn.fixed h7
      rw [himage, hw, hh]
      exact configureStream_fixed he h7 hmode h
  obtain ⟨hbpp, hppf, heq⟩ := hframe
  refine ⟨hbpp, hppf, ?_, heq, himage, hle⟩
  rw [heq]
  exact hle.trans_lt (by decide)

end

end Stream
end Photonic
