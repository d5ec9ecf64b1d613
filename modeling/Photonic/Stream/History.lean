import Photonic.Stream.Negotiation
import Photonic.Dcam.RateSet

namespace Photonic
namespace Stream
open Dcam

/-- What `PhotonicStreamOpen` leaves in the stream extension for a video format, where it does not
reject the format. -/
def openStream (modes : List VideoMode) (f : Format) : Option Dcam.Stream :=
  if sizeMismatch f then none
  else
    let n := readFormat f
    some ⟨findNegotiatedMode modes n, n.width, n.height, n.imageSize, n.frameInterval⟩

theorem openStream_mode_mem {modes : List VideoMode} {f : Format} {stream : Dcam.Stream}
    {e : VideoMode} (h : openStream modes f = some stream) (hmode : stream.mode = some e) :
    e ∈ modes := by
  unfold openStream at h
  split_ifs at h
  cases h
  obtain ⟨i, -, hi⟩ := Option.bind_eq_some_iff.mp hmode
  exact List.mem_of_getElem? hi

/-- What programs or reads the camera's format while no capture session is open, and the start of
a session: one of DirectShow with a connection format, or one behind a prepare. -/
inductive FormatAct
  | session (f : Format) (maxSpeedCode : ℕ)
  | capture (maxSpeedCode : ℕ)
  | setPixelFormat (pixelFormat : ℕ)
  | setFrameRate (index : ℕ)
  | subwindowGet
  | getPixelFormat
  | enumFrameRate (index : ℕ)
  | getFrameRate

section
variable {σ : Type} (port : RegisterPort σ) (csrBase : ℕ) (modes : List VideoMode)

def FormatAct.run : FormatAct → Routine σ NtStatus Unit
  | .session f maxSpeedCode =>
    match openStream modes f with
    | none => pure ()
    | some stream => do
      let _ ← configureStream port stream maxSpeedCode
      pure ()
  | .capture maxSpeedCode => do
    let stream ← prepareStream port csrBase modes
    let _ ← configureStream port stream maxSpeedCode
    pure ()
  | .setPixelFormat pixelFormat => selectPixelFormat port csrBase modes pixelFormat
  | .setFrameRate index => Dcam.setFrameRate port csrBase modes index
  | .subwindowGet => do
    let _ ← getCurrentSubwindow port csrBase modes
    pure ()
  | .getPixelFormat => do
    let _ ← getCurrentPixelFormat port csrBase modes
    pure ()
  | .enumFrameRate index => do
    let _ ← Dcam.enumFrameRate port csrBase modes index
    pure ()
  | .getFrameRate => do
    let _ ← Dcam.getFrameRate port csrBase modes
    pure ()

/-- The camera after enumeration. -/
def formatHistory (start : σ) : Machine σ FormatAct where
  init := start
  step s a := some (a.run port csrBase modes s).2

theorem formatHistory_run {start : σ} {P : σ → FormatAct → Prop} {a : FormatAct} (ha : P start a) :
    (formatHistory port csrBase modes start).Reaches P (a.run port csrBase modes start).2 :=
  Machine.Reaches.init.step ha rfl

def queriedFrameSize (window : Subwindow) (pixelFormat : ℕ) : ℕ :=
  window.width / window.scale * (window.height / window.scale) * codingBpp pixelFormat / 8

/-- Both queries and a prepare behind them answer, and on the same frame size. -/
def QueriesAgree (s : σ) : Prop :=
  ∃ window t pixelFormat u stream v,
    getCurrentSubwindow port csrBase modes s = (.ok window, t) ∧
      getCurrentPixelFormat port csrBase modes t = (.ok pixelFormat, u) ∧
      prepareStream port csrBase modes u = (.ok stream, v) ∧
      queriedFrameSize window pixelFormat = stream.imageSize

end

/-- The registers that tell a mode: the selection, and the size and coding of the Format 7
modes. -/
def TellsMode (modes : List VideoMode) (r : ℕ) : Prop :=
  IsSelection r ∨ ∃ e ∈ modes, e.isFormat7 = true ∧ (r = sizeRegister e ∨ r = codingRegister e)

/-- The length of a Format 7 CSR block, as far as the driver uses it. -/
def format7BlockBytes : ℕ := f7BytePerPacket + 4

/-- The CSR blocks of two modes do not overlap, nor does one the selection registers. -/
structure SeparateBlocks (modes : List VideoMode) : Prop where
  apart : ∀ e ∈ modes, ∀ e' ∈ modes, e.isFormat7 = true → e'.isFormat7 = true →
    e.mode = e'.mode ∧ e.format7CsrOffset = e'.format7CsrOffset ∨
      e.format7CsrOffset + format7BlockBytes ≤ e'.format7CsrOffset ∨
      e'.format7CsrOffset + format7BlockBytes ≤ e.format7CsrOffset
  selection : ∀ e ∈ modes, e.isFormat7 = true → ∀ r, IsSelection r →
    r < e.format7CsrOffset ∨ e.format7CsrOffset + format7BlockBytes ≤ r

/-- Every Format 7 mode is at the default size of its entries, in a coding that was enumerated. -/
def Settled {σ : Type} (value : σ → ℕ → BitVec 32) (modes : List VideoMode) (s : σ) : Prop :=
  ∀ e ∈ modes, e.isFormat7 = true →
    value s (sizeRegister e) = packSize e.defaultWidth e.defaultHeight ∧
      ∃ c ∈ modes, c.isOf e.format e.mode = true ∧ c.pixelFormat = coding (value s (codingRegister e))

/-- A session that streams a Format 7 mode does so at the mode's default size. -/
def FormatAct.DefaultSized (modes : List VideoMode) : FormatAct → Prop
  | .session f _ => ∀ stream, openStream modes f = some stream → ∀ e, stream.mode = some e →
      e.isFormat7 = true → stream.width = e.defaultWidth ∧ stream.height = e.defaultHeight
  | _ => True

/-- What the claims of this module use of an entry of the table. -/
structure Tabled (e : VideoMode) : Prop where
  format7_iff : e.isFormat7 = true ↔ e.format = f7Format
  codingBpp_ne : codingBpp e.pixelFormat ≠ 0
  defaultWidth_pos : 0 < e.defaultWidth
  defaultHeight_pos : 0 < e.defaultHeight
  defaultWidth_lt : e.defaultWidth < 0x10000
  defaultHeight_lt : e.defaultHeight < 0x10000
  frameBytes_le : e.defaultWidth * e.defaultHeight * codingBpp e.pixelFormat / 8 ≤ maxImageBytes

theorem tabled_of_built {σ : Type} {port : RegisterPort σ} {csrBase : ℕ} {e : VideoMode}
    (he : Built port csrBase e) : Tabled e := by
  have hsized := he.sized
  have hbpp := he.codingBpp_ne
  have hframe : e.defaultWidth * e.defaultHeight * codingBpp e.pixelFormat / 8 ≤ maxImageBytes :=
    (Nat.div_le_div_right (Nat.mul_le_mul_right _ (Nat.mul_le_mul hsized.defaultWidth_le
      hsized.defaultHeight_le))).trans hsized.frameBytes_le
  cases he with
  | @fixed format mode rateMask hformat hmode hpixel hmask hbounds =>
    have hsmall : ∀ format < numFormats, ∀ mode < numModes,
        (geometry format mode).width < 0x10000 ∧ (geometry format mode).height < 0x10000 := by
      decide
    refine ⟨⟨nofun, fun h => ?_⟩, hbpp, hsized.defaultWidth_pos, hsized.defaultHeight_pos,
      (hsmall _ hformat _ hmode).1, (hsmall _ hformat _ hmode).2, hframe⟩
    simp only [fixedEntry, f7Format, numFormats] at h hformat
    omega
  | @format7 mode base coding modeMask pointer r g hmode hmask hbit hpointer hbase hregs hgeometry
      hcoding hbpp' hcap =>
    have haccepts := Format7Regs.accepts_of_geometry hgeometry
    have hw := haccepts.width_le.trans_lt (hi16_lt r.maxSize)
    have hh := haccepts.height_le.trans_lt (lo16_lt r.maxSize)
    exact ⟨iff_of_true rfl rfl, hbpp, hsized.defaultWidth_pos, hsized.defaultHeight_pos,
      hsized.defaultWidth_le.trans_lt hw, hsized.defaultHeight_le.trans_lt hh, hframe⟩

theorem coding_shifted {id : ℕ} (h : id < 8) : coding (BitVec.ofNat 32 id <<< 24) = id := by
  have hall : ∀ id < 8, coding (BitVec.ofNat 32 id <<< 24) = id := by decide
  exact hall id h

section
variable {σ : Type} {port : RegisterPort σ} {value : σ → ℕ → BitVec 32} {csrBase : ℕ}
  {modes : List VideoMode}

theorem Settled.congr {s t : σ} (h : Settled value modes s)
    (hst : ∀ r, TellsMode modes r → value t r = value s r) : Settled value modes t := by
  intro e he h7
  rw [hst _ (.inr ⟨e, he, h7, .inl rfl⟩), hst _ (.inr ⟨e, he, h7, .inr rfl⟩)]
  exact h e he h7

variable (hport : port.Latches value (TellsMode modes))
include hport

theorem read_keeps (offset : ℕ) :
    Routine.Keeps (Settled value modes) (port.read offset) fun _ => True :=
  fun s hs => ⟨hs.congr fun r hr => hport.read_keeps offset s r hr, fun _ _ => trivial⟩

theorem write_keeps {offset : ℕ} (hoffset : ∀ e ∈ modes, e.isFormat7 = true →
    sizeRegister e ≠ offset ∧ codingRegister e ≠ offset) (v : BitVec 32) :
    Routine.Keeps (Settled value modes) (port.write offset v) fun _ => True := by
  intro s hs
  refine ⟨fun e he h7 => ?_, fun _ _ => trivial⟩
  obtain ⟨hsize, hcoding⟩ := hoffset e he h7
  rw [hport.write_keeps offset v s _ (.inr ⟨e, he, h7, .inl rfl⟩) hsize,
    hport.write_keeps offset v s _ (.inr ⟨e, he, h7, .inr rfl⟩) hcoding]
  exact hs e he h7

variable (hsep : SeparateBlocks modes)
include hsep

theorem write_selection_keeps {offset : ℕ} (hoffset : IsSelection offset) (v : BitVec 32) :
    Routine.Keeps (Settled value modes) (port.write offset v) fun _ => True := by
  refine write_keeps hport (fun e he h7 => ?_) v
  have := hsep.selection e he h7 offset hoffset
  simp only [sizeRegister, codingRegister, f7ImageSize, f7ColorCodingId, format7BlockBytes,
    f7BytePerPacket] at this ⊢
  omega

theorem write_bytePerPacket_keeps {e : VideoMode} (he : e ∈ modes) (h7 : e.isFormat7 = true)
    (v : BitVec 32) : Routine.Keeps (Settled value modes)
      (port.write (e.format7CsrOffset + f7BytePerPacket) v) fun _ => True := by
  refine write_keeps hport (fun e' he' h7' => ?_) v
  have := hsep.apart e' he' e he h7' h7
  simp only [sizeRegister, codingRegister, f7ImageSize, f7ColorCodingId, format7BlockBytes,
    f7BytePerPacket] at this ⊢
  omega

theorem write_size_keeps {e : VideoMode} (he : e ∈ modes) (h7 : e.isFormat7 = true) :
    Routine.Keeps (Settled value modes)
      (port.write (sizeRegister e) (packSize e.defaultWidth e.defaultHeight)) fun _ => True := by
  intro s hs
  refine ⟨fun e' he' h7' => ?_, fun _ _ => trivial⟩
  have hapart := hsep.apart e' he' e he h7' h7
  have hcoding : codingRegister e' ≠ sizeRegister e := by
    simp only [sizeRegister, codingRegister, f7ImageSize, f7ColorCodingId, format7BlockBytes,
      f7BytePerPacket] at hapart ⊢
    omega
  rw [hport.write_keeps _ _ s _ (.inr ⟨e', he', h7', .inr rfl⟩) hcoding]
  refine ⟨?_, (hs e' he' h7').2⟩
  by_cases heq : sizeRegister e' = sizeRegister e
  · rw [heq, hport.write_eq _ _ _ (.inr ⟨e, he, h7, .inl rfl⟩), ← (hs e he h7).1, ← heq]
    exact (hs e' he' h7').1
  · rw [hport.write_keeps _ _ s _ (.inr ⟨e', he', h7', .inl rfl⟩) heq]
    exact (hs e' he' h7').1

theorem write_coding_keeps (htable : ∀ e ∈ modes, Tabled e) {e : VideoMode} (he : e ∈ modes)
    (h7 : e.isFormat7 = true) : Routine.Keeps (Settled value modes)
      (port.write (codingRegister e) (BitVec.ofNat 32 e.pixelFormat <<< 24)) fun _ => True := by
  intro s hs
  refine ⟨fun e' he' h7' => ?_, fun _ _ => trivial⟩
  have hapart := hsep.apart e' he' e he h7' h7
  have hsize : sizeRegister e' ≠ codingRegister e := by
    simp only [sizeRegister, codingRegister, f7ImageSize, f7ColorCodingId, format7BlockBytes,
      f7BytePerPacket] at hapart ⊢
    omega
  rw [hport.write_keeps _ _ s _ (.inr ⟨e', he', h7', .inl rfl⟩) hsize]
  refine ⟨(hs e' he' h7').1, ?_⟩
  by_cases heq : codingRegister e' = codingRegister e
  · rw [heq, hport.write_eq _ _ _ (.inr ⟨e, he, h7, .inr rfl⟩),
      coding_shifted (codingBpp_lt (htable e he).codingBpp_ne)]
    have hmode : e'.mode = e.mode := by
      simp only [codingRegister, f7ColorCodingId, format7BlockBytes, f7BytePerPacket] at hapart heq
      omega
    refine ⟨e, he, ?_, rfl⟩
    simp [VideoMode.isOf, hmode, (htable e he).format7_iff.mp h7, (htable e' he').format7_iff.mp h7']
  · rw [hport.write_keeps _ _ s _ (.inr ⟨e', he', h7', .inr rfl⟩) heq]
    exact (hs e' he' h7').2

omit hsep

theorem liveSelection_keeps : Routine.Keeps (Settled value modes) (liveSelection port csrBase)
    fun _ => True := by
  refine .ite (fun _ => .throw) fun _ => ?_
  exact (read_keeps hport _).bind fun _ _ => (read_keeps hport _).bind fun _ _ => .pure trivial

theorem getCurrentPixelFormat_keeps : Routine.Keeps (Settled value modes)
    (getCurrentPixelFormat port csrBase modes) fun _ => True := by
  refine (liveSelection_keeps hport).bind fun live _ => ?_
  dsimp only
  split
  · exact .throw
  · refine .ite (fun _ => .pure trivial) fun _ => ?_
    exact (read_keeps hport _).bind fun _ _ => .pure trivial

theorem getCurrentMode_keeps : Routine.Keeps (Settled value modes)
    (getCurrentMode port csrBase modes) fun e => e ∈ modes := by
  refine (liveSelection_keeps hport).bind fun live _ => ?_
  dsimp only
  split
  · exact .throw
  next e rest hentries =>
  refine .ite (fun _ => .pure (entriesFrom_subset (hentries ▸ List.mem_cons_self))) fun _ => ?_
  refine (read_keeps hport _).attempt.bind fun v _ => ?_
  cases v with
  | error _ => exact .pure (entriesFrom_subset (hentries ▸ List.mem_cons_self))
  | ok v => exact .pure (refineCoding_mem hentries).1

theorem getCurrentSubwindow_keeps : Routine.Keeps (Settled value modes)
    (getCurrentSubwindow port csrBase modes) fun _ => True := by
  refine (getCurrentMode_keeps hport).bind fun e _ => ?_
  refine .ite (fun _ => ?_) fun _ => .pure trivial
  exact (read_keeps hport _).bind fun _ _ => (read_keeps hport _).bind fun _ _ => .pure trivial

theorem enumFrameRate_keeps (index : ℕ) : Routine.Keeps (Settled value modes)
    (Dcam.enumFrameRate port csrBase modes index) fun _ => True := by
  refine (getCurrentMode_keeps hport).bind fun e _ => ?_
  refine .ite (fun _ => .ite (fun _ => .pure trivial) fun _ => .throw) fun _ => ?_
  exact .ite (fun _ => .throw) fun _ => .pure trivial

theorem getFrameRate_keeps : Routine.Keeps (Settled value modes)
    (Dcam.getFrameRate port csrBase modes) fun _ => True := by
  refine (getCurrentMode_keeps hport).bind fun e _ => ?_
  refine .ite (fun _ => .ite (fun _ => .throw) fun _ => .pure trivial) fun _ => ?_
  refine (read_keeps hport _).bind fun v _ => ?_
  exact .ite (fun _ => .throw) fun _ => .pure trivial

def AtDefault (modes : List VideoMode) (stream : Dcam.Stream) : Prop :=
  ∀ e, stream.mode = some e → e ∈ modes ∧
    (e.isFormat7 = true → stream.width = e.defaultWidth ∧ stream.height = e.defaultHeight)

theorem prepareStream_keeps : Routine.Keeps (Settled value modes)
    (prepareStream port csrBase modes) (AtDefault modes) := by
  refine (getCurrentMode_keeps hport).bind fun e he => ?_
  refine .ite (fun _ => .throw) fun _ => ?_
  refine (getFrameRate_keeps hport).attempt.bind fun interval _ => .pure ?_
  rintro _ ⟨⟩
  exact ⟨he, fun _ => ⟨rfl, rfl⟩⟩

include hsep

theorem configureFormat7_keeps (htable : ∀ e ∈ modes, Tabled e) {e : VideoMode} (he : e ∈ modes)
    (h7 : e.isFormat7 = true) {stream : Dcam.Stream} (hw : stream.width = e.defaultWidth)
    (hh : stream.height = e.defaultHeight) (maxSpeedCode : ℕ) :
    Routine.Keeps (Settled value modes) (configureFormat7 port e stream maxSpeedCode)
      fun _ => True := by
  refine .ite (fun _ => .throw) fun _ => ?_
  refine (write_selection_keeps hport hsep (.inl rfl) _).bind fun _ _ => ?_
  refine (write_selection_keeps hport hsep (.inr (.inl rfl)) _).bind fun _ _ => ?_
  rw [hw, hh]
  refine (write_size_keeps hport hsep he h7).bind fun _ _ => ?_
  refine (write_coding_keeps hport hsep htable he h7).bind fun _ _ => ?_
  refine (read_keeps hport _).bind fun packetPara _ => ?_
  refine .ite (fun _ => .throw) fun _ => ?_
  refine Routine.Keeps.bind (Q := fun _ => True) ?_ fun bpp _ => ?_
  · cases packetSize _ _ _ _ _ with
    | error _ => exact .throw
    | ok _ => exact .pure trivial
  · exact (write_bytePerPacket_keeps hport hsep he h7 _).bind fun _ _ => .pure trivial

theorem configureStream_keeps (htable : ∀ e ∈ modes, Tabled e) {stream : Dcam.Stream}
    (hstream : AtDefault modes stream) (maxSpeedCode : ℕ) :
    Routine.Keeps (Settled value modes) (configureStream port stream maxSpeedCode)
      fun _ => True := by
  unfold configureStream
  cases hmode : stream.mode with
  | none => exact .throw
  | some e =>
    obtain ⟨he, hsize⟩ := hstream e hmode
    refine .ite (fun h7 => ?_) fun _ => .ite (fun _ => .throw) fun _ => ?_
    · exact configureFormat7_keeps hport hsep htable he h7 (hsize h7).1 (hsize h7).2 maxSpeedCode
    · exact (write_selection_keeps hport hsep (.inl rfl) _).bind fun _ _ =>
        (write_selection_keeps hport hsep (.inr (.inl rfl)) _).bind fun _ _ =>
        (write_selection_keeps hport hsep (.inr (.inr rfl)) _).bind fun _ _ => .pure trivial

theorem selectPixelFormat_keeps (htable : ∀ e ∈ modes, Tabled e) (pixelFormat : ℕ) :
    Routine.Keeps (Settled value modes) (selectPixelFormat port csrBase modes pixelFormat)
      fun _ => True := by
  refine .ite (fun _ => .throw) fun _ => ?_
  split
  · exact .throw
  next e hfind =>
  have he := List.mem_of_find?_eq_some hfind
  refine (write_selection_keeps hport hsep (.inl rfl) _).bind fun _ _ => ?_
  refine (write_selection_keeps hport hsep (.inr (.inl rfl)) _).bind fun _ _ => ?_
  exact .ite (fun h7 => write_coding_keeps hport hsep htable he h7) fun _ => .pure trivial

theorem setFrameRate_keeps (index : ℕ) : Routine.Keeps (Settled value modes)
    (Dcam.setFrameRate port csrBase modes index) fun _ => True := by
  refine (getCurrentMode_keeps hport).bind fun e _ => ?_
  refine .ite (fun _ => .ite (fun _ => .throw) fun _ => .pure trivial) fun _ => ?_
  exact .ite (fun _ => .throw) fun _ => write_selection_keeps hport hsep (.inr (.inr rfl)) _

theorem FormatAct.run_keeps (htable : ∀ e ∈ modes, Tabled e) {a : FormatAct}
    (ha : a.DefaultSized modes) :
    Routine.Keeps (Settled value modes) (a.run port csrBase modes) fun _ => True := by
  cases a with
  | session f maxSpeedCode =>
    unfold FormatAct.run
    dsimp only
    cases hopen : openStream modes f with
    | none => exact .pure trivial
    | some stream =>
      have hstream : AtDefault modes stream := fun e hmode =>
        ⟨openStream_mode_mem hopen hmode, ha stream hopen e hmode⟩
      exact (configureStream_keeps hport hsep htable hstream maxSpeedCode).bind fun _ _ =>
        .pure trivial
  | capture maxSpeedCode =>
    exact (prepareStream_keeps hport).bind fun stream hstream =>
      (configureStream_keeps hport hsep htable hstream maxSpeedCode).bind fun _ _ => .pure trivial
  | setPixelFormat pixelFormat => exact selectPixelFormat_keeps hport hsep htable pixelFormat
  | setFrameRate index => exact setFrameRate_keeps hport hsep index
  | subwindowGet => exact (getCurrentSubwindow_keeps hport).bind fun _ _ => .pure trivial
  | getPixelFormat => exact (getCurrentPixelFormat_keeps hport).bind fun _ _ => .pure trivial
  | enumFrameRate index => exact (enumFrameRate_keeps hport index).bind fun _ _ => .pure trivial
  | getFrameRate => exact (getFrameRate_keeps hport).bind fun _ _ => .pure trivial

end

theorem mem_entriesFrom {modes : List VideoMode} {format mode : ℕ} {c : VideoMode} (hc : c ∈ modes)
    (hof : c.isOf format mode = true) : c ∈ entriesFrom modes format mode := by
  rw [← List.takeWhile_append_dropWhile (p := fun e => !VideoMode.isOf e format mode) (l := modes)]
    at hc
  obtain h | h := List.mem_append.mp hc
  · have := List.all_eq_true.mp List.all_takeWhile c h
    simp [hof] at this
  · exact h

theorem fullWidth_spec (modes : List VideoMode) (n : ℕ) (hn : 0 < n)
    (h : ∀ e ∈ modes, e.defaultWidth < n) :
    fullWidth modes < n ∧ ∀ e ∈ modes, e.defaultWidth ≤ fullWidth modes := by
  have hfold : ∀ (l : List VideoMode) (w : ℕ), w < n → (∀ e ∈ l, e.defaultWidth < n) →
      let w' := l.foldl (fun width e => if width < e.defaultWidth then e.defaultWidth else width) w
      w' < n ∧ w ≤ w' ∧ ∀ e ∈ l, e.defaultWidth ≤ w' := by
    intro l
    induction l with
    | nil => exact fun w hw _ => ⟨hw, le_rfl, nofun⟩
    | cons a l ih =>
      intro w hw hl
      have ha := hl a List.mem_cons_self
      obtain ⟨h₁, h₂, h₃⟩ := ih (if w < a.defaultWidth then a.defaultWidth else w)
        (by split_ifs <;> assumption) fun e he => hl e (List.mem_cons_of_mem _ he)
      have hstep : w ≤ (if w < a.defaultWidth then a.defaultWidth else w) ∧
          a.defaultWidth ≤ if w < a.defaultWidth then a.defaultWidth else w := by
        split_ifs <;> omega
      refine ⟨h₁, hstep.1.trans h₂, ?_⟩
      intro e he
      obtain rfl | he := List.mem_cons.mp he
      · exact hstep.2.trans h₂
      · exact h₃ e he
  obtain ⟨h₁, -, h₂⟩ := hfold modes 0 hn h
  exact ⟨h₁, h₂⟩

/-- A length below 16 bits is recovered from its full-resolution units. -/
theorem scaled_div {x scale : ℕ} (hx : x < 0x10000) (hpos : 0 < scale) (hscale : scale < 0x10000) :
    x * scale % 2 ^ 32 / scale = x := by
  have hmul : x * scale < 0x10000 * 0x10000 := Nat.mul_lt_mul'' hx hscale
  rw [Nat.mod_eq_of_lt (by omega), Nat.mul_div_cancel _ hpos]

theorem packSize_halves {w h : ℕ} (hw : w < 0x10000) (hh : h < 0x10000) :
    hi16 (packSize w h) = w ∧ lo16 (packSize w h) = h := by
  have hvalue : (packSize w h).toNat = w * 0x10000 + h := by
    rw [packSize, BitVec.toNat_ofNat, Nat.mod_eq_of_lt hw, Nat.mod_eq_of_lt hh]
    omega
  simp only [hi16, lo16, hvalue]
  omega

section
variable {σ : Type} {port : RegisterPort σ} {value : σ → ℕ → BitVec 32} {csrBase : ℕ}
  {modes rest : List VideoMode} {e : VideoMode} {s : σ}

abbrev SameMode (value : σ → ℕ → BitVec 32) (modes : List VideoMode) (s t : σ) : Prop :=
  ∀ r, TellsMode modes r → value t r = value s r

theorem exists_liveMode (hport : port.Latches value (TellsMode modes)) (hcsr : csrBase ≠ 0)
    (hs : Settled value modes s)
    (hlive : liveEntries value modes s = e :: rest) :
    ∃ m ∈ modes, ∀ t, SameMode value modes s t →
      Answers value (TellsMode modes) (getCurrentMode port csrBase modes) t (.ok m) ∧
        Answers value (TellsMode modes) (getCurrentPixelFormat port csrBase modes) t
          (.ok m.pixelFormat) := by
  have hsel : ∀ r, IsSelection r → TellsMode modes r := fun _ h => .inl h
  have he : e ∈ modes := entriesFrom_subset (hlive ▸ List.mem_cons_self)
  have hof := isOf_of_entriesFrom hlive
  simp only [VideoMode.isOf, Bool.decide_and, Bool.and_eq_true, decide_eq_true_eq] at hof
  cases h7 : e.isFormat7 with
  | false =>
    refine ⟨e, he, fun t ht => ?_⟩
    have hlive' := (liveEntries_congr hsel ht).trans hlive
    refine ⟨getCurrentMode_fixed hport hsel hcsr hlive' h7, ?_⟩
    refine (liveSelection_answers hport hsel hcsr t).bind fun u _ => ?_
    unfold liveEntries at hlive'
    dsimp only
    rw [hlive']
    simp only [h7, if_true]
    exact .pure
  | true =>
    have hcodingReg : TellsMode modes (codingRegister e) := .inr ⟨e, he, h7, .inr rfl⟩
    obtain ⟨c, hc, hcof, hcpf⟩ := (hs e he h7).2
    -- the live coding was enumerated behind the first entry of the mode
    have hcrest : c ∈ e :: rest := by
      have hmem := mem_entriesFrom hc hcof
      rw [hof.1, hof.2] at hmem
      exact hlive ▸ hmem
    obtain ⟨m, hfind⟩ : ∃ m, (e :: rest).find? (fun c => c.isOf (selection (value s regVideoFormat))
        (selection (value s regVideoMode)) &&
          c.pixelFormat = coding (value s (codingRegister e))) = some m := by
      refine Option.isSome_iff_exists.mp (List.find?_isSome.mpr ⟨c, hcrest, ?_⟩)
      rw [← hof.1, ← hof.2, hcof, hcpf]
      simp
    have hm : m ∈ modes :=
      entriesFrom_subset (hlive ▸ List.mem_of_find?_eq_some hfind)
    have hmpf : m.pixelFormat = coding (value s (codingRegister e)) := by
      have := List.find?_some hfind
      simp only [Bool.and_eq_true, decide_eq_true_eq] at this
      exact this.2
    refine ⟨m, hm, fun t ht => ?_⟩
    have hlive' := (liveEntries_congr hsel ht).trans hlive
    have hformat := ht _ (hsel _ (.inl rfl))
    have hmode := ht _ (hsel _ (.inr (.inl rfl)))
    unfold liveEntries at hlive'
    constructor
    · refine (liveSelection_answers hport hsel hcsr t).bind fun u hu => ?_
      dsimp only
      rw [hlive']
      simp only [h7, Bool.true_eq_false, if_false]
      refine (hport.answers _ u).attempt.bind fun v _ => ?_
      dsimp only
      rw [refineCoding, hu _ hcodingReg, ht _ hcodingReg, hformat, hmode, hfind, Option.getD_some]
      exact .pure
    · refine (liveSelection_answers hport hsel hcsr t).bind fun u hu => ?_
      dsimp only
      rw [hlive']
      simp only [h7, Bool.true_eq_false, if_false]
      refine (hport.answers _ u).bind fun v _ => ?_
      rw [hu _ hcodingReg, ht _ hcodingReg, ← hmpf]
      exact .pure

theorem getCurrentSubwindow_settled (hport : port.Latches value (TellsMode modes))
    (hs : Settled value modes s) {m : VideoMode} (hm : m ∈ modes) (hmt : Tabled m)
    (hmode : Answers value (TellsMode modes) (getCurrentMode port csrBase modes) s (.ok m)) :
    ∃ x y, Answers value (TellsMode modes) (getCurrentSubwindow port csrBase modes) s
      (.ok ⟨fullWidth modes / m.defaultWidth, x, y,
        m.defaultWidth * (fullWidth modes / m.defaultWidth) % 2 ^ 32,
        m.defaultHeight * (fullWidth modes / m.defaultWidth) % 2 ^ 32⟩) := by
  obtain ⟨t, ht, hst⟩ := hmode
  cases h7 : m.isFormat7 with
  | false =>
    refine ⟨0 * (fullWidth modes / m.defaultWidth) % 2 ^ 32,
      0 * (fullWidth modes / m.defaultWidth) % 2 ^ 32, t, ?_, hst⟩
    rw [getCurrentSubwindow, Routine.bind_ok ht]
    simp only [h7, Bool.false_eq_true, if_false]
    rfl
  -- the size register holds the default size, and no answer on the way changes it
  | true =>
    have hsizeReg : TellsMode modes (sizeRegister m) := .inr ⟨m, hm, h7, .inl rfl⟩
    obtain ⟨u, hu, htu⟩ := hport.answers (m.format7CsrOffset + f7ImagePosition) t
    obtain ⟨v, hv, huv⟩ := hport.answers (sizeRegister m) u
    have hsize : value u (sizeRegister m) = packSize m.defaultWidth m.defaultHeight :=
      ((htu _ hsizeReg).trans (hst _ hsizeReg)).trans (hs m hm h7).1
    obtain ⟨hhi, hlo⟩ := packSize_halves hmt.defaultWidth_lt hmt.defaultHeight_lt
    let position := value t (m.format7CsrOffset + f7ImagePosition)
    refine ⟨hi16 position * (fullWidth modes / m.defaultWidth) % 2 ^ 32,
      lo16 position * (fullWidth modes / m.defaultWidth) % 2 ^ 32, v, ?_,
      fun r hr => (huv r hr).trans ((htu r hr).trans (hst r hr))⟩
    rw [getCurrentSubwindow, Routine.bind_ok ht]
    simp only [h7, if_true]
    rw [Routine.bind_ok hu, Routine.bind_ok hv, hsize, hhi, hlo]
    rfl

theorem queriesAgree_of_settled (hport : port.Latches value (TellsMode modes)) (hcsr : csrBase ≠ 0)
    (htable : ∀ e ∈ modes, Tabled e) (hs : Settled value modes s)
    (hlive : liveEntries value modes s = e :: rest) : QueriesAgree port csrBase modes s := by
  obtain ⟨m, hm, hanswers⟩ := exists_liveMode hport hcsr hs hlive
  have hmt := htable m hm
  obtain ⟨hfull, hwidest⟩ := fullWidth_spec modes 0x10000 (by decide) fun e he =>
    (htable e he).defaultWidth_lt
  have hpos : 0 < fullWidth modes / m.defaultWidth :=
    Nat.div_pos (hwidest m hm) hmt.defaultWidth_pos
  have hscale := (Nat.div_le_self (fullWidth modes) m.defaultWidth).trans_lt hfull
  obtain ⟨x, y, t, ht, hst⟩ :=
    getCurrentSubwindow_settled hport hs hm hmt (hanswers s fun _ _ => rfl).1
  obtain ⟨u, hu, htu⟩ := (hanswers t hst).2
  obtain ⟨v, hv, huv⟩ := (hanswers u fun r hr => (htu r hr).trans (hst r hr)).1
  obtain ⟨interval, w, hw⟩ : ∃ interval w, prepareStream port csrBase modes u =
      (.ok ⟨some m, m.defaultWidth, m.defaultHeight,
        imageBytes m.defaultWidth m.defaultHeight (codingBpp m.pixelFormat), interval⟩, w) := by
    rw [prepareStream, Routine.bind_ok hv, if_neg hmt.codingBpp_ne]
    exact ⟨_, _, rfl⟩
  refine ⟨_, t, _, u, _, w, ht, hu, hw, ?_⟩
  rw [queriedFrameSize, scaled_div hmt.defaultWidth_lt hpos hscale,
    scaled_div hmt.defaultHeight_lt hpos hscale]
  exact (imageBytes_eq hmt.frameBytes_le).symm

/-- What resolves finds an entry of the table for the selection. -/
theorem live_of_getCurrentMode (hport : port.Latches value (TellsMode modes)) {m : VideoMode}
    (h : (getCurrentMode port csrBase modes s).1 = .ok m) :
    csrBase ≠ 0 ∧ ∃ e rest, liveEntries value modes s = e :: rest := by
  have hcsr : csrBase ≠ 0 := by
    rintro rfl
    cases h
  refine ⟨hcsr, ?_⟩
  obtain ⟨t, ht, -⟩ := liveSelection_answers hport (fun _ h => .inl h) hcsr s
  rw [getCurrentMode, Routine.bind_ok ht] at h
  cases hlive : liveEntries value modes s with
  | cons e rest => exact ⟨e, rest, rfl⟩
  | nil =>
    unfold liveEntries at hlive
    dsimp only at h
    rw [hlive] at h
    cases h

end

/-- The camera keeps the registers that tell the mode, its CSR blocks are apart, and enumeration
finds every Format 7 mode settled. Then, after any history of sessions and requests in which
DirectShow streams Format 7 modes at their default sizes only, a live selection that resolves
has both queries and a prepare answer, on one frame size. -/
theorem formatQueries_agree {σ : Type} (port : RegisterPort σ) (value : σ → ℕ → BitVec 32)
    (csrBase : ℕ) (b : Bringup σ) :
    let modes := (enumerateModes port csrBase b).2.modes
    let start := (enumerateModes port csrBase b).2.camera
    port.Latches value (TellsMode modes) → SeparateBlocks modes → Settled value modes start →
      ∀ s, (formatHistory port csrBase modes start).Reaches (fun _ a => a.DefaultSized modes) s →
        ∀ e, (getCurrentMode port csrBase modes s).1 = .ok e → QueriesAgree port csrBase modes s := by
  intro modes start hport hsep hstart s hreaches e hresolves
  have htable : ∀ e ∈ modes, Tabled e := fun e he =>
    tabled_of_built ((enumerateModes_table port csrBase b).built e he)
  have hs : Settled value modes s := by
    refine hreaches.invariant (I := Settled value modes) hstart ?_
    rintro s a _ - hs ha ⟨⟩
    exact (FormatAct.run_keeps hport hsep htable ha s hs).1
  obtain ⟨hcsr, e', rest, hlive⟩ := live_of_getCurrentMode hport hresolves
  exact queriesAgree_of_settled hport hcsr htable hs hlive

/-- A camera with one Format 7 mode of 640x480 in MONO8 and MONO16, on a 4x4 grid. -/
def vgaRegisters : ℕ → BitVec 32
  | 0x100 => 0x01000000
  | 0x19c => 0x80000000
  | 0x2e0 => 0x3c0280
  | 0xa00 => 0x028001e0
  | 0xa04 => 0x00040004
  | 0xa0c => 0x028001e0
  | 0xa14 => 0x84000000
  | 0xa40 => 0x00081000
  | 0xa44 => 0x00080000
  | _ => 0

def vgaBringup : Bringup (ℕ → BitVec 32) :=
  (enumerateModes registerFile 0xFFFFF0F00000 ⟨vgaRegisters, []⟩).2

def vgaMode : VideoMode := ⟨7, 0, 0, 640, 480, 640, 480, true, 4, 4, 0xa00, 0, 93750, 48000000⟩

/-- A DirectShow session in MONO8, at 30 fps. -/
def vgaSession (width height : ℤ) : FormatAct :=
  .session ⟨sizeofFormat, ⟨0, 0, 0, 0⟩,
    ⟨333333, 0, (0, 0), (0, 0), width, height, 8, ksBiRgb, 0, 0, 0⟩, []⟩ 2

def vgaStreamed (width height : ℤ) : ℕ → BitVec 32 :=
  ((vgaSession width height).run registerFile 0xFFFFF0F00000 vgaBringup.modes vgaBringup.camera).2

/-- A DirectShow session of 320x240 leaves that size behind: the queries report 76800 bytes, the
prepare wants 307200. -/
theorem formatQueries_disagree :
    ¬∀ s, (formatHistory registerFile 0xFFFFF0F00000 vgaBringup.modes vgaBringup.camera).Reachable s →
      ∀ e, (getCurrentMode registerFile 0xFFFFF0F00000 vgaBringup.modes s).1 = .ok e →
        QueriesAgree registerFile 0xFFFFF0F00000 vgaBringup.modes s := by
  intro h
  obtain ⟨window, t, pixelFormat, u, stream, v, hw, hp, hstream, hsize⟩ :=
    h (vgaStreamed 320 240) (formatHistory_run _ _ _ trivial) vgaMode (by decide +kernel)
  obtain rfl := congrArg Prod.snd hw
  obtain rfl := congrArg Prod.snd hp
  have hwindow : (getCurrentSubwindow registerFile 0xFFFFF0F00000 vgaBringup.modes
      (vgaStreamed 320 240)).1 = .ok ⟨1, 0, 0, 320, 240⟩ := by
    decide +kernel
  have hcoding : (getCurrentPixelFormat registerFile 0xFFFFF0F00000 vgaBringup.modes
      (getCurrentSubwindow registerFile 0xFFFFF0F00000 vgaBringup.modes
        (vgaStreamed 320 240)).2).1 = .ok pixMono8 := by
    decide +kernel
  have hprepared : (prepareStream registerFile 0xFFFFF0F00000 vgaBringup.modes
      (getCurrentPixelFormat registerFile 0xFFFFF0F00000 vgaBringup.modes
        (getCurrentSubwindow registerFile 0xFFFFF0F00000 vgaBringup.modes
          (vgaStreamed 320 240)).2).2).1 = .ok ⟨some vgaMode, 640, 480, 307200, 93750⟩ := by
    decide +kernel
  rw [hw] at hwindow
  rw [hp] at hcoding
  rw [hstream] at hprepared
  cases hwindow
  cases hcoding
  cases hprepared
  exact absurd hsize (by decide)

/-- Streamed at 640x480, the camera answers all three alike. -/
theorem formatQueries_agree_vga :
    QueriesAgree registerFile 0xFFFFF0F00000 vgaBringup.modes (vgaStreamed 640 480) := by
  have hmodes : vgaBringup.modes = [vgaMode,
      ⟨7, 0, 5, 640, 480, 640, 480, true, 4, 4, 0xa00, 0, 187500, 96000000⟩] := by
    decide +kernel
  have hsep : SeparateBlocks vgaBringup.modes := by
    rw [hmodes]
    refine ⟨by decide, fun e he _ => ?_⟩
    rintro r (rfl | rfl | rfl) <;> revert e <;> decide
  have hstart : Settled id vgaBringup.modes vgaBringup.camera := by
    unfold Settled
    rw [hmodes]
    decide +kernel
  have hsession : (vgaSession 640 480).DefaultSized vgaBringup.modes := by
    rw [hmodes]
    rintro stream hopen e hmode -
    have hstream : some stream = some ⟨some vgaMode, 640, 480, 307200, 333333⟩ :=
      hopen.symm.trans (by decide +kernel)
    cases hstream
    cases hmode
    exact ⟨rfl, rfl⟩
  have hagree := formatQueries_agree registerFile id 0xFFFFF0F00000 ⟨vgaRegisters, []⟩
  rw [show (enumerateModes registerFile 0xFFFFF0F00000 ⟨vgaRegisters, []⟩).2 = vgaBringup from rfl]
    at hagree
  exact hagree (registerFile_latches _) hsep hstart _ (formatHistory_run _ _ _ hsession) vgaMode
    (by decide +kernel)

end Stream
end Photonic
