import Photonic.Dcam.Modes

namespace Photonic
namespace Dcam

section
variable {σ : Type} (port : RegisterPort σ) (csrBase : ℕ)

/-- The registers of a mode as the camera yielded them. -/
structure Format7Regs.ReadFrom (base : ℕ) (r : Format7Regs) : Prop where
  maxSize : port.Yields (base + f7MaxImageSize) r.maxSize
  unitSize : port.Yields (base + f7UnitSize) r.unitSize
  codingMask : port.Yields (base + f7ColorCodingInq) r.codingMask
  curSize : port.Yields (base + f7ImageSize) r.curSize
  curCoding : port.Yields (base + f7ColorCodingId) r.curCoding
  packetPara : port.Yields (base + f7PacketParaInq) r.packetPara
  bytePerPacket : port.Yields (base + f7BytePerPacket) r.bytePerPacket

inductive Built : VideoMode → Prop
  | fixed {format mode : ℕ} {rateMask : BitVec 32} (hformat : format < numFormats)
      (hmode : mode < numModes) (hpixel : (geometry format mode).pixelFormat ≠ pixInvalid)
      (hmask : port.Yields (frameRateInq format mode) rateMask)
      (hbounds : (rateBounds rateMask).1 ≠ 0) : Built (fixedEntry format mode rateMask)
  | format7 {mode base coding : ℕ} {modeMask pointer : BitVec 32} {r : Format7Regs}
      {g : Format7Geometry} (hmode : mode < numModes)
      (hmask : port.Yields regVideoModeInq7 modeMask) (hbit : modeMask.getMsbD mode = true)
      (hpointer : port.Yields (regVCsrInq7 + mode * 4) pointer)
      (hbase : csrPointerToOffset csrBase pointer (f7BytePerPacket + 4) = .ok base)
      (hregs : r.ReadFrom port base) (hgeometry : r.geometry = some g)
      (hcoding : r.codingMask.getMsbD coding = true) (hbpp : codingBpp coding ≠ 0)
      (hcap : g.width * g.height * codingBpp coding / 8 ≤ maxImageBytes) :
      Built (g.entry mode base coding)

structure TableInv (s : Bringup σ) : Prop where
  length_le : s.modes.length ≤ maxVideoModes
  built : ∀ e ∈ s.modes, Built port csrBase e

variable {port csrBase}

theorem onCamera_keeps {α : Type} {x : Routine σ NtStatus α} :
    Routine.Keeps (TableInv port csrBase) (onCamera x) fun a => ∃ s, (x s).1 = .ok a :=
  fun s hs => ⟨⟨hs.length_le, hs.built⟩, fun _ ha => ⟨s.camera, ha⟩⟩

theorem readRegister_keeps (offset : ℕ) :
    Routine.Keeps (TableInv port csrBase) (readRegister port offset) (port.Yields offset) :=
  onCamera_keeps

theorem writeRegister_keeps (offset : ℕ) (value : BitVec 32) :
    Routine.Keeps (TableInv port csrBase) (writeRegister port offset value) fun _ => True :=
  onCamera_keeps.mono fun _ _ => trivial

theorem addMode_eq (e : VideoMode) (s : Bringup σ) :
    addMode e s = if maxVideoModes ≤ s.modes.length then (.ok false, s)
      else (.ok true, { s with modes := s.modes ++ [e] }) := by
  by_cases h : maxVideoModes ≤ s.modes.length <;>
    simp [addMode, bind, Routine.get, Routine.modify, pure, h]

theorem addMode_keeps {e : VideoMode} (he : Built port csrBase e) :
    Routine.Keeps (TableInv port csrBase) (addMode e) fun _ => True := by
  intro s hs
  refine ⟨?_, fun _ _ => trivial⟩
  rw [addMode_eq]
  split_ifs with h
  · exact hs
  · constructor
    · simp only [List.length_append, List.length_singleton]
      omega
    · intro f hf
      obtain hf | hf := List.mem_append.mp hf
      · exact hs.built f hf
      · rwa [List.mem_singleton.mp hf]

theorem readFormat7Regs_keeps (base : ℕ) :
    Routine.Keeps (TableInv port csrBase) (readFormat7Regs port base) fun r =>
      r.ReadFrom port base := by
  unfold readFormat7Regs
  refine (readRegister_keeps _).bind fun maxSize h₁ => ?_
  refine (readRegister_keeps _).bind fun unitSize h₂ => ?_
  refine (readRegister_keeps _).bind fun codingMask h₃ => ?_
  refine (readRegister_keeps _).bind fun curSize h₄ => ?_
  refine (readRegister_keeps _).bind fun curCoding h₅ => ?_
  refine (readRegister_keeps _).bind fun packetPara h₆ => ?_
  refine (readRegister_keeps _).bind fun bytePerPacket h₇ => ?_
  exact .pure ⟨h₁, h₂, h₃, h₄, h₅, h₆, h₇⟩

theorem probeFormat7_keeps {mode : ℕ} {modeMask : BitVec 32} (hmode : mode < numModes)
    (hmask : port.Yields regVideoModeInq7 modeMask) (hbit : modeMask.getMsbD mode = true) :
    Routine.Keeps (TableInv port csrBase) (probeFormat7 port csrBase mode) fun _ => True := by
  unfold probeFormat7
  refine (readRegister_keeps _).attempt.bind fun pointer hpointer => ?_
  cases pointer with
  | error e => exact .pure trivial
  | ok pointer =>
    dsimp only
    cases hbase : csrPointerToOffset csrBase pointer (f7BytePerPacket + 4) with
    | error e => exact .pure trivial
    | ok base =>
      refine ((writeRegister_keeps _ _).bind fun _ _ => readFormat7Regs_keeps base).attempt.bind
        fun regs hregs => ?_
      cases regs with
      | error e => exact .pure trivial
      | ok r =>
        dsimp only
        cases hg : r.geometry with
        | none => exact .pure trivial
        | some g =>
          refine .eachWhile fun coding _ => ?_
          unfold addCoding
          refine .ite (fun _ => .pure trivial) fun hc => ?_
          refine .ite (fun _ => .pure trivial) fun hbpp => ?_
          refine .ite (fun _ => .pure trivial) fun hcap => ?_
          exact addMode_keeps (.format7 hmode hmask hbit (hpointer _ rfl) hbase (hregs _ rfl) hg
            (by simpa using hc) hbpp (Nat.not_lt.mp hcap))

theorem enumerateFormat7_keeps :
    Routine.Keeps (TableInv port csrBase) (enumerateFormat7 port csrBase) fun _ => True := by
  unfold enumerateFormat7
  refine ((writeRegister_keeps _ _).bind fun _ _ => readRegister_keeps _).attempt.bind
    fun modeMask hmask => ?_
  cases modeMask with
  | error e => exact .pure trivial
  | ok modeMask =>
    refine Routine.Keeps.bind (.eachWhile fun mode hmode => ?_) fun _ _ => .pure trivial
    exact .ite (fun hbit => probeFormat7_keeps (List.mem_range.mp hmode) (hmask _ rfl) hbit)
      fun _ => .pure trivial

theorem enumerateFixed_keeps {format mode : ℕ} (hformat : format < numFormats)
    (hmode : mode < numModes) :
    Routine.Keeps (TableInv port csrBase) (enumerateFixed port format mode) fun _ => True := by
  unfold enumerateFixed
  refine .ite (fun _ => .pure trivial) fun hpixel => ?_
  refine (readRegister_keeps _).bind fun rateMask hmask => ?_
  exact .ite (fun _ => .pure trivial) fun hb =>
    addMode_keeps (.fixed hformat hmode hpixel hmask hb)

theorem enumerateFormat_keeps {format : ℕ} (hformat : format < numFormats) :
    Routine.Keeps (TableInv port csrBase) (enumerateFormat port format) fun _ => True := by
  refine (readRegister_keeps _).bind fun modeMask _ => .eachWhile fun mode hmode => ?_
  exact .ite (fun _ => enumerateFixed_keeps hformat (List.mem_range.mp hmode))
    fun _ => .pure trivial

theorem readSelection_keeps :
    Routine.Keeps (TableInv port csrBase) (readSelection port csrBase) fun _ => True :=
  .ite (fun _ => .throw) fun _ =>
    (readRegister_keeps _).bind fun _ _ => (readRegister_keeps _).bind fun _ _ => .pure trivial

theorem normalizeSelection_keeps (saved : Except NtStatus (ℕ × ℕ)) :
    Routine.Keeps (TableInv port csrBase) (normalizeSelection port saved) fun _ => True := by
  refine Routine.Keeps.get.bind fun s _ => ?_
  dsimp only
  split
  · exact .pure trivial
  · exact ((writeRegister_keeps _ _).bind fun _ _ => writeRegister_keeps _ _).attempt.bind
      fun _ _ => .pure trivial

theorem fillModes_keeps :
    Routine.Keeps (TableInv port csrBase) (fillModes port csrBase) fun _ => True := by
  refine readSelection_keeps.attempt.bind fun saved _ => ?_
  refine (readRegister_keeps _).bind fun formatMask _ => ?_
  refine Routine.Keeps.bind (.eachWhile fun format hformat => ?_) fun go _ => ?_
  · exact .ite (fun _ => enumerateFormat_keeps (List.mem_range.mp hformat)) fun _ => .pure trivial
  · refine .ite (fun _ => enumerateFormat7_keeps.bind fun _ _ => ?_) fun _ => ?_
    all_goals
      exact Routine.Keeps.get.bind fun s _ =>
        .ite (fun _ => .throw) fun _ => normalizeSelection_keeps saved

theorem enumerateModes_table (port : RegisterPort σ) (csrBase : ℕ) (s : Bringup σ) :
    TableInv port csrBase (enumerateModes port csrBase s).2 :=
  (fillModes_keeps { s with modes := [] } ⟨Nat.zero_le _, nofun⟩).1

end

namespace VideoMode

/-- The sizes of an entry, its largest frame and its unit grid. -/
structure Sized (e : VideoMode) : Prop where
  defaultWidth_pos : 0 < e.defaultWidth
  defaultHeight_pos : 0 < e.defaultHeight
  defaultWidth_le : e.defaultWidth ≤ e.width
  defaultHeight_le : e.defaultHeight ≤ e.height
  frameBytes_le : e.width * e.height * codingBpp e.pixelFormat / 8 ≤ maxImageBytes
  noWrap : e.width * e.height * codingBpp e.pixelFormat < 2 ^ 32
  unitWidth_pos : e.isFormat7 → 0 < e.unitWidth
  unitHeight_pos : e.isFormat7 → 0 < e.unitHeight
  unitWidth_dvd : e.isFormat7 → e.unitWidth ∣ e.width ∧ e.unitWidth ∣ e.defaultWidth
  unitHeight_dvd : e.isFormat7 → e.unitHeight ∣ e.height ∧ e.unitHeight ∣ e.defaultHeight

structure WellFormed (e : VideoMode) : Prop extends e.Sized where
  minFrameInterval_pos : 0 < e.minFrameInterval
  interval_le : e.minFrameInterval ≤ e.maxFrameInterval

end VideoMode

/-- The standard table is within the cap. -/
theorem geometry_sized : ∀ format < numFormats, ∀ mode < numModes,
    (geometry format mode).pixelFormat ≠ pixInvalid →
      0 < (geometry format mode).width ∧ 0 < (geometry format mode).height ∧
        (geometry format mode).width * (geometry format mode).height *
          codingBpp (geometry format mode).pixelFormat / 8 ≤ maxImageBytes := by
  decide

theorem geometry_coding : ∀ format < numFormats, ∀ mode < numModes,
    (geometry format mode).pixelFormat ≠ pixInvalid →
      codingBpp (geometry format mode).pixelFormat ≠ 0 := by
  decide

theorem fixedEntry_wellFormed {format mode : ℕ} {rateMask : BitVec 32}
    (hformat : format < numFormats) (hmode : mode < numModes)
    (hpixel : (geometry format mode).pixelFormat ≠ pixInvalid)
    (hbounds : (rateBounds rateMask).1 ≠ 0) : (fixedEntry format mode rateMask).WellFormed := by
  obtain ⟨hw, hh, hcap⟩ := geometry_sized format hformat mode hmode hpixel
  refine ⟨⟨hw, hh, le_rfl, le_rfl, hcap, ?_, nofun, nofun, nofun, nofun⟩,
    Nat.pos_of_ne_zero hbounds, (rateBounds_le rateMask).1⟩
  simp only [maxImageBytes] at hcap
  simp only [fixedEntry]
  omega

namespace Format7Regs

theorem unit_pos {r : Format7Regs} (hw : hi16 r.maxSize ≠ 0) (hh : lo16 r.maxSize ≠ 0) :
    0 < r.unit.1 ∧ 0 < r.unit.2 := by
  unfold unit
  split_ifs <;> dsimp only <;> omega

theorem current_sound (r : Format7Regs) {width height unitWidth unitHeight : ℕ}
    (hw : 0 < width) (hh : 0 < height) (hdw : unitWidth ∣ width) (hdh : unitHeight ∣ height) :
    let current := r.current width height unitWidth unitHeight
    0 < current.1 ∧ 0 < current.2 ∧ current.1 ≤ width ∧ current.2 ≤ height ∧
      unitWidth ∣ current.1 ∧ unitHeight ∣ current.2 := by
  have hmin : ∀ {n max unit : ℕ}, unit ∣ max → unit ∣ min (n / unit * unit) max := by
    intro n max unit h
    rcases min_choice (n / unit * unit) max with he | he <;> rw [he]
    exacts [Nat.dvd_mul_left .., h]
  dsimp only [current]
  split_ifs with h
  · exact ⟨hw, hh, le_rfl, le_rfl, hdw, hdh⟩
  · exact ⟨by omega, by omega, min_le_right _ _, min_le_right _ _, hmin hdw, hmin hdh⟩

/-- What the probe makes of the registers it accepts. -/
structure Accepts (r : Format7Regs) (g : Format7Geometry) : Prop where
  width_le : g.width ≤ hi16 r.maxSize
  height_le : g.height ≤ lo16 r.maxSize
  unitWidth_pos : 0 < g.unitWidth
  unitHeight_pos : 0 < g.unitHeight
  curWidth_pos : 0 < g.curWidth
  curHeight_pos : 0 < g.curHeight
  curWidth_le : g.curWidth ≤ g.width
  curHeight_le : g.curHeight ≤ g.height
  unitWidth_dvd : g.unitWidth ∣ g.width ∧ g.unitWidth ∣ g.curWidth
  unitHeight_dvd : g.unitHeight ∣ g.height ∧ g.unitHeight ∣ g.curHeight
  unitBpp_pos : 0 < g.unitBpp
  maxBpp_pos : 0 < g.maxBpp

theorem accepts_of_geometry {r : Format7Regs} {g : Format7Geometry} (h : r.geometry = some g) :
    r.Accepts g := by
  unfold geometry at h
  split_ifs at h with hmax
  simp only [not_or] at hmax
  have hunit := unit_pos hmax.1 hmax.2
  dsimp only at h
  split_ifs at h with haligned hpacket hbpp hcap
  simp only [not_or] at haligned hpacket
  have hdw := Nat.dvd_mul_left r.unit.1 (hi16 r.maxSize / r.unit.1)
  have hdh := Nat.dvd_mul_left r.unit.2 (lo16 r.maxSize / r.unit.2)
  obtain ⟨hw, hh, hwle, hhle, hdcw, hdch⟩ := r.current_sound
    (Nat.pos_of_ne_zero haligned.1) (Nat.pos_of_ne_zero haligned.2) hdw hdh
  obtain rfl := Option.some.inj h
  exact ⟨Nat.div_mul_le_self _ _, Nat.div_mul_le_self _ _, hunit.1, hunit.2, hw, hh, hwle, hhle, ⟨hdw, hdcw⟩, ⟨hdh, hdch⟩,
    Nat.pos_of_ne_zero hpacket.1, Nat.pos_of_ne_zero hpacket.2.1⟩

end Format7Regs

/-- The packet sizes of a mode as its interval bounds need them: the largest packet leaves an
interval, and the unit packet does not shorten it. -/
def PacketsOrdered (frameBytes unitBpp maxBpp : ℕ) : Prop :=
  maxBpp ≤ frameBytes * isoCycle100ns ∧
    (unitBpp ≤ maxBpp ∨
      frameBytes * isoCycle100ns / maxBpp = frameBytes * isoCycle100ns / unitBpp ∨
      maxUlong ≤ frameBytes * isoCycle100ns / unitBpp)

theorem format7Interval_ordered_iff {frameBytes unitBpp maxBpp : ℕ} (hunit : 0 < unitBpp)
    (hmax : 0 < maxBpp) :
    0 < format7Interval frameBytes maxBpp ∧
        format7Interval frameBytes maxBpp ≤ format7Interval frameBytes unitBpp ↔
      PacketsOrdered frameBytes unitBpp maxBpp := by
  rw [format7Interval_eq hunit.ne', format7Interval_eq hmax.ne', PacketsOrdered]
  have hpos : 0 < min maxUlong (frameBytes * isoCycle100ns / maxBpp) ↔
      maxBpp ≤ frameBytes * isoCycle100ns := by
    rw [lt_min_iff, Nat.div_pos_iff]
    exact ⟨fun h => h.2.2, fun h => ⟨by decide, hmax, h⟩⟩
  rw [hpos]
  refine and_congr_right fun _ => ⟨fun h => ?_, fun h => ?_⟩
  · by_cases hle : unitBpp ≤ maxBpp
    · exact .inl hle
    · have := Nat.div_le_div_left (a := frameBytes * isoCycle100ns) (Nat.not_le.mp hle).le hmax
      omega
  · obtain hle | he | hsat := h
    · have := Nat.div_le_div_left (a := frameBytes * isoCycle100ns) hle hunit
      omega
    · omega
    · omega

theorem entry_sized {r : Format7Regs} {g : Format7Geometry} (h : r.Accepts g) (mode base : ℕ)
    {coding : ℕ} (hcap : g.width * g.height * codingBpp coding / 8 ≤ maxImageBytes) :
    (g.entry mode base coding).Sized where
  defaultWidth_pos := h.curWidth_pos
  defaultHeight_pos := h.curHeight_pos
  defaultWidth_le := h.curWidth_le
  defaultHeight_le := h.curHeight_le
  frameBytes_le := hcap
  noWrap := by
    simp only [maxImageBytes] at hcap
    simp only [Format7Geometry.entry]
    omega
  unitWidth_pos _ := h.unitWidth_pos
  unitHeight_pos _ := h.unitHeight_pos
  unitWidth_dvd _ := h.unitWidth_dvd
  unitHeight_dvd _ := h.unitHeight_dvd

theorem entry_wellFormed_iff {r : Format7Regs} {g : Format7Geometry} (h : r.Accepts g)
    (mode base : ℕ) {coding : ℕ}
    (hcap : g.width * g.height * codingBpp coding / 8 ≤ maxImageBytes) :
    (g.entry mode base coding).WellFormed ↔
      PacketsOrdered (imageBytes g.curWidth g.curHeight (codingBpp coding)) g.unitBpp g.maxBpp := by
  rw [← format7Interval_ordered_iff h.unitBpp_pos h.maxBpp_pos]
  exact ⟨fun he => ⟨he.minFrameInterval_pos, he.interval_le⟩,
    fun he => ⟨entry_sized h mode base hcap, he.1, he.2⟩⟩

theorem Built.sized {σ : Type} {port : RegisterPort σ} {csrBase : ℕ} {e : VideoMode}
    (he : Built port csrBase e) : e.Sized := by
  cases he with
  | fixed hformat hmode hpixel hmask hbounds =>
    exact (fixedEntry_wellFormed hformat hmode hpixel hbounds).toSized
  | format7 hmode hmask hbit hpointer hbase hregs hgeometry hcoding hbpp hcap =>
    exact entry_sized (Format7Regs.accepts_of_geometry hgeometry) _ _ hcap

theorem Built.interval_lt {σ : Type} {port : RegisterPort σ} {csrBase : ℕ} {e : VideoMode}
    (he : Built port csrBase e) : e.minFrameInterval < 2 ^ 32 ∧ e.maxFrameInterval < 2 ^ 32 := by
  cases he with
  | @fixed format mode rateMask hformat hmode hpixel hmask hbounds =>
    have := rateBounds_le rateMask
    simp only [fixedEntry]
    omega
  | format7 =>
    simp only [Format7Geometry.entry]
    exact ⟨(format7Interval_le _ _).trans_lt (by decide),
      (format7Interval_le _ _).trans_lt (by decide)⟩

theorem Built.codingBpp_ne {σ : Type} {port : RegisterPort σ} {csrBase : ℕ} {e : VideoMode}
    (he : Built port csrBase e) : codingBpp e.pixelFormat ≠ 0 := by
  cases he with
  | fixed hformat hmode hpixel hmask hbounds => exact geometry_coding _ hformat _ hmode hpixel
  | format7 hmode hmask hbit hpointer hbase hregs hgeometry hcoding hbpp hcap => exact hbpp

/-- What the registers of a camera hold, or how reading them fails. -/
abbrev Contents := ℕ → Except NtStatus (BitVec 32)

/-- The camera answers every read from these contents, whatever has been written to it. -/
def RegisterPort.Holds {σ : Type} (port : RegisterPort σ) (content : Contents) : Prop :=
  ∀ offset s, (port.read offset s).1 = content offset

def Contents.geometry (content : Contents) (csrBase mode : ℕ) : Option Format7Geometry := do
  let pointer ← (content (regVCsrInq7 + mode * 4)).toOption
  let base ← (csrPointerToOffset csrBase pointer (f7BytePerPacket + 4)).toOption
  let maxSize ← (content (base + f7MaxImageSize)).toOption
  let unitSize ← (content (base + f7UnitSize)).toOption
  let codingMask ← (content (base + f7ColorCodingInq)).toOption
  let curSize ← (content (base + f7ImageSize)).toOption
  let curCoding ← (content (base + f7ColorCodingId)).toOption
  let packetPara ← (content (base + f7PacketParaInq)).toOption
  let bytePerPacket ← (content (base + f7BytePerPacket)).toOption
  Format7Regs.geometry ⟨maxSize, unitSize, codingMask, curSize, curCoding, packetPara, bytePerPacket⟩

/-- The packet sizes of a Format 7 mode are in order for a coding of it. -/
def Contents.PacketsOrdered (content : Contents) (csrBase mode coding : ℕ) : Prop :=
  ∀ g ∈ content.geometry csrBase mode,
    Dcam.PacketsOrdered (imageBytes g.curWidth g.curHeight (codingBpp coding)) g.unitBpp g.maxBpp

theorem RegisterPort.Holds.eq_of_yields {σ : Type} {port : RegisterPort σ} {content : Contents}
    (h : port.Holds content) {offset : ℕ} {v : BitVec 32} (hv : port.Yields offset v) :
    content offset = .ok v := by
  obtain ⟨s, hs⟩ := hv
  rw [← h offset s, hs]

theorem RegisterPort.Holds.geometry_eq {σ : Type} {port : RegisterPort σ} {content : Contents}
    (h : port.Holds content) {csrBase mode base : ℕ} {pointer : BitVec 32} {r : Format7Regs}
    (hpointer : port.Yields (regVCsrInq7 + mode * 4) pointer)
    (hbase : csrPointerToOffset csrBase pointer (f7BytePerPacket + 4) = .ok base)
    (hregs : r.ReadFrom port base) : content.geometry csrBase mode = r.geometry := by
  simp only [Contents.geometry, h.eq_of_yields hpointer, hbase, h.eq_of_yields hregs.maxSize,
    h.eq_of_yields hregs.unitSize, h.eq_of_yields hregs.codingMask, h.eq_of_yields hregs.curSize,
    h.eq_of_yields hregs.curCoding, h.eq_of_yields hregs.packetPara,
    h.eq_of_yields hregs.bytePerPacket, Except.toOption, Option.bind_eq_bind, Option.bind_some]

/-- The table is within its capacity and every entry is sized, for every camera. Where the
contents of the registers stay as they are, an entry of a standard format is well formed, and
one of Format 7 is exactly where the packet sizes of its mode are in order. -/
theorem modeTable_wellFormed {σ : Type} (port : RegisterPort σ) (csrBase : ℕ) (s : Bringup σ) :
    let modes := (enumerateModes port csrBase s).2.modes
    modes.length ≤ maxVideoModes ∧ (∀ e ∈ modes, e.Sized) ∧
      ∀ content : Contents, port.Holds content → ∀ e ∈ modes,
        (e.WellFormed ↔ (e.isFormat7 → content.PacketsOrdered csrBase e.mode e.pixelFormat)) := by
  have htable := enumerateModes_table port csrBase s
  refine ⟨htable.length_le, fun e he => (htable.built e he).sized, fun content hport e he => ?_⟩
  cases htable.built e he with
  | fixed hformat hmode hpixel hmask hbounds =>
    exact iff_of_true (fixedEntry_wellFormed hformat hmode hpixel hbounds) nofun
  | @format7 mode base coding modeMask pointer r g hmode hmask hbit hpointer hbase hregs
      hgeometry hcoding hbpp hcap =>
    rw [entry_wellFormed_iff (Format7Regs.accepts_of_geometry hgeometry) _ _ hcap]
    simp [Contents.PacketsOrdered, hport.geometry_eq hpointer hbase hregs, hgeometry,
      Format7Geometry.entry]

/-- The camera that holds these contents and takes every write. -/
def Contents.camera (content : Contents) : RegisterPort Unit where
  read offset := fun s => (content offset, s)
  write _ _ := pure ()

/-- One Format 7 mode of 640x480 on a 4x4 grid, in MONO8, with the packet sizes given. -/
def oneMode (packetPara : BitVec 32) : Contents
  | 0x100 => .ok 0x01000000
  | 0x19c => .ok 0x80000000
  | 0x2e0 => .ok 0x3c0280
  | 0xa00 => .ok 0x028001e0
  | 0xa04 => .ok 0x00040004
  | 0xa0c => .ok 0x028001e0
  | 0xa14 => .ok 0x80000000
  | 0xa40 => .ok packetPara
  | 0xa44 => .ok 0x00080000
  | _ => .ok 0

/-- A unit packet of 4096 bytes over a largest packet of 8 inverts the bounds. -/
theorem modeTable_inverted :
    ¬∀ e ∈ (enumerateModes (oneMode 0x10000008).camera 0xFFFFF0F00000 ⟨(), []⟩).2.modes,
      e.WellFormed := by
  have hmode : ∃ e ∈ (enumerateModes (oneMode 0x10000008).camera 0xFFFFF0F00000 ⟨(), []⟩).2.modes,
      e.maxFrameInterval < e.minFrameInterval := by
    decide +kernel
  obtain ⟨e, he, hlt⟩ := hmode
  exact fun h => absurd (h e he).interval_le (Nat.not_le.mpr hlt)

theorem modeTable_wellFormed_mono8 :
    let content := oneMode 0x00081000
    let modes := (enumerateModes content.camera 0xFFFFF0F00000 ⟨(), []⟩).2.modes
    modes.length = 1 ∧ ∀ e ∈ modes,
      e.WellFormed ↔ (e.isFormat7 → content.PacketsOrdered 0xFFFFF0F00000 e.mode e.pixelFormat) :=
  ⟨by decide +kernel, (modeTable_wellFormed (oneMode 0x00081000).camera 0xFFFFF0F00000 ⟨(), []⟩).2.2
    (oneMode 0x00081000) fun _ _ => rfl⟩

end Dcam
end Photonic
