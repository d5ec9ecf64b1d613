import Mathlib.Data.List.Find
import Photonic.Dcam.Table
import Photonic.Interface.Extension
import Photonic.Stream.Negotiation

namespace Photonic
namespace Stream
open Dcam

/-- The step and the least size of a mode's window. -/
def grid (e : VideoMode) : ℕ × ℕ :=
  if e.isFormat7 then (e.unitWidth, e.unitHeight) else (e.width, e.height)

structure Negotiable (e : VideoMode) : Prop where
  sized : e.Sized
  coding : codingBpp e.pixelFormat ≠ 0
  minInterval_lt : e.minFrameInterval < 2 ^ 32
  maxInterval_lt : e.maxFrameInterval < 2 ^ 32
  fixed : e.isFormat7 = false → e.defaultWidth = e.width ∧ e.defaultHeight = e.height

theorem negotiable_of_built {σ : Type} {port : RegisterPort σ} {csrBase : ℕ} {e : VideoMode}
    (he : Built port csrBase e) : Negotiable e where
  sized := he.sized
  coding := he.codingBpp_ne
  minInterval_lt := he.interval_lt.1
  maxInterval_lt := he.interval_lt.2
  fixed h7 := by
    cases he with
    | fixed => exact ⟨rfl, rfl⟩
    | format7 => cases h7

namespace Negotiable
variable {e : VideoMode}

theorem media (h : Negotiable e) : ∃ m, pixelToMedia e.pixelFormat = some m := by
  have hmedia : ∀ c < 8, codingBpp c ≠ 0 → (pixelToMedia c).isSome := by decide
  exact Option.isSome_iff_exists.mp (hmedia _ (codingBpp_lt h.coding) h.coding)

theorem width_lt (h : Negotiable e) : e.width < 2 ^ 31 ∧ e.height < 2 ^ 31 := by
  have hw := h.sized.defaultWidth_pos.trans_le h.sized.defaultWidth_le
  have hh := h.sized.defaultHeight_pos.trans_le h.sized.defaultHeight_le
  have hbpp : 8 ≤ codingBpp e.pixelFormat := by
    have hsmall : ∀ c < 8, codingBpp c ≠ 0 → 8 ≤ codingBpp c := by decide
    exact hsmall _ (codingBpp_lt h.coding) h.coding
  have hwrap := h.sized.noWrap
  have h₁ : e.width * 1 * 8 ≤ e.width * e.height * codingBpp e.pixelFormat :=
    Nat.mul_le_mul (Nat.mul_le_mul_left _ hh) hbpp
  have h₂ : 1 * e.height * 8 ≤ e.width * e.height * codingBpp e.pixelFormat :=
    Nat.mul_le_mul (Nat.mul_le_mul_right _ hw) hbpp
  omega

theorem grid_spec (h : Negotiable e) :
    (0 < (grid e).1 ∧ (grid e).1 ∣ e.width ∧ (grid e).1 ∣ e.defaultWidth) ∧
      0 < (grid e).2 ∧ (grid e).2 ∣ e.height ∧ (grid e).2 ∣ e.defaultHeight := by
  unfold grid
  split_ifs with h7
  · exact ⟨⟨h.sized.unitWidth_pos h7, h.sized.unitWidth_dvd h7⟩, h.sized.unitHeight_pos h7,
      h.sized.unitHeight_dvd h7⟩
  · obtain ⟨hw, hh⟩ := h.fixed (by simpa using h7)
    have hdw := h.sized.defaultWidth_pos
    have hdh := h.sized.defaultHeight_pos
    rw [hw] at hdw ⊢
    rw [hh] at hdh ⊢
    exact ⟨⟨hdw, dvd_rfl, dvd_rfl⟩, hdh, dvd_rfl, dvd_rfl⟩

theorem grid_le (h : Negotiable e) : (grid e).1 ≤ e.width ∧ (grid e).2 ≤ e.height := by
  obtain ⟨⟨-, hw, -⟩, -, hh, -⟩ := h.grid_spec
  exact ⟨Nat.le_of_dvd (h.sized.defaultWidth_pos.trans_le h.sized.defaultWidth_le) hw,
    Nat.le_of_dvd (h.sized.defaultHeight_pos.trans_le h.sized.defaultHeight_le) hh⟩

end Negotiable

def window (e : VideoMode) : ℕ × ℕ := advertisedInterval e.minFrameInterval e.maxFrameInterval

theorem window_spec {e : VideoMode} (h : Negotiable e) :
    (0 < (window e).1 ∧ (window e).1 < 2 ^ 32) ∧ 0 < (window e).2 ∧ (window e).2 < 2 ^ 32 := by
  have hmin := h.minInterval_lt
  have hmax := h.maxInterval_lt
  simp only [window, advertisedInterval, defaultFrameTime]
  split_ifs <;> omega

theorem modeRange_spec {e : VideoMode} (h : Negotiable e) (m : Media) :
    (modeRange m e).caps = ⟨⟨(grid e).1, (grid e).2⟩, ⟨e.width, e.height⟩, (grid e).1, (grid e).2,
        (window e).1, (window e).2⟩ ∧
      (modeRange m e).header.avgTimePerFrame = (window e).1 ∧
      (modeRange m e).header.biWidth = e.defaultWidth ∧
      longAbs (modeRange m e).header.biHeight = e.defaultHeight := by
  obtain ⟨hw, hh⟩ := h.width_lt
  obtain ⟨hgw, hgh⟩ := h.grid_le
  have hdw := h.sized.defaultWidth_le
  have hdh := h.sized.defaultHeight_le
  have hminSize : (if e.isFormat7 then (e.unitWidth, e.unitHeight) else (e.width, e.height)) =
      grid e := rfl
  simp only [modeRange, hminSize, fillRange]
  refine ⟨?_, rfl, toLong_eq (by omega), ?_⟩
  · rw [toLong_eq (by omega), toLong_eq (by omega), toLong_eq (by omega), toLong_eq (by omega)]
    rfl
  · rw [toLong_eq (by omega)]
    split_ifs
    · rw [longNeg, if_neg (by simp only [longMin]; omega), longAbs_neg_natCast (by omega)]
    · exact longAbs_natCast

structure SizeOn (e : VideoMode) (width height : ℕ) : Prop where
  width_ge : (grid e).1 ≤ width
  width_le : width ≤ e.width
  width_dvd : (grid e).1 ∣ width
  height_ge : (grid e).2 ≤ height
  height_le : height ≤ e.height
  height_dvd : (grid e).2 ∣ height

/-- The fields of a format in a medium that an open reads. -/
structure FormatIn (m : Media) (width height interval : ℕ) (f : Format) : Prop where
  subFormat : f.dataFormat.subFormat = m.subType
  bitCount : f.header.biBitCount = m.bitCount
  compression : f.header.biCompression = m.compression
  biWidth : f.header.biWidth = width
  biHeight : longAbs f.header.biHeight = height
  sizeImage : f.header.biSizeImage = imageBytes width height m.bitCount
  interval : f.header.avgTimePerFrame = interval

theorem sizeOn_default {e : VideoMode} (h : Negotiable e) :
    SizeOn e e.defaultWidth e.defaultHeight := by
  obtain ⟨⟨-, -, hw⟩, -, -, hh⟩ := h.grid_spec
  exact ⟨Nat.le_of_dvd h.sized.defaultWidth_pos hw, h.sized.defaultWidth_le, hw,
    Nat.le_of_dvd h.sized.defaultHeight_pos hh, h.sized.defaultHeight_le, hh⟩

theorem alignExtent_spec (extent : ℤ) {least most : ℕ} (hpos : 0 < least) (hle : least ≤ most)
    (hlt : most < 2 ^ 31) :
    ∃ n : ℕ, alignExtent extent least most least = n ∧ least ≤ n ∧ n ≤ most ∧ least ∣ n := by
  obtain ⟨n, hn⟩ : ∃ n : ℕ, max (min extent most) (least : ℤ) = n :=
    ⟨(max (min extent most) (least : ℤ)).toNat, by omega⟩
  have hge : least ≤ n := by omega
  have hmost : n ≤ most := by omega
  have hfloor := Nat.div_mul_le_self n least
  refine ⟨n / least * least, ?_, ?_, hfloor.trans hmost, Nat.dvd_mul_left ..⟩
  · rw [alignExtent, hn, toUlong_natCast (by omega), toLong_eq (by omega)]
  · exact Nat.le_mul_of_pos_left _ (Nat.div_pos hge hpos)

theorem clampInterval_spec {lo hi : ℕ} (hlo : 0 < lo ∧ lo < 2 ^ 32) (hhi : 0 < hi ∧ hi < 2 ^ 32)
    (caps : ConfigCaps) (hmin : caps.minFrameInterval = lo) (hmax : caps.maxFrameInterval = hi)
    (interval : ℤ) :
    ∃ n : ℕ, clampInterval caps interval = n ∧ (0 < n ∧ n < 2 ^ 32) ∧
      (lo ≤ hi → lo ≤ n ∧ n ≤ hi) := by
  refine ⟨(clampInterval caps interval).toNat, ?_⟩
  simp only [clampInterval, hmin, hmax]
  omega

theorem Format.resize_formatIn {m : Media} {width height interval w h : ℕ} {f : Format}
    (hf : FormatIn m width height interval f) (hw : w < 2 ^ 31) (hh : h < 2 ^ 31) :
    FormatIn m w h interval (f.resize w h) where
  subFormat := hf.subFormat
  bitCount := hf.bitCount
  compression := hf.compression
  biWidth := rfl
  biHeight := by
    simp only [Format.resize]
    split_ifs
    · rw [longNeg, if_neg (by simp only [longMin]; omega), longAbs_neg_natCast hh]
    · exact longAbs_natCast
  sizeImage := by
    simp only [Format.resize, hf.bitCount]
    rw [toUlong_natCast (by omega), toUlong_natCast (by omega)]
  interval := hf.interval

theorem appendPalette_formatIn {m : Media} {width height interval : ℕ} {f : Format}
    (hf : FormatIn m width height interval f) (colors : ℕ) :
    FormatIn m width height interval (appendPalette colors f) := by
  unfold appendPalette
  split_ifs
  · exact ⟨hf.subFormat, hf.bitCount, hf.compression, hf.biWidth, hf.biHeight, hf.sizeImage,
      hf.interval⟩
  · exact hf

theorem negotiateInterval_spec {e : VideoMode} (h : Negotiable e) (m : Media) (r : Request) :
    ∃ interval : ℕ, (0 < interval ∧ interval < 2 ^ 32) ∧
      ((window e).1 ≤ (window e).2 → (window e).1 ≤ interval ∧ interval ≤ (window e).2) ∧
      negotiateInterval (modeRange m e).caps r (modeRange m e).header =
        { (modeRange m e).header with avgTimePerFrame := interval } := by
  obtain ⟨hcaps, havg, -, -⟩ := modeRange_spec h m
  obtain ⟨hlo, hhi⟩ := window_spec h
  have hdefault : (modeRange m e).header =
      { (modeRange m e).header with avgTimePerFrame := ((window e).1 : ℕ) } := by rw [← havg]
  unfold negotiateInterval
  cases r.video with
  | none => exact ⟨_, hlo, fun hle => ⟨le_rfl, hle⟩, hdefault⟩
  | some v =>
    dsimp only
    split_ifs
    · exact ⟨_, hlo, fun hle => ⟨le_rfl, hle⟩, hdefault⟩
    · obtain ⟨n, hn, hn'⟩ := clampInterval_spec hlo hhi (modeRange m e).caps
        (by rw [hcaps]) (by rw [hcaps]) v.1.avgTimePerFrame
      exact ⟨n, hn'.1, hn'.2, by rw [hn]⟩

theorem negotiateSize_spec {e : VideoMode} (h : Negotiable e) (m : Media) (r : Request)
    {interval : ℕ} {f : Format} (hf : FormatIn m e.defaultWidth e.defaultHeight interval f) :
    ∃ width height : ℕ, SizeOn e width height ∧
      FormatIn m width height interval (negotiateSize (modeRange m e).caps r f) := by
  obtain ⟨hw, hh⟩ := h.width_lt
  obtain ⟨⟨hgw, -⟩, hgh, -⟩ := h.grid_spec
  obtain ⟨hgwle, hghle⟩ := h.grid_le
  rw [(modeRange_spec h m).1]
  unfold negotiateSize
  cases r.video with
  | none => exact ⟨_, _, sizeOn_default h, hf⟩
  | some v =>
    dsimp only
    rw [if_pos (by omega : (grid e).1 ≠ 0), if_pos (by omega : (grid e).2 ≠ 0)]
    generalize (if v.1.biHeight < 0 then longNeg v.1.biHeight else v.1.biHeight) = reqHeight
    obtain ⟨w, hwe, hwge, hwle, hwd⟩ := alignExtent_spec v.1.biWidth hgw hgwle hw
    obtain ⟨l, hle, hlge, hlle, hld⟩ := alignExtent_spec reqHeight hgh hghle hh
    rw [hwe, hle]
    split_ifs
    · exact ⟨w, l, ⟨hwge, hwle, hwd, hlge, hlle, hld⟩,
        Format.resize_formatIn hf (by omega) (by omega)⟩
    · exact ⟨_, _, sizeOn_default h, hf⟩
    · exact ⟨_, _, sizeOn_default h, hf⟩

/-- A format is in the medium of its range, in the window of its mode and on the grid, and its
interval is in the window too unless the window is inverted. -/
theorem formatOf_spec {e : VideoMode} (h : Negotiable e) (m : Media) (r : Request) :
    ∃ width height interval : ℕ, SizeOn e width height ∧ (0 < interval ∧ interval < 2 ^ 32) ∧
      ((window e).1 ≤ (window e).2 → (window e).1 ≤ interval ∧ interval ≤ (window e).2) ∧
      FormatIn m width height interval (formatOf (modeRange m e) r) := by
  obtain ⟨-, -, hdw, hdh⟩ := modeRange_spec h m
  obtain ⟨interval, hpos, hwindow, hint⟩ := negotiateInterval_spec h m r
  obtain ⟨width, height, hsize, hf⟩ := negotiateSize_spec h m r
    (f := { formatSize := sizeofFormat + paletteColors (modeRange m e) * sizeofRgbQuad
            dataFormat := (modeRange m e).dataRange
            header := { (modeRange m e).header with avgTimePerFrame := interval }
            palette := [] }) ⟨rfl, rfl, rfl, hdw, hdh, rfl, rfl⟩
  refine ⟨width, height, interval, hsize, hpos, hwindow, ?_⟩
  simp only [formatOf, hint]
  exact appendPalette_formatIn hf _

theorem readFormat_eq {m : Media} {width height interval : ℕ} {f : Format}
    (hf : FormatIn m width height interval f) (hw : width < 2 ^ 31) (hh : height < 2 ^ 31)
    (hi : 0 < interval ∧ interval < 2 ^ 32) :
    readFormat f = ⟨width, height, m.bitCount, m.compression, imageBytes width height m.bitCount,
      interval⟩ := by
  simp only [readFormat, hf.biWidth, hf.biHeight, hf.bitCount, hf.compression, hf.interval]
  rw [toUlong_natCast (by omega), toUlong_natCast (by omega), toUlong_natCast hi.2,
    if_neg hi.1.ne']

theorem sizeMismatch_eq_false {m : Media} {width height interval : ℕ} {f : Format}
    (hf : FormatIn m width height interval f) (hw : width < 2 ^ 31) (hh : height < 2 ^ 31)
    (hi : 0 < interval ∧ interval < 2 ^ 32) : sizeMismatch f = false := by
  simp [sizeMismatch, readFormat_eq hf hw hh hi, hf.sizeImage]

/-- The scan ends at a default size in the interval, else returns the first range in the
interval, else the first. -/
theorem scanNegotiated_eq (n : Negotiated) (as : List Advertised) (intervalMatch sizeMatch : Option ℕ) :
    scanNegotiated n as intervalMatch sizeMatch =
      ((as.find? fun a => rangeCovers a.range n && (rangeIntervalOk a.range n.frameInterval &&
        rangeDefaultSizeIs a.range (toLong n.width) (toLong n.height))).map Advertised.modeIndex).or
        ((intervalMatch.or ((as.find? fun a => rangeCovers a.range n &&
          rangeIntervalOk a.range n.frameInterval).map Advertised.modeIndex)).or
          (sizeMatch.or ((as.find? fun a => rangeCovers a.range n).map Advertised.modeIndex))) := by
  induction as generalizing intervalMatch sizeMatch with
  | nil => simp [scanNegotiated]
  | cons a as ih =>
    unfold scanNegotiated
    cases hc : rangeCovers a.range n with
    | false => simp [ih, hc]
    | true =>
      cases hi : rangeIntervalOk a.range n.frameInterval with
      | false => simp [ih, hc, hi]
      | true =>
        cases hd : rangeDefaultSizeIs a.range (toLong n.width) (toLong n.height) with
        | false => simp [ih, hc, hi, hd]
        | true => simp [hc, hi, hd]

/-- The medium of a mode that has one. -/
def mediaOf (e : VideoMode) : Media := (pixelToMedia e.pixelFormat).getD ⟨0, 0, 0⟩

theorem Negotiable.pixelToMedia_eq {e : VideoMode} (h : Negotiable e) :
    pixelToMedia e.pixelFormat = some (mediaOf e) := by
  obtain ⟨m, hm⟩ := h.media
  simp [mediaOf, hm]

theorem formatBuild_eq {modes : List VideoMode} (h : ∀ e ∈ modes, Negotiable e)
    (hlen : modes.length ≤ maxVideoModes) :
    formatBuild modes = modes.zipIdx.map fun p => ⟨modeRange (mediaOf p.1) p.1, p.2⟩ := by
  have hmap : (modes.zipIdx.filterMap fun p => (pixelToMedia p.1.pixelFormat).map
      fun media => (⟨modeRange media p.1, p.2⟩ : Advertised)) =
        modes.zipIdx.map fun p => ⟨modeRange (mediaOf p.1) p.1, p.2⟩ := by
    rw [← List.filterMap_eq_map]
    refine List.filterMap_congr fun p hp => ?_
    simp [(h p.1 (List.fst_mem_of_mem_zipIdx hp)).pixelToMedia_eq]
  change (modes.zipIdx.filterMap fun p => _).take maxVideoModes = _
  rw [hmap, List.take_of_length_le (by simpa using hlen)]

/-- Indices that lead back to their modes do so through a choice between them. -/
theorem or_index {modes : List VideoMode} {a b c : Option (VideoMode × ℕ)}
    (ha : ∀ p, a = some p → modes[p.2]? = some p.1) (hb : ∀ p, b = some p → modes[p.2]? = some p.1)
    (hc : ∀ p, c = some p → modes[p.2]? = some p.1) :
    ((a.map Prod.snd).or ((b.map Prod.snd).or (c.map Prod.snd))).bind (modes[·]?) =
      (a.map Prod.fst).or ((b.map Prod.fst).or (c.map Prod.fst)) := by
  cases a with
  | some p => simp [ha p rfl]
  | none =>
    cases b with
    | some p => simp [hb p rfl]
    | none =>
      cases c with
      | some p => simp [hc p rfl]
      | none => rfl

theorem findNegotiatedMode_eq {modes : List VideoMode} (h : ∀ e ∈ modes, Negotiable e)
    (hlen : modes.length ≤ maxVideoModes) (n : Negotiated) :
    let covers := fun e => rangeCovers (modeRange (mediaOf e) e) n
    let timely := fun e => rangeIntervalOk (modeRange (mediaOf e) e) n.frameInterval
    let isDefault := fun e =>
      rangeDefaultSizeIs (modeRange (mediaOf e) e) (toLong n.width) (toLong n.height)
    findNegotiatedMode modes n = (modes.find? fun e => covers e && (timely e && isDefault e)).or
      ((modes.find? fun e => covers e && timely e).or (modes.find? covers)) := by
  intro covers timely isDefault
  have hfind : ∀ q : VideoMode → Bool,
      modes.find? q = (modes.zipIdx.find? fun p => q p.1).map Prod.fst ∧
        ∀ p, (modes.zipIdx.find? fun p => q p.1) = some p → modes[p.2]? = some p.1 := by
    intro q
    constructor
    · conv_lhs => rw [← List.zipIdx_map_fst 0 modes, List.find?_map]
      rfl
    · intro p hp
      exact List.mem_zipIdx_iff_getElem?.mp (List.mem_of_find?_eq_some hp)
  rw [findNegotiatedMode, formatBuild_eq h hlen, scanNegotiated_eq]
  simp only [List.find?_map, Option.map_map, Option.none_or, Function.comp_def]
  obtain ⟨hdefault, hdefault'⟩ := hfind fun e => covers e && (timely e && isDefault e)
  obtain ⟨htimely, htimely'⟩ := hfind fun e => covers e && timely e
  obtain ⟨hcovers, hcovers'⟩ := hfind covers
  rw [hdefault, htimely, hcovers]
  exact or_index hdefault' htimely' hcovers'

/-- The mode is of the format's subtype, and its size window has the format's size. -/
structure Covers (e : VideoMode) (f : Format) : Prop where
  subType : (pixelToMedia e.pixelFormat).map Media.subType = some f.dataFormat.subFormat
  width : (grid e).1 ≤ f.header.biWidth ∧ f.header.biWidth ≤ e.width
  height : (grid e).2 ≤ longAbs f.header.biHeight ∧ longAbs f.header.biHeight ≤ e.height

/-- The interval window of the mode has the format's interval. -/
def Timely (e : VideoMode) (f : Format) : Prop :=
  (window e).1 ≤ f.header.avgTimePerFrame ∧ f.header.avgTimePerFrame ≤ (window e).2

/-- The unit grid of the mode divides the format's size. -/
def OnGrid (e : VideoMode) (f : Format) : Prop :=
  ((grid e).1 : ℤ) ∣ f.header.biWidth ∧ ((grid e).2 : ℤ) ∣ longAbs f.header.biHeight

def IsDefault (e : VideoMode) (f : Format) : Prop :=
  f.header.biWidth = e.defaultWidth ∧ longAbs f.header.biHeight = e.defaultHeight

instance (e : VideoMode) (f : Format) : Decidable (Covers e f) :=
  decidable_of_iff (((pixelToMedia e.pixelFormat).map Media.subType = some f.dataFormat.subFormat) ∧
    ((grid e).1 ≤ f.header.biWidth ∧ f.header.biWidth ≤ e.width) ∧
      (grid e).2 ≤ longAbs f.header.biHeight ∧ longAbs f.header.biHeight ≤ e.height)
    ⟨fun h => ⟨h.1, h.2.1, h.2.2⟩, fun h => ⟨h.subType, h.width, h.height⟩⟩

instance (e : VideoMode) (f : Format) : Decidable (Timely e f) :=
  inferInstanceAs (Decidable (_ ∧ _))

instance (e : VideoMode) (f : Format) : Decidable (OnGrid e f) :=
  inferInstanceAs (Decidable (_ ∧ _))

instance (e : VideoMode) (f : Format) : Decidable (IsDefault e f) :=
  inferInstanceAs (Decidable (_ ∧ _))

/-- A covering mode in whose interval window the format lies has the format's size as its
default, or the first such mode has it on its grid. -/
def Resolvable (modes : List VideoMode) (f : Format) : Prop :=
  (∃ e ∈ modes, Covers e f ∧ Timely e f ∧ IsDefault e f) ∨
    ∃ e, (modes.find? fun e => Covers e f ∧ Timely e f) = some e ∧ OnGrid e f

def allMedia : List Media :=
  [⟨formatSubtypeRgb24, 24, ksBiRgb⟩, ⟨formatSubtypeUyvy, 16, fourccUyvy⟩,
    ⟨formatSubtypeRgb8, 8, ksBiRgb⟩, ⟨formatSubtypeY16, 16, fourccY16⟩,
    ⟨formatSubtypeY411, 12, fourccY411⟩, ⟨formatSubtypeRggb, 8, fourccRggb⟩]

theorem mem_allMedia {p : ℕ} {m : Media} (h : pixelToMedia p = some m) : m ∈ allMedia := by
  unfold pixelToMedia at h
  split_ifs at h
  all_goals
    cases h
    simp [allMedia]

theorem media_subType_iff {p q : ℕ} {a b : Media} (ha : pixelToMedia p = some a)
    (hb : pixelToMedia q = some b) :
    a.bitCount = b.bitCount ∧ a.compression = b.compression ↔ a.subType = b.subType := by
  have hall : ∀ a ∈ allMedia, ∀ b ∈ allMedia,
      (a.bitCount = b.bitCount ∧ a.compression = b.compression ↔ a.subType = b.subType) := by
    decide
  exact hall a (mem_allMedia ha) b (mem_allMedia hb)

section
variable {e : VideoMode} {p width height interval : ℕ} {m : Media} {f : Format}

theorem rangeCovers_eq (h : Negotiable e) (hm : pixelToMedia p = some m)
    (hf : FormatIn m width height interval f) (hw : width < 2 ^ 31) (hh : height < 2 ^ 31)
    (hi : 0 < interval ∧ interval < 2 ^ 32) :
    rangeCovers (modeRange (mediaOf e) e) (readFormat f) = decide (Covers e f) := by
  obtain ⟨hcaps, -, -, -⟩ := modeRange_spec h (mediaOf e)
  have hbits : (modeRange (mediaOf e) e).header.biBitCount = (mediaOf e).bitCount := rfl
  have hcompression : (modeRange (mediaOf e) e).header.biCompression = (mediaOf e).compression := rfl
  rw [readFormat_eq hf hw hh hi, rangeCovers, hcaps, hbits, hcompression, decide_eq_decide]
  simp only [media_subType_iff h.pixelToMedia_eq hm, toLong_eq hw, toLong_eq hh]
  constructor
  · rintro ⟨hsub, hwindow⟩
    refine ⟨?_, ?_, ?_⟩
    · rw [h.pixelToMedia_eq, Option.map_some, hsub, hf.subFormat]
    · rw [hf.biWidth]
      omega
    · rw [hf.biHeight]
      omega
  · rintro ⟨hsub, hwidth, hheight⟩
    rw [h.pixelToMedia_eq, Option.map_some, hf.subFormat] at hsub
    rw [hf.biWidth] at hwidth
    rw [hf.biHeight] at hheight
    refine ⟨Option.some.inj hsub, ?_⟩
    omega

theorem rangeIntervalOk_eq (h : Negotiable e) (hf : FormatIn m width height interval f)
    (hw : width < 2 ^ 31) (hh : height < 2 ^ 31) (hi : 0 < interval ∧ interval < 2 ^ 32) :
    rangeIntervalOk (modeRange (mediaOf e) e) (readFormat f).frameInterval =
      decide (Timely e f) := by
  rw [readFormat_eq hf hw hh hi, rangeIntervalOk, (modeRange_spec h (mediaOf e)).1,
    decide_eq_decide, Timely, hf.interval]
  simp only
  omega

theorem rangeDefaultSizeIs_eq (h : Negotiable e) (hf : FormatIn m width height interval f)
    (hw : width < 2 ^ 31) (hh : height < 2 ^ 31) (hi : 0 < interval ∧ interval < 2 ^ 32) :
    rangeDefaultSizeIs (modeRange (mediaOf e) e) (toLong (readFormat f).width)
      (toLong (readFormat f).height) = decide (IsDefault e f) := by
  obtain ⟨-, -, hdw, hdh⟩ := modeRange_spec h (mediaOf e)
  rw [readFormat_eq hf hw hh hi, rangeDefaultSizeIs, hdw, hdh, decide_eq_decide, IsDefault,
    hf.biWidth, hf.biHeight, toLong_eq hw, toLong_eq hh]
  omega

theorem onGrid_of_isDefault (h : Negotiable e) (hd : IsDefault e f) : OnGrid e f := by
  obtain ⟨⟨-, -, hw⟩, -, -, hh⟩ := h.grid_spec
  rw [OnGrid, hd.1, hd.2]
  exact ⟨Int.natCast_dvd_natCast.mpr hw, Int.natCast_dvd_natCast.mpr hh⟩

end

/-- An open with an offered format settles on a covering mode, and on a good one exactly where
one can be settled on. -/
theorem findNegotiatedMode_spec {modes : List VideoMode} (hmodes : ∀ e ∈ modes, Negotiable e)
    (hlen : modes.length ≤ maxVideoModes) {p width height interval : ℕ} {m : Media} {f : Format}
    (hm : pixelToMedia p = some m) (hf : FormatIn m width height interval f)
    (hw : width < 2 ^ 31) (hh : height < 2 ^ 31) (hi : 0 < interval ∧ interval < 2 ^ 32)
    (hcovered : ∃ e ∈ modes, Covers e f) :
    ∃ e ∈ modes, findNegotiatedMode modes (readFormat f) = some e ∧ Covers e f ∧
      (Timely e f ∧ OnGrid e f ↔ Resolvable modes f) := by
  -- three passes over the table, each with one test less than the last
  have hlookup : findNegotiatedMode modes (readFormat f) =
      (modes.find? fun e => Covers e f ∧ Timely e f ∧ IsDefault e f).or
        ((modes.find? fun e => Covers e f ∧ Timely e f).or (modes.find? fun e => Covers e f)) := by
    rw [findNegotiatedMode_eq hmodes hlen]
    dsimp only
    congr 1
    · refine List.find?_congr fun e he => ?_
      rw [rangeCovers_eq (hmodes e he) hm hf hw hh hi, rangeIntervalOk_eq (hmodes e he) hf hw hh hi,
        rangeDefaultSizeIs_eq (hmodes e he) hf hw hh hi]
      simp
    · congr 1
      · refine List.find?_congr fun e he => ?_
        rw [rangeCovers_eq (hmodes e he) hm hf hw hh hi,
          rangeIntervalOk_eq (hmodes e he) hf hw hh hi]
        simp
      · exact List.find?_congr fun e he => rangeCovers_eq (hmodes e he) hm hf hw hh hi
  cases hd : modes.find? fun e => decide (Covers e f ∧ Timely e f ∧ IsDefault e f) with
  | some e =>
    have he := List.mem_of_find?_eq_some hd
    have hfound := List.find?_some hd
    obtain ⟨hc, ht, hdef⟩ := of_decide_eq_true hfound
    refine ⟨e, he, by rw [hlookup, hd, Option.some_or], hc, iff_of_true ?_ ?_⟩
    · exact ⟨ht, onGrid_of_isDefault (hmodes e he) hdef⟩
    · exact .inl ⟨e, he, hc, ht, hdef⟩
  | none =>
    have hnone : ¬∃ e ∈ modes, Covers e f ∧ Timely e f ∧ IsDefault e f := by
      rintro ⟨e, he, h⟩
      exact List.find?_eq_none.mp hd e he (decide_eq_true h)
    -- no mode has the size for its default: the first with the interval is taken
    cases ht : modes.find? fun e => decide (Covers e f ∧ Timely e f) with
    | some e =>
      have he := List.mem_of_find?_eq_some ht
      have hfound := List.find?_some ht
      obtain ⟨hc, htimely⟩ := of_decide_eq_true hfound
      refine ⟨e, he, by rw [hlookup, hd, ht, Option.none_or, Option.some_or], hc, ?_⟩
      constructor
      · exact fun h => .inr ⟨e, ht, h.2⟩
      · rintro (h | ⟨e', he', hgrid⟩)
        · exact absurd h hnone
        · obtain rfl := Option.some.inj (ht.symm.trans he')
          exact ⟨htimely, hgrid⟩
    | none =>
      -- no mode has the interval either
      obtain ⟨e', he', hc'⟩ := hcovered
      cases hc : modes.find? fun e => decide (Covers e f) with
      | none => exact absurd (decide_eq_true hc') (List.find?_eq_none.mp hc e' he')
      | some e =>
        have he := List.mem_of_find?_eq_some hc
        have hfound := List.find?_some hc
        have hcov := of_decide_eq_true hfound
        refine ⟨e, he, by rw [hlookup, hd, ht, hc, Option.none_or, Option.none_or], hcov,
          iff_of_false ?_ ?_⟩
        · exact fun h => List.find?_eq_none.mp ht e he (decide_eq_true ⟨hcov, h.1⟩)
        · rintro (h | ⟨e'', he'', -⟩)
          · exact hnone h
          · rw [ht] at he''
            cases he''

structure Found.Have (P : VideoRange → Prop) (found : Found) : Prop where
  preferred : ∀ a, found.preferred = some a → P a
  windowMatch : ∀ a, found.windowMatch = some a → P a
  fallback : ∀ a, found.fallback = some a → P a

theorem considerRange_spec {P : VideoRange → Prop} (header : VideoInfoHeader) (caps : ConfigCaps)
    {found : Found} {range : VideoRange} (hfound : found.Have P) (hrange : P range) :
    (∃ a, considerRange header caps found range = .inl a ∧ P a) ∨
      ∃ found', considerRange header caps found range = .inr found' ∧ found'.Have P := by
  have hsome : ∀ a, some range = some a → P a := fun a ha => Option.some.inj ha ▸ hrange
  unfold considerRange
  dsimp only
  split_ifs
  · exact .inl ⟨_, rfl, hrange⟩
  · refine .inr ⟨_, rfl, hfound.preferred, fun a ha => ?_, hfound.fallback⟩
    obtain h | h := Option.or_eq_some_iff.mp ha
    · exact hfound.windowMatch a h
    · exact hsome a h.2
  · exact .inr ⟨_, rfl, hsome, hfound.windowMatch, hfound.fallback⟩
  · exact .inr ⟨_, rfl, hfound.preferred, hfound.windowMatch, hsome⟩
  · exact .inr ⟨_, rfl, hfound⟩

theorem scanRanges_spec {P : VideoRange → Prop} {r : Request} {ranges : List VideoRange}
    {found : Found} {range : VideoRange} (hranges : ∀ a ∈ ranges, P a) (hfound : found.Have P)
    (h : scanRanges r ranges found = some range) : P range := by
  induction ranges generalizing found with
  | nil =>
    obtain h | ⟨-, h⟩ := Option.or_eq_some_iff.mp h
    · exact hfound.preferred _ h
    · obtain h | ⟨-, h⟩ := Option.or_eq_some_iff.mp h
      exacts [hfound.windowMatch _ h, hfound.fallback _ h]
  | cons a ranges ih =>
    have htail : ∀ b ∈ ranges, P b := fun b hb => hranges b (List.mem_cons_of_mem _ hb)
    have ha := hranges a List.mem_cons_self
    unfold scanRanges at h
    split_ifs at h
    · exact ih htail hfound h
    · cases hv : r.video with
      | none =>
        rw [hv] at h
        exact Option.some.inj h ▸ ha
      | some v =>
        rw [hv] at h
        obtain ⟨b, hb, hPb⟩ | ⟨found', hb, hfound'⟩ :=
          considerRange_spec v.1 v.2 hfound ha
        · simp only [hb] at h
          exact Option.some.inj h ▸ hPb
        · simp only [hb] at h
          exact ih htail hfound' h

theorem findRange_mem {r : Request} {ranges : List VideoRange} {range : VideoRange}
    (h : findRange ranges r = some range) : range ∈ ranges := by
  refine scanRanges_spec (P := (· ∈ ranges)) (fun _ ha => ha) ⟨?_, ?_, ?_⟩ h
  all_goals
    intro a ha
    cases ha

theorem format_of_getDataIntersection {advertised : List Advertised} {streamNumber bufferSize : ℕ}
    {r : Request} {f : Format}
    (h : getDataIntersection advertised streamNumber bufferSize r = .ok (.format f)) :
    ∃ a ∈ advertised, findRange (advertised.map Advertised.range) r = some a.range ∧
      f = formatOf a.range r := by
  unfold getDataIntersection at h
  by_cases hstream : streamNumber ≠ 0
  · rw [if_pos hstream] at h
    cases h
  rw [if_neg hstream] at h
  cases hrange : findRange (advertised.map Advertised.range) r with
  | none =>
    rw [hrange] at h
    cases h
  | some range =>
    rw [hrange] at h
    obtain ⟨a, ha, rfl⟩ := List.mem_map.mp (findRange_mem hrange)
    dsimp only at h
    split_ifs at h
    · cases h
    · cases h
      exact ⟨a, ha, rfl, rfl⟩

/-- A format the intersection returns is accepted by an open of the idle device, whose mode has
the coding and the window for it. It has the interval and the grid too exactly where the modes
that cover the format leave the lookup one that does. -/
theorem negotiation_agrees_iff {σ : Type} (port : RegisterPort σ) (csrBase : ℕ) (s : Bringup σ)
    (streamNumber bufferSize : ℕ) (r : Request) (f : Format) (x : Extension) (stream : ℕ)
    (create : CreateAnswer) (hremoved : x.removed = false) (hidle : x.activeCaptureStream = none)
    (hcreate : (captureCreate create x.heap).1.isSome) :
    let modes := (enumerateModes port csrBase s).2.modes
    getDataIntersection (formatBuild modes) streamNumber bufferSize r = .ok (.format f) →
      (x.streamOpen stream ⟨true, create, sizeMismatch f⟩).1 = statusSuccess ∧
        ∃ e ∈ modes, findNegotiatedMode modes (readFormat f) = some e ∧ Covers e f ∧
          (Timely e f ∧ OnGrid e f ↔ Resolvable modes f) := by
  intro modes h
  have htable := enumerateModes_table port csrBase s
  have hmodes : ∀ e ∈ modes, Negotiable e := fun e he => negotiable_of_built (htable.built e he)
  obtain ⟨a, ha, -, rfl⟩ := format_of_getDataIntersection h
  rw [formatBuild_eq hmodes htable.length_le] at ha
  obtain ⟨⟨e, i⟩, hmem, rfl⟩ := List.mem_map.mp ha
  have he : e ∈ modes := List.fst_mem_of_mem_zipIdx hmem
  have hneg := hmodes e he
  obtain ⟨width, height, interval, hsize, hi, -, hf⟩ := formatOf_spec hneg (mediaOf e) r
  obtain ⟨hw, hh⟩ := hneg.width_lt
  have hw' := hsize.width_le.trans_lt hw
  have hh' := hsize.height_le.trans_lt hh
  constructor
  · rw [sizeMismatch_eq_false hf hw' hh' hi]
    obtain ⟨c, hc⟩ := Option.isSome_iff_exists.mp hcreate
    have hpair : captureCreate create x.heap = (some c, (captureCreate create x.heap).2) :=
      Prod.ext hc rfl
    simp only [Extension.streamOpen, hremoved, hidle]
    rw [hpair]
    rfl
  · refine findNegotiatedMode_spec hmodes htable.length_le hneg.pixelToMedia_eq hf hw' hh' hi
      ⟨e, he, ?_, ?_, ?_⟩
    · rw [hneg.pixelToMedia_eq, Option.map_some, hf.subFormat]
    · rw [hf.biWidth]
      exact ⟨by exact_mod_cast hsize.width_ge, by exact_mod_cast hsize.width_le⟩
    · rw [hf.biHeight]
      exact ⟨by exact_mod_cast hsize.height_ge, by exact_mod_cast hsize.height_le⟩

/-- Two Format 7 modes of up to 640x480 in MONO8: one on an 8x8 grid at its full size, and one
with the grid given at 320x240. -/
def twoModes (unitSize : BitVec 32) : Contents
  | 0x100 => .ok 0x01000000
  | 0x19c => .ok 0xC0000000
  | 0x2e0 => .ok 0x3c0280
  | 0x2e4 => .ok 0x3c02c0
  | 0xa00 | 0xb00 | 0xa0c => .ok 0x028001e0
  | 0xa04 => .ok 0x00080008
  | 0xb04 => .ok unitSize
  | 0xb0c => .ok 0x014000f0
  | 0xa14 | 0xb14 => .ok 0x80000000
  | 0xa40 | 0xb40 => .ok 0x00081000
  | 0xa44 | 0xb44 => .ok 0x00080000
  | _ => .ok 0

/-- The table a driver builds of them. -/
def twoModesTable (unitSize : BitVec 32) : List VideoMode :=
  (enumerateModes (twoModes unitSize).camera 0xFFFFF0F00000 ⟨(), []⟩).2.modes

/-- A request in the window of the second mode, at 10 fps. -/
def smallRequest (unit width height : ℤ) : Request where
  majorFormat := 0
  subFormat := formatSubtypeRgb8
  specifier := 0
  video := some (⟨1000000, 0, (0, 0), (0, 0), width, height, 8, ksBiRgb, 0, 0, 0⟩,
    ⟨⟨unit, unit⟩, ⟨640, 480⟩, 0, 0, 0, 0⟩)

/-- 36x36 is on the grid of the second mode; the open streams it from the first. -/
theorem negotiation_off_grid :
    ¬∀ f, getDataIntersection (formatBuild (twoModesTable 0x00040004)) 0 4096 (smallRequest 4 36 36) =
        .ok (.format f) →
      ∃ e ∈ twoModesTable 0x00040004,
        findNegotiatedMode (twoModesTable 0x00040004) (readFormat f) = some e ∧ OnGrid e f := by
  have hformat : ∃ a ∈ formatBuild (twoModesTable 0x00040004),
      getDataIntersection (formatBuild (twoModesTable 0x00040004)) 0 4096 (smallRequest 4 36 36) =
          .ok (.format (formatOf a.range (smallRequest 4 36 36))) ∧
        ∀ e ∈ twoModesTable 0x00040004,
          findNegotiatedMode (twoModesTable 0x00040004)
              (readFormat (formatOf a.range (smallRequest 4 36 36))) = some e →
            ¬OnGrid e (formatOf a.range (smallRequest 4 36 36)) := by
    decide +kernel
  obtain ⟨a, -, hf, hgrid⟩ := hformat
  intro h
  obtain ⟨e, he, hfind, hon⟩ := h _ hf
  exact hgrid e he hfind hon

/-- The second of the two modes. -/
def quarterMode : VideoMode :=
  ⟨7, 1, 0, 640, 480, 320, 240, true, 4, 4, 0xb00, 0, 23437, 12000000⟩

/-- At its default size the same mode is found again. -/
theorem negotiation_agrees_iff_default :
    let modes := twoModesTable 0x00040004
    let f := formatOf (modeRange ⟨formatSubtypeRgb8, 8, ksBiRgb⟩ quarterMode)
      (smallRequest 4 320 240)
    Resolvable modes f ∧
      (Extension.streamOpen ⟨false, none, none, none, .empty, []⟩ 7
          ⟨true, ⟨true, fun _ => true⟩, sizeMismatch f⟩).1 = statusSuccess ∧
        ∃ e ∈ modes, findNegotiatedMode modes (readFormat f) = some e ∧ Covers e f ∧
          (Timely e f ∧ OnGrid e f ↔ Resolvable modes f) :=
  ⟨.inl ⟨quarterMode, by decide +kernel, by decide +kernel⟩,
    negotiation_agrees_iff (twoModes 0x00040004).camera 0xFFFFF0F00000 ⟨(), []⟩ 0 4096
      (smallRequest 4 320 240)
      (formatOf (modeRange ⟨formatSubtypeRgb8, 8, ksBiRgb⟩ quarterMode) (smallRequest 4 320 240))
      ⟨false, none, none, none, .empty, []⟩ 7 ⟨true, fun _ => true⟩ rfl rfl (by decide +kernel)
      (by decide +kernel)⟩

end Stream
end Photonic
