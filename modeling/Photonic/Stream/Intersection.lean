import Photonic.Stream.Agreement

namespace Photonic
namespace Stream
open Dcam

def Request.size (r : Request) : ℤ × ℤ :=
  match r.video with
  | none => (0, 0)
  | some (req, _) =>
    (req.biWidth, if req.biHeight < 0 then longNeg req.biHeight else req.biHeight)

def Resizes (e : VideoMode) (r : Request) : Prop :=
  ((grid e).1 ≠ e.width ∨ (grid e).2 ≠ e.height) ∧ 0 < r.size.1 ∧ 0 < r.size.2

instance (e : VideoMode) (r : Request) : Decidable (Resizes e r) :=
  inferInstanceAs (Decidable (_ ∧ _ ∧ _))

/-- An extent, clamped to a window and aligned down to its least value. -/
def fitted (extent : ℤ) (least most : ℕ) : ℕ := (max (min extent most) least).toNat / least * least

def negotiatedSize (e : VideoMode) (r : Request) : ℕ × ℕ :=
  if Resizes e r then (fitted r.size.1 (grid e).1 e.width, fitted r.size.2 (grid e).2 e.height)
  else (e.defaultWidth, e.defaultHeight)

def negotiatedInterval (e : VideoMode) (r : Request) : ℕ :=
  match r.video with
  | none => (window e).1
  | some (req, _) =>
    if req.avgTimePerFrame = 0 then (window e).1
    else (min (max req.avgTimePerFrame (window e).1) (window e).2).toNat

section
variable {extent : ℤ} {least most n : ℕ}

theorem fitted_spec (extent : ℤ) (hpos : 0 < least) (hle : least ≤ most) :
    least ≤ fitted extent least most ∧ fitted extent least most ≤ most ∧
      least ∣ fitted extent least most := by
  have hfloor := Nat.div_mul_le_self (max (min extent most) least).toNat least
  refine ⟨Nat.le_mul_of_pos_left _ (Nat.div_pos ?_ hpos), ?_, Nat.dvd_mul_left ..⟩
  · omega
  · unfold fitted
    omega

/-- A size on the grid of the window is left as it is. -/
theorem fitted_self (hdvd : least ∣ n) (hge : least ≤ n) (hle : n ≤ most) : fitted n least most = n := by
  have hmax : (max (min (n : ℤ) most) least).toNat = n := by omega
  rw [fitted, hmax, Nat.div_mul_cancel hdvd]

theorem alignExtent_eq (extent : ℤ) (hle : least ≤ most) (hlt : most < 2 ^ 31) :
    alignExtent extent least most least = fitted extent least most := by
  obtain ⟨n, hn⟩ : ∃ n : ℕ, max (min extent most) (least : ℤ) = n :=
    ⟨(max (min extent most) (least : ℤ)).toNat, by omega⟩
  have hfloor := Nat.div_mul_le_self n least
  rw [alignExtent, fitted, hn, toUlong_natCast (by omega), toLong_eq (by omega), Int.toNat_natCast]

end

theorem negotiatedSize_on {e : VideoMode} (h : Negotiable e) (r : Request) :
    SizeOn e (negotiatedSize e r).1 (negotiatedSize e r).2 := by
  obtain ⟨⟨hgw, -⟩, hgh, -⟩ := h.grid_spec
  obtain ⟨hgwle, hghle⟩ := h.grid_le
  unfold negotiatedSize
  split_ifs
  · obtain ⟨h₁, h₂, h₃⟩ := fitted_spec r.size.1 hgw hgwle
    obtain ⟨h₄, h₅, h₆⟩ := fitted_spec r.size.2 hgh hghle
    exact ⟨h₁, h₂, h₃, h₄, h₅, h₆⟩
  · exact sizeOn_default h

theorem negotiatedInterval_spec {e : VideoMode} (h : Negotiable e) (r : Request) :
    (0 < negotiatedInterval e r ∧ negotiatedInterval e r < 2 ^ 32) ∧
      ((window e).1 ≤ (window e).2 →
        (window e).1 ≤ negotiatedInterval e r ∧ negotiatedInterval e r ≤ (window e).2) := by
  obtain ⟨hlo, hhi⟩ := window_spec h
  unfold negotiatedInterval
  split
  · omega
  · split_ifs <;> omega

theorem negotiateInterval_eq {e : VideoMode} (h : Negotiable e) (m : Media) (r : Request) :
    negotiateInterval (modeRange m e).caps r (modeRange m e).header =
      { (modeRange m e).header with avgTimePerFrame := negotiatedInterval e r } := by
  obtain ⟨hcaps, havg, -, -⟩ := modeRange_spec h m
  obtain ⟨hlo, hhi⟩ := window_spec h
  have hdefault : (modeRange m e).header =
      { (modeRange m e).header with avgTimePerFrame := ((window e).1 : ℕ) } := by rw [← havg]
  unfold negotiateInterval negotiatedInterval
  cases r.video with
  | none => exact hdefault
  | some v =>
    dsimp only
    split_ifs
    · exact hdefault
    · have hclamp : clampInterval (modeRange m e).caps v.1.avgTimePerFrame =
          (min (max v.1.avgTimePerFrame (window e).1) (window e).2).toNat := by
        simp only [clampInterval, hcaps]
        omega
      rw [hclamp]

theorem negotiateSize_eq {e : VideoMode} (h : Negotiable e) (m : Media) (r : Request) (f : Format) :
    negotiateSize (modeRange m e).caps r f =
      if Resizes e r then f.resize (negotiatedSize e r).1 (negotiatedSize e r).2 else f := by
  obtain ⟨hw, hh⟩ := h.width_lt
  obtain ⟨⟨hgw, -⟩, hgh, -⟩ := h.grid_spec
  obtain ⟨hgwle, hghle⟩ := h.grid_le
  rw [(modeRange_spec h m).1]
  unfold negotiateSize negotiatedSize
  cases hv : r.video with
  | none => simp [Resizes, Request.size, hv]
  | some v =>
    have hsize : r.size =
        (v.1.biWidth, if v.1.biHeight < 0 then longNeg v.1.biHeight else v.1.biHeight) := by
      rw [Request.size, hv]
    have hscalable : ((e.width : ℤ) ≠ (grid e).1 ∨ (e.height : ℤ) ≠ (grid e).2) ↔
        ((grid e).1 ≠ e.width ∨ (grid e).2 ≠ e.height) := by omega
    dsimp only
    rw [if_pos (by omega : (grid e).1 ≠ 0), if_pos (by omega : (grid e).2 ≠ 0),
      alignExtent_eq _ hgwle hw, alignExtent_eq _ hghle hh]
    simp only [Resizes, hsize, hscalable]
    split_ifs <;> first | rfl | simp_all

structure Offers (e : VideoMode) (m : Media) (r : Request) (f : Format) : Prop where
  subFormat : f.dataFormat.subFormat = m.subType
  bitCount : f.header.biBitCount = m.bitCount
  compression : f.header.biCompression = m.compression
  biWidth : f.header.biWidth = (negotiatedSize e r).1
  biHeight : f.header.biHeight =
    if m.compression = ksBiRgb then -((negotiatedSize e r).2 : ℤ) else (negotiatedSize e r).2
  sizeImage : f.header.biSizeImage =
    imageBytes (negotiatedSize e r).1 (negotiatedSize e r).2 m.bitCount
  sampleSize : f.dataFormat.sampleSize =
    if Resizes e r then imageBytes (negotiatedSize e r).1 (negotiatedSize e r).2 m.bitCount
    else imageBytes e.width e.height m.bitCount
  interval : f.header.avgTimePerFrame = negotiatedInterval e r
  bitRate : f.header.bitRate =
    if Resizes e r then
      imageBitsPerSecond (imageBytes (negotiatedSize e r).1 (negotiatedSize e r).2 m.bitCount)
        (negotiatedInterval e r)
    else imageBitsPerSecond (imageBytes e.defaultWidth e.defaultHeight m.bitCount) (window e).1

theorem modeRange_biHeight {e : VideoMode} (h : Negotiable e) (m : Media) :
    (modeRange m e).header.biHeight =
      if m.compression = ksBiRgb then -(e.defaultHeight : ℤ) else e.defaultHeight := by
  have hle := h.sized.defaultHeight_le
  have hlt := h.width_lt.2
  have hneg : longNeg (e.defaultHeight : ℤ) = -e.defaultHeight := by
    rw [longNeg, if_neg (by simp only [longMin]; omega)]
  show (if m.compression = ksBiRgb then longNeg (toLong e.defaultHeight)
    else toLong e.defaultHeight) = _
  rw [toLong_eq (by omega), hneg]

theorem appendPalette_offers {e : VideoMode} {m : Media} {r : Request} {f : Format}
    (h : Offers e m r f) (colors : ℕ) : Offers e m r (appendPalette colors f) := by
  unfold appendPalette
  split_ifs
  · exact ⟨h.subFormat, h.bitCount, h.compression, h.biWidth, h.biHeight, h.sizeImage,
      h.sampleSize, h.interval, h.bitRate⟩
  · exact h

theorem formatOf_offers {e : VideoMode} (h : Negotiable e) (m : Media) (r : Request) :
    Offers e m r (formatOf (modeRange m e) r) := by
  obtain ⟨-, -, hbw, -⟩ := modeRange_spec h m
  have hbh := modeRange_biHeight h m
  obtain ⟨hw, hh⟩ := h.width_lt
  have hsize := negotiatedSize_on h r
  have hwle := hsize.width_le
  have hhle := hsize.height_le
  have hpos := h.sized.defaultHeight_pos
  obtain ⟨hinterval, -⟩ := negotiatedInterval_spec h r
  refine appendPalette_offers ?_ _
  rw [negotiateSize_eq h, negotiateInterval_eq h]
  by_cases hr : Resizes e r
  · rw [if_pos hr]
    have hulong : ∀ n : ℕ, n < 2 ^ 31 → toUlong n = n := fun n hn => toUlong_natCast (by omega)
    refine ⟨rfl, rfl, rfl, rfl, ?_, ?_, ?_, rfl, ?_⟩
    · have hneg : longNeg ((negotiatedSize e r).2 : ℤ) = -(negotiatedSize e r).2 := by
        rw [longNeg, if_neg (by simp only [longMin]; omega)]
      simp only [Format.resize, hneg, hbh]
      by_cases hc : m.compression = ksBiRgb
      · rw [if_pos hc, if_pos (by omega), if_pos hc]
      · rw [if_neg hc, if_neg (by omega), if_neg hc]
    · simp only [Format.resize, hulong _ (hwle.trans_lt hw), hulong _ (hhle.trans_lt hh)]
      rfl
    · simp only [Format.resize, hulong _ (hwle.trans_lt hw), hulong _ (hhle.trans_lt hh), if_pos hr]
      rfl
    · simp only [Format.resize, hulong _ (hwle.trans_lt hw), hulong _ (hhle.trans_lt hh), if_pos hr]
      rw [if_pos (by omega), toUlong_natCast hinterval.2]
      rfl
  · have hdefault : negotiatedSize e r = (e.defaultWidth, e.defaultHeight) := if_neg hr
    rw [if_neg hr]
    refine ⟨rfl, rfl, rfl, ?_, ?_, ?_, ?_, rfl, ?_⟩
    · rw [hdefault]
      exact hbw
    · rw [hdefault]
      exact hbh
    · rw [hdefault]
      rfl
    · rw [if_neg hr]
      rfl
    · rw [if_neg hr]
      rfl

/-- What enumeration stores of a camera whose packet sizes are in order. -/
structure WellFormedTable (modes : List VideoMode) : Prop where
  length_le : modes.length ≤ maxVideoModes
  negotiable : ∀ e ∈ modes, Negotiable e
  wellFormed : ∀ e ∈ modes, e.WellFormed

theorem wellFormedTable_of_enumerateModes {σ : Type} (port : RegisterPort σ) (csrBase : ℕ)
    (s : Bringup σ) (h : ∀ e ∈ (enumerateModes port csrBase s).2.modes, e.WellFormed) :
    WellFormedTable (enumerateModes port csrBase s).2.modes where
  length_le := (enumerateModes_table port csrBase s).length_le
  negotiable e he := negotiable_of_built ((enumerateModes_table port csrBase s).built e he)
  wellFormed := h

theorem window_eq {e : VideoMode} (h : e.WellFormed) :
    window e = (e.minFrameInterval, e.maxFrameInterval) := by
  have hpos := h.minFrameInterval_pos
  have hle := h.interval_le
  rw [window, advertisedInterval, if_neg (by omega), if_neg (by omega)]

theorem window_le {e : VideoMode} (h : e.WellFormed) : (window e).1 ≤ (window e).2 := by
  rw [window_eq h]
  exact h.interval_le

theorem media_bitCount {p : ℕ} {m : Media} (hp : codingBpp p ≠ 0) (hm : pixelToMedia p = some m) :
    m.bitCount = codingBpp p := by
  have hall : ∀ c < 8, codingBpp c ≠ 0 → ∀ m ∈ pixelToMedia c, m.bitCount = codingBpp c := by
    decide
  exact hall p (codingBpp_lt hp) hp m hm

theorem imageBytes_exact {e : VideoMode} (h : Negotiable e) {width height : ℕ}
    (hw : width ≤ e.width) (hh : height ≤ e.height) :
    imageBytes width height (mediaOf e).bitCount = width * height * (mediaOf e).bitCount / 8 := by
  rw [media_bitCount h.coding h.pixelToMedia_eq]
  refine imageBytes_eq (le_trans (Nat.div_le_div_right ?_) h.sized.frameBytes_le)
  exact Nat.mul_le_mul_right _ (Nat.mul_le_mul hw hh)

/-- The format is one the range stands for. -/
structure VideoRange.Admits (range : VideoRange) (f : Format) : Prop where
  subFormat : f.dataFormat.subFormat = range.dataRange.subFormat
  bitCount : f.header.biBitCount = range.header.biBitCount
  compression : f.header.biCompression = range.header.biCompression
  width_mem : range.caps.minOutputSize.cx ≤ f.header.biWidth ∧
    f.header.biWidth ≤ range.caps.maxOutputSize.cx
  width_dvd : (range.caps.outputGranularityX : ℤ) ∣ f.header.biWidth
  height_mem : range.caps.minOutputSize.cy ≤ |f.header.biHeight| ∧
    |f.header.biHeight| ≤ range.caps.maxOutputSize.cy
  height_dvd : (range.caps.outputGranularityY : ℤ) ∣ |f.header.biHeight|
  sizeImage : f.header.biSizeImage =
    f.header.biWidth.natAbs * f.header.biHeight.natAbs * f.header.biBitCount / 8
  sizeImage_le : f.header.biSizeImage ≤ f.dataFormat.sampleSize
  sampleSize_le : f.dataFormat.sampleSize ≤ range.dataRange.sampleSize
  interval : range.caps.minFrameInterval ≤ f.header.avgTimePerFrame ∧
    f.header.avgTimePerFrame ≤ range.caps.maxFrameInterval
  height_ne : f.header.biHeight ≠ 0
  orientation : f.header.biHeight < 0 ↔ range.header.biHeight < 0
  topDown : f.header.biHeight < 0 ↔ f.header.biCompression = ksBiRgb

theorem Offers.admitted {e : VideoMode} (h : Negotiable e) (hw : e.WellFormed) {r : Request}
    {f : Format} (ho : Offers e (mediaOf e) r f) : (modeRange (mediaOf e) e).Admits f := by
  obtain ⟨hcaps, -, -, -⟩ := modeRange_spec h (mediaOf e)
  have hrange := modeRange_biHeight h (mediaOf e)
  have hsize := negotiatedSize_on h r
  have hdefault := h.sized.defaultHeight_pos
  have hheight : 0 < (negotiatedSize e r).2 := lt_of_lt_of_le h.grid_spec.2.1 hsize.height_ge
  have habs : f.header.biHeight.natAbs = (negotiatedSize e r).2 := by
    rw [ho.biHeight]
    split_ifs <;> omega
  have habs' : |f.header.biHeight| = (negotiatedSize e r).2 := by
    rw [ho.biHeight]
    split_ifs
    · rw [abs_neg, abs_of_nonneg (by omega)]
    · exact abs_of_nonneg (by omega)
  have hwidth : f.header.biWidth.natAbs = (negotiatedSize e r).1 := by
    rw [ho.biWidth, Int.natAbs_natCast]
  have hexact := imageBytes_exact h hsize.width_le hsize.height_le
  -- a smaller window of the mode takes no more bytes than the whole
  have hlargest : imageBytes (negotiatedSize e r).1 (negotiatedSize e r).2 (mediaOf e).bitCount ≤
      imageBytes e.width e.height (mediaOf e).bitCount := by
    rw [hexact, imageBytes_exact h le_rfl le_rfl]
    exact Nat.div_le_div_right
      (Nat.mul_le_mul_right _ (Nat.mul_le_mul hsize.width_le hsize.height_le))
  obtain ⟨-, hinterval⟩ := negotiatedInterval_spec h r
  obtain ⟨hge, hle⟩ := hinterval (window_le hw)
  have hsample : (modeRange (mediaOf e) e).dataRange.sampleSize =
      imageBytes e.width e.height (mediaOf e).bitCount := rfl
  refine ⟨ho.subFormat, ho.bitCount, ho.compression, ?_, ?_, ?_, ?_, ?_, ?_, ?_, ?_, ?_, ?_, ?_⟩
  · rw [hcaps, ho.biWidth]
    exact ⟨Int.ofNat_le.mpr hsize.width_ge, Int.ofNat_le.mpr hsize.width_le⟩
  · rw [hcaps, ho.biWidth]
    exact Int.natCast_dvd_natCast.mpr hsize.width_dvd
  · rw [hcaps, habs']
    exact ⟨Int.ofNat_le.mpr hsize.height_ge, Int.ofNat_le.mpr hsize.height_le⟩
  · rw [hcaps, habs']
    exact Int.natCast_dvd_natCast.mpr hsize.height_dvd
  · rw [ho.sizeImage, hwidth, habs, ho.bitCount, hexact]
  · rw [ho.sizeImage, ho.sampleSize]
    split_ifs
    · exact le_rfl
    · exact hlargest
  · rw [hsample, ho.sampleSize]
    split_ifs
    · exact hlargest
    · exact le_rfl
  · rw [hcaps, ho.interval]
    exact ⟨Int.ofNat_le.mpr hge, Int.ofNat_le.mpr hle⟩
  · omega
  · rw [ho.biHeight, hrange]
    split_ifs <;> omega
  · rw [ho.biHeight, ho.compression]
    split_ifs with hc
    · exact iff_of_true (by omega) hc
    · exact iff_of_false (by omega) hc

/-- The format the intersection returns is one the range it matched stands for, whatever the
request is. -/
theorem intersection_admitted {modes : List VideoMode} (h : WellFormedTable modes)
    (streamNumber bufferSize : ℕ) (r : Request) {f : Format}
    (hf : getDataIntersection (formatBuild modes) streamNumber bufferSize r = .ok (.format f)) :
    ∃ range, findRange ((formatBuild modes).map Advertised.range) r = some range ∧
      range.Admits f := by
  obtain ⟨a, ha, hfind, rfl⟩ := format_of_getDataIntersection hf
  refine ⟨a.range, hfind, ?_⟩
  rw [formatBuild_eq h.negotiable h.length_le] at ha
  obtain ⟨⟨e, i⟩, hmem, rfl⟩ := List.mem_map.mp ha
  have he : e ∈ modes := List.fst_mem_of_mem_zipIdx hmem
  exact (formatOf_offers (h.negotiable e he) _ r).admitted (h.negotiable e he) (h.wellFormed e he)

theorem twoModesTable_wellFormed : WellFormedTable (twoModesTable 0x00040004) := by
  refine wellFormedTable_of_enumerateModes _ _ _ fun e he => ?_
  have hordered : ∀ e ∈ twoModesTable 0x00040004,
      0 < e.minFrameInterval ∧ e.minFrameInterval ≤ e.maxFrameInterval := by
    decide +kernel
  exact ⟨(modeTable_wellFormed _ _ _).2.1 e he, (hordered e he).1, (hordered e he).2⟩

/-- A bottom-up request of an odd size stays top-down and on the grid. -/
theorem intersection_admitted_odd :
    let f := formatOf (modeRange ⟨formatSubtypeRgb8, 8, ksBiRgb⟩ quarterMode) (smallRequest 4 39 37)
    ∃ range, findRange ((formatBuild (twoModesTable 0x00040004)).map Advertised.range)
        (smallRequest 4 39 37) = some range ∧ range.Admits f :=
  intersection_admitted twoModesTable_wellFormed 0 4096 (smallRequest 4 39 37) (by decide +kernel)

/-- The range as the data range of a request. -/
def VideoRange.request (range : VideoRange) : Request where
  majorFormat := range.dataRange.majorFormat
  subFormat := range.dataRange.subFormat
  specifier := range.dataRange.specifier
  video := some (range.header, range.caps)

/-- What tells the capabilities of a camera apart. -/
def VideoRange.key (range : VideoRange) : Guid × Size × Size :=
  (range.dataRange.subFormat, range.caps.minOutputSize, range.caps.maxOutputSize)

theorem guidsMatch_request (range : VideoRange) : range.request.guidsMatch range = true := by
  simp [Request.guidsMatch, VideoRange.request, guidMatch]

theorem scanRanges_self {range : VideoRange} {ranges : List VideoRange}
    (hmem : range ∈ ranges) (hinterval : rangeIntervalOk range range.header.avgTimePerFrame)
    (honly : ∀ a ∈ ranges, range.request.guidsMatch a → sameWindow range.caps a.caps → a = range)
    (found : Found) : scanRanges range.request ranges found = some range := by
  have hvideo : range.request.video = some (range.header, range.caps) := rfl
  induction ranges generalizing found with
  | nil => cases hmem
  | cons a ranges ih =>
    unfold scanRanges
    by_cases ha : a = range
    · subst ha
      have hsame : sameWindow a.caps a.caps = true := by simp [sameWindow]
      simp [guidsMatch_request, hvideo, considerRange, hsame, hinterval]
    · have hrest : ∀ found, scanRanges range.request ranges found = some range :=
        ih ((List.mem_cons.mp hmem).resolve_left (Ne.symm ha))
          fun b hb => honly b (List.mem_cons_of_mem _ hb)
      cases hguids : range.request.guidsMatch a with
      | false => simp [hrest]
      | true =>
        have hwindow : sameWindow range.caps a.caps = false := by
          cases hsame : sameWindow range.caps a.caps with
          | false => rfl
          | true => exact absurd (honly a List.mem_cons_self hguids hsame) ha
        have hfound : ∃ found', considerRange range.header range.caps found a = .inr found' := by
          simp only [considerRange, hwindow, Bool.false_eq_true, if_false]
          split_ifs <;> exact ⟨_, rfl⟩
        obtain ⟨found', hfound⟩ := hfound
        simp [hvideo, hfound, hrest found']

theorem subType_ne_zero {p : ℕ} {m : Media} (h : pixelToMedia p = some m) : m.subType ≠ 0 := by
  have hall : ∀ m ∈ allMedia, m.subType ≠ 0 := by decide
  exact hall m (mem_allMedia h)

section
variable {e : VideoMode} (h : Negotiable e) (m : Media)
include h

theorem request_size :
    (modeRange m e).request.size = ((e.defaultWidth : ℤ), (e.defaultHeight : ℤ)) := by
  obtain ⟨-, -, hbw, -⟩ := modeRange_spec h m
  have hpos := h.sized.defaultHeight_pos
  have hle := h.sized.defaultHeight_le
  have hlt := h.width_lt.2
  have hneg : longNeg (-(e.defaultHeight : ℤ)) = e.defaultHeight := by
    rw [longNeg, if_neg (by simp only [longMin]; omega)]
    omega
  show ((modeRange m e).header.biWidth, if (modeRange m e).header.biHeight < 0 then
    longNeg (modeRange m e).header.biHeight else (modeRange m e).header.biHeight) = _
  rw [hbw, modeRange_biHeight h]
  by_cases hc : m.compression = ksBiRgb
  · rw [if_pos hc, if_pos (by omega), hneg]
  · rw [if_neg hc, if_neg (by omega)]

theorem negotiatedSize_request :
    negotiatedSize e (modeRange m e).request = (e.defaultWidth, e.defaultHeight) := by
  have hon := sizeOn_default h
  rw [negotiatedSize, request_size h]
  split_ifs
  · rw [fitted_self hon.width_dvd hon.width_ge hon.width_le,
      fitted_self hon.height_dvd hon.height_ge hon.height_le]
  · rfl

theorem negotiatedInterval_request (hwindow : (window e).1 ≤ (window e).2) :
    negotiatedInterval e (modeRange m e).request = (window e).1 := by
  obtain ⟨-, havg, -, -⟩ := modeRange_spec h m
  have hpos := (window_spec h).1
  show (if (modeRange m e).header.avgTimePerFrame = 0 then (window e).1
    else (min (max (modeRange m e).header.avgTimePerFrame (window e).1) (window e).2).toNat) = _
  rw [havg, if_neg (by omega)]
  omega

theorem resize_default {f : Format} (hf : f.header = (modeRange m e).header) :
    (f.resize e.defaultWidth e.defaultHeight).header = f.header := by
  obtain ⟨hw, hh⟩ := h.width_lt
  have hpos := h.sized.defaultHeight_pos
  have hwle := h.sized.defaultWidth_le
  have hhle := h.sized.defaultHeight_le
  have hinterval := (window_spec h).1
  have hneg : longNeg (e.defaultHeight : ℤ) = -e.defaultHeight := by
    rw [longNeg, if_neg (by simp only [longMin]; omega)]
  have hheight : (if (modeRange m e).header.biHeight < 0 then longNeg e.defaultHeight
      else e.defaultHeight) = (modeRange m e).header.biHeight := by
    rw [modeRange_biHeight h, hneg]
    by_cases hc : m.compression = ksBiRgb
    · rw [if_pos hc, if_pos (by omega)]
    · rw [if_neg hc, if_neg (by omega)]
  have hrate : (modeRange m e).header.avgTimePerFrame ≠ 0 := by
    rw [(modeRange_spec h m).2.1]
    omega
  rw [Format.resize, hf]
  simp only [hheight, if_pos hrate, toUlong_natCast (hwle.trans_lt (hw.trans (by decide))),
    toUlong_natCast (hhle.trans_lt (hh.trans (by decide)))]
  rw [(modeRange_spec h m).2.1, toUlong_natCast hinterval.2]
  simp only [modeRange, fillRange, window, toLong_eq (hwle.trans_lt hw),
    toLong_eq (hhle.trans_lt hh)]

theorem formatOf_request (hwindow : (window e).1 ≤ (window e).2) :
    (formatOf (modeRange m e) (modeRange m e).request).header =
      { (modeRange m e).header with biClrImportant := paletteColors (modeRange m e) } := by
  have hdefault : { (modeRange m e).header with avgTimePerFrame := ((window e).1 : ℕ) } =
      (modeRange m e).header := by rw [← (modeRange_spec h m).2.1]
  simp only [formatOf]
  rw [negotiateSize_eq h, negotiateInterval_eq h, negotiatedSize_request h,
    negotiatedInterval_request h m hwindow, hdefault]
  generalize hf : (if Resizes e (modeRange m e).request then _ else _ : Format) = f
  have hheader : f.header = (modeRange m e).header := by
    rw [← hf]
    split_ifs
    · exact resize_default h m rfl
    · rfl
  have hcolors : (modeRange m e).header.biClrUsed = paletteColors (modeRange m e) := rfl
  unfold appendPalette
  split_ifs with hc
  · rw [hheader]
    simp only [← hcolors]
  · have hnone : paletteColors (modeRange m e) = 0 := by simpa using hc
    rw [hheader, hnone]
    rfl

end

/-- A range of a table of distinct windows, presented back, is the range that is matched, and
the format returned is its default. -/
theorem intersection_self {modes : List VideoMode} (h : WellFormedTable modes)
    (hdistinct : ((formatBuild modes).map fun a => a.range.key).Nodup) {a : Advertised}
    (ha : a ∈ formatBuild modes) {bufferSize : ℕ}
    (hbuffer : sizeofFormat + paletteColors a.range * sizeofRgbQuad ≤ bufferSize) :
    findRange ((formatBuild modes).map Advertised.range) a.range.request = some a.range ∧
      ∃ f, getDataIntersection (formatBuild modes) 0 bufferSize a.range.request = .ok (.format f) ∧
        f.dataFormat.subFormat = a.range.dataRange.subFormat ∧
        f.header = { a.range.header with biClrImportant := paletteColors a.range } := by
  have hbuilt := ha
  rw [formatBuild_eq h.negotiable h.length_le] at hbuilt
  obtain ⟨⟨e, i⟩, hmem, rfl⟩ := List.mem_map.mp hbuilt
  have he : e ∈ modes := List.fst_mem_of_mem_zipIdx hmem
  have hneg := h.negotiable e he
  have hwindow := window_le (h.wellFormed e he)
  have hfind : findRange ((formatBuild modes).map Advertised.range)
      (modeRange (mediaOf e) e).request = some (modeRange (mediaOf e) e) := by
    have hrange : modeRange (mediaOf e) e ∈ (formatBuild modes).map Advertised.range :=
      List.mem_map_of_mem ha
    refine scanRanges_self hrange ?_ ?_ _
    · simp only [rangeIntervalOk, (modeRange_spec hneg (mediaOf e)).1,
        (modeRange_spec hneg (mediaOf e)).2.1, decide_eq_true_eq]
      omega
    -- a range of the same subtype and size is this one, as no two share both
    · intro range hrange hguids hsame
      obtain ⟨b, hb, rfl⟩ := List.mem_map.mp hrange
      have hsub : b.range.dataRange.subFormat = (mediaOf e).subType := by
        simp only [Request.guidsMatch, VideoRange.request, guidMatch, Bool.and_eq_true] at hguids
        exact (of_decide_eq_true hguids.1.2).resolve_left (subType_ne_zero hneg.pixelToMedia_eq)
      simp only [sameWindow, decide_eq_true_eq] at hsame
      have hkey : b.range.key = (modeRange (mediaOf e) e).key :=
        Prod.ext hsub (Prod.ext hsame.2.symm hsame.1.symm)
      rw [List.inj_on_of_nodup_map hdistinct hb ha hkey]
  refine ⟨hfind, formatOf (modeRange (mediaOf e) e) (modeRange (mediaOf e) e).request, ?_,
    (formatOf_offers hneg _ _).subFormat, formatOf_request hneg _ hwindow⟩
  dsimp only at hbuffer
  have hfour : bufferSize ≠ 4 := by
    unfold sizeofFormat at hbuffer
    omega
  simp only [getDataIntersection, hfind]
  rw [if_neg (by omega), if_neg hfour, if_neg (by omega)]

/-- The second of two modes of one size limit, on a finer grid, is matched behind the first. -/
theorem intersection_self_second :
    let range := modeRange ⟨formatSubtypeRgb8, 8, ksBiRgb⟩ quarterMode
    findRange ((formatBuild (twoModesTable 0x00040004)).map Advertised.range) range.request =
        some range ∧
      ∃ f, getDataIntersection (formatBuild (twoModesTable 0x00040004)) 0 4096 range.request =
          .ok (.format f) ∧
        f.dataFormat.subFormat = range.dataRange.subFormat ∧
        f.header = { range.header with biClrImportant := paletteColors range } :=
  intersection_self twoModesTable_wellFormed (by decide +kernel)
    (a := ⟨modeRange ⟨formatSubtypeRgb8, 8, ksBiRgb⟩ quarterMode, 1⟩) (by decide +kernel) (by decide)

end Stream
end Photonic
