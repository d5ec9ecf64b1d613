import Photonic.Stream.Intersection

namespace Photonic
namespace Stream
open Dcam

/-- `MinBitsPerSecond` and `MaxBitsPerSecond` of `PhotonicStreamFormatFillRange`. The two
fields are signed. -/
def rangeBitRates (media : Media) (width height minInterval maxInterval : ℕ) : ℤ × ℤ :=
  let (min, max) := advertisedInterval minInterval maxInterval
  let imageSize := imageBytes width height media.bitCount
  (toLong (imageBitsPerSecond imageSize max), toLong (imageBitsPerSecond imageSize min))

def modeBitRates (media : Media) (mode : VideoMode) : ℤ × ℤ :=
  rangeBitRates media mode.width mode.height mode.minFrameInterval mode.maxFrameInterval

def frameBits (e : VideoMode) (width height : ℕ) : ℕ :=
  width * height * (mediaOf e).bitCount / 8 * 8 * 10000000

/-- The advertised bit rates are the quotients of the largest frame, the least one first. -/
structure RatesExact (e : VideoMode) : Prop where
  least : (modeBitRates (mediaOf e) e).1 = (frameBits e e.width e.height / (window e).2 : ℕ)
  most : (modeBitRates (mediaOf e) e).2 = (frameBits e e.width e.height / (window e).1 : ℕ)
  ordered : (modeBitRates (mediaOf e) e).1 ≤ (modeBitRates (mediaOf e) e).2

/-- The bit rate of a format is the quotient of its own image and interval. -/
def Format.RateExact (f : Format) : Prop :=
  f.header.bitRate = f.header.biSizeImage * 8 * 10000000 / f.header.avgTimePerFrame.toNat

/-- The largest frame fits a signed field at the shorter interval, and the window is not
inverted, unless by too little to show. -/
def RatesFit (e : VideoMode) : Prop :=
  frameBits e e.width e.height < 2 ^ 31 * min (window e).1 (window e).2 ∧
    ((window e).1 ≤ (window e).2 ∨
      frameBits e e.width e.height / (window e).1 = frameBits e e.width e.height / (window e).2)

/-- The bit rate at the negotiated interval fits 32 bits, and the format has it: the request
names a size of a scalable mode, or it leaves the mode at its shortest interval, unless it moves
it by too little, or by a whole 32 bits, to show. -/
def RateKept (e : VideoMode) (r : Request) : Prop :=
  if Resizes e r then
    frameBits e (negotiatedSize e r).1 (negotiatedSize e r).2 < 2 ^ 32 * negotiatedInterval e r
  else
    frameBits e e.defaultWidth e.defaultHeight < 2 ^ 32 * negotiatedInterval e r ∧
      frameBits e e.defaultWidth e.defaultHeight / (window e).1 % 2 ^ 32 =
        frameBits e e.defaultWidth e.defaultHeight / negotiatedInterval e r % 2 ^ 32

instance (e : VideoMode) : Decidable (RatesFit e) := inferInstanceAs (Decidable (_ ∧ _))

instance (e : VideoMode) (r : Request) : Decidable (RateKept e r) :=
  inferInstanceAs (Decidable (ite _ _ _))

theorem div_mod_eq_self_iff {bits interval : ℕ} (h : 0 < interval) :
    bits / interval % 2 ^ 32 = bits / interval ↔ bits < 2 ^ 32 * interval := by
  rw [← Nat.div_lt_iff_lt_mul h]
  generalize bits / interval = rate
  omega

/-- A signed field holds a quotient of half that size. -/
theorem toLong_div_eq_iff {bits interval : ℕ} (h : 0 < interval) :
    toLong (bits / interval % 2 ^ 32) = (bits / interval : ℕ) ↔ bits < 2 ^ 31 * interval := by
  rw [← Nat.div_lt_iff_lt_mul h, toLong, Nat.mod_mod]
  generalize bits / interval = rate
  split <;> omega

section
variable {e : VideoMode} (h : Negotiable e)
include h

theorem imageBitsPerSecond_eq {width height : ℕ} (hw : width ≤ e.width) (hh : height ≤ e.height)
    (interval : ℕ) : imageBitsPerSecond (imageBytes width height (mediaOf e).bitCount) interval =
      frameBits e width height / interval % 2 ^ 32 := by
  have hbytes : imageBytes width height (mediaOf e).bitCount < 2 ^ 32 := Nat.mod_lt _ (by decide)
  have hbits : imageBytes width height (mediaOf e).bitCount * 8 * 10000000 < 2 ^ 64 := by omega
  rw [imageBitsPerSecond, Nat.mod_eq_of_lt hbits, imageBytes_exact h hw hh, frameBits]

theorem modeBitRates_eq : modeBitRates (mediaOf e) e =
    (toLong (frameBits e e.width e.height / (window e).2 % 2 ^ 32),
      toLong (frameBits e e.width e.height / (window e).1 % 2 ^ 32)) := by
  rw [← imageBitsPerSecond_eq h le_rfl le_rfl, ← imageBitsPerSecond_eq h le_rfl le_rfl]
  rfl

theorem ratesExact_iff : RatesExact e ↔ RatesFit e := by
  obtain ⟨⟨hlo, -⟩, hhi, -⟩ := window_spec h
  have heq := modeBitRates_eq h
  constructor
  · intro hexact
    have hleast := hexact.least
    have hmost := hexact.most
    have hordered := hexact.ordered
    rw [hleast, hmost, Int.ofNat_le] at hordered
    rw [heq, toLong_div_eq_iff hhi] at hleast
    rw [heq, toLong_div_eq_iff hlo] at hmost
    refine ⟨?_, ?_⟩
    · rcases min_choice (window e).1 (window e).2 with he | he <;> rwa [he]
    · by_cases hle : (window e).1 ≤ (window e).2
      · exact .inl hle
      · have := Nat.div_le_div_left (a := frameBits e e.width e.height)
          (Nat.not_le.mp hle).le hhi
        omega
  · rintro ⟨hmin, hwindow⟩
    have hleast := (toLong_div_eq_iff hhi).mpr
      (hmin.trans_le (Nat.mul_le_mul_left _ (min_le_right _ _)))
    have hmost := (toLong_div_eq_iff hlo).mpr
      (hmin.trans_le (Nat.mul_le_mul_left _ (min_le_left _ _)))
    refine ⟨by rw [heq, hleast], by rw [heq, hmost], ?_⟩
    rw [heq, hleast, hmost, Int.ofNat_le]
    obtain hle | hquot := hwindow
    · exact Nat.div_le_div_left hle hlo
    · exact hquot.ge

theorem rate_of_offers {r : Request} {f : Format} (ho : Offers e (mediaOf e) r f) :
    f.header.biSizeImage * 8 * 10000000 / f.header.avgTimePerFrame.toNat =
      frameBits e (negotiatedSize e r).1 (negotiatedSize e r).2 / negotiatedInterval e r := by
  have hsize := negotiatedSize_on h r
  rw [ho.sizeImage, ho.interval, imageBytes_exact h hsize.width_le hsize.height_le,
    Int.toNat_natCast, frameBits]

theorem rateExact_iff {r : Request} {f : Format} (ho : Offers e (mediaOf e) r f) :
    f.RateExact ↔ RateKept e r := by
  obtain ⟨⟨hpos, -⟩, -⟩ := negotiatedInterval_spec h r
  have hsize := negotiatedSize_on h r
  rw [Format.RateExact, rate_of_offers h ho, ho.bitRate, RateKept]
  by_cases hr : Resizes e r
  · rw [if_pos hr, if_pos hr, imageBitsPerSecond_eq h hsize.width_le hsize.height_le]
    exact div_mod_eq_self_iff hpos
  · have hdefault : negotiatedSize e r = (e.defaultWidth, e.defaultHeight) := if_neg hr
    rw [if_neg hr, if_neg hr, imageBitsPerSecond_eq h h.sized.defaultWidth_le h.sized.defaultHeight_le,
      hdefault, ← div_mod_eq_self_iff hpos]
    -- the field holds the low bits of the rate at the shortest interval
    constructor
    · intro heq
      have hlt := Nat.mod_lt (frameBits e e.defaultWidth e.defaultHeight / (window e).1)
        (show 0 < 2 ^ 32 by decide)
      have hfit := Nat.mod_eq_of_lt (heq ▸ hlt)
      exact ⟨hfit, heq.trans hfit.symm⟩
    · rintro ⟨hfit, hmod⟩
      exact hmod.trans hfit

end

/-- The advertised rates of a mode are exact and in order where they fit, and a format returned
from its range has its own bit rate where the request keeps it. -/
theorem bitRates_exact_iff {σ : Type} (port : RegisterPort σ) (csrBase : ℕ) (s : Bringup σ) :
    let modes := (enumerateModes port csrBase s).2.modes
    (∀ e ∈ modes, RatesExact e ↔ RatesFit e) ∧
      ∀ streamNumber bufferSize r f,
        getDataIntersection (formatBuild modes) streamNumber bufferSize r = .ok (.format f) →
          ∃ e ∈ modes,
            findRange ((formatBuild modes).map Advertised.range) r =
              some (modeRange (mediaOf e) e) ∧
            (f.RateExact ↔ RateKept e r) := by
  intro modes
  have htable := enumerateModes_table port csrBase s
  have hmodes : ∀ e ∈ modes, Negotiable e := fun e he => negotiable_of_built (htable.built e he)
  refine ⟨fun e he => ratesExact_iff (hmodes e he), fun streamNumber bufferSize r f hf => ?_⟩
  obtain ⟨a, ha, hfind, rfl⟩ := format_of_getDataIntersection hf
  rw [formatBuild_eq hmodes htable.length_le] at ha
  obtain ⟨⟨e, i⟩, hmem, rfl⟩ := List.mem_map.mp ha
  have he : e ∈ modes := List.fst_mem_of_mem_zipIdx hmem
  exact ⟨e, he, hfind, rateExact_iff (hmodes e he) (formatOf_offers (hmodes e he) _ r)⟩

/-- 640x480 in MONO8 at 15 and 30 fps, and nothing else. -/
def fixedMode : Contents
  | 0x100 => .ok 0x80000000
  | 0x180 => .ok 0x04000000
  | 0x214 => .ok 0x18000000
  | _ => .ok 0

def fixedModeTable : List VideoMode :=
  (enumerateModes fixedMode.camera 0xFFFFF0F00000 ⟨(), []⟩).2.modes

/-- The mode of `oneMode`, left at 16x16 by the session before. -/
def tinyMode : Contents := fun offset =>
  if offset = 0xa0c then .ok 0x00100010 else oneMode 0x00081000 offset

/-- Any size of the one subtype, at an interval. -/
def intervalRequest (interval : ℤ) : Request where
  majorFormat := 0
  subFormat := formatSubtypeRgb8
  specifier := 0
  video := some (⟨interval, 0, (0, 0), (0, 0), 640, 480, 8, ksBiRgb, 0, 0, 0⟩,
    ⟨⟨640, 480⟩, ⟨640, 480⟩, 0, 0, 0, 0⟩)

/-- 1600x1200 in RGB8 at 15 and 60 fps, and nothing else. -/
def largeMode : Contents
  | 0x100 => .ok 0x20000000
  | 0x188 => .ok 0x08000000
  | 0x250 => .ok 0x14000000
  | _ => .ok 0

/-- At 15 fps the fixed mode keeps the bit rate of 30 fps. The scalable mode's largest frame at
its shortest interval is far beyond 32 bits, and the large mode's largest rate is stored below
its least one. -/
theorem bitRates_stale :
    (¬∀ f, getDataIntersection (formatBuild fixedModeTable) 0 4096 (intervalRequest 666666) =
        .ok (.format f) → f.RateExact) ∧
      (¬∀ e ∈ (enumerateModes tinyMode.camera 0xFFFFF0F00000 ⟨(), []⟩).2.modes, RatesExact e) ∧
      ∃ e ∈ (enumerateModes largeMode.camera 0xFFFFF0F00000 ⟨(), []⟩).2.modes,
        (modeBitRates (mediaOf e) e).2 < (modeBitRates (mediaOf e) e).1 := by
  refine ⟨?_, ?_, by decide +kernel⟩
  · have hformat : ∃ a ∈ formatBuild fixedModeTable,
        getDataIntersection (formatBuild fixedModeTable) 0 4096 (intervalRequest 666666) =
            .ok (.format (formatOf a.range (intervalRequest 666666))) ∧
          (formatOf a.range (intervalRequest 666666)).header.bitRate = 73728073 ∧
          (formatOf a.range (intervalRequest 666666)).header.biSizeImage = 307200 ∧
          (formatOf a.range (intervalRequest 666666)).header.avgTimePerFrame = 666666 := by
      decide +kernel
    obtain ⟨a, -, hf, hrate, himage, hinterval⟩ := hformat
    intro h
    have hexact := h _ hf
    rw [Format.RateExact, hrate, himage, hinterval] at hexact
    exact absurd hexact (by decide)
  · have hmode : ∃ e ∈ (enumerateModes tinyMode.camera 0xFFFFF0F00000 ⟨(), []⟩).2.modes,
        ¬RatesFit e := by
      decide +kernel
    obtain ⟨e, he, hfit⟩ := hmode
    have hneg := negotiable_of_built ((enumerateModes_table _ _ _).built e he)
    exact fun h => hfit ((ratesExact_iff hneg).mp (h e he))

/-- The format of that mode at its shortest interval has the rate it is advertised with. -/
theorem bitRates_exact_iff_fastest : ∃ e ∈ fixedModeTable,
    findRange ((formatBuild fixedModeTable).map Advertised.range) (intervalRequest 333333) =
        some (modeRange (mediaOf e) e) ∧
      ((formatOf (modeRange ⟨formatSubtypeRgb8, 8, ksBiRgb⟩
          (fixedEntry 0 5 0x18000000)) (intervalRequest 333333)).RateExact ↔
        RateKept e (intervalRequest 333333)) :=
  (bitRates_exact_iff fixedMode.camera 0xFFFFF0F00000 ⟨(), []⟩).2 0 4096 (intervalRequest 333333) _
    (by decide +kernel)

end Stream
end Photonic
