import Photonic.Dcam.Registers

namespace Photonic
namespace Stream
open Dcam

def toUlong (z : ℤ) : ℕ := (z % 2 ^ 32).toNat

/-- A `ULONG` as a `LONG`. -/
def toLong (n : ℕ) : ℤ := if n % 2 ^ 32 < 2 ^ 31 then (n % 2 ^ 32 : ℕ) else (n % 2 ^ 32 : ℕ) - 2 ^ 32

def longMin : ℤ := -2 ^ 31

def longAbs (z : ℤ) : ℤ := if z = longMin then longMin else |z|

def longNeg (z : ℤ) : ℤ := if z = longMin then longMin else -z

theorem toUlong_natCast {n : ℕ} (h : n < 2 ^ 32) : toUlong n = n := by
  simp only [toUlong]
  omega

theorem toLong_eq {n : ℕ} (h : n < 2 ^ 31) : toLong n = n := by
  have hmod : n % 2 ^ 32 = n := Nat.mod_eq_of_lt (by omega)
  rw [toLong, hmod, if_pos h]

theorem longAbs_natCast {n : ℕ} : longAbs n = n := by
  rw [longAbs, if_neg (by simp only [longMin]; omega), abs_of_nonneg (by omega)]

theorem longAbs_neg_natCast {n : ℕ} (h : n < 2 ^ 31) : longAbs (-n) = n := by
  rw [longAbs, if_neg (by simp only [longMin]; omega), abs_neg, abs_of_nonneg (by omega)]

abbrev Guid := BitVec 128

def formatTypeVideo : Guid := 0x7364697600000010800000aa00389b71
def formatSubtypeRgb24 : Guid := 0xe436eb7d524f11ce9f530020af0ba770
def formatSubtypeRgb8 : Guid := 0xe436eb7a524f11ce9f530020af0ba770
def formatSubtypeUyvy : Guid := 0x5956595500000010800000aa00389b71
def formatSubtypeY16 : Guid := 0x2036315900000010800000aa00389b71
def formatSubtypeY411 : Guid := 0x3131345900000010800000aa00389b71
def formatSubtypeRggb : Guid := 0x4247475200000010800000aa00389b71
def formatSpecifierVideoinfo : Guid := 0x05589f80c35611cebf0100aa0055595a

def ksBiRgb : BitVec 32 := 0
def fourccUyvy : BitVec 32 := 0x59565955
def fourccY16 : BitVec 32 := 0x20363159
def fourccY411 : BitVec 32 := 0x31313459
def fourccRggb : BitVec 32 := 0x42474752

/-- What a coding is delivered as. -/
structure Media where
  subType : Guid
  bitCount : ℕ
  compression : BitVec 32
  deriving DecidableEq, Repr

/-- `PhotonicStreamFormatPixelToMedia` -/
def pixelToMedia (pixelFormat : ℕ) : Option Media :=
  if pixelFormat = pixYuv444 ∨ pixelFormat = pixRgb24 then some ⟨formatSubtypeRgb24, 24, ksBiRgb⟩
  else if pixelFormat = pixYuv422 then some ⟨formatSubtypeUyvy, 16, fourccUyvy⟩
  else if pixelFormat = pixMono8 then some ⟨formatSubtypeRgb8, 8, ksBiRgb⟩
  else if pixelFormat = pixMono16 then some ⟨formatSubtypeY16, 16, fourccY16⟩
  else if pixelFormat = pixYuv411 then some ⟨formatSubtypeY411, 12, fourccY411⟩
  else if pixelFormat = pixRaw8 then some ⟨formatSubtypeRggb, 8, fourccRggb⟩
  else none

/-- The part of a `KSDATARANGE` that is matched, with the size of a sample. -/
structure DataRange where
  sampleSize : ℕ
  majorFormat : Guid
  subFormat : Guid
  specifier : Guid
  deriving DecidableEq, Repr

/-- `KS_VIDEOINFOHEADER` with its `KS_BITMAPINFOHEADER`; the rectangles start at the origin. -/
structure VideoInfoHeader where
  avgTimePerFrame : ℤ
  bitRate : ℕ
  rcSource : ℤ × ℤ
  rcTarget : ℤ × ℤ
  biWidth : ℤ
  biHeight : ℤ
  biBitCount : ℕ
  biCompression : BitVec 32
  biSizeImage : ℕ
  biClrUsed : ℕ
  biClrImportant : ℕ
  deriving DecidableEq, Repr

structure Size where
  cx : ℤ
  cy : ℤ
  deriving DecidableEq, Repr

/-- The part of `KS_VIDEO_STREAM_CONFIG_CAPS` that negotiation reads. -/
structure ConfigCaps where
  minOutputSize : Size
  maxOutputSize : Size
  outputGranularityX : ℕ
  outputGranularityY : ℕ
  minFrameInterval : ℤ
  maxFrameInterval : ℤ
  deriving DecidableEq, Repr

/-- `KS_DATARANGE_VIDEO` -/
structure VideoRange where
  dataRange : DataRange
  header : VideoInfoHeader
  caps : ConfigCaps
  deriving DecidableEq, Repr

def defaultFrameTime : ℕ := 333333

def rgb8PaletteColors : ℕ := 256

def imageBitsPerSecond (imageBytes interval : ℕ) : ℕ :=
  imageBytes * 8 * 10000000 % 2 ^ 64 / interval % 2 ^ 32

def rangeIntervalOk (range : VideoRange) (interval : ℤ) : Bool :=
  interval = 0 ∨ (range.caps.minFrameInterval ≤ interval ∧ interval ≤ range.caps.maxFrameInterval)

def rangeDefaultSizeIs (range : VideoRange) (width height : ℤ) : Bool :=
  range.header.biWidth = width ∧ longAbs range.header.biHeight = height

def advertisedInterval (minInterval maxInterval : ℕ) : ℕ × ℕ :=
  let min := if minInterval = 0 then defaultFrameTime else minInterval
  (min, if maxInterval = 0 then min else maxInterval)

/-- `PhotonicStreamFormatFillRange` -/
def fillRange (media : Media) (width height defaultWidth defaultHeight minWidth minHeight granX
    granY minInterval maxInterval : ℕ) : VideoRange :=
  let (min, max) := advertisedInterval minInterval maxInterval
  let defImageSize := imageBytes defaultWidth defaultHeight media.bitCount
  { dataRange := ⟨imageBytes width height media.bitCount, formatTypeVideo, media.subType,
      formatSpecifierVideoinfo⟩
    header :=
      { avgTimePerFrame := min
        bitRate := imageBitsPerSecond defImageSize min
        rcSource := (toLong defaultWidth, toLong defaultHeight)
        rcTarget := (toLong defaultWidth, toLong defaultHeight)
        biWidth := toLong defaultWidth
        biHeight := if media.compression = ksBiRgb then longNeg (toLong defaultHeight)
          else toLong defaultHeight
        biBitCount := media.bitCount
        biCompression := media.compression
        biSizeImage := defImageSize
        biClrUsed := if media.bitCount = 8 ∧ media.compression = ksBiRgb then rgb8PaletteColors
          else 0
        biClrImportant := 0 }
    caps :=
      { minOutputSize := ⟨toLong minWidth, toLong minHeight⟩
        maxOutputSize := ⟨toLong width, toLong height⟩
        outputGranularityX := granX
        outputGranularityY := granY
        minFrameInterval := min
        maxFrameInterval := max } }

/-- An entry of `VideoRanges` with its `RangeModeIndex`. -/
structure Advertised where
  range : VideoRange
  modeIndex : ℕ
  deriving DecidableEq, Repr

/-- The range of a mode: a scalable window on the unit grid, or the one size. -/
def modeRange (media : Media) (mode : VideoMode) : VideoRange :=
  let (minWidth, minHeight) :=
    if mode.isFormat7 then (mode.unitWidth, mode.unitHeight) else (mode.width, mode.height)
  fillRange media mode.width mode.height mode.defaultWidth mode.defaultHeight minWidth minHeight
    minWidth minHeight mode.minFrameInterval mode.maxFrameInterval

def formatBuild (modes : List VideoMode) : List Advertised :=
  (modes.zipIdx.filterMap fun (mode, i) =>
    (pixelToMedia mode.pixelFormat).map fun media => ⟨modeRange media mode, i⟩).take maxVideoModes

end Stream
end Photonic
