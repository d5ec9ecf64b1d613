import Photonic.Stream.Formats
import Photonic.Dcam.Configure

namespace Photonic
namespace Stream
open Dcam

def statusNotSupported : NtStatus := 0xC00000BB
def statusNoMatch : NtStatus := 0xC0000272
def statusBufferTooSmall : NtStatus := 0xC0000023

/-- A requested data range. `video` is there where its `FormatSize` reaches that of a
`KS_DATARANGE_VIDEO`. -/
structure Request where
  majorFormat : Guid
  subFormat : Guid
  specifier : Guid
  video : Option (VideoInfoHeader × ConfigCaps)
  deriving DecidableEq, Repr

/-- `PhotonicStreamIntersectGuidMatch` -/
def guidMatch (candidate wanted : Guid) : Bool := wanted = 0 ∨ candidate = wanted

def Request.guidsMatch (r : Request) (range : VideoRange) : Bool :=
  guidMatch range.dataRange.majorFormat r.majorFormat &&
    guidMatch range.dataRange.subFormat r.subFormat &&
    guidMatch range.dataRange.specifier r.specifier

def sameWindow (caps caps' : ConfigCaps) : Bool :=
  caps.maxOutputSize = caps'.maxOutputSize ∧ caps.minOutputSize = caps'.minOutputSize

def outsideWindow (range : VideoRange) (caps : ConfigCaps) : Bool :=
  let width := range.header.biWidth
  let height := longAbs range.header.biHeight
  (caps.maxOutputSize.cx ≠ 0 ∧ (caps.maxOutputSize.cx < width ∨ caps.maxOutputSize.cy < height)) ∨
    (caps.minOutputSize.cx ≠ 0 ∧ (width < caps.minOutputSize.cx ∨ height < caps.minOutputSize.cy))

/-- The candidates the scan has found so far. -/
structure Found where
  preferred : Option VideoRange
  windowMatch : Option VideoRange
  fallback : Option VideoRange

def considerRange (header : VideoInfoHeader) (caps : ConfigCaps) (found : Found)
    (range : VideoRange) : VideoRange ⊕ Found :=
  let intervalOk := rangeIntervalOk range header.avgTimePerFrame
  let reqWidth := header.biWidth
  let reqHeight := longAbs header.biHeight
  if sameWindow caps range.caps then
    if intervalOk then .inl range
    else .inr { found with windowMatch := found.windowMatch.or (some range) }
  else if found.preferred = none ∧ 0 < reqWidth ∧ 0 < reqHeight ∧
      rangeDefaultSizeIs range reqWidth reqHeight ∧ intervalOk then
    .inr { found with preferred := some range }
  else if found.fallback = none ∧ outsideWindow range caps = false then
    .inr { found with fallback := some range }
  else .inr found

/-- The scan of `PhotonicStreamIntersectFindRange`, from what has been found. -/
def scanRanges (r : Request) : List VideoRange → Found → Option VideoRange
  | [], found => found.preferred.or (found.windowMatch.or found.fallback)
  | range :: ranges, found =>
    if r.guidsMatch range = false then scanRanges r ranges found
    else match r.video with
      | none => some range
      | some (header, caps) =>
        match considerRange header caps found range with
        | .inl range => some range
        | .inr found => scanRanges r ranges found

/-- `PhotonicStreamIntersectFindRange` -/
def findRange (ranges : List VideoRange) (r : Request) : Option VideoRange :=
  scanRanges r ranges ⟨none, none, none⟩

/-- `KS_DATAFORMAT_VIDEOINFOHEADER` with the palette behind it, as triples of blue, green and
red. -/
structure Format where
  formatSize : ℕ
  dataFormat : DataRange
  header : VideoInfoHeader
  palette : List (ℕ × ℕ × ℕ)
  deriving DecidableEq, Repr

/-- `sizeof(KS_DATAFORMAT_VIDEOINFOHEADER)` and `sizeof(KS_RGBQUAD)` -/
def sizeofFormat : ℕ := 152
def sizeofRgbQuad : ℕ := 4

def paletteColors (range : VideoRange) : ℕ :=
  if range.header.biBitCount = 8 ∧ range.header.biCompression = ksBiRgb then rgb8PaletteColors else 0

def clampInterval (caps : ConfigCaps) (interval : ℤ) : ℤ :=
  min (max interval caps.minFrameInterval) caps.maxFrameInterval

/-- A requested extent, clamped to the window and aligned down to the granularity. -/
def alignExtent (extent least most : ℤ) (gran : ℕ) : ℤ :=
  toLong (toUlong (max (min extent most) least) / gran * gran)

def negotiateInterval (caps : ConfigCaps) (r : Request) (header : VideoInfoHeader) :
    VideoInfoHeader :=
  match r.video with
  | none => header
  | some (req, _) =>
    if req.avgTimePerFrame = 0 then header
    else { header with avgTimePerFrame := clampInterval caps req.avgTimePerFrame }

def Format.resize (f : Format) (width height : ℤ) : Format :=
  let imageSize := imageBytes (toUlong width) (toUlong height) f.header.biBitCount
  { f with
    dataFormat := { f.dataFormat with sampleSize := imageSize }
    header := { f.header with
      biWidth := width
      biHeight := if f.header.biHeight < 0 then longNeg height else height
      biSizeImage := imageSize
      rcSource := (width, height)
      rcTarget := (width, height)
      bitRate := if f.header.avgTimePerFrame ≠ 0 then
          imageBitsPerSecond imageSize (toUlong f.header.avgTimePerFrame)
        else f.header.bitRate } }

def negotiateSize (caps : ConfigCaps) (r : Request) (f : Format) : Format :=
  match r.video with
  | none => f
  | some (req, _) =>
    if caps.maxOutputSize.cx ≠ caps.minOutputSize.cx ∨
        caps.maxOutputSize.cy ≠ caps.minOutputSize.cy then
      let reqWidth := req.biWidth
      let reqHeight := if req.biHeight < 0 then longNeg req.biHeight else req.biHeight
      if 0 < reqWidth ∧ 0 < reqHeight then
        let granX := if caps.outputGranularityX ≠ 0 then caps.outputGranularityX else 1
        let granY := if caps.outputGranularityY ≠ 0 then caps.outputGranularityY else 1
        f.resize (alignExtent reqWidth caps.minOutputSize.cx caps.maxOutputSize.cx granX)
          (alignExtent reqHeight caps.minOutputSize.cy caps.maxOutputSize.cy granY)
      else f
    else f

def appendPalette (colors : ℕ) (f : Format) : Format :=
  if colors ≠ 0 then
    { f with
      header := { f.header with biClrUsed := colors, biClrImportant := colors }
      palette := (List.range colors).map fun i => (i, i, i) }
  else f

def formatOf (range : VideoRange) (r : Request) : Format :=
  let f : Format :=
    { formatSize := sizeofFormat + paletteColors range * sizeofRgbQuad
      dataFormat := range.dataRange
      header := negotiateInterval range.caps r range.header
      palette := [] }
  appendPalette (paletteColors range) (negotiateSize range.caps r f)

inductive Intersection
  | size (formatSize : ℕ)
  | format (f : Format)
  deriving DecidableEq, Repr

def getDataIntersection (advertised : List Advertised) (streamNumber bufferSize : ℕ) (r : Request) :
    Except NtStatus Intersection :=
  if streamNumber ≠ 0 then .error statusNotSupported
  else match findRange (advertised.map Advertised.range) r with
    | none => .error statusNoMatch
    | some range =>
      let formatSize := sizeofFormat + paletteColors range * sizeofRgbQuad
      if bufferSize = 4 then .ok (.size formatSize)
      else if bufferSize < formatSize then .error statusBufferTooSmall
      else .ok (.format (formatOf range r))

/-- What an open reads of the connection format into the stream extension. -/
structure Negotiated where
  width : ℕ
  height : ℕ
  bitCount : ℕ
  compression : BitVec 32
  imageSize : ℕ
  frameInterval : ℕ
  deriving DecidableEq, Repr

/-- The geometry an open takes from a format. -/
def readFormat (f : Format) : Negotiated :=
  let width := toUlong f.header.biWidth
  let height := toUlong (longAbs f.header.biHeight)
  let interval := toUlong f.header.avgTimePerFrame
  { width := width
    height := height
    bitCount := f.header.biBitCount
    compression := f.header.biCompression
    imageSize := imageBytes width height f.header.biBitCount
    frameInterval := if interval = 0 then defaultFrameTime else interval }

/-- `biSizeImage` contradicts the geometry, for which the open is rejected. -/
def sizeMismatch (f : Format) : Bool :=
  f.header.biSizeImage ≠ 0 ∧ f.header.biSizeImage ≠ (readFormat f).imageSize

def rangeCovers (range : VideoRange) (n : Negotiated) : Bool :=
  (range.header.biBitCount = n.bitCount ∧ range.header.biCompression = n.compression) ∧
    ¬(toLong n.width < range.caps.minOutputSize.cx ∨ range.caps.maxOutputSize.cx < toLong n.width ∨
      toLong n.height < range.caps.minOutputSize.cy ∨
      range.caps.maxOutputSize.cy < toLong n.height)

/-- The scan of `PhotonicStreamFindNegotiatedMode`: the index of the mode, from the first range
found to have the interval and the first found at all. -/
def scanNegotiated (n : Negotiated) : List Advertised → Option ℕ → Option ℕ → Option ℕ
  | [], intervalMatch, sizeMatch => intervalMatch.or sizeMatch
  | a :: rest, intervalMatch, sizeMatch =>
    if rangeCovers a.range n = false then scanNegotiated n rest intervalMatch sizeMatch
    else
      let intervalOk := rangeIntervalOk a.range n.frameInterval
      if intervalOk && rangeDefaultSizeIs a.range (toLong n.width) (toLong n.height) then
        some a.modeIndex
      else
        scanNegotiated n rest
          (if intervalOk then intervalMatch.or (some a.modeIndex) else intervalMatch)
          (sizeMatch.or (some a.modeIndex))

def findNegotiatedMode (modes : List VideoMode) (n : Negotiated) : Option VideoMode :=
  (scanNegotiated n (formatBuild modes) none none).bind (modes[·]?)

end Stream
end Photonic
