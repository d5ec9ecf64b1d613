import Photonic.Dcam.Modes

namespace Photonic
namespace Dcam

/-- The rate can be streamed: advertised, supported by the packet table, and within the
payload. -/
def streamable (format mode : ℕ) (rateMask : BitVec 32) (maxPayload rate : ℕ) : Bool :=
  rateMask.getMsbD rate && (packetGeometry format mode rate).bytesPerPacket ≠ 0 &&
    (packetGeometry format mode rate).bytesPerPacket ≤ maxPayload

def rateDelta (interval rate : ℕ) : ℕ :=
  if interval < rateInterval rate then rateInterval rate - interval else interval - rateInterval rate

/-- The best rate so far with its distance; `numRates` stands for none. -/
def betterRate (format mode : ℕ) (rateMask : BitVec 32) (interval maxPayload : ℕ)
    (best : ℕ × ℕ) (rate : ℕ) : ℕ × ℕ :=
  if streamable format mode rateMask maxPayload rate = false then best
  else if best.1 = numRates ∨ rateDelta interval rate < best.2 then (rate, rateDelta interval rate)
  else best

def selectRate (format mode : ℕ) (rateMask : BitVec 32) (interval maxPayload : ℕ) : ℕ :=
  ((List.range numRates).foldl (betterRate format mode rateMask interval maxPayload)
    (numRates, 0)).1

/-- The largest packet at the speed of the bus, or that no packet fits it. -/
def speedCap (unitBpp maxBpp speedMaxBpp : ℕ) : Except NtStatus ℕ :=
  if speedMaxBpp < maxBpp then
    if speedMaxBpp / unitBpp * unitBpp = 0 then .error statusInvalidParameter
    else .ok (speedMaxBpp / unitBpp * unitBpp)
  else .ok maxBpp

def rawBpp (frameBytes frameInterval maxBpp : ℕ) : ℕ :=
  if frameInterval ≠ 0 then min (frameBytes * isoCycle100ns / frameInterval) maxBpp else maxBpp

/-- The size asked for, on the unit grid and within the maximum. -/
def targetBpp (unitBpp maxBpp raw : ℕ) : ℕ :=
  min (if raw / unitBpp * unitBpp = 0 then unitBpp else raw / unitBpp * unitBpp) maxBpp

/-- The scan for packet sizes that divide the frame: the last one at or below the target, and
the first one above it, which ends the scan. -/
def scanDivisors (frameBytes target : ℕ) : List ℕ → ℕ → ℕ × ℕ
  | [], below => (below, 0)
  | candidate :: rest, below =>
    if frameBytes % candidate ≠ 0 then scanDivisors frameBytes target rest below
    else if candidate ≤ target then scanDivisors frameBytes target rest candidate
    else (below, candidate)

/-- The unit multiples up to the maximum, in order. -/
def candidates (unitBpp maxBpp : ℕ) : List ℕ :=
  (List.range (maxBpp / unitBpp)).map fun k => (k + 1) * unitBpp

/-- The packet size that streams the frame, from the envelope the camera reports. -/
def packetSize (frameBytes frameInterval unitBpp maxBpp speedMaxBpp : ℕ) : Except NtStatus ℕ := do
  let maxBpp ← speedCap unitBpp maxBpp speedMaxBpp
  let target := targetBpp unitBpp maxBpp (rawBpp frameBytes frameInterval maxBpp)
  let (divisorBelow, divisorAbove) := scanDivisors frameBytes target (candidates unitBpp maxBpp) 0
  let bpp ← if divisorBelow ≠ 0 then .ok divisorBelow
    else if divisorAbove ≠ 0 then .ok divisorAbove else .error statusInvalidParameter
  if frameBytes / bpp = 0 then .error statusInvalidParameter else .ok bpp

/-- What a stream extension brings to configuration. -/
structure Stream where
  mode : Option VideoMode
  width : ℕ
  height : ℕ
  imageSize : ℕ
  frameInterval : ℕ
  deriving DecidableEq, Repr

structure Packetisation where
  bytesPerPacket : ℕ
  packetsPerFrame : ℕ
  deriving DecidableEq, Repr

def packSize (width height : ℕ) : BitVec 32 :=
  BitVec.ofNat 32 (width % 0x10000 * 0x10000 + height % 0x10000)

section
variable {σ : Type} (port : RegisterPort σ)

def fromExcept {α : Type} : Except NtStatus α → Routine σ NtStatus α
  | .ok a => pure a
  | .error e => Routine.throw e

def configureFormat7 (mode : VideoMode) (stream : Stream) (maxSpeedCode : ℕ) :
    Routine σ NtStatus Packetisation :=
  let base := mode.format7CsrOffset
  let frameBytes := stream.imageSize
  if frameBytes = 0 then Routine.throw statusInvalidParameter
  else do
    port.write regVideoFormat (selected f7Format)
    port.write regVideoMode (selected mode.mode)
    port.write (base + f7ImageSize) (packSize stream.width stream.height)
    port.write (base + f7ColorCodingId) (BitVec.ofNat 32 mode.pixelFormat <<< 24)
    let packetPara ← port.read (base + f7PacketParaInq)
    let unitBpp := hi16 packetPara
    let maxBpp := lo16 packetPara
    if unitBpp = 0 ∨ maxBpp = 0 then Routine.throw statusUnsuccessful
    else do
      let bpp ← fromExcept
        (packetSize frameBytes stream.frameInterval unitBpp maxBpp (maxIsochPayload maxSpeedCode))
      port.write (base + f7BytePerPacket) (BitVec.ofNat 32 bpp <<< 16)
      pure ⟨bpp, frameBytes / bpp⟩

def configureStream (stream : Stream) (maxSpeedCode : ℕ) : Routine σ NtStatus Packetisation :=
  match stream.mode with
  | none => Routine.throw statusInvalidDeviceState
  | some mode =>
    if mode.isFormat7 then configureFormat7 port mode stream maxSpeedCode
    else
      let rate := selectRate mode.format mode.mode mode.rateMask stream.frameInterval
        (maxIsochPayload maxSpeedCode)
      if numRates ≤ rate then Routine.throw statusInvalidDeviceState
      else do
        port.write regVideoFormat (selected mode.format)
        port.write regVideoMode (selected mode.mode)
        port.write regFrameRate (selected rate)
        let geom := packetGeometry mode.format mode.mode rate
        pure ⟨geom.bytesPerPacket, geom.packetsPerFrame⟩

end

theorem speedCap_spec {unitBpp maxBpp speedMaxBpp cap : ℕ}
    (h : speedCap unitBpp maxBpp speedMaxBpp = .ok cap) : cap ≤ maxBpp := by
  unfold speedCap at h
  have := Nat.div_mul_le_self speedMaxBpp unitBpp
  split_ifs at h with hlt hzero
  · cases h
    omega
  · cases h
    exact le_rfl

theorem mem_candidates {unitBpp maxBpp c : ℕ} (h : c ∈ candidates unitBpp maxBpp) :
    unitBpp ∣ c ∧ c ≤ maxBpp := by
  obtain ⟨k, hk, rfl⟩ := List.mem_map.mp h
  exact ⟨Nat.dvd_mul_left .., (Nat.mul_le_mul_right _ (List.mem_range.mp hk)).trans
    (Nat.div_mul_le_self maxBpp unitBpp)⟩

theorem scanDivisors_spec {P : ℕ → Prop} {frameBytes : ℕ} (target : ℕ) {cs : List ℕ} (below : ℕ)
    (hcs : ∀ c ∈ cs, c ∣ frameBytes → P c) (hbelow : below ≠ 0 → P below) :
    ((scanDivisors frameBytes target cs below).1 ≠ 0 →
        P (scanDivisors frameBytes target cs below).1) ∧
      ((scanDivisors frameBytes target cs below).2 ≠ 0 →
        P (scanDivisors frameBytes target cs below).2) := by
  induction cs generalizing below with
  | nil => exact ⟨hbelow, fun h => absurd rfl h⟩
  | cons c cs ih =>
    have htail : ∀ d ∈ cs, d ∣ frameBytes → P d := fun d hd => hcs d (List.mem_cons_of_mem _ hd)
    unfold scanDivisors
    split_ifs with hdvd hle
    · exact ih _ htail hbelow
    · exact ih _ htail fun _ => hcs c List.mem_cons_self (Nat.dvd_of_mod_eq_zero (not_not.mp hdvd))
    · exact ⟨hbelow, fun _ => hcs c List.mem_cons_self
        (Nat.dvd_of_mod_eq_zero (not_not.mp hdvd))⟩

theorem packetSize_spec {frameBytes frameInterval unitBpp maxBpp speedMaxBpp bpp : ℕ}
    (h : packetSize frameBytes frameInterval unitBpp maxBpp speedMaxBpp = .ok bpp) :
    0 < bpp ∧ unitBpp ∣ bpp ∧ bpp ≤ maxBpp ∧ bpp ∣ frameBytes := by
  unfold packetSize at h
  cases hcap : speedCap unitBpp maxBpp speedMaxBpp with
  | error e =>
    rw [hcap] at h
    cases h
  | ok cap =>
    rw [hcap] at h
    have hle := speedCap_spec hcap
    have hscan := scanDivisors_spec (P := fun c => unitBpp ∣ c ∧ c ≤ maxBpp ∧ c ∣ frameBytes)
      (targetBpp unitBpp cap (rawBpp frameBytes frameInterval cap)) 0
      (fun c hc hd => ⟨(mem_candidates hc).1, (mem_candidates hc).2.trans hle, hd⟩)
      fun h0 => absurd rfl h0
    simp only [bind, Except.bind] at h
    split_ifs at h with hbelow hzero habove hzero'
    all_goals cases h
    · exact ⟨Nat.pos_of_ne_zero hbelow, hscan.1 hbelow⟩
    · exact ⟨Nat.pos_of_ne_zero habove, hscan.2 habove⟩

theorem packetSize_error {frameBytes frameInterval unitBpp maxBpp speedMaxBpp : ℕ} {e : NtStatus}
    (h : packetSize frameBytes frameInterval unitBpp maxBpp speedMaxBpp = .error e) :
    e = statusInvalidParameter := by
  unfold packetSize at h
  cases hcap : speedCap unitBpp maxBpp speedMaxBpp with
  | error e' =>
    rw [hcap] at h
    cases h
    unfold speedCap at hcap
    split_ifs at hcap
    cases hcap
    rfl
  | ok cap =>
    rw [hcap] at h
    simp only [bind, Except.bind] at h
    split_ifs at h
    all_goals cases h; rfl

theorem hi16_packSize {width height : ℕ} (hw : width < 0x10000) (hh : height < 0x10000) :
    hi16 (packSize width height) = width := by
  rw [hi16, packSize, BitVec.toNat_ofNat]
  omega

theorem lo16_packSize {width height : ℕ} (hh : height < 0x10000) :
    lo16 (packSize width height) = height := by
  rw [lo16, packSize, BitVec.toNat_ofNat]
  omega

end Dcam
end Photonic
