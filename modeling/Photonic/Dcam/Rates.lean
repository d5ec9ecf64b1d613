import Photonic.Dcam.Table
import Photonic.Dcam.Configure

namespace Photonic
namespace Dcam

section
variable (format mode : ℕ) (rateMask : BitVec 32) (interval maxPayload : ℕ)

/-- The rates seen so far and the best of them: none of them streams, or it streams and none
that does is nearer to the interval. -/
def BestOf (seen : List ℕ) (best : ℕ × ℕ) : Prop :=
  (best.1 = numRates ∧ ∀ rate ∈ seen, streamable format mode rateMask maxPayload rate = false) ∨
    (best.1 < numRates ∧ streamable format mode rateMask maxPayload best.1 = true ∧
      best.2 = rateDelta interval best.1 ∧
      ∀ rate ∈ seen, streamable format mode rateMask maxPayload rate = true →
        best.2 ≤ rateDelta interval rate)

variable {format mode rateMask interval maxPayload}

theorem bestOf_step {seen : List ℕ} {best : ℕ × ℕ} {rate : ℕ} (hrate : rate < numRates)
    (h : BestOf format mode rateMask interval maxPayload seen best) :
    BestOf format mode rateMask interval maxPayload (seen ++ [rate])
      (betterRate format mode rateMask interval maxPayload best rate) := by
  unfold betterRate
  split_ifs with hstream hbetter
  · refine h.imp (fun h => ⟨h.1, ?_⟩) fun h => ⟨h.1, h.2.1, h.2.2.1, ?_⟩
    · simp only [List.mem_append, List.mem_singleton]
      rintro r (hr | rfl)
      exacts [h.2 r hr, hstream]
    · simp only [List.mem_append, List.mem_singleton]
      rintro r (hr | rfl) hs
      · exact h.2.2.2 r hr hs
      · rw [hstream] at hs
        cases hs
  · refine .inr ⟨hrate, by simpa using hstream, rfl, ?_⟩
    simp only [List.mem_append, List.mem_singleton]
    rintro r (hr | rfl) hs
    · obtain ⟨hnone, hseen⟩ | ⟨hlt, -, -, hseen⟩ := h
      · rw [hseen r hr] at hs
        cases hs
      · have := hseen r hr hs
        obtain hb | hb := hbetter <;> omega
    · exact le_rfl
  · obtain ⟨hnone, -⟩ | ⟨hlt, hs, hd, hseen⟩ := h
    · exact absurd (.inl hnone) hbetter
    · refine .inr ⟨hlt, hs, hd, ?_⟩
      simp only [List.mem_append, List.mem_singleton]
      rintro r (hr | rfl) hr'
      · exact hseen r hr hr'
      · omega

theorem bestOf_foldl (format mode : ℕ) (rateMask : BitVec 32) (interval maxPayload : ℕ)
    (rates : List ℕ) (h : ∀ rate ∈ rates, rate < numRates) :
    BestOf format mode rateMask interval maxPayload rates
      (rates.foldl (betterRate format mode rateMask interval maxPayload) (numRates, 0)) := by
  induction rates using List.reverseRecOn with
  | nil => exact .inl ⟨rfl, nofun⟩
  | append_singleton rates rate ih =>
    rw [List.foldl_append]
    exact bestOf_step (h rate (by simp)) (ih fun r hr => h r (List.mem_append_left _ hr))

/-- The selected rate streams and no other that does is nearer to the interval, or none
streams. -/
theorem selectRate_spec (format mode : ℕ) (rateMask : BitVec 32) (interval maxPayload : ℕ) :
    (selectRate format mode rateMask interval maxPayload = numRates ∧
        ∀ rate < numRates, streamable format mode rateMask maxPayload rate = false) ∨
      (selectRate format mode rateMask interval maxPayload < numRates ∧
        streamable format mode rateMask maxPayload
          (selectRate format mode rateMask interval maxPayload) = true ∧
        ∀ rate < numRates, streamable format mode rateMask maxPayload rate = true →
          rateDelta interval (selectRate format mode rateMask interval maxPayload) ≤
            rateDelta interval rate) := by
  obtain ⟨hnone, hseen⟩ | ⟨hlt, hs, hd, hseen⟩ :=
    bestOf_foldl format mode rateMask interval maxPayload (List.range numRates)
      fun _ => List.mem_range.mp
  · exact .inl ⟨hnone, fun rate hr => hseen rate (List.mem_range.mpr hr)⟩
  · exact .inr ⟨hlt, hs, fun rate hr hs => hd ▸ hseen rate (List.mem_range.mpr hr) hs⟩

theorem selectRate_lt_iff :
    selectRate format mode rateMask interval maxPayload < numRates ↔
      ∃ rate < numRates, streamable format mode rateMask maxPayload rate = true := by
  obtain ⟨hnone, hseen⟩ | ⟨hlt, hs, -⟩ :=
    selectRate_spec format mode rateMask interval maxPayload
  · refine iff_of_false (by omega) ?_
    rintro ⟨rate, hr, hs⟩
    rw [hseen rate hr] at hs
    cases hs
  · exact iff_of_true hlt ⟨_, hlt, hs⟩

end

theorem maxIsochPayload_s400 {maxSpeedCode : ℕ} (h : 2 ≤ maxSpeedCode) :
    maxIsochPayload maxSpeedCode = 4096 := by
  rw [maxIsochPayload, min_eq_right h]
  rfl

/-- The rate register of a mode has a rate with an entry in the packet table. -/
def Contents.RateInTable (content : Contents) (format mode : ℕ) : Prop :=
  ∃ rateMask, content (frameRateInq format mode) = .ok rateMask ∧
    ∃ rate < numRates, rateMask.getMsbD rate = true ∧
      (packetGeometry format mode rate).bytesPerPacket ≠ 0

/-- The rate is one the camera advertised for the mode, with a packet that fits S400. -/
structure Contents.Granted (content : Contents) (e : VideoMode) (rate : ℕ) : Prop where
  rate_lt : rate < numRates
  advertised : ∃ rateMask, content (frameRateInq e.format e.mode) = .ok rateMask ∧
    rateMask.getMsbD rate = true
  bytesPerPacket_pos : 0 < (packetGeometry e.format e.mode rate).bytesPerPacket
  bytesPerPacket_le : (packetGeometry e.format e.mode rate).bytesPerPacket ≤ 4096

/-- What a stored entry of a standard format says of the camera. -/
theorem Built.fixed_of_isFormat7 {σ : Type} {port : RegisterPort σ} {csrBase : ℕ} {e : VideoMode}
    (he : Built port csrBase e) (h7 : e.isFormat7 = false) :
    e.format < numFormats ∧ e.mode < numModes ∧
      port.Yields (frameRateInq e.format e.mode) e.rateMask := by
  cases he with
  | fixed hformat hmode hpixel hmask hbounds => exact ⟨hformat, hmode, hmask⟩
  | format7 => cases h7

/-- A write of the camera never fails. -/
def RegisterPort.TakesWrites {σ : Type} (port : RegisterPort σ) : Prop :=
  ∀ offset v s, (port.write offset v s).1 = .ok ()

theorem configureStream_ok {σ : Type} {port : RegisterPort σ} (hwrites : port.TakesWrites)
    {stream : Stream} {e : VideoMode} (hmode : stream.mode = some e) (h7 : e.isFormat7 = false)
    {maxSpeedCode : ℕ} (hrate : selectRate e.format e.mode e.rateMask stream.frameInterval
      (maxIsochPayload maxSpeedCode) < numRates) (s : σ) :
    ∃ a, (configureStream port stream maxSpeedCode s).1 = .ok a := by
  have hw : ∀ offset v s, port.write offset v s = (.ok (), (port.write offset v s).2) :=
    fun offset v s => Prod.ext (hwrites offset v s) rfl
  simp only [configureStream, hmode, h7, Bool.false_eq_true, if_false]
  rw [if_neg (Nat.not_le.mpr hrate), Routine.bind_ok (hw _ _ _), Routine.bind_ok (hw _ _ _),
    Routine.bind_ok (hw _ _ _)]
  exact ⟨_, rfl⟩

/-- At S400 every entry of the packet table fits, so only the register of the mode decides
whether a stored mode of a standard format can be started. -/
theorem fixedMode_startable_iff {σ τ : Type} (port : RegisterPort σ) (content : Contents)
    (hport : port.Holds content) (csrBase : ℕ) (s : Bringup σ) (camera : RegisterPort τ)
    (hwrites : camera.TakesWrites) :
    ∀ e ∈ (enumerateModes port csrBase s).2.modes, e.isFormat7 = false →
      ∀ interval maxSpeedCode, 2 ≤ maxSpeedCode →
        ((content.Granted e (selectRate e.format e.mode e.rateMask interval
              (maxIsochPayload maxSpeedCode)) ∧
            ∀ (stream : Stream) (t : τ), stream.mode = some e → stream.frameInterval = interval →
              ∃ a, (configureStream camera stream maxSpeedCode t).1 = .ok a) ↔
          content.RateInTable e.format e.mode) := by
  intro e he h7 interval maxSpeedCode hspeed
  obtain ⟨hformat, hmode, hyields⟩ :=
    ((enumerateModes_table port csrBase s).built e he).fixed_of_isFormat7 h7
  have hmask := hport.eq_of_yields hyields
  rw [maxIsochPayload_s400 hspeed]
  constructor
  · rintro ⟨⟨hlt, ⟨rateMask, hm, hbit⟩, hpos, -⟩, -⟩
    exact ⟨rateMask, hm, _, hlt, hbit, hpos.ne'⟩
  · rintro ⟨rateMask, hm, rate, hlt, hbit, hne⟩
    obtain rfl : rateMask = e.rateMask := by
      rw [hmask] at hm
      exact (Except.ok.inj hm).symm
    have hselect : selectRate e.format e.mode e.rateMask interval 4096 < numRates := by
      refine selectRate_lt_iff.mpr ⟨rate, hlt, ?_⟩
      simp [streamable, hbit, hne, bytesPerPacket_le _ hformat _ hmode _ hlt]
    obtain ⟨hnone, -⟩ | ⟨-, hs, -⟩ := selectRate_spec e.format e.mode e.rateMask
      interval 4096
    · omega
    · simp only [streamable, Bool.and_eq_true, decide_eq_true_eq] at hs
      refine ⟨⟨hselect, ⟨_, hmask, hs.1.1⟩, Nat.pos_of_ne_zero hs.1.2, hs.2⟩, ?_⟩
      rintro stream t hstream rfl
      refine configureStream_ok hwrites hstream h7 ?_ t
      rwa [maxIsochPayload_s400 hspeed]

/-- Format 0 mode 0 with the rates given. -/
def oneRateMask (rateMask : BitVec 32) : Contents
  | 0x100 => .ok 0x80000000
  | 0x180 => .ok 0x80000000
  | 0x200 => .ok rateMask
  | _ => .ok 0

/-- The 60 fps of 160x120 YUV444 has no packet size: the mode is stored and no rate is left. -/
theorem fixedMode_without_rate :
    ¬∀ e ∈ (enumerateModes (oneRateMask 0x04000000).camera 0xFFFFF0F00000 ⟨(), []⟩).2.modes,
      e.isFormat7 = false →
        (oneRateMask 0x04000000).Granted e
          (selectRate e.format e.mode e.rateMask 166667 (maxIsochPayload 2)) := by
  have hmode : ∃ e ∈
      (enumerateModes (oneRateMask 0x04000000).camera 0xFFFFF0F00000 ⟨(), []⟩).2.modes,
      e.isFormat7 = false ∧
        selectRate e.format e.mode e.rateMask 166667 (maxIsochPayload 2) = numRates := by
    decide +kernel
  obtain ⟨e, he, h7, hnone⟩ := hmode
  exact fun h => absurd (h e he h7).rate_lt (by omega)

theorem fixedMode_startable_iff_30fps :
    let content := oneRateMask 0x08000000
    let modes := (enumerateModes content.camera 0xFFFFF0F00000 ⟨(), []⟩).2.modes
    modes.length = 1 ∧ ∀ e ∈ modes, e.isFormat7 = false →
      ((content.Granted e (selectRate e.format e.mode e.rateMask 333333 (maxIsochPayload 2)) ∧
          ∀ (stream : Stream) (t : Unit), stream.mode = some e → stream.frameInterval = 333333 →
            ∃ a, (configureStream content.camera stream 2 t).1 = .ok a) ↔
        content.RateInTable e.format e.mode) :=
  ⟨by decide +kernel, fun e he h7 =>
    fixedMode_startable_iff (oneRateMask 0x08000000).camera (oneRateMask 0x08000000)
      (fun _ _ => rfl) 0xFFFFF0F00000 ⟨(), []⟩ (oneRateMask 0x08000000).camera
      (fun _ _ _ => rfl) e he h7 333333 2 le_rfl⟩

end Dcam
end Photonic
