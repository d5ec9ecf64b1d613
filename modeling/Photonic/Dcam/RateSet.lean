import Photonic.Dcam.Current
import Photonic.Dcam.Rates

namespace Photonic
namespace Dcam

/-- A camera that answers every access, and in which some registers are as they were last
written. -/
structure RegisterPort.Latches {σ : Type} (port : RegisterPort σ) (value : σ → ℕ → BitVec 32)
    (kept : ℕ → Prop) : Prop where
  read_eq : ∀ offset s, (port.read offset s).1 = .ok (value s offset)
  read_keeps : ∀ offset s r, kept r → value (port.read offset s).2 r = value s r
  write_ok : ∀ offset v s, (port.write offset v s).1 = .ok ()
  write_eq : ∀ offset v s, kept offset → value (port.write offset v s).2 offset = v
  write_keeps : ∀ offset v s r, kept r → r ≠ offset → value (port.write offset v s).2 r = value s r

/-- A file of registers. -/
def registerFile : RegisterPort (ℕ → BitVec 32) where
  read offset := fun s => (.ok (s offset), s)
  write offset v := fun s => (.ok (), Function.update s offset v)

theorem registerFile_latches (kept : ℕ → Prop) : registerFile.Latches id kept where
  read_eq _ _ := rfl
  read_keeps _ _ _ _ := rfl
  write_ok _ _ _ := rfl
  write_eq _ _ _ _ := Function.update_self ..
  write_keeps _ _ _ _ _ hne := Function.update_of_ne hne ..

section
variable {σ α β : Type} {value : σ → ℕ → BitVec 32} {kept : ℕ → Prop}

/-- The routine answers so, and leaves the kept registers as they are. -/
def Answers (value : σ → ℕ → BitVec 32) (kept : ℕ → Prop) (x : Routine σ NtStatus α) (s : σ)
    (r : Except NtStatus α) : Prop :=
  ∃ t, x s = (r, t) ∧ ∀ k, kept k → value t k = value s k

namespace Answers
variable {x : Routine σ NtStatus α} {f : α → Routine σ NtStatus β} {s : σ} {a : α} {e : NtStatus}
  {r : Except NtStatus β}

theorem pure : Answers value kept (Pure.pure a : Routine σ NtStatus α) s (.ok a) :=
  ⟨s, rfl, fun _ _ => rfl⟩

theorem throw : Answers value kept (Routine.throw e : Routine σ NtStatus α) s (.error e) :=
  ⟨s, rfl, fun _ _ => rfl⟩

theorem bind (hx : Answers value kept x s (.ok a))
    (hf : ∀ t, (∀ k, kept k → value t k = value s k) → Answers value kept (f a) t r) :
    Answers value kept (x >>= f) s r := by
  obtain ⟨t, ht, hkept⟩ := hx
  obtain ⟨u, hu, hkept'⟩ := hf t hkept
  exact ⟨u, (Routine.bind_ok ht).trans hu, fun k hk => (hkept' k hk).trans (hkept k hk)⟩

theorem attempt {r : Except NtStatus α} (hx : Answers value kept x s r) :
    Answers value kept x.attempt s (.ok r) := by
  obtain ⟨t, ht, hkept⟩ := hx
  exact ⟨t, by rw [Routine.attempt, ht], hkept⟩

end Answers

variable {port : RegisterPort σ}

theorem RegisterPort.Latches.answers (h : port.Latches value kept) (offset : ℕ) (s : σ) :
    Answers value kept (port.read offset) s (.ok (value s offset)) :=
  ⟨_, Prod.ext (h.read_eq offset s) rfl, fun k hk => h.read_keeps offset s k hk⟩

theorem RegisterPort.Latches.write (h : port.Latches value kept) (offset : ℕ) (v : BitVec 32) (s : σ) :
    port.write offset v s = (.ok (), (port.write offset v s).2) := Prod.ext (h.write_ok offset v s) rfl

end

/-- The selection registers. -/
def IsSelection (r : ℕ) : Prop := r = regVideoFormat ∨ r = regVideoMode ∨ r = regFrameRate

/-- The rest of the table from the live mode on. -/
def liveEntries {σ : Type} (value : σ → ℕ → BitVec 32) (modes : List VideoMode) (s : σ) :
    List VideoMode :=
  entriesFrom modes (selection (value s regVideoFormat)) (selection (value s regVideoMode))

theorem selection_selected {id : ℕ} (h : id < 8) : selection (selected id) = id := by
  have hall : ∀ id < 8, selection (selected id) = id := by decide
  exact hall id h

section
variable {σ : Type} {port : RegisterPort σ} {value : σ → ℕ → BitVec 32} {kept : ℕ → Prop}
  {csrBase : ℕ} {modes rest : List VideoMode} {e : VideoMode} {s : σ}

theorem liveEntries_congr {t : σ} (hkept : ∀ r, IsSelection r → kept r)
    (hst : ∀ r, kept r → value t r = value s r) : liveEntries value modes t = liveEntries value modes s := by
  unfold liveEntries
  rw [hst _ (hkept _ (.inl rfl)), hst _ (hkept _ (.inr (.inl rfl)))]

theorem liveSelection_answers (h : port.Latches value kept) (hkept : ∀ r, IsSelection r → kept r)
    (hcsr : csrBase ≠ 0) (s : σ) : Answers value kept (liveSelection port csrBase) s
      (.ok (selection (value s regVideoFormat), selection (value s regVideoMode))) := by
  rw [liveSelection, if_neg hcsr]
  refine (h.answers _ s).bind fun t ht => ?_
  refine (h.answers _ t).bind fun u _ => ?_
  rw [ht _ (hkept _ (.inr (.inl rfl)))]
  exact .pure

variable (h : port.Latches value kept) (hkept : ∀ r, IsSelection r → kept r) (hcsr : csrBase ≠ 0)
  (hlive : liveEntries value modes s = e :: rest) (h7 : e.isFormat7 = false)
include h hkept hcsr hlive h7

theorem getCurrentMode_fixed : Answers value kept (getCurrentMode port csrBase modes) s (.ok e) := by
  refine (liveSelection_answers h hkept hcsr s).bind fun t ht => ?_
  unfold liveEntries at hlive
  dsimp only
  rw [hlive]
  simp only [h7, if_true]
  exact .pure

theorem enumFrameRate_fixed (index : ℕ) :
    Answers value kept (enumFrameRate port csrBase modes index) s
      (if numRates ≤ rateFromIndex e.rateMask index then .error statusNoMoreEntries
        else .ok (rateInterval (rateFromIndex e.rateMask index))) := by
  refine (getCurrentMode_fixed h hkept hcsr hlive h7).bind fun t ht => ?_
  simp only [h7, Bool.false_eq_true, if_false]
  split_ifs
  · exact .throw
  · exact .pure

theorem getFrameRate_fixed : Answers value kept (getFrameRate port csrBase modes) s
    (if numRates ≤ selection (value s regFrameRate) then .error statusDeviceDataError
      else .ok (rateInterval (selection (value s regFrameRate)))) := by
  refine (getCurrentMode_fixed h hkept hcsr hlive h7).bind fun t ht => ?_
  simp only [h7, Bool.false_eq_true, if_false]
  refine (h.answers _ t).bind fun u _ => ?_
  rw [ht _ (hkept _ (.inr (.inr rfl)))]
  split_ifs
  · exact .throw
  · exact .pure

theorem setFrameRate_fixed {index : ℕ} (hrate : rateFromIndex e.rateMask index < numRates) :
    ∃ t, setFrameRate port csrBase modes index s = (.ok (), t) ∧
      value t regFrameRate = selected (rateFromIndex e.rateMask index) ∧
      liveEntries value modes t = e :: rest := by
  obtain ⟨t, ht, hst⟩ := getCurrentMode_fixed h hkept hcsr hlive h7
  refine ⟨(port.write regFrameRate (selected (rateFromIndex e.rateMask index)) t).2, ?_,
    h.write_eq _ _ _ (hkept _ (.inr (.inr rfl))), ?_⟩
  · rw [setFrameRate, Routine.bind_ok ht]
    simp only [h7, Bool.false_eq_true, if_false]
    rw [if_neg (Nat.not_le.mpr hrate), ← h.write]
  · have hformat := h.write_keeps regFrameRate (selected (rateFromIndex e.rateMask index)) t
      regVideoFormat (hkept _ (.inl rfl)) (by decide)
    have hmode := h.write_keeps regFrameRate (selected (rateFromIndex e.rateMask index)) t
      regVideoMode (hkept _ (.inr (.inl rfl))) (by decide)
    rw [← hlive, ← liveEntries_congr hkept hst]
    unfold liveEntries
    rw [hformat, hmode]

theorem prepareStream_fixed (hbpp : codingBpp e.pixelFormat ≠ 0)
    (hrate : selection (value s regFrameRate) < numRates) :
    Answers value kept (prepareStream port csrBase modes) s
      (.ok ⟨some e, e.defaultWidth, e.defaultHeight,
        imageBytes e.defaultWidth e.defaultHeight (codingBpp e.pixelFormat),
        rateInterval (selection (value s regFrameRate))⟩) := by
  refine (getCurrentMode_fixed h hkept hcsr hlive h7).bind fun t ht => ?_
  rw [if_neg hbpp]
  have hlive' : liveEntries value modes t = e :: rest :=
    (liveEntries_congr hkept ht).trans hlive
  refine (getFrameRate_fixed h hkept hcsr hlive' h7).attempt.bind fun u _ => ?_
  rw [ht _ (hkept _ (.inr (.inr rfl))), if_neg (Nat.not_le.mpr hrate)]
  have hpos : rateInterval (selection (value s regFrameRate)) ≠ 0 := by
    have hall : ∀ rate < numRates, rateInterval rate ≠ 0 := by decide
    exact hall _ hrate
  simp only [if_neg hpos]
  exact .pure

end

/-- The rate can be streamed at the speed of the bus, or no rate of the mode can. -/
def RateHeld (e : VideoMode) (rate maxSpeedCode : ℕ) : Prop :=
  streamable e.format e.mode e.rateMask (maxIsochPayload maxSpeedCode) rate = true ∨
    ∀ r < numRates, streamable e.format e.mode e.rateMask (maxIsochPayload maxSpeedCode) r = false

instance (e : VideoMode) (rate maxSpeedCode : ℕ) : Decidable (RateHeld e rate maxSpeedCode) :=
  inferInstanceAs (Decidable (_ ∨ _))

theorem rateInterval_injective : ∀ r < numRates, ∀ r' < numRates,
    rateInterval r = rateInterval r' → r = r' := by
  decide

theorem selectRate_self {format mode rate : ℕ} {rateMask : BitVec 32} {maxPayload : ℕ}
    (hrate : rate < numRates) (hs : streamable format mode rateMask maxPayload rate = true) :
    selectRate format mode rateMask (rateInterval rate) maxPayload = rate := by
  obtain ⟨-, hnone⟩ | ⟨hlt, -, hbest⟩ :=
    selectRate_spec format mode rateMask (rateInterval rate) maxPayload
  · rw [hnone rate hrate] at hs
    cases hs
  · have hdelta := hbest rate hrate hs
    have hzero : rateDelta (rateInterval rate) rate = 0 := by simp [rateDelta]
    refine rateInterval_injective _ hlt _ hrate ?_
    rw [hzero] at hdelta
    unfold rateDelta at hdelta
    split_ifs at hdelta <;> omega

theorem configureStream_fixed {σ : Type} {port : RegisterPort σ} {value : σ → ℕ → BitVec 32}
    {kept : ℕ → Prop} (h : port.Latches value kept) (hkept : ∀ r, IsSelection r → kept r)
    (stream : Stream) {e : VideoMode} (hmode : stream.mode = some e) (h7 : e.isFormat7 = false)
    (maxSpeedCode : ℕ) (s : σ) :
    let rate := selectRate e.format e.mode e.rateMask stream.frameInterval
      (maxIsochPayload maxSpeedCode)
    (numRates ≤ rate ∧ configureStream port stream maxSpeedCode s = (.error statusInvalidDeviceState, s)) ∨
      rate < numRates ∧ ∃ p t, configureStream port stream maxSpeedCode s = (.ok p, t) ∧
        value t regFrameRate = selected rate := by
  intro rate
  simp only [configureStream, hmode, h7, Bool.false_eq_true, if_false]
  by_cases hrate : numRates ≤ rate
  · rw [if_pos hrate]
    exact .inl ⟨hrate, rfl⟩
  · rw [if_neg hrate, Routine.bind_ok (h.write _ _ _), Routine.bind_ok (h.write _ _ _),
      Routine.bind_ok (h.write _ _ _)]
    exact .inr ⟨Nat.not_le.mp hrate, _, _, rfl, h.write_eq _ _ _ (hkept _ (.inr (.inr rfl)))⟩

/-- A rate that is enumerated can be set and is then reported. The start behind it streams at
that rate or fails, exactly where the rate can be streamed or no rate of the mode can. -/
theorem rateSet_streamed_iff {τ σ : Type} (builder : RegisterPort τ) (csrBase : ℕ) (b : Bringup τ)
    (port : RegisterPort σ) (value : σ → ℕ → BitVec 32) (hport : port.Latches value IsSelection) :
    let modes := (enumerateModes builder csrBase b).2.modes
    ∀ s e rest, liveEntries value modes s = e :: rest → e.isFormat7 = false →
      ∀ index interval, (enumFrameRate port csrBase modes index s).1 = .ok interval →
        ∃ t, setFrameRate port csrBase modes index (enumFrameRate port csrBase modes index s).2 =
            (.ok (), t) ∧
          (getFrameRate port csrBase modes t).1 = .ok interval ∧
          ∀ maxSpeedCode,
            ((∀ stream u, prepareStream port csrBase modes (getFrameRate port csrBase modes t).2 =
                (.ok stream, u) →
              ∀ p v, configureStream port stream maxSpeedCode u = (.ok p, v) →
                value v regFrameRate = selected (rateFromIndex e.rateMask index)) ↔
              RateHeld e (rateFromIndex e.rateMask index) maxSpeedCode) := by
  intro modes s e rest hlive h7 index interval henum
  have hkept : ∀ r, IsSelection r → IsSelection r := fun _ h => h
  have hcsr : csrBase ≠ 0 := by
    rintro rfl
    cases henum
  obtain ⟨s₁, hs₁, hsame₁⟩ := enumFrameRate_fixed hport hkept hcsr hlive h7 index
  rw [hs₁] at henum ⊢
  -- ENUM succeeded, so the index names a rate
  have hrate : rateFromIndex e.rateMask index < numRates := by
    by_contra hge
    rw [if_pos (Nat.not_lt.mp hge)] at henum
    cases henum
  rw [if_neg (Nat.not_le.mpr hrate)] at henum
  cases henum
  have hlive₁ := (liveEntries_congr hkept hsame₁).trans hlive
  obtain ⟨t, ht, hvalue, hlive₂⟩ := setFrameRate_fixed hport hkept hcsr hlive₁ h7 hrate
  have hid : selection (value t regFrameRate) = rateFromIndex e.rateMask index := by
    rw [hvalue]
    exact selection_selected (hrate.trans (by decide))
  obtain ⟨u, hu, hsame₂⟩ := getFrameRate_fixed hport hkept hcsr hlive₂ h7
  rw [hid, if_neg (Nat.not_le.mpr hrate)] at hu
  refine ⟨t, ht, by rw [hu], fun maxSpeedCode => ?_⟩
  rw [hu]
  -- GET and the prepare change none of the selection registers
  have hlive₃ := (liveEntries_congr hkept hsame₂).trans hlive₂
  have hid' : selection (value u regFrameRate) = rateFromIndex e.rateMask index := by
    rw [hsame₂ _ (.inr (.inr rfl)), hid]
  have hbuilt := (enumerateModes_table builder csrBase b).built e
    (entriesFrom_subset (hlive.symm ▸ List.mem_cons_self))
  obtain ⟨v, hv, hsame₃⟩ := prepareStream_fixed hport hkept hcsr hlive₃ h7 hbuilt.codingBpp_ne
    (hid'.symm ▸ hrate)
  rw [hid'] at hv
  have hstart := configureStream_fixed hport hkept ⟨some e, e.defaultWidth, e.defaultHeight,
    imageBytes e.defaultWidth e.defaultHeight (codingBpp e.pixelFormat),
    rateInterval (rateFromIndex e.rateMask index)⟩ rfl h7 maxSpeedCode v
  dsimp only at hstart
  have hsome : selectRate e.format e.mode e.rateMask (rateInterval (rateFromIndex e.rateMask index))
      (maxIsochPayload maxSpeedCode) < numRates ↔ ∃ r < numRates,
        streamable e.format e.mode e.rateMask (maxIsochPayload maxSpeedCode) r = true :=
    selectRate_lt_iff
  constructor
  -- if the rate set is not streamable and another one is, the start takes that other one
  · intro hstream
    by_contra hheld
    simp only [RateHeld, not_or, not_forall, Bool.not_eq_true, Bool.not_eq_false] at hheld
    obtain ⟨hnot, r, hr, hs⟩ := hheld
    obtain ⟨hge, -⟩ | ⟨hlt, p, w, hw, hwrote⟩ := hstart
    · exact absurd (hsome.mpr ⟨r, hr, hs⟩) (Nat.not_lt.mpr hge)
    · have heq := hstream _ v hv p w hw
      rw [hwrote] at heq
      have hids := congrArg selection heq
      rw [selection_selected (hlt.trans (by decide)), selection_selected (hrate.trans (by decide))]
        at hids
      obtain ⟨hnone, -⟩ | ⟨-, hs', -⟩ := selectRate_spec e.format e.mode e.rateMask
        (rateInterval (rateFromIndex e.rateMask index)) (maxIsochPayload maxSpeedCode)
      · omega
      · rw [hids, hnot] at hs'
        cases hs'
  -- either the start finds no rate at all, or it takes the one that was set
  · rintro hheld stream u' hprep p w hconf
    rw [hv] at hprep
    cases hprep
    obtain ⟨-, hfail⟩ | ⟨hlt, p', w', hw, hwrote⟩ := hstart
    · rw [hfail] at hconf
      cases hconf
    · rw [hw] at hconf
      cases hconf
      obtain hs | hnone := hheld
      · rw [hwrote, selectRate_self hrate hs]
      · obtain ⟨r, hr, hs⟩ := hsome.mp hlt
        rw [hnone r hr] at hs
        cases hs

/-- Format 0 mode 0 at 30 and 60 fps. -/
def twoRates : Contents := oneRateMask 0x0C000000

def twoRatesTable : List VideoMode :=
  (enumerateModes twoRates.camera 0xFFFFF0F00000 ⟨(), []⟩).2.modes

/-- The 60 fps of 160x120 YUV444 are enumerated and set; the start streams at 30 fps. -/
theorem rateSet_dropped :
    ¬∀ t, setFrameRate registerFile 0xFFFFF0F00000 twoRatesTable 1 (fun _ => 0) = (.ok (), t) →
      ∀ stream u, prepareStream registerFile 0xFFFFF0F00000 twoRatesTable t = (.ok stream, u) →
        ∀ p v, configureStream registerFile stream 2 u = (.ok p, v) →
          v regFrameRate = selected (rateFromIndex 0x0C000000 1) := by
  intro h
  have hset : (setFrameRate registerFile 0xFFFFF0F00000 twoRatesTable 1 fun _ => 0).1 = .ok () := by
    decide +kernel
  have hstart : ∃ stream, (prepareStream registerFile 0xFFFFF0F00000 twoRatesTable
      (setFrameRate registerFile 0xFFFFF0F00000 twoRatesTable 1 fun _ => 0).2).1 = .ok stream ∧
        (configureStream registerFile stream 2 (prepareStream registerFile 0xFFFFF0F00000
          twoRatesTable (setFrameRate registerFile 0xFFFFF0F00000 twoRatesTable 1 fun _ => 0).2).2).1 =
            .ok ⟨240, 240⟩ ∧
        (configureStream registerFile stream 2 (prepareStream registerFile 0xFFFFF0F00000
          twoRatesTable (setFrameRate registerFile 0xFFFFF0F00000 twoRatesTable 1
            fun _ => 0).2).2).2 regFrameRate ≠ selected (rateFromIndex 0x0C000000 1) := by
    refine ⟨⟨some (fixedEntry 0 0 0x0C000000), 160, 120, 57600, 166667⟩, ?_⟩
    decide +kernel
  obtain ⟨stream, hprepare, hconfigure, hwrong⟩ := hstart
  exact hwrong (h _ (Prod.ext hset rfl) stream _ (Prod.ext hprepare rfl) _ _
    (Prod.ext hconfigure rfl))

/-- The 30 fps of that mode are streamed as they were set. -/
theorem rateSet_streamed_iff_30fps :
    ∃ t, setFrameRate registerFile 0xFFFFF0F00000 twoRatesTable 0
        (enumFrameRate registerFile 0xFFFFF0F00000 twoRatesTable 0 fun _ => 0).2 = (.ok (), t) ∧
      (getFrameRate registerFile 0xFFFFF0F00000 twoRatesTable t).1 = .ok 333333 ∧
      ∀ maxSpeedCode,
        ((∀ stream u, prepareStream registerFile 0xFFFFF0F00000 twoRatesTable
              (getFrameRate registerFile 0xFFFFF0F00000 twoRatesTable t).2 = (.ok stream, u) →
            ∀ p v, configureStream registerFile stream maxSpeedCode u = (.ok p, v) →
              v regFrameRate = selected 4) ↔
          RateHeld (fixedEntry 0 0 0x0C000000) 4 maxSpeedCode) :=
  rateSet_streamed_iff twoRates.camera 0xFFFFF0F00000 ⟨(), []⟩ registerFile id
    (registerFile_latches IsSelection) (fun _ => 0) (fixedEntry 0 0 0x0C000000) [] (by decide +kernel)
    rfl 0 333333 (by decide +kernel)

end Dcam
end Photonic
