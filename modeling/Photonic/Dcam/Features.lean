import Photonic.Dcam.Current

namespace Photonic
namespace Dcam

def featureValueOffset : ℕ := 0x300

def featurePresence : BitVec 32 := 0x80000000
def featureOn : BitVec 32 := 0x02000000
def featureAuto : BitVec 32 := 0x01000000
def featureValueMask : BitVec 32 := 0x00000fff

def featinqPresence : BitVec 32 := 0x80000000
def featinqReadout : BitVec 32 := 0x08000000
def featinqAuto : BitVec 32 := 0x02000000
def featinqManual : BitVec 32 := 0x01000000

def featinqMin (word : BitVec 32) : ℕ := (word >>> 12 &&& 0xfff).toNat

def featinqMax (word : BitVec 32) : ℕ := (word &&& 0xfff).toNat

/-- The value field of a feature's value register. -/
def valueField (word : BitVec 32) : ℕ := (word &&& featureValueMask).toNat

/-- `PROPSETID_VIDCAP_VIDEOPROCAMP`, `PROPSETID_VIDCAP_CAMERACONTROL` and every other set. -/
inductive PropertySet
  | videoProcAmp
  | cameraControl
  | other
  deriving DecidableEq, Repr

/-- `PHOTONIC_FEATURE_MAP` -/
structure FeatureMap where
  set : PropertySet
  id : ℕ
  inquiryRegister : ℕ
  deriving DecidableEq, Repr

def FeatureMap.valueRegister (map : FeatureMap) : ℕ := map.inquiryRegister + featureValueOffset

def imagerFeatureCount : ℕ := 13

/-- `g_PhotonicFeatureMap`, in its order: brightness, contrast, hue, saturation, sharpness,
gamma, white balance; pan, tilt, zoom, exposure, iris, focus. -/
def featureMap : Vector FeatureMap imagerFeatureCount :=
  #v[⟨.videoProcAmp, 0, 0x500⟩, ⟨.videoProcAmp, 1, 0x520⟩, ⟨.videoProcAmp, 2, 0x510⟩,
    ⟨.videoProcAmp, 3, 0x514⟩, ⟨.videoProcAmp, 4, 0x508⟩, ⟨.videoProcAmp, 5, 0x518⟩,
    ⟨.videoProcAmp, 7, 0x50c⟩, ⟨.cameraControl, 0, 0x584⟩, ⟨.cameraControl, 1, 0x588⟩,
    ⟨.cameraControl, 3, 0x580⟩, ⟨.cameraControl, 4, 0x51c⟩, ⟨.cameraControl, 5, 0x524⟩,
    ⟨.cameraControl, 6, 0x528⟩]

def findFeature (set : PropertySet) (id : ℕ) : Option (Fin imagerFeatureCount) :=
  (List.finRange imagerFeatureCount).find? fun i =>
    (featureMap.get i).id == id && (featureMap.get i).set == set

/-- `PHOTONIC_IMAGER_FEATURE`, less the range data built from it. -/
structure ImagerFeature where
  present : Bool
  autoSupported : Bool
  minimum : ℤ
  maximum : ℤ
  defaultValue : ℤ
  deriving DecidableEq, Repr

/-- `RtlZeroMemory` -/
def ImagerFeature.zero : ImagerFeature := ⟨false, false, 0, 0, 0⟩

section Discovery
variable {σ : Type} (port : RegisterPort σ)

/-- The inquiry word is fully coherent. -/
def usableInquiry (inquiry : BitVec 32) : Bool :=
  inquiry &&& featinqPresence != 0 && inquiry &&& featinqReadout != 0 &&
    inquiry &&& featinqManual != 0 && decide (featinqMin inquiry < featinqMax inquiry)

/-- A value forced between two bounds, the lower one first. -/
def clampLong (minimum maximum value : ℤ) : ℤ :=
  let value := if value < minimum then minimum else value
  if maximum < value then maximum else value

/-- What discovery reports of a control it found. -/
def foundFeature (word : BitVec 32) (minimum maximum : ℤ) (autoSupported : Bool) : ImagerFeature :=
  ⟨true, autoSupported, minimum, maximum, clampLong minimum maximum (valueField word)⟩

def fullScaleWord : BitVec 32 := featurePresence ||| featureOn ||| featureValueMask

def autoProbeWord (word : BitVec 32) : BitVec 32 :=
  featurePresence ||| featureOn ||| featureAuto ||| word &&& featureValueMask

def probedMaximum (full : Except NtStatus (BitVec 32)) : ℤ :=
  match full with
  | .ok probe => valueField probe
  | .error _ => 0

def probeAuto (map : FeatureMap) (word : BitVec 32) : Routine σ NtStatus Bool := do
  match ← (port.write map.valueRegister (autoProbeWord word)).attempt with
  | .error _ => return false
  | .ok () =>
    match ← (port.read map.valueRegister).attempt with
    | .error _ => return false
    | .ok probe => return probe &&& featureAuto != 0

/-- `PhotonicDiscoverImagerFeature`. Its caller sees no status: what fails is taken for absent. -/
def discoverImagerFeature (map : FeatureMap) : Routine σ NtStatus ImagerFeature := do
  match ← (port.read map.valueRegister).attempt with
  | .error _ => return .zero
  | .ok word =>
    if word &&& featurePresence = 0 then return .zero
    else
      let inquiry ← (port.read map.inquiryRegister).attempt
      match inquiry.toOption.filter usableInquiry with
      | some inquiry =>
        return foundFeature word (featinqMin inquiry) (featinqMax inquiry)
          (inquiry &&& featinqAuto != 0)
      | none =>
        -- no usable inquiry word: probe
        match ← (port.write map.valueRegister fullScaleWord).attempt with
        | .error _ => return .zero
        | .ok () =>
          let full ← (port.read map.valueRegister).attempt
          let autoSupported ← probeAuto port map word
          -- the register as it was first read
          let _ ← (port.write map.valueRegister word).attempt
          if probedMaximum full ≤ 0 then
            return ⟨false, autoSupported, 0, probedMaximum full, 0⟩
          else return foundFeature word 0 (probedMaximum full) autoSupported

/-- The loop of `PhotonicBuildDevicePropertySets` over the map. -/
def discoverEach : List FeatureMap → Routine σ NtStatus (List ImagerFeature)
  | [] => pure []
  | map :: maps => do
    let feature ← discoverImagerFeature port map
    let features ← discoverEach maps
    return feature :: features

def statusBufferTooSmall : NtStatus := 0xC0000023

def flagsAuto : BitVec 32 := 1
def flagsManual : BitVec 32 := 2

/-- `sizeof(KSPROPERTY_VIDEOPROCAMP_S)` -/
def videoProcAmpBytes : ℕ := 40

/-- The value part of a `KSPROPERTY_VIDEOPROCAMP_S`. -/
structure PropertyValue where
  value : ℤ
  flags : BitVec 32
  capabilities : BitVec 32
  deriving DecidableEq, Repr

/-- What a property request names: the set, the control in it, and the payload's room. -/
structure PropertyRequest where
  set : PropertySet
  id : ℕ
  outputSize : ℕ

variable (features : Fin imagerFeatureCount → ImagerFeature) (request : PropertyRequest)

def imagerGetProperty : Routine σ NtStatus PropertyValue :=
  match (findFeature request.set request.id).filter fun i => (features i).present with
  | none => .throw statusNotFound
  | some i =>
    if request.outputSize < videoProcAmpBytes then .throw statusBufferTooSmall
    else do
      let word ← port.read (featureMap.get i).valueRegister
      return {
        value := valueField word
        flags := if word &&& featureAuto != 0 then flagsAuto else flagsManual
        capabilities :=
          if (features i).autoSupported then flagsManual ||| flagsAuto else flagsManual }

def composeWord (current : BitVec 32) (requested : ℤ) (auto : Bool) : BitVec 32 :=
  let word := current &&& ~~~(featureOn ||| featureAuto ||| featureValueMask) ||| featurePresence |||
    featureOn ||| BitVec.ofInt 32 requested &&& featureValueMask
  if auto then word ||| featureAuto else word

def imagerSetProperty (value : ℤ) (flags : BitVec 32) : Routine σ NtStatus Unit :=
  match (findFeature request.set request.id).filter fun i => (features i).present with
  | none => .throw statusNotFound
  | some i =>
    if request.outputSize < videoProcAmpBytes then .throw statusBufferTooSmall
    else do
      let feature := features i
      let requested := clampLong feature.minimum feature.maximum value
      -- a failed read leaves zero to compose over
      let current ← (port.read (featureMap.get i).valueRegister).attempt
      let word := composeWord (current.toOption.getD 0) requested
        (flags &&& flagsAuto != 0 && feature.autoSupported)
      port.write (featureMap.get i).valueRegister word

end Discovery

/-- The range of a control that is there lies in twelve bits and its default in the range. -/
def ImagerFeature.Ranged (f : ImagerFeature) : Prop :=
  f.present = true → 0 ≤ f.minimum ∧ f.minimum < f.maximum ∧ f.maximum ≤ 0xFFF ∧
    f.minimum ≤ f.defaultValue ∧ f.defaultValue ≤ f.maximum

theorem valueField_le (word : BitVec 32) : valueField word ≤ 0xFFF := by
  have hmask : featureValueMask.toNat = 2 ^ 12 - 1 := rfl
  rw [valueField, BitVec.toNat_and, hmask, Nat.and_two_pow_sub_one_eq_mod]
  omega

theorem featinqMax_le (word : BitVec 32) : featinqMax word ≤ 0xFFF := valueField_le word

theorem clampLong_mem {minimum maximum : ℤ} (h : minimum ≤ maximum) (value : ℤ) :
    minimum ≤ clampLong minimum maximum value ∧ clampLong minimum maximum value ≤ maximum := by
  simp only [clampLong]
  split <;> split <;> omega

theorem foundFeature_ranged (word : BitVec 32) {minimum maximum : ℤ} (hmin : 0 ≤ minimum)
    (hlt : minimum < maximum) (hmax : maximum ≤ 0xFFF) (autoSupported : Bool) :
    (foundFeature word minimum maximum autoSupported).Ranged :=
  fun _ => ⟨hmin, hlt, hmax, clampLong_mem hlt.le _⟩

theorem probedMaximum_le (full : Except NtStatus (BitVec 32)) : probedMaximum full ≤ 0xFFF := by
  unfold probedMaximum
  split
  · exact_mod_cast valueField_le _
  · decide

section Discovery
variable {σ : Type} (port : RegisterPort σ)

theorem anything_keeps {α : Type} (x : Routine σ NtStatus α) :
    Routine.Keeps (fun _ => True) x fun _ => True :=
  fun _ _ => ⟨trivial, fun _ _ => trivial⟩

/-- Whatever the camera answers, a control reported present has a proper range. -/
theorem discoverImagerFeature_ranged (map : FeatureMap) :
    Routine.Keeps (fun _ => True) (discoverImagerFeature port map) ImagerFeature.Ranged := by
  have habsent : ImagerFeature.zero.Ranged := nofun
  unfold discoverImagerFeature
  refine (anything_keeps _).bind fun first _ => ?_
  cases first with
  | error e => exact .pure habsent
  | ok word =>
    refine .ite (fun _ => .pure habsent) fun _ => (anything_keeps _).bind fun inquiry _ => ?_
    split
    · next inquiry hinquiry =>
      obtain ⟨-, husable⟩ := Option.filter_eq_some_iff.mp hinquiry
      have hlt : featinqMin inquiry < featinqMax inquiry := by
        simp only [usableInquiry, Bool.and_eq_true, decide_eq_true_eq] at husable
        exact husable.2
      have hmax := featinqMax_le inquiry
      exact .pure (foundFeature_ranged _ (Int.natCast_nonneg _) (by exact_mod_cast hlt)
        (by exact_mod_cast hmax) _)
    · refine (anything_keeps _).bind fun written _ => ?_
      cases written with
      | error e => exact .pure habsent
      | ok =>
        refine (anything_keeps _).bind fun full _ => (anything_keeps _).bind fun auto _ =>
          (anything_keeps _).bind fun _ _ => ?_
        refine .ite (fun _ => .pure nofun) fun hpos => .pure ?_
        exact foundFeature_ranged _ le_rfl (by omega) (probedMaximum_le full) _

end Discovery

/-- The fields that SET owns. -/
def ownedFields : BitVec 32 := featurePresence ||| featureOn ||| featureAuto ||| featureValueMask

theorem composeWord_and (current : BitVec 32) (requested : ℤ) (auto : Bool) (m : BitVec 32) :
    composeWord current requested auto &&& m =
      current &&& (~~~(featureOn ||| featureAuto ||| featureValueMask) &&& m) |||
        featurePresence &&& m ||| featureOn &&& m |||
        BitVec.ofInt 32 requested &&& (featureValueMask &&& m) |||
        (if auto then featureAuto else 0) &&& m := by
  unfold composeWord
  cases auto <;> simp [BitVec.and_or_distrib_right, BitVec.and_assoc]

theorem valueField_composeWord (current : BitVec 32) {requested : ℤ} (hmin : 0 ≤ requested)
    (hmax : requested ≤ 0xFFF) (auto : Bool) :
    (valueField (composeWord current requested auto) : ℤ) = requested := by
  have hcur : ~~~(featureOn ||| featureAuto ||| featureValueMask) &&& featureValueMask = 0 := by
    decide
  have hpresence : featurePresence &&& featureValueMask = 0 := by decide
  have hon : featureOn &&& featureValueMask = 0 := by decide
  have hauto : (if auto then featureAuto else 0) &&& featureValueMask = 0 := by
    cases auto <;> decide
  have hmask : featureValueMask.toNat = 2 ^ 12 - 1 := rfl
  have hword : composeWord current requested auto &&& featureValueMask =
      BitVec.ofInt 32 requested &&& featureValueMask := by
    rw [composeWord_and, hcur, hpresence, hon, hauto, BitVec.and_self]
    simp
  rw [valueField, hword, BitVec.toNat_and, hmask, Nat.and_two_pow_sub_one_eq_mod, BitVec.toNat_ofInt]
  omega

theorem auto_composeWord (current : BitVec 32) (requested : ℤ) (auto : Bool) :
    (composeWord current requested auto &&& featureAuto != 0) = auto := by
  have hcur : ~~~(featureOn ||| featureAuto ||| featureValueMask) &&& featureAuto = 0 := by decide
  have hpresence : featurePresence &&& featureAuto = 0 := by decide
  have hon : featureOn &&& featureAuto = 0 := by decide
  have hvalue : featureValueMask &&& featureAuto = 0 := by decide
  rw [composeWord_and, hcur, hpresence, hon, hvalue]
  cases auto with
  | true => simp [featureAuto]
  | false => simp

theorem presence_composeWord (current : BitVec 32) (requested : ℤ) (auto : Bool) :
    composeWord current requested auto &&& featurePresence ≠ 0 := by
  have hbit : (composeWord current requested auto &&& featurePresence).getLsbD 31 = true := by
    rw [composeWord_and]
    simp [featurePresence]
  intro hzero
  rw [hzero] at hbit
  simp at hbit

theorem others_composeWord (current : BitVec 32) (requested : ℤ) (auto : Bool) :
    composeWord current requested auto &&& ~~~ownedFields = current &&& ~~~ownedFields := by
  have hcur : ~~~(featureOn ||| featureAuto ||| featureValueMask) &&& ~~~ownedFields =
      ~~~ownedFields := by decide
  have hpresence : featurePresence &&& ~~~ownedFields = 0 := by decide
  have hon : featureOn &&& ~~~ownedFields = 0 := by decide
  have hvalue : featureValueMask &&& ~~~ownedFields = 0 := by decide
  have hauto : (if auto then featureAuto else 0) &&& ~~~ownedFields = 0 := by
    cases auto <;> decide
  rw [composeWord_and, hcur, hpresence, hon, hvalue, hauto]
  simp

/-- Every access to the register succeeds, and it keeps any word whose value field lies in the
range. -/
structure RegisterPort.KeepsRange {σ : Type} (port : RegisterPort σ) (reg : ℕ)
    (minimum maximum : ℤ) (content : σ → BitVec 32) : Prop where
  read : ∀ s, (port.read reg s).1 = .ok (content s)
  read_keeps : ∀ s, content (port.read reg s).2 = content s
  write : ∀ s w, minimum ≤ valueField w → (valueField w : ℤ) ≤ maximum →
    (port.write reg w s).1 = .ok ()
  write_keeps : ∀ s w, minimum ≤ valueField w → (valueField w : ℤ) ≤ maximum →
    content (port.write reg w s).2 = w

section Set
variable {σ : Type} {port : RegisterPort σ} {features : Fin imagerFeatureCount → ImagerFeature}
  {request : PropertyRequest} {i : Fin imagerFeatureCount} {content : σ → BitVec 32}

/-- A request for a control that is there, with room for its value. -/
structure Finds (features : Fin imagerFeatureCount → ImagerFeature) (request : PropertyRequest)
    (i : Fin imagerFeatureCount) : Prop where
  found : findFeature request.set request.id = some i
  present : (features i).present = true
  room : videoProcAmpBytes ≤ request.outputSize

theorem Finds.filter (h : Finds features request i) :
    (findFeature request.set request.id).filter (fun i => (features i).present) = some i := by
  rw [h.found]
  simp [h.present]

def setWord (feature : ImagerFeature) (current : BitVec 32) (value : ℤ) (flags : BitVec 32) :
    BitVec 32 :=
  composeWord current (clampLong feature.minimum feature.maximum value)
    (flags &&& flagsAuto != 0 && feature.autoSupported)

theorem valueField_setWord {feature : ImagerFeature} (hranged : feature.Ranged)
    (hpresent : feature.present = true) (current : BitVec 32) (value : ℤ) (flags : BitVec 32) :
    (valueField (setWord feature current value flags) : ℤ) =
      clampLong feature.minimum feature.maximum value := by
  obtain ⟨hmin, hlt, hmax, -⟩ := hranged hpresent
  obtain ⟨hlow, hhigh⟩ := clampLong_mem hlt.le value
  exact valueField_composeWord _ (by omega) (by omega) _

theorem imagerSetProperty_eq (h : Finds features request i) (value : ℤ) (flags : BitVec 32)
    {s t : σ} {current : BitVec 32}
    (hread : port.read (featureMap.get i).valueRegister s = (.ok current, t)) :
    imagerSetProperty port features request value flags s =
      port.write (featureMap.get i).valueRegister (setWord (features i) current value flags) t := by
  have hattempt : (port.read (featureMap.get i).valueRegister).attempt s = (.ok (.ok current), t) := by
    rw [Routine.attempt, hread]
  unfold imagerSetProperty
  rw [h.filter]
  simp only
  rw [if_neg (Nat.not_lt.mpr h.room), Routine.bind_ok hattempt]
  rfl

theorem imagerGetProperty_eq (h : Finds features request i) {s t : σ} {word : BitVec 32}
    (hread : port.read (featureMap.get i).valueRegister s = (.ok word, t)) :
    imagerGetProperty port features request s =
      (.ok { value := valueField word
             flags := if word &&& featureAuto != 0 then flagsAuto else flagsManual
             capabilities :=
               if (features i).autoSupported then flagsManual ||| flagsAuto else flagsManual }, t) := by
  unfold imagerGetProperty
  rw [h.filter]
  simp only
  rw [if_neg (Nat.not_lt.mpr h.room), Routine.bind_ok hread]
  rfl

/-- The GET after a SET returns the clamped value and the mode that took effect, and the fields
that SET does not own are as they were. -/
theorem set_then_get (h : Finds features request i) (hranged : (features i).Ranged)
    (hport : port.KeepsRange (featureMap.get i).valueRegister (features i).minimum
      (features i).maximum content) (value : ℤ) (flags : BitVec 32) (s : σ) :
    let r := imagerSetProperty port features request value flags s
    r.1 = .ok () ∧
    content r.2 &&& ~~~ownedFields = content s &&& ~~~ownedFields ∧
    ∃ got, (imagerGetProperty port features request r.2).1 = .ok got ∧
      got.value = clampLong (features i).minimum (features i).maximum value ∧
      got.flags = if flags &&& flagsAuto != 0 && (features i).autoSupported then flagsAuto
        else flagsManual := by
  intro r
  set reg := (featureMap.get i).valueRegister
  set word := setWord (features i) (content s) value flags with hword
  have hvalue := valueField_setWord hranged h.present (content s) value flags
  obtain ⟨-, hlt, -⟩ := hranged h.present
  obtain ⟨hlow, hhigh⟩ := clampLong_mem hlt.le value
  rw [← hvalue] at hlow hhigh
  -- the write puts a value in range, so the register keeps the word as it is
  have hset : r = port.write reg word (port.read reg s).2 :=
    imagerSetProperty_eq h value flags (Prod.ext (hport.read s) rfl)
  have hkept : content r.2 = word := by
    rw [hset]
    exact hport.write_keeps _ _ hlow hhigh
  refine ⟨?_, ?_, ?_⟩
  · rw [hset]
    exact hport.write _ _ hlow hhigh
  · rw [hkept]
    exact others_composeWord _ _ _
  · have hget := imagerGetProperty_eq h (Prod.ext (hport.read r.2) rfl :
      port.read reg r.2 = (.ok (content r.2), (port.read reg r.2).2))
    rw [hkept] at hget
    refine ⟨_, congrArg Prod.fst hget, hvalue, ?_⟩
    rw [hword, setWord, auto_composeWord]

end Set
end Dcam
end Photonic
