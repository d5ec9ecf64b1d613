import Photonic.Lib.Machine
import Photonic.Dcam.Probing

namespace Photonic
namespace Fake
open Dcam

def dcamNumFeatures : ℕ := 13

/-- `dcam_features`: the inquiry registers, in `frame_meta_feature` order. -/
def dcamFeatures : Vector ℕ dcamNumFeatures :=
  #v[0x500, 0x508, 0x50c, 0x510, 0x514, 0x518, 0x51c, 0x520, 0x524, 0x528, 0x580, 0x584, 0x588]

/-- `dcam_feature_range_t` -/
structure FeatureRange where
  min : BitVec 32
  max : BitVec 32
  default : BitVec 32

/-- `FRAME_META_FEATURE_RANGES` -/
def dcamFeatureRanges : Vector FeatureRange dcamNumFeatures :=
  #v[⟨0, 255, 128⟩, ⟨0, 7, 4⟩, ⟨0, 1023, 512⟩, ⟨16, 240, 128⟩, ⟨0, 511, 256⟩, ⟨1, 3, 2⟩,
    ⟨0, 4095, 2048⟩, ⟨0, 383, 192⟩, ⟨0, 100, 50⟩, ⟨50, 1000, 525⟩, ⟨0, 63, 32⟩, ⟨10, 170, 90⟩,
    ⟨0, 90, 45⟩]

def featureByInq (off : ℕ) : Option (Fin dcamNumFeatures) :=
  (List.finRange dcamNumFeatures).find? fun i => dcamFeatures.get i == off

def featureByValue (off : ℕ) : Option (Fin dcamNumFeatures) :=
  (List.finRange dcamNumFeatures).find? fun i => dcamFeatures.get i + featureValueOffset == off

def featureInqBits : BitVec 32 := 0x8b000000
def featureValueBits : BitVec 32 := 0x82000000

def featureInqWord (i : Fin dcamNumFeatures) : BitVec 32 :=
  let r := dcamFeatureRanges.get i
  featureInqBits ||| (r.min &&& 0xfff) <<< 12 ||| r.max &&& 0xfff

def featureDefaultWord (i : Fin dcamNumFeatures) : BitVec 32 :=
  featureValueBits ||| (dcamFeatureRanges.get i).default &&& 0xfff

def featureClampWord (i : Fin dcamNumFeatures) (word : BitVec 32) : BitVec 32 :=
  let r := dcamFeatureRanges.get i
  let value := word &&& 0xfff
  let value := if value < r.min then r.min else value
  let value := if r.max < value then r.max else value
  word &&& ~~~0xfff ||| value

/-- `feat_value` -/
abbrev FeatureFile := Fin dcamNumFeatures → BitVec 32

/-- The bit of `feat_present`. -/
def Implemented (present : BitVec 32) (i : Fin dcamNumFeatures) : Prop := present.getLsbD i = true

instance (present : BitVec 32) (i : Fin dcamNumFeatures) : Decidable (Implemented present i) :=
  inferInstanceAs (Decidable (_ = true))

/-- What `dcam_create` leaves. -/
def FeatureFile.powerUp (present : BitVec 32) : FeatureFile := fun i =>
  if Implemented present i then featureDefaultWord i else 0

/-- `dcam_on_register_read` at a feature's registers. -/
def featureRead (present : BitVec 32) (values : FeatureFile) (off : ℕ) : BitVec 32 :=
  match featureByInq off with
  | some i => if Implemented present i then featureInqWord i else 0
  | none =>
    match featureByValue off with
    | some i => values i
    | none => 0

/-- `dcam_on_register_write` at a feature's value register; `none` is `RCODE_DATA_ERROR`. What
is no register of this part is ignored. -/
def featureWrite (present : BitVec 32) (values : FeatureFile) (off : ℕ) (logical : BitVec 32) :
    Option FeatureFile :=
  match featureByValue off with
  | none => some values
  | some i =>
    if Implemented present i then some (Function.update values i (featureClampWord i logical))
    else none

def featurePort (present : BitVec 32) : RegisterPort FeatureFile where
  read off := fun values => (.ok (featureRead present values off), values)
  write off logical := fun values =>
    match featureWrite present values off logical with
    | some values => (.ok (), values)
    | none => (.error Dcam.statusDeviceDataError, values)

/-- The emulated camera's number for a control of the driver's map. -/
def emulatedIndex (d : Fin imagerFeatureCount) : Fin dcamNumFeatures :=
  (featureByInq (featureMap.get d).inquiryRegister).getD ⟨0, by decide⟩

theorem featureByInq_inquiry (d : Fin imagerFeatureCount) :
    featureByInq (featureMap.get d).inquiryRegister = some (emulatedIndex d) := by
  revert d
  decide

theorem featureByInq_value (d : Fin imagerFeatureCount) :
    featureByInq (featureMap.get d).valueRegister = none := by
  revert d
  decide

theorem featureByValue_value (d : Fin imagerFeatureCount) :
    featureByValue (featureMap.get d).valueRegister = some (emulatedIndex d) := by
  revert d
  decide

theorem inqWord_usable (i : Fin dcamNumFeatures) :
    usableInquiry (featureInqWord i) = true ∧
      featinqMin (featureInqWord i) = (dcamFeatureRanges.get i).min.toNat ∧
      featinqMax (featureInqWord i) = (dcamFeatureRanges.get i).max.toNat ∧
      (featureInqWord i &&& featinqAuto != 0) = true := by
  revert i
  decide

section Port
variable {present : BitVec 32} (d : Fin imagerFeatureCount) (values : FeatureFile)

theorem read_value : (featurePort present).read (featureMap.get d).valueRegister values =
    (.ok (values (emulatedIndex d)), values) := by
  simp only [featurePort, featureRead, featureByInq_value, featureByValue_value]

theorem read_inquiry : (featurePort present).read (featureMap.get d).inquiryRegister values =
    (.ok (if Implemented present (emulatedIndex d) then featureInqWord (emulatedIndex d) else 0),
      values) := by
  simp only [featurePort, featureRead, featureByInq_inquiry]

theorem write_value (h : Implemented present (emulatedIndex d)) (word : BitVec 32) :
    (featurePort present).write (featureMap.get d).valueRegister word values =
      (.ok (), Function.update values (emulatedIndex d)
        (featureClampWord (emulatedIndex d) word)) := by
  simp only [featurePort, featureWrite, featureByValue_value, if_pos h]

end Port

theorem featureClampWord_of_mem {i : Fin dcamNumFeatures} {word : BitVec 32}
    (hmin : (dcamFeatureRanges.get i).min.toNat ≤ valueField word)
    (hmax : valueField word ≤ (dcamFeatureRanges.get i).max.toNat) :
    featureClampWord i word = word := by
  have hfield : (word &&& 0xfff).toNat = valueField word := rfl
  have hlow : ¬(word &&& 0xfff) < (dcamFeatureRanges.get i).min := by
    rw [BitVec.lt_def, hfield]
    omega
  have hhigh : ¬(dcamFeatureRanges.get i).max < (word &&& 0xfff) := by
    rw [BitVec.lt_def, hfield]
    omega
  simp only [featureClampWord, if_neg hlow, if_neg hhigh]
  rw [← BitVec.and_or_distrib_left]
  have hall : (~~~0xfff ||| 0xfff : BitVec 32) = BitVec.allOnes 32 := by decide
  rw [hall, BitVec.and_allOnes]

/-- What bring-up found and what the camera holds. -/
structure Driven where
  values : FeatureFile
  features : Fin imagerFeatureCount → ImagerFeature

namespace Driven
variable (present : BitVec 32)

/-- `PhotonicBuildDevicePropertySets`, as far as the controls go. -/
def build (s : Driven) : Driven :=
  let r := discoverEach (featurePort present) featureMap.toList s.values
  match r.1 with
  | .ok features => ⟨r.2, fun d => features.getD d .zero⟩
  | .error _ => { s with values := r.2 }

inductive Act
  | build
  | get (request : PropertyRequest)
  | set (request : PropertyRequest) (value : ℤ) (flags : BitVec 32)

def step (s : Driven) : Act → Driven
  | .build => s.build present
  | .get request =>
    { s with values := (imagerGetProperty (featurePort present) s.features request s.values).2 }
  | .set request value flags =>
    { s with values :=
        (imagerSetProperty (featurePort present) s.features request value flags s.values).2 }

/-- From power-up, before any discovery. -/
def machine : Machine Driven Act where
  init := ⟨.powerUp present, fun _ => .zero⟩
  step s a := some (s.step present a)

end Driven

def emulatedFeature (present : BitVec 32) (values : FeatureFile) (d : Fin imagerFeatureCount) :
    ImagerFeature :=
  let i := emulatedIndex d
  if Implemented present i then
    foundFeature (values i) (dcamFeatureRanges.get i).min.toNat (dcamFeatureRanges.get i).max.toNat true
  else .zero

def Shown (present : BitVec 32) (values : FeatureFile) : Prop :=
  ∀ i, if Implemented present i then values i &&& featurePresence ≠ 0 else values i = 0

section Discovery
variable {present : BitVec 32} {values : FeatureFile}

theorem shown_powerUp : Shown present (.powerUp present) := by
  have hdefault : ∀ i : Fin dcamNumFeatures, featureDefaultWord i &&& featurePresence ≠ 0 := by
    decide
  intro i
  split
  · next h =>
    rw [FeatureFile.powerUp, if_pos h]
    exact hdefault i
  · next h => rw [FeatureFile.powerUp, if_neg h]

theorem discover_emulated (h : Shown present values) (d : Fin imagerFeatureCount) :
    discoverImagerFeature (featurePort present) (featureMap.get d) values =
      (.ok (emulatedFeature present values d), values) := by
  have hvalue : ((featurePort present).read (featureMap.get d).valueRegister).attempt values =
      (.ok (.ok (values (emulatedIndex d))), values) := by
    rw [Routine.attempt, read_value]
  have hshown := h (emulatedIndex d)
  unfold discoverImagerFeature
  rw [Routine.bind_ok hvalue]
  by_cases himpl : Implemented present (emulatedIndex d)
  · have hinquiry : ((featurePort present).read (featureMap.get d).inquiryRegister).attempt values =
        (.ok (.ok (featureInqWord (emulatedIndex d))), values) := by
      rw [Routine.attempt, read_inquiry, if_pos himpl]
    obtain ⟨husable, hmin, hmax, hauto⟩ := inqWord_usable (emulatedIndex d)
    rw [if_pos himpl] at hshown
    simp only [if_neg hshown]
    rw [Routine.bind_ok hinquiry]
    simp only [Except.toOption, Option.filter_some, husable, if_true, hmin, hmax, hauto,
      emulatedFeature, if_pos himpl]
    rfl
  · rw [if_neg himpl] at hshown
    simp only [hshown, emulatedFeature, if_neg himpl]
    rfl

theorem discoverEach_emulated (h : Shown present values) (ds : List (Fin imagerFeatureCount)) :
    discoverEach (featurePort present) (ds.map featureMap.get) values =
      (.ok (ds.map (emulatedFeature present values)), values) := by
  induction ds with
  | nil => rfl
  | cons d ds ih =>
    rw [List.map_cons, discoverEach, Routine.bind_ok (discover_emulated h d), Routine.bind_ok ih]
    rfl

theorem build_emulated (s : Driven) (h : Shown present s.values) :
    s.build present = ⟨s.values, emulatedFeature present s.values⟩ := by
  have hmap : featureMap.toList = (List.finRange imagerFeatureCount).map featureMap.get := by
    decide
  have hrun := discoverEach_emulated h (List.finRange imagerFeatureCount)
  unfold Driven.build
  rw [hmap, hrun]
  simp only [Driven.mk.injEq, true_and]
  funext d
  simp [List.getD_eq_getElem?_getD]

theorem emulatedFeature_ranged (d : Fin imagerFeatureCount) :
    (emulatedFeature present values d).Ranged := by
  have htable : ∀ i : Fin dcamNumFeatures,
      (dcamFeatureRanges.get i).min.toNat < (dcamFeatureRanges.get i).max.toNat ∧
        (dcamFeatureRanges.get i).max.toNat ≤ 0xFFF := by decide
  obtain ⟨hlt, hmax⟩ := htable (emulatedIndex d)
  unfold emulatedFeature
  simp only
  split
  · exact foundFeature_ranged _ (Int.natCast_nonneg _) (by exact_mod_cast hlt)
      (by exact_mod_cast hmax) _
  · exact nofun

end Discovery

/-- What every sequence of the driver's requests keeps: the camera shows its controls, and a
control the driver holds for present has the camera's range. -/
structure Driven.Sound (present : BitVec 32) (s : Driven) : Prop where
  shown : Shown present s.values
  ranged : ∀ d, (s.features d).Ranged
  range : ∀ d, (s.features d).present = true → Implemented present (emulatedIndex d) ∧
    (s.features d).minimum = (dcamFeatureRanges.get (emulatedIndex d)).min.toNat ∧
    (s.features d).maximum = (dcamFeatureRanges.get (emulatedIndex d)).max.toNat

namespace Driven
variable {present : BitVec 32} {s : Driven} {request : PropertyRequest}
  {d : Fin imagerFeatureCount}

theorem Sound.set (h : s.Sound present) (hfinds : Finds s.features request d) (value : ℤ)
    (flags : BitVec 32) :
    imagerSetProperty (featurePort present) s.features request value flags s.values =
      (.ok (), Function.update s.values (emulatedIndex d)
        (setWord (s.features d) (s.values (emulatedIndex d)) value flags)) := by
  obtain ⟨himpl, hmin, hmax⟩ := h.range d hfinds.present
  have hranged := h.ranged d
  have hvalue := valueField_setWord hranged hfinds.present (s.values (emulatedIndex d)) value flags
  obtain ⟨hlow, hhigh⟩ := clampLong_mem (hranged hfinds.present).2.1.le value
  rw [imagerSetProperty_eq hfinds value flags (read_value d s.values), write_value d _ himpl,
    featureClampWord_of_mem (by omega) (by omega)]

theorem set_refused (hnone : ∀ d, ¬Finds s.features request d) (value : ℤ) (flags : BitVec 32) :
    (imagerSetProperty (featurePort present) s.features request value flags s.values).2 =
      s.values := by
  unfold imagerSetProperty
  cases hfind : (findFeature request.set request.id).filter fun i => (s.features i).present with
  | none => rfl
  | some d =>
    obtain ⟨hfound, hpresent⟩ := Option.filter_eq_some_iff.mp hfind
    have hroom : request.outputSize < videoProcAmpBytes := by
      by_contra hroom
      exact hnone d ⟨hfound, hpresent, Nat.not_lt.mp hroom⟩
    simp only
    rw [if_pos hroom]
    rfl

theorem get_keeps (values : FeatureFile) (features : Fin imagerFeatureCount → ImagerFeature) :
    (imagerGetProperty (featurePort present) features request values).2 = values := by
  unfold imagerGetProperty
  cases (findFeature request.set request.id).filter fun i => (features i).present with
  | none => rfl
  | some d =>
    simp only
    split
    · rfl
    · rw [Routine.bind_ok (read_value d values)]
      rfl

theorem Sound.step (h : s.Sound present) (a : Act) : (s.step present a).Sound present := by
  cases a with
  | build =>
    rw [Driven.step, build_emulated s h.shown]
    refine ⟨h.shown, fun d => emulatedFeature_ranged d, fun d hd => ?_⟩
    by_cases himpl : Implemented present (emulatedIndex d)
    · simp [emulatedFeature, himpl, foundFeature]
    · simp [emulatedFeature, himpl, ImagerFeature.zero] at hd
  | get request =>
    rw [Driven.step, get_keeps]
    exact h
  | set request value flags =>
    by_cases hfinds : ∃ d, Finds s.features request d
    · obtain ⟨d, hfinds⟩ := hfinds
      rw [Driven.step, h.set hfinds]
      refine ⟨fun i => ?_, h.ranged, h.range⟩
      by_cases hi : i = emulatedIndex d
      · subst hi
        rw [if_pos (h.range d hfinds.present).1]
        simp only [Function.update_self]
        exact presence_composeWord _ _ _
      · simpa [Function.update_of_ne hi] using h.shown i
    · rw [Driven.step, set_refused fun d hd => hfinds ⟨d, hd⟩]
      exact h

theorem Reachable.sound (h : (machine present).Reachable s) : s.Sound present := by
  refine h.invariant ⟨shown_powerUp, fun _ => nofun, fun _ => nofun⟩ ?_
  rintro s a s' - hsound - hstep
  obtain rfl := Option.some.inj hstep
  exact hsound.step a

theorem Sound.keepsRange (h : s.Sound present) (hd : (s.features d).present = true) :
    (featurePort present).KeepsRange (featureMap.get d).valueRegister (s.features d).minimum
      (s.features d).maximum fun values => values (emulatedIndex d) := by
  obtain ⟨himpl, hmin, hmax⟩ := h.range d hd
  have hwrite : ∀ (values : FeatureFile) (w : BitVec 32), (s.features d).minimum ≤ valueField w →
      (valueField w : ℤ) ≤ (s.features d).maximum →
      (featurePort present).write (featureMap.get d).valueRegister w values =
        (.ok (), Function.update values (emulatedIndex d) w) := by
    intro values w hlow hhigh
    rw [write_value d values himpl, featureClampWord_of_mem (by omega) (by omega)]
  refine ⟨fun values => ?_, fun values => ?_, fun values w hlow hhigh => ?_,
    fun values w hlow hhigh => ?_⟩
  · rw [read_value]
  · rw [read_value]
  · rw [hwrite values w hlow hhigh]
  · rw [hwrite values w hlow hhigh]
    exact Function.update_self ..

theorem Sound.build (h : s.Sound present) (himpl : Implemented present (emulatedIndex d)) :
    ((s.build present).features d).present = true ∧
      ((s.build present).features d).minimum =
        (dcamFeatureRanges.get (emulatedIndex d)).min.toNat ∧
      ((s.build present).features d).maximum =
        (dcamFeatureRanges.get (emulatedIndex d)).max.toNat := by
  rw [build_emulated s h.shown]
  simp [emulatedFeature, himpl, foundFeature]

end Driven

/-- The ranges that discovery reports; the registers it probed; a SET and the GET after it; and
the driver on the emulated camera, after any requests. -/
theorem imager_features :
    (∀ (σ : Type) (port : RegisterPort σ) (map : FeatureMap) (s : σ) (f : ImagerFeature),
      (discoverImagerFeature port map s).1 = .ok f → f.Ranged) ∧
    (∀ (outcomes : Outcomes) (s : ProbedCamera), s.writes = [] → ∀ m ∈ featureMap.toList,
      let t := (discoverEach (ProbedCamera.port outcomes) featureMap.toList s).2
      Restores m.valueRegister t.writes →
        t.content m.valueRegister = s.content m.valueRegister) ∧
    (∀ (σ : Type) (port : RegisterPort σ) (features : Fin imagerFeatureCount → ImagerFeature)
      (request : PropertyRequest) (i : Fin imagerFeatureCount) (content : σ → BitVec 32),
      Finds features request i → (features i).Ranged →
      port.KeepsRange (featureMap.get i).valueRegister (features i).minimum (features i).maximum
        content → ∀ (value : ℤ) (flags : BitVec 32) (s : σ),
      let r := imagerSetProperty port features request value flags s
      r.1 = .ok () ∧
      content r.2 &&& ~~~ownedFields = content s &&& ~~~ownedFields ∧
      ∃ got, (imagerGetProperty port features request r.2).1 = .ok got ∧
        got.value = clampLong (features i).minimum (features i).maximum value ∧
        got.flags = if flags &&& flagsAuto != 0 && (features i).autoSupported then flagsAuto
          else flagsManual) ∧
    (∀ (present : BitVec 32) (s : Driven), (Driven.machine present).Reachable s →
      (∀ d, Implemented present (emulatedIndex d) →
        ((s.build present).features d).present = true ∧
        ((s.build present).features d).minimum =
          (dcamFeatureRanges.get (emulatedIndex d)).min.toNat ∧
        ((s.build present).features d).maximum =
          (dcamFeatureRanges.get (emulatedIndex d)).max.toNat) ∧
      ∀ request d, Finds s.features request d → ∀ (value : ℤ) (flags : BitVec 32),
        let r := imagerSetProperty (featurePort present) s.features request value flags s.values
        r.1 = .ok () ∧ (valueField (r.2 (emulatedIndex d)) : ℤ) =
          clampLong (s.features d).minimum (s.features d).maximum value) := by
  refine ⟨?_, ?_, ?_, ?_⟩
  · intro σ port map s f hf
    exact (discoverImagerFeature_ranged port map s trivial).2 f hf
  · intro outcomes s hs m hm
    exact discoverEach_content outcomes (by decide) hs hm
  · intro σ port features request i content hfinds hranged hport
    exact set_then_get hfinds hranged hport
  · intro present s hs
    have hsound := Driven.Reachable.sound hs
    refine ⟨fun d himpl => hsound.build himpl, fun request d hfinds value flags => ?_⟩
    rw [hsound.set hfinds]
    refine ⟨rfl, ?_⟩
    simp only [Function.update_self]
    exact valueField_setWord (hsound.ranged d) hfinds.present _ _ _

def fourBitCamera : ProbedCamera := ⟨fun r => if r = 0x800 then 0x82000007 else 0, 0, []⟩

def fourBits : Outcomes := fun _ => .ok fun word => word &&& ~~~0xff0

def brightnessRequest : PropertyRequest := ⟨.videoProcAmp, 0, 40⟩

/-- The emulated camera with every control, after discovery. -/
def discovered : Driven := Driven.build 0x1FFF ((Driven.machine 0x1FFF).init)

theorem finds_brightness : Finds discovered.features brightnessRequest ⟨0, by decide⟩ := by
  have hsound := Driven.Reachable.sound (Machine.Reaches.init (M := Driven.machine 0x1FFF))
  exact ⟨by decide, (hsound.build (d := ⟨0, by decide⟩) (by decide)).1, by decide⟩

theorem imager_features_brightness :
    ((discoverEach (ProbedCamera.port fourBits) featureMap.toList fourBitCamera).2.content 0x800 =
      0x82000007) ∧
    (∃ got, (imagerGetProperty (featurePort 0x1FFF) discovered.features brightnessRequest
        (imagerSetProperty (featurePort 0x1FFF) discovered.features brightnessRequest 300 1
          discovered.values).2).1 = .ok got ∧ got.flags = flagsAuto) ∧
    (imagerSetProperty (featurePort 0x1FFF) discovered.features brightnessRequest 300 1
      discovered.values).1 = .ok () := by
  obtain ⟨-, hrestore, hset, hdriven⟩ := imager_features
  have hreached : (Driven.machine 0x1FFF).Reachable discovered :=
    (Machine.Reaches.init (M := Driven.machine 0x1FFF)).step (a := .build) trivial rfl
  have hsound := Driven.Reachable.sound hreached
  refine ⟨?_, ?_, ?_⟩
  · have hmem : (⟨.videoProcAmp, 0, 0x500⟩ : FeatureMap) ∈ featureMap.toList := by decide
    have hreg : (⟨.videoProcAmp, 0, 0x500⟩ : FeatureMap).valueRegister = 0x800 := rfl
    have hbright := hrestore fourBits fourBitCamera rfl _ hmem
    rw [hreg] at hbright
    exact hbright (.inr ⟨⟨0x800, 0x82000007, some 0x82000007⟩, by decide +kernel, rfl⟩)
  · obtain ⟨-, -, got, hgot, -, hflags⟩ := hset _ _ _ brightnessRequest _ _ finds_brightness
      (hsound.ranged _) (hsound.keepsRange finds_brightness.present) 300 1 discovered.values
    have hauto : (discovered.features ⟨0, by decide⟩).autoSupported = true := by decide +kernel
    rw [hauto] at hflags
    exact ⟨got, hgot, hflags⟩
  · exact ((hdriven 0x1FFF discovered hreached).2 _ _ finds_brightness 300 1).1

end Fake
end Photonic
