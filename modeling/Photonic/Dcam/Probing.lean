import Mathlib.Logic.Function.Basic
import Photonic.Dcam.Features

namespace Photonic
namespace Dcam

structure RegisterWrite where
  register : ℕ
  offered : BitVec 32
  kept : Option (BitVec 32)
  deriving DecidableEq, Repr

structure ProbedCamera where
  content : ℕ → BitVec 32
  /-- How many accesses there were. -/
  clock : ℕ
  writes : List RegisterWrite

/-- What becomes of the accesses: the status of one that fails, or what a write keeps. -/
abbrev Outcomes := ℕ → Except NtStatus (BitVec 32 → BitVec 32)

def keepWord (content : ℕ → BitVec 32) (w : RegisterWrite) : ℕ → BitVec 32 :=
  match w.kept with
  | none => content
  | some word => Function.update content w.register word

namespace ProbedCamera

def tick (s : ProbedCamera) : ProbedCamera := { s with clock := s.clock + 1 }

def take (s : ProbedCamera) (w : RegisterWrite) : ProbedCamera :=
  ⟨keepWord s.content w, s.clock + 1, s.writes ++ [w]⟩

def port (outcomes : Outcomes) : RegisterPort ProbedCamera where
  read offset := fun s => ((outcomes s.clock).map fun _ => s.content offset, s.tick)
  write offset word := fun s =>
    ((outcomes s.clock).map fun _ => (),
      s.take ⟨offset, word, (outcomes s.clock).toOption.map fun keep => keep word⟩)

def After (ws : List RegisterWrite) (s t : ProbedCamera) : Prop :=
  t.writes = s.writes ++ ws ∧ t.content = ws.foldl keepWord s.content

theorem After.refl (s : ProbedCamera) : After [] s s := ⟨(List.append_nil _).symm, rfl⟩

theorem After.trans {ws vs : List RegisterWrite} {s t u : ProbedCamera} (h : After ws s t)
    (h' : After vs t u) : After (ws ++ vs) s u := by
  refine ⟨?_, ?_⟩
  · rw [h'.1, h.1, List.append_assoc]
  · rw [h'.2, h.2, List.foldl_append]

theorem after_tick (s : ProbedCamera) : After [] s s.tick := ⟨(List.append_nil _).symm, rfl⟩

theorem after_take (s : ProbedCamera) (w : RegisterWrite) : After [w] s (s.take w) := ⟨rfl, rfl⟩

end ProbedCamera

open ProbedCamera

theorem keepWord_self {w : RegisterWrite} {reg : ℕ} (h : w.register = reg)
    (content : ℕ → BitVec 32) : keepWord content w reg = w.kept.getD (content reg) := by
  cases hk : w.kept with
  | none => simp [keepWord, hk]
  | some word => simp [keepWord, hk, h]

theorem keepWord_of_ne {w : RegisterWrite} {reg : ℕ} (h : w.register ≠ reg)
    (content : ℕ → BitVec 32) : keepWord content w reg = content reg := by
  cases hk : w.kept with
  | none => simp [keepWord, hk]
  | some word => simp [keepWord, hk, Function.update_of_ne (Ne.symm h)]

theorem foldl_keepWord_filter (ws : List RegisterWrite) (content : ℕ → BitVec 32) (reg : ℕ) :
    ws.foldl keepWord content reg =
      (ws.filter fun w => w.register = reg).foldl keepWord content reg := by
  have key : ∀ ws : List RegisterWrite, ∀ c d : ℕ → BitVec 32, c reg = d reg →
      ws.foldl keepWord c reg = (ws.filter fun w => w.register = reg).foldl keepWord d reg := by
    intro ws
    induction ws with
    | nil => exact fun c d h => h
    | cons w ws ih =>
      intro c d h
      by_cases hw : w.register = reg
      · simp only [List.filter_cons, hw, decide_true, if_true, List.foldl_cons]
        exact ih _ _ (by rw [keepWord_self hw, keepWord_self hw, h])
      · simp only [List.filter_cons, hw, decide_false, List.foldl_cons]
        exact ih _ _ ((keepWord_of_ne hw c).trans h)
  exact key ws content content rfl

/-- The writes of one discovery, to a register found with `word`: none, a refused full-scale
word, or both probes and the word itself. -/
def ProbeWrites (reg : ℕ) (word : BitVec 32) (ws : List RegisterWrite) : Prop :=
  ws = [] ∨ ws = [⟨reg, fullScaleWord, none⟩] ∨
    ∃ full auto back, ws = [⟨reg, fullScaleWord, some full⟩, ⟨reg, autoProbeWord word, auto⟩,
      ⟨reg, word, back⟩]

/-- The last write to the register is kept as it was offered, or none was kept at all. -/
def Restores (reg : ℕ) (ws : List RegisterWrite) : Prop :=
  (∀ w ∈ ws, w.register = reg → w.kept = none) ∨
    ∃ w, (ws.filter fun w => w.register = reg).getLast? = some w ∧ w.kept = some w.offered

theorem ProbeWrites.register {reg : ℕ} {word : BitVec 32} {ws : List RegisterWrite}
    (h : ProbeWrites reg word ws) : ∀ w ∈ ws, w.register = reg := by
  intro w hw
  obtain rfl | rfl | ⟨full, auto, back, rfl⟩ := h
  · cases hw
  · obtain rfl := List.mem_singleton.mp hw
    rfl
  · simp only [List.mem_cons, List.not_mem_nil, or_false] at hw
    obtain rfl | rfl | rfl := hw <;> rfl

theorem ProbeWrites.content {reg : ℕ} {content : ℕ → BitVec 32} {ws : List RegisterWrite}
    (h : ProbeWrites reg (content reg) ws) (hr : Restores reg ws) :
    ws.foldl keepWord content reg = content reg := by
  obtain rfl | rfl | ⟨full, auto, back, rfl⟩ := h
  · rfl
  · rfl
  · obtain hnone | ⟨w, hlast, hkept⟩ := hr
    · have hfull := hnone ⟨reg, fullScaleWord, some full⟩ (by simp) rfl
      cases hfull
    · simp only [List.filter_cons, decide_true, if_true, List.filter_nil] at hlast
      obtain rfl := Option.some.inj hlast
      have hback : back = some (content reg) := hkept
      simp [keepWord, hback]

section Discovery
variable (outcomes : Outcomes)

theorem attempt_read (offset : ℕ) (s : ProbedCamera) :
    ((ProbedCamera.port outcomes).read offset).attempt s =
      (.ok ((outcomes s.clock).map fun _ => s.content offset), s.tick) := rfl

theorem attempt_write (offset : ℕ) (word : BitVec 32) (s : ProbedCamera) :
    ((ProbedCamera.port outcomes).write offset word).attempt s =
      (.ok ((outcomes s.clock).map fun _ => ()),
        s.take ⟨offset, word, (outcomes s.clock).toOption.map fun keep => keep word⟩) := rfl

theorem probeAuto_after (map : FeatureMap) (word : BitVec 32) (s : ProbedCamera) :
    ∃ stuck auto t, probeAuto (ProbedCamera.port outcomes) map word s = (.ok stuck, t) ∧
      After [⟨map.valueRegister, autoProbeWord word, auto⟩] s t := by
  unfold probeAuto
  rw [Routine.bind_ok (attempt_write ..)]
  cases outcomes s.clock with
  | error e => exact ⟨_, _, _, rfl, after_take ..⟩
  | ok keep =>
    simp only [Except.map, Except.toOption, Option.map_some]
    rw [Routine.bind_ok (attempt_read ..)]
    have hafter := (after_take s ⟨map.valueRegister, autoProbeWord word,
      some (keep (autoProbeWord word))⟩).trans (after_tick _)
    generalize outcomes _ = outcome
    cases outcome with
    | error e => exact ⟨_, _, _, rfl, hafter⟩
    | ok probe => exact ⟨_, _, _, rfl, hafter⟩

theorem discoverImagerFeature_after (map : FeatureMap) (s : ProbedCamera) :
    ∃ feature t ws, discoverImagerFeature (ProbedCamera.port outcomes) map s = (.ok feature, t) ∧
      After ws s t ∧ ProbeWrites map.valueRegister (s.content map.valueRegister) ws := by
  unfold discoverImagerFeature
  rw [Routine.bind_ok (attempt_read ..)]
  have hfirst := after_tick s
  cases outcomes s.clock with
  | error e => exact ⟨_, _, _, rfl, hfirst, .inl rfl⟩
  | ok keep =>
    simp only [Except.map]
    by_cases hpresent : s.content map.valueRegister &&& featurePresence = 0
    · rw [if_pos hpresent]
      exact ⟨_, _, _, rfl, hfirst, .inl rfl⟩
    · rw [if_neg hpresent]
      rw [Routine.bind_ok (attempt_read ..)]
      have hsecond := hfirst.trans (after_tick s.tick)
      generalize Option.filter _ _ = inquiry
      cases inquiry with
      | some inquiry => exact ⟨_, _, _, rfl, hsecond, .inl rfl⟩
      | none =>
        simp only
        rw [Routine.bind_ok (attempt_write ..)]
        cases outcomes s.tick.tick.clock with
        | error e =>
          exact ⟨_, _, _, rfl, hsecond.trans (after_take ..), .inr (.inl rfl)⟩
        | ok full =>
          simp only [Except.map, Except.toOption, Option.map_some]
          rw [Routine.bind_ok (attempt_read ..)]
          have hfull := (hsecond.trans (after_take s.tick.tick ⟨map.valueRegister, fullScaleWord,
            some (full fullScaleWord)⟩)).trans (after_tick _)
          obtain ⟨stuck, auto, t, hprobe, hauto⟩ := probeAuto_after outcomes map
            (s.content map.valueRegister) (ProbedCamera.tick (s.tick.tick.take
              ⟨map.valueRegister, fullScaleWord, some (full fullScaleWord)⟩))
          rw [Routine.bind_ok hprobe, Routine.bind_ok (attempt_write ..)]
          have hback := (hfull.trans hauto).trans (after_take t ⟨map.valueRegister,
            s.content map.valueRegister, (outcomes t.clock).toOption.map fun keep =>
              keep (s.content map.valueRegister)⟩)
          generalize probedMaximum _ = maximum
          by_cases hmax : maximum ≤ 0
          · rw [if_pos hmax]
            exact ⟨_, _, _, rfl, hback, .inr (.inr ⟨_, _, _, rfl⟩)⟩
          · rw [if_neg hmax]
            exact ⟨_, _, _, rfl, hback, .inr (.inr ⟨_, _, _, rfl⟩)⟩

theorem discoverEach_after {maps : List FeatureMap}
    (hnodup : (maps.map FeatureMap.valueRegister).Nodup) (s : ProbedCamera) :
    ∃ features t ws, discoverEach (ProbedCamera.port outcomes) maps s = (.ok features, t) ∧
      After ws s t ∧ (∀ w ∈ ws, w.register ∈ maps.map FeatureMap.valueRegister) ∧
      ∀ m ∈ maps, ProbeWrites m.valueRegister (s.content m.valueRegister)
        (ws.filter fun w => w.register = m.valueRegister) := by
  induction maps generalizing s with
  | nil => exact ⟨[], s, [], rfl, .refl s, by simp, by simp⟩
  | cons map maps ih =>
    rw [List.map_cons, List.nodup_cons] at hnodup
    obtain ⟨hmap, hnodup⟩ := hnodup
    obtain ⟨feature, t, ws, hfirst, hafter, hprobe⟩ := discoverImagerFeature_after outcomes map s
    obtain ⟨features, u, vs, hrest, hafter', hregs, hprobes⟩ := ih hnodup t
    have hreg := hprobe.register
    refine ⟨feature :: features, u, ws ++ vs, ?_, hafter.trans hafter', ?_, ?_⟩
    · rw [discoverEach, Routine.bind_ok hfirst, Routine.bind_ok hrest]
      rfl
    · intro w hw
      obtain hw | hw := List.mem_append.mp hw
      · exact List.mem_cons.mpr (.inl (hreg w hw))
      · exact List.mem_cons_of_mem _ (hregs w hw)
    · intro m hm
      rw [List.filter_append]
      obtain rfl | hm := List.mem_cons.mp hm
      · have hws : ws.filter (fun w => w.register = m.valueRegister) = ws :=
          List.filter_eq_self.mpr fun w hw => decide_eq_true (hreg w hw)
        have hvs : vs.filter (fun w => w.register = m.valueRegister) = [] :=
          List.filter_eq_nil_iff.mpr fun w hw hr => hmap (of_decide_eq_true hr ▸ hregs w hw)
        rw [hws, hvs, List.append_nil]
        exact hprobe
      · have hne : m.valueRegister ≠ map.valueRegister := fun he =>
          hmap (he ▸ List.mem_map_of_mem hm)
        have hws : ws.filter (fun w => w.register = m.valueRegister) = [] :=
          List.filter_eq_nil_iff.mpr fun w hw hr => hne ((of_decide_eq_true hr).symm.trans (hreg w hw))
        -- the discovery before left this register alone
        have hcontent : t.content m.valueRegister = s.content m.valueRegister := by
          rw [hafter.2, foldl_keepWord_filter, hws]
          rfl
        rw [hws, List.nil_append, ← hcontent]
        exact hprobes m hm

theorem Restores.filter {reg : ℕ} {ws : List RegisterWrite} (h : Restores reg ws) :
    Restores reg (ws.filter fun w => w.register = reg) := by
  obtain hnone | hlast := h
  · exact .inl fun w hw => hnone w (List.mem_of_mem_filter hw)
  · refine .inr ?_
    simpa [List.filter_filter] using hlast

theorem discoverEach_content {maps : List FeatureMap}
    (hnodup : (maps.map FeatureMap.valueRegister).Nodup) {s : ProbedCamera} (hs : s.writes = [])
    {m : FeatureMap} (hm : m ∈ maps) :
    let t := (discoverEach (ProbedCamera.port outcomes) maps s).2
    Restores m.valueRegister t.writes → t.content m.valueRegister = s.content m.valueRegister := by
  intro t hr
  obtain ⟨features, u, ws, hrun, hafter, -, hprobes⟩ := discoverEach_after outcomes hnodup s
  have ht : t = u := congrArg Prod.snd hrun
  rw [ht, hafter.1, hs, List.nil_append] at hr
  rw [ht, hafter.2, foldl_keepWord_filter]
  exact (hprobes m hm).content hr.filter

end Discovery
end Dcam
end Photonic
