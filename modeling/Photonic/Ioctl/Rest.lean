import Photonic.Ioctl.Phases

namespace Photonic
namespace IoctlDevice

namespace Phased
variable {s s' : IoctlDevice}

/-- A step that leaves the device alone. -/
theorem turn (h : s.Phased) (hd : s'.dev = s.dev) (hp : s'.pinOpen = s.pinOpen)
    (hs : s'.slot = none ↔ s.slot = none)
    (hpump : s'.pc.pumping = false → s.pc.pumping = true → Unpumped s.dev.eng.pool)
    (ho : s'.pc.stops = true ∨ s'.pc.maps = true → s.slot ≠ none)
    (ha : s'.pc.afterStop = true → s.pc.afterStop = true)
    (hm : s'.pc.maps = true → s.pc.maps = true)
    (hv : ∀ c, s'.slot = some c → c.ring.mappedFrameCount = 0 → Vacant s.dev.eng) : s'.Phased where
  sound := hd ▸ h.sound
  alive hn := hd ▸ h.alive fun hs' => hn (hs.mpr hs')
  pin hp' := hs.mpr (h.pin (hp ▸ hp'))
  pumps hn hpc := by
    rw [hd]
    cases hpump' : s.pc.pumping with
    | true => exact hpump hpc hpump'
    | false => exact h.pumps (fun hs' => hn (hs.mpr hs')) hpump'
  owned hpc hs' := ho hpc (hs.mp hs')
  stopped hpc := hd ▸ h.stopped (ha hpc)
  mapping hpc := hd ▸ h.mapping (hm hpc)
  vacant c hc hz := hd ▸ hv c hc hz

theorem goto (h : s.Phased) {pc : VerbPc} (hpump : s.pc.pumping = true → Unpumped s.dev.eng.pool)
    (ho : pc.stops = true ∨ pc.maps = true → s.slot ≠ none)
    (ha : pc.afterStop = true → s.pc.afterStop = true) (hm : pc.maps = true → s.pc.maps = true) :
    (s.goto pc).Phased :=
  h.turn rfl rfl Iff.rfl (fun _ => hpump) ho ha hm fun c hc hz => h.vacant c hc hz

theorem setSlot (h : s.Phased) {c c' : Slot} {pc : VerbPc} (hc : s.slot = some c)
    (hpump : s.pc.pumping = false) (ha : pc.afterStop = true → s.pc.afterStop = true)
    (hm : pc.maps = true → s.pc.maps = true)
    (hz : c'.ring.mappedFrameCount = 0 → c.ring.mappedFrameCount = 0 ∨ Vacant s.dev.eng) :
    (s.setSlot c' pc).Phased := by
  refine h.turn rfl rfl (by simp [hc]) ?_ (fun _ => by rw [hc]; nofun) ha hm ?_
  · intro _ hp
    rw [hpump] at hp
    cases hp
  · intro c'' hc'' hz'
    cases hc''
    exact (hz hz').elim (h.vacant c hc) id

theorem call (h : s.Phased) {a : Device.Act} {dev : Device} {pc : VerbPc}
    (hd : s.dev.step a = some dev) (hl : a.keepsLife = true) (hn : s.dev.NoLateClaim a)
    (hrun : a.isRun = false) (hpump : s.pc.pumping = false)
    (hpc : a = .callPump → pc.pumping = true)
    (ho : pc.stops = true ∨ pc.maps = true → s.slot ≠ none)
    (ha : pc.afterStop = true → dev.Stopping)
    (hm : pc.maps = true → dev.ctl = .held ∧ Bare dev.eng) : { s with dev, pc }.Phased := by
  have hx := Device.Steps.of_step hd
  refine ⟨h.sound.step hn hd, fun hs => (hx.life hl).trans (h.alive hs), h.pin, ?_, ho, ha, hm, ?_⟩
  · intro hs hp
    refine (h.pumps hs hpump).steps ?_ hx
    rintro rfl
    rw [hpc rfl] at hp
    cases hp
  · exact fun c hc hz => (h.vacant c hc hz).steps h.sound.engine (Device.calls_of_step hd hrun).1 hx

theorem slotDev (h : s.Phased) {a : Device.Act} {dev : Device} {slot : Option Slot}
    (hpin : s.pinOpen = false) (ha : a.shared = true) (hn : s.dev.NoLateClaim a)
    (hf : s.dev.feed Slot.callbacks s.slot a = some (dev, slot)) : { s with dev, slot }.Phased := by
  have hd := Device.feed_step hf
  have hx := Device.Steps.of_step hd
  have hmap := (Device.Feeds.of_feed hf).mapped
  have hnone : slot = none ↔ s.slot = none := by
    rw [← Option.map_eq_none_iff (f := fun c : Slot => c.ring.mappedFrameCount), hmap,
      Option.map_eq_none_iff]
  have hlife : a.keepsLife = true := by cases a <;> first | rfl | cases ha
  refine ⟨h.sound.step hn hd, ?_, fun hp => ?_, ?_, ?_, ?_, ?_, ?_⟩
  · exact fun hs => (hx.life hlife).trans (h.alive fun hs' => hs (hnone.mpr hs'))
  · rw [hpin] at hp
    cases hp
  · intro hs hp
    refine (h.pumps (fun hs' => hs (hnone.mpr hs')) hp).steps ?_ hx
    rintro rfl
    cases ha
  · exact fun hpc hs => h.owned hpc (hnone.mp hs)
  · intro hpc
    exact (h.stopped hpc).step h.sound.moded
      (h.alive (h.owned (.inl (VerbPc.stops_of_afterStop hpc)))) ha hd
  · intro hpc
    obtain ⟨hctl, hbare⟩ := h.mapping hpc
    exact hbare.step h.sound.engine hctl ha hd
  · intro c hc hz
    cases hs : s.slot with
    | none => exact absurd hc (by rw [hnone.mpr hs]; nofun)
    | some c₀ =>
      have hz₀ : c₀.ring.mappedFrameCount = 0 := by
        rw [show slot = some c from hc, hs] at hmap
        exact (Option.some.inj hmap).symm.trans hz
      rw [hs] at hf
      exact (h.vacant c₀ hs hz₀).feed h.sound.engine hz₀ hf

end Phased

theorem drained_of_stopping {d : Device} (h : d.Sound) (hst : d.Stopping) (hc : d.ctl = .held) :
    d.Drained := by
  rcases hst with hst | ⟨-, hd⟩
  · rw [hc] at hst
    cases hst
  · exact h.drained hd (by rw [hc]; rfl)

namespace Phased
variable {s s' : IoctlDevice}

theorem rests (h : s.Phased) (hc : s.dev.ctl = .held)
    (hpc : s.pc.afterStop = true ∨ s.pc.maps = true) :
    Vacant s.dev.eng ∧ LapsIdle s.dev.eng.pool := by
  rcases hpc with hpc | hpc
  · have hd := drained_of_stopping h.sound (h.stopped hpc) hc
    exact ⟨hd.vacant, hd.lapsIdle⟩
  · have hb := (h.mapping hpc).2
    exact ⟨hb.vacant, fun pc hpc => Pc.lapHolds_of_stirs (hb.noStir pc hpc)⟩

theorem setMdls (h : s.Phased) (mdls : Mdls) : { s with mdls }.Phased :=
  ⟨h.sound, h.alive, h.pin, h.pumps, h.owned, h.stopped, h.mapping, h.vacant⟩

theorem does (h : s.Phased) {o : VerbAnswer} (hc : s.dev.ctl = .held) (hx : Does s o s.pc s') :
    s'.Phased := by
  have hrest := h.rests hc
  have hown := h.owned
  have hbare := h.mapping
  -- these are statements about the point of the call, which the cases name
  generalize hpc : s.pc = pc at hx hrest hown hbare
  cases hx with
  | ended hends =>
    refine h.goto (fun hp => ?_) (by rintro (⟨⟨⟩⟩ | ⟨⟨⟩⟩)) (by rintro ⟨⟩) (by rintro ⟨⟩)
    rw [hpc, VerbPc.not_pumping_of_ends hends] at hp
    cases hp
  -- a new engine; of the old one's routines only the work item and its requests are left
  | built hp =>
    refine ⟨.renew h.sound.engine, fun _ => rfl, fun hp' => ?_, ?_, (by rintro (⟨⟨⟩⟩ | ⟨⟨⟩⟩)), (by rintro ⟨⟩),
      (by rintro ⟨⟩), ?_⟩
    · rw [show s.pinOpen = true from hp'] at hp
      cases hp
    · exact fun _ _ => remains_free _ (fun _ => rfl) fun _ => rfl
    · exact fun _ _ _ => ⟨rfl, rfl, remains_free _ (fun _ => rfl) fun _ => rfl⟩
  | setOneShot hd | start hd | listen hd | finish hd =>
    exact h.call hd rfl trivial rfl (by rw [hpc]; rfl) (by rintro ⟨⟩) (by rintro (⟨⟨⟩⟩ | ⟨⟨⟩⟩))
      (by rintro ⟨⟩) (by rintro ⟨⟩)
  | pump hd =>
    exact h.call hd rfl trivial rfl (by rw [hpc]; rfl) (fun _ => rfl) (by rintro (⟨⟨⟩⟩ | ⟨⟨⟩⟩))
      (by rintro ⟨⟩) (by rintro ⟨⟩)
  | setPumpRing hs =>
    refine h.setSlot hs (by rw [hpc]; rfl) ?_ ?_ .inl
    all_goals
      intro hf
      split at hf <;> cases hf
  | requeue hs => exact h.setSlot hs (by rw [hpc]; rfl) (by rintro ⟨⟩) (by rintro ⟨⟩) .inl
  | @pumped next hp =>
    refine h.goto (fun _ => hp) ?_ ?_ ?_
    all_goals
      intro hf
      cases next <;> simp [PumpNext.pc, VerbPc.stops, VerbPc.maps, VerbPc.afterStop] at hf
  -- the points behind a stop rely on it having begun
  | @stop next dev hd =>
    have hx := Device.Steps.of_step hd
    refine h.call hd rfl trivial rfl (by rw [hpc]; rfl) (by rintro ⟨⟩) (fun _ => hown (.inl rfl))
      ?_ ?_
    · intro _
      cases hx with
      | stop => exact .inl rfl
      | data ha => cases ha
    · intro hf
      cases next <;> cases hf
  | quarantine =>
    exact h.goto (fun hp => by rw [hpc] at hp; cases hp) (fun _ => hown (.inl rfl))
      (fun _ => by rw [hpc]; rfl) (by rintro ⟨⟩)
  | unmapEmpty hs =>
    exact h.setSlot hs (by rw [hpc]; rfl) (fun hf => by rw [hpc]; exact hf)
      (fun hf => by rw [hpc]; exact hf) .inl
  | unmapHeld hs =>
    exact h.goto (fun hp => by rw [hpc] at hp; cases hp) (fun _ => by rw [hs]; rintro ⟨⟩)
      (fun hf => by rw [hpc]; exact hf) (fun hf => by rw [hpc]; exact hf)
  | unmapFrame hs =>
    refine setMdls (s := s.setSlot _ _) ?_ _
    exact h.setSlot hs (by rw [hpc]; rfl) (fun hf => by rw [hpc]; exact hf)
      (fun hf => by rw [hpc]; exact hf) .inl
  -- no frame is mapped any more, and behind a stop or in a map the engine is vacant
  | @unmapDone c i force next hs =>
    refine h.setSlot hs (by rw [hpc]; rfl) (fun hf => ?_) (fun hf => ?_) fun _ => .inr (hrest ?_).1
    · rw [hpc]
      cases next <;> first | rfl | cases hf
    · rw [hpc]
      cases next <;> first | rfl | cases hf
    · cases next <;> first | exact .inl rfl | exact .inr rfl
  | validated hs | allLocked =>
    exact h.goto (fun hp => by rw [hpc] at hp; cases hp) (fun _ => hown (.inr rfl)) (by rintro ⟨⟩)
      (fun _ => by rw [hpc]; rfl)
  | allocated =>
    refine setMdls (s := s.goto (.lock _ _ _)) ?_ _
    exact h.goto (fun hp => by rw [hpc] at hp; cases hp) (fun _ => hown (.inr rfl)) (by rintro ⟨⟩)
      fun _ => by rw [hpc]; rfl
  | notAllocated hs =>
    exact h.setSlot hs (by rw [hpc]; rfl) (by rintro ⟨⟩) (fun _ => by rw [hpc]; rfl)
      fun _ => .inr (hrest (.inr rfl)).1
  | locked hs =>
    refine setMdls (s := s.setSlot _ (.allocate _ _)) ?_ _
    exact h.setSlot hs (by rw [hpc]; rfl) (by rintro ⟨⟩) (fun _ => by rw [hpc]; rfl) .inl
  | notLocked hs =>
    exact (h.setMdls _).setSlot hs (by rw [hpc]; rfl) (by rintro ⟨⟩) (fun _ => by rw [hpc]; rfl)
      fun _ => .inr (hrest (.inr rfl)).1
  | published hs =>
    refine h.setSlot hs (by rw [hpc]; rfl) ?_ ?_ fun _ => .inr (hrest (.inr rfl)).1
    all_goals
      intro hf
      split at hf <;> cases hf
  | events hs ht he =>
    refine h.setSlot hs ?_ ?_ ?_ fun hz => .inl ?_
    · rw [hpc]
      cases ht <;> rfl
    · intro hf
      rw [hpc]
      cases ht <;> first | rfl | cases hf
    · intro hf
      cases ht <;> cases hf
    · exact (congrArg Ring.mappedFrameCount (ht.ring he)).symm.trans hz
  | @destroy next dev hd =>
    refine ⟨h.sound.step (a := .api .destroy) trivial hd, fun hs => absurd rfl hs, fun _ => rfl, fun hs => absurd rfl hs,
      ?_, ?_, ?_, (by rintro _ ⟨⟩)⟩
    all_goals
      intro hf
      cases next <;> simp [ReleaseNext.pc, VerbPc.stops, VerbPc.maps, VerbPc.afterStop] at hf

theorem enters (h : s.Phased) {registered : Bool} {pc : VerbPc} {dev : Device} (hu : s.Unheld)
    (he : Enters s pc) (hd : s.dev.step .acquireMutex = some dev) :
    { s with dev, registered, pc }.Phased := by
  have hpump : s.pc.pumping = false := by rw [hu.1]; rfl
  have hx := Device.Steps.of_step hd
  have hdev : dev = s.dev.goto .held := by
    cases hx with
    | data ha => cases ha
    | acquireMutex => rfl
  suffices hs : { s with dev, pc }.Phased from
    ⟨hs.sound, hs.alive, hs.pin, hs.pumps, hs.owned, hs.stopped, hs.mapping, hs.vacant⟩
  cases he.entry with
  -- nothing is mapped or quarantined, and no pump outlives the call that made it
  | @map c args hc hm hq =>
    refine h.call hd rfl trivial rfl hpump nofun (fun _ => by rw [hc]; nofun) nofun fun _ => ?_
    subst hdev
    refine ⟨rfl, h.vacant c hc hm, hq, fun pc hpc => ?_⟩
    have howe := Pool.false_of_countP_eq_zero
      ((Counted.of_reachable h.sound.engine).eq_zero (h.vacant c hc hm).noIrp).2 hpc
    have hhand := h.pumps (by rw [hc]; nofun) hpump pc hpc
    have hcall := h.sound.called pc hpc
    rw [hu.2] at hcall
    cases pc with
    | pump k pc =>
      cases k with
      | completion => cases howe
      | handler => cases hhand
      | control => cases hcall .pump rfl
    | releaseDeliver => cases hcall .deliver rfl
    | _ => rfl
  | @stop next hs =>
    refine h.call hd rfl trivial rfl hpump nofun (fun _ => hs) nofun nofun
  | build => exact h.call hd rfl trivial rfl hpump nofun nofun nofun nofun
  | plain hm hst hp =>
    refine h.call hd rfl trivial rfl hpump nofun ?_ ?_ ?_
    · rintro (hf | hf)
      · rw [hst] at hf
        cases hf
      · rw [hm] at hf
        cases hf
    · intro hf
      rw [VerbPc.stops_of_afterStop hf] at hst
      cases hst
    · intro hf
      rw [hm] at hf
      cases hf

theorem takes (h : s.Phased) {a : Act} (hn : s.NoLateClaim a) (hx : Takes s a s') : s'.Phased := by
  cases hx with
  | slotDev hp ha hf => exact h.slotDev hp ha hn hf
  -- with the pin open there is no slot, and nothing of the ring to show
  | pinDev hp ha hd =>
    have hs := h.pin hp
    have hno : ∀ c, s.slot ≠ some c := by
      rw [hs]
      rintro _ ⟨⟩
    exact ⟨h.sound.step hn hd, fun hs' => absurd hs hs', fun _ => hs, fun hs' => absurd hs hs',
      h.owned, fun hpc => absurd hs (h.owned (.inl (VerbPc.stops_of_afterStop hpc))),
      fun hpc => absurd hs (h.owned (.inr hpc)), fun c hc => absurd hc (hno c)⟩
  | same => exact h
  | enters hu he hd => exact h.enters hu he hd
  | verb hc hx => exact h.does hc hx
  -- a deferred signal touches the event list only
  | @signal a x c events hc hsig he =>
    have hring : events.ring = c.events.ring := by
      obtain ⟨n, e, rest, rfl | rfl⟩ := hsig <;>
      · simp only [Events.step] at he
        split at he <;> cases he
        rfl
    have hn : s.slot ≠ none := by rw [hc]; rintro ⟨⟩
    refine ⟨h.sound, fun _ => h.alive hn, fun hp => absurd (h.pin hp) hn, fun _ => h.pumps hn,
      fun _ => by rintro ⟨⟩, h.stopped, h.mapping, fun c' hc' hz => h.vacant c hc ?_⟩
    cases hc'
    exact (congrArg Ring.mappedFrameCount hring).symm.trans hz
  | @removed dev dev' hu hd hd' =>
    have hpump : s.pc.pumping = false := by rw [hu.1]; rfl
    have h₁ : Phased { s with dev, pc := .idle } :=
      h.call hd rfl trivial rfl hpump (by rintro ⟨⟩) (by rintro (⟨⟨⟩⟩ | ⟨⟨⟩⟩)) (by rintro ⟨⟩)
        (by rintro ⟨⟩)
    exact h₁.call hd' rfl trivial rfl rfl (by rintro ⟨⟩) (by rintro (⟨⟨⟩⟩ | ⟨⟨⟩⟩)) (by rintro ⟨⟩)
      (by rintro ⟨⟩)
  | pinOpened hu hs hp =>
    have hr := Device.Sound.renew h.sound.engine
    have hf : s.dev.renew.step .releaseMutex = some (s.dev.renew.goto .free) := rfl
    refine ⟨hr.step (a := .releaseMutex) trivial hf, fun hs' => absurd hs hs', fun _ => hs, fun hs' => absurd hs hs', ?_, ?_,
      ?_, ?_⟩
    · exact h.owned
    · intro hpc
      rw [show s.pc = _ from hu.1] at hpc
      cases hpc
    · intro hpc
      rw [show s.pc = _ from hu.1] at hpc
      cases hpc
    · intro c hc
      rw [hs] at hc
      cases hc
  | pinClosed hp hpc hc hl =>
    have hs := h.pin hp
    have hf : s.dev.step .releaseMutex = some (s.dev.goto .free) := by simp [Device.step, hc]
    refine ⟨h.sound.step (a := .releaseMutex) trivial hf, fun hs' => absurd hs hs', (by rintro ⟨⟩),
      fun hs' => absurd hs hs',
      h.owned, ?_, ?_, ?_⟩
    · intro hf
      rw [show s.pc = _ from hpc] at hf
      cases hf
    · intro hf
      rw [show s.pc = _ from hpc] at hf
      cases hf
    · intro c hc
      rw [hs] at hc
      cases hc

end Phased

theorem Phased.of_reaches {s : IoctlDevice} (h : machine.Reaches NoLateClaim s) : s.Phased := by
  refine h.invariant (I := Phased) ?_ ?_
  · refine ⟨⟨.init, ⟨nofun, fun _ _ => rfl⟩, fun pc hpc => absurd hpc (Multiset.notMem_zero pc), ?_⟩,
      fun hs => absurd rfl hs, nofun, fun hs => absurd rfl hs, nofun, nofun, nofun, nofun⟩
    exact ⟨nofun, nofun, fun _ _ => ⟨⟨rfl, rfl, rfl⟩, Pool.free_zero⟩⟩
  · intro s a s' _ hi hn hs
    exact hi.takes hn (.of_step hs)

namespace Phased
variable {s : IoctlDevice}

/-- Nothing calls the slot while a verb walks over the ring. -/
theorem silent (h : s.Phased) {a : Device.Act} {dev : Device} {slot : Option Slot}
    (hc : s.dev.ctl = .held) (hpc : s.pc.afterStop = true ∨ s.pc.maps = true)
    (hf : s.dev.feed Slot.callbacks s.slot a = some (dev, slot)) :
    slot = s.slot ∧ dev.eng.acquired = s.dev.eng.acquired ∧ dev.eng.delivered = s.dev.eng.delivered := by
  obtain ⟨hv, hl⟩ := h.rests hc hpc
  have hquiet : ∀ pc ∈ s.dev.eng.pool, pc.acquires = false ∧ pc.delivery = none := fun pc hmem =>
    Device.quiet hv hl h.sound.engine h.sound.called (by rw [hc]; rfl) hmem
  cases Device.Feeds.of_feed hf with
  | acquires _ hq =>
    obtain ⟨k, i, d, hmem⟩ := hq
    cases (hquiet _ hmem).1
  | finds hans ha hd =>
    refine ⟨?_, ha, hd⟩
    cases hs : s.slot with
    | none => rfl
    | some c =>
      rw [hs] at hans
      exact congrArg some (c.acquire_none hans)
  | delivers hq =>
    obtain ⟨pc, hmem, hd⟩ := hq
    rw [(hquiet pc hmem).2] at hd
    cases hd
  | silent ha hd => exact ⟨rfl, ha, hd⟩

theorem held_of_vacant (h : s.Phased) (hc : s.dev.ctl = .held) (hv : Vacant s.dev.eng) (i : Cookie) :
    s.dev.eng.acquired.count i = s.dev.eng.deliveredCount i + s.dev.eng.quarantinedCount i := by
  rw [hv.held h.sound.engine i]
  have hno : s.dev.eng.releasingCount i = 0 := by
    by_contra hne
    obtain ⟨r, j, hctl⟩ := releasing_of_pos h.sound.called hne
    rw [hc] at hctl
    cases hctl
  omega

/-- What the engine holds while a verb walks over the ring is quarantined. -/
theorem held (h : s.Phased) (hc : s.dev.ctl = .held)
    (hpc : s.pc.afterStop = true ∨ s.pc.maps = true) (i : Cookie) :
    s.dev.eng.acquired.count i = s.dev.eng.deliveredCount i + s.dev.eng.quarantinedCount i :=
  h.held_of_vacant hc (h.rests hc hpc).1 i

end Phased

theorem quarantinedCount_eq_zero {e : Engine} {i : Cookie} (h : e.cap.cookieQuarantined i = false) :
    e.quarantinedCount i = 0 := by
  rw [Engine.quarantinedCount, Finset.card_eq_zero, Finset.filter_eq_empty_iff]
  rintro d - ⟨hd, hi⟩
  simp only [Capture.cookieQuarantined, List.any_eq_false, List.mem_finRange, forall_const] at h
  exact h d (by simp [hd, hi])

theorem quarantinedCount_pos {e : Engine} {i : Cookie} (h : e.cap.cookieQuarantined i = true) :
    0 < e.quarantinedCount i := by
  rw [Engine.quarantinedCount, Finset.card_pos]
  simp only [Capture.cookieQuarantined, List.any_eq_true, List.mem_finRange, true_and,
    Bool.and_eq_true, decide_eq_true_eq] at h
  obtain ⟨d, hd⟩ := h
  exact ⟨d, Finset.mem_filter.mpr ⟨Finset.mem_univ d, hd⟩⟩

end IoctlDevice
end Photonic
