import Photonic.Ioctl.Rotation
import Photonic.Session.Running

namespace Photonic
namespace IoctlDevice

/-- The engine under the slot is there, and the executor treats it so. -/
structure Founded (s : IoctlDevice) : Prop where
  moded : Moded s.dev
  uses : s.dev.Alive
  retired : s.dev.Retired
  running : s.slot ≠ none → Running s.dev
  alive : s.slot ≠ none → s.dev.life = .alive
  pin : s.pinOpen = true → s.slot = none

namespace Founded
variable {s s' : IoctlDevice}

theorem of_dev (h : s.Founded) {a : Device.Act} (hd : s.dev.step a = some s'.dev)
    (hslot : s'.slot ≠ none → s.slot ≠ none ∧ a.keepsLife = true ∧ ∀ st, a ≠ .api (.setState st))
    (hp : s'.pinOpen = true → s'.slot = none) : s'.Founded := by
  have hx := Device.Steps.of_step hd
  refine ⟨h.moded.steps hx, h.uses.steps hx, h.retired.steps h.uses hx, fun hs => ?_, fun hs => ?_, hp⟩
  · obtain ⟨hs', -, hst⟩ := hslot hs
    exact (h.running hs').steps h.moded h.retired hst hx
  · obtain ⟨hs', hl, -⟩ := hslot hs
    exact (hx.life hl).trans (h.alive hs')

/-- A step that leaves the device alone. -/
theorem turn (h : s.Founded) (hd : s'.dev = s.dev) (hp : s'.pinOpen = s.pinOpen)
    (hs : s'.slot ≠ none → s.slot ≠ none) (hn : s.slot = none → s'.slot = none) : s'.Founded where
  moded := hd ▸ h.moded
  uses := hd ▸ h.uses
  retired := hd ▸ h.retired
  running hs' := hd ▸ h.running (hs hs')
  alive hs' := hd ▸ h.alive (hs hs')
  pin hp' := hn (h.pin (hp ▸ hp'))

theorem renew (s : Device) : Moded s.renew ∧ s.renew.Alive ∧ s.renew.Retired ∧ Running s.renew :=
  ⟨⟨nofun, fun _ _ => rfl⟩, nofun, fun _ => rfl, ⟨.inl rfl, nofun, fun _ => ⟨nofun, nofun⟩⟩⟩

theorem does (h : s.Founded) {o : VerbAnswer} (hx : Does s o s.pc s') : s'.Founded := by
  have hkeep : s'.dev = s.dev → s'.pinOpen = s.pinOpen → s.slot ≠ none → s'.Founded :=
    fun hd hp hs => h.turn hd hp (fun _ => hs) fun hs' => absurd hs' hs
  have hsome : ∀ {c}, s.slot = some c → s.slot ≠ none := fun hc hs => by rw [hc] at hs; cases hs
  generalize s.pc = pc at hx
  cases hx with
  | ended | pumped | quarantine | unmapHeld | validated | allocated | allLocked =>
    exact h.turn rfl rfl id id
  | built hp =>
    obtain ⟨hm, ha, hr, hrun⟩ := renew s.dev
    exact ⟨hm, ha, hr, fun _ => hrun, fun _ => rfl, fun hp' => by rw [hp] at hp'; cases hp'⟩
  | setOneShot hd | pump hd | start hd | stop hd | listen hd | finish hd =>
    exact h.of_dev hd (fun hs => ⟨hs, rfl, nofun⟩) h.pin
  | destroy hd => exact h.of_dev hd (fun hs => absurd rfl hs) fun _ => rfl
  | setPumpRing hc | requeue hc | unmapEmpty hc | unmapFrame hc | unmapDone hc | notAllocated hc
  | locked hc | notLocked hc | published hc | events hc => exact hkeep rfl rfl (hsome hc)

theorem takes (h : s.Founded) {a : Act} (hx : Takes s a s') : s'.Founded := by
  cases hx with
  | @slotDev a dev slot hp ha hf =>
    have hmap := (Device.Feeds.of_feed hf).mapped
    have hnone : slot = none ↔ s.slot = none := by
      rw [← Option.map_eq_none_iff (f := fun c : Slot => c.ring.mappedFrameCount), hmap,
        Option.map_eq_none_iff]
    refine h.of_dev (Device.feed_step hf) (fun hs => ⟨fun hs' => hs (hnone.mpr hs'), ?_, ?_⟩)
      fun hp' => hnone.mpr (h.pin hp')
    · cases a <;> first | rfl | cases ha
    · rintro st rfl
      cases ha
  | pinDev hp ha hd => exact h.of_dev hd (fun hs => absurd (h.pin hp) hs) h.pin
  | same => exact h
  | enters hu he hd => exact h.of_dev hd (fun hs => ⟨hs, rfl, nofun⟩) h.pin
  | verb hc hx => exact h.does hx
  | signal hc => exact h.turn rfl rfl (fun _ => by rw [hc]; nofun) fun hs => by rw [hc] at hs; cases hs
  | removed hu hd hd' =>
    have h₁ : Founded { s with dev := _ } := h.of_dev hd (fun hs => ⟨hs, rfl, nofun⟩) h.pin
    exact h₁.of_dev hd' (fun hs => ⟨hs, rfl, nofun⟩) h.pin
  | pinOpened hu hs =>
    obtain ⟨hm, ha, hr, -⟩ := renew s.dev
    exact ⟨⟨nofun, hm.settled⟩, nofun, hr, fun hn => absurd hs hn, fun hn => absurd hs hn, fun _ => hs⟩
  | pinClosed hp hpc hc hl =>
    have hs := h.pin hp
    have hset := h.moded.settled
    rw [hc] at hset
    exact ⟨⟨nofun, fun hd _ => hset hd rfl⟩, nofun, h.retired, fun hn => absurd hs hn,
      fun hn => absurd hs hn, nofun⟩

end Founded

theorem founded_of_reachable {s : IoctlDevice} (h : machine.Reachable s) : s.Founded := by
  refine h.invariant (I := Founded) ?_ fun s a s' _ hi _ hs => hi.takes (.of_step hs)
  exact ⟨⟨nofun, fun _ _ => rfl⟩, nofun, fun _ => rfl, fun hs => absurd rfl hs,
    fun hs => absurd rfl hs, nofun⟩

end IoctlDevice
end Photonic
