import Photonic.Engine.Chunks
import Photonic.Ioctl.Founded
import Photonic.Session.FrameBytes
import Photonic.Stream.FrameSize

namespace Photonic

/-- Every MDL of the ring is of the image size, and the frames of the ring have one each, but for
those a walk has unmapped. -/
structure Slot.Fits (c : Slot) (walked : ℕ) : Prop where
  sized : ∀ i mdl, (c.ring.frames i).mdl = some mdl → mdl.byteCount = c.imageSize
  filled : ∀ i, walked ≤ i → i < c.ring.mappedFrameCount → (c.ring.frames i).mdl ≠ none
  next : c.ring.nextSubmitIndex < max 1 c.ring.mappedFrameCount

structure Slot.SamePages (c c' : Slot) : Prop where
  imageSize : c'.imageSize = c.imageSize
  mdl : ∀ i, (c'.ring.frames i).mdl = (c.ring.frames i).mdl
  mapped : c'.ring.mappedFrameCount = c.ring.mappedFrameCount

theorem Slot.SamePages.acquire (c : Slot) : c.SamePages c.acquire.2 := by
  cases ha : c.acquire.1 with
  | none =>
    rw [Slot.acquire_none c ha]
    exact ⟨rfl, fun _ => rfl, rfl⟩
  | some answer =>
    obtain ⟨-, -, heq⟩ := Slot.acquire_some ha
    rw [heq]
    refine ⟨rfl, fun i => ?_, rfl⟩
    show (c.ring.take.frames i).mdl = (c.ring.frames i).mdl
    simp only [Ring.take, Ring.setState_frames, Function.update_apply]
    split
    · next hi => rw [hi]
    · rfl

theorem Slot.SamePages.deliver (c : Slot) (b : Bool) (d : Delivery) : c.SamePages (c.deliver b d) :=
  ⟨rfl, fun i => by rw [Slot.deliver_ring, Ring.framesDeliver_mdl], Slot.deliver_mapped c b d⟩

theorem Slot.SamePages.events (c : Slot) {events : Events} (hr : events.ring = c.events.ring) :
    c.SamePages { c with events } where
  imageSize := rfl
  mdl i := congrArg (fun r : Ring => (r.frames i).mdl) hr
  mapped := congrArg Ring.mappedFrameCount hr

namespace Slot.Fits
variable {c c' : Slot} {w w' : ℕ}

theorem keep (h : c.Fits w) (hs : c.SamePages c')
    (hx : c'.ring.nextSubmitIndex < max 1 c.ring.mappedFrameCount) : c'.Fits w where
  sized i mdl hmdl := hs.imageSize ▸ h.sized i mdl (hs.mdl i ▸ hmdl)
  filled i hw hlt := hs.mdl i ▸ h.filled i hw (hs.mapped ▸ hlt)
  next := by
    rw [hs.mapped]
    exact hx

theorem mono (h : c.Fits w) (hw : w ≤ w') : c.Fits w' :=
  ⟨h.sized, fun i hi => h.filled i (hw.trans hi), h.next⟩

theorem of_unmapped (h : c.Fits w) (hn : c.ring.mappedFrameCount = 0) : c.Fits w' :=
  ⟨h.sized, fun i _ hi => absurd (hn ▸ hi) (Nat.not_lt_zero i), h.next⟩

theorem fresh (fileObject imageSize : ℕ) : (Slot.fresh fileObject imageSize).Fits w :=
  ⟨nofun, fun _ _ hi => absurd hi (Nat.not_lt_zero _), Nat.zero_lt_one⟩

/-- The rotation stays within the ring. -/
theorem acquire (h : c.Fits w) : c.acquire.2.Fits w := by
  refine h.keep (.acquire c) ?_
  cases ha : c.acquire.1 with
  | none =>
    rw [Slot.acquire_none c ha]
    exact h.next
  | some answer =>
    obtain ⟨hac, -, heq⟩ := Slot.acquire_some ha
    have hpos : 0 < c.ring.mappedFrameCount := Nat.pos_of_ne_zero hac.2.1
    rw [heq]
    exact (Nat.mod_lt _ hpos).trans_le (le_max_right _ _)

theorem deliver (h : c.Fits w) (b : Bool) (d : Delivery) : (c.deliver b d).Fits w := by
  refine h.keep (.deliver c b d) ?_
  rw [Slot.deliver_ring]
  unfold Ring.framesDeliver
  split
  · exact h.next
  split <;> exact h.next

theorem unmapFrame {i : ℕ} (h : c.Fits i) : (c.setRing (c.ring.unmapFrame i)).Fits (i + 1) := by
  have hframe : ∀ k, (c.ring.unmapFrame i).frames k =
      if k = i then ⟨none, .queued⟩ else c.ring.frames k := fun k => Function.update_apply _ _ _ _
  refine ⟨fun k mdl hk => ?_, fun k hw hk => ?_, h.next⟩
  · rw [Slot.setRing_ring, hframe] at hk
    split at hk
    · cases hk
    · exact h.sized k mdl hk
  · rw [Slot.setRing_ring, hframe, if_neg (by omega)]
    exact h.filled k (by omega) hk

theorem lock {i : ℕ} {mdl : Mdl} (h : c.Fits w) (hn : c.ring.mappedFrameCount = 0)
    (hmdl : mdl.byteCount = c.imageSize) :
    (c.setRing (c.ring.setFrame i ⟨some mdl, .queued⟩)).Fits w := by
  have hframe : ∀ k, (c.ring.setFrame i ⟨some mdl, .queued⟩).frames k =
      if k = i then ⟨some mdl, .queued⟩ else c.ring.frames k := fun k => Function.update_apply _ _ _ _
  refine ⟨fun k mdl' hk => ?_, fun k _ hk => absurd (show k < c.ring.mappedFrameCount from hk) ?_, h.next⟩
  · rw [Slot.setRing_ring, hframe] at hk
    split at hk
    · cases hk
      exact hmdl
    · exact h.sized k mdl' hk
  · omega

theorem setEvents {events : Events} (h : c.Fits w) (hr : events.ring = c.events.ring) :
    Slot.Fits { c with events } w :=
  h.keep (.events c hr) ((congrArg Ring.nextSubmitIndex hr).trans_lt h.next)

theorem count {n : ℕ} (h : c.Fits w) (hf : ∀ i < n, (c.ring.frames i).mdl ≠ none)
    (hi : c'.imageSize = c.imageSize) (hr : c'.ring.frames = c.ring.frames)
    (hn : c'.ring.mappedFrameCount = n) (hx : c'.ring.nextSubmitIndex = 0) : c'.Fits w' := by
  refine ⟨fun i mdl hmdl => hi ▸ h.sized i mdl (hr ▸ hmdl), fun i _ hlt => ?_, ?_⟩
  · rw [hr]
    exact hf i (hn ▸ hlt)
  · rw [hx]
    exact lt_max_of_lt_left Nat.zero_lt_one

/-- The frame at which the rotation is has its pages, if no walk has come to it. -/
theorem acquired (h : c.Fits w) {cookie : Cookie} {mdl : Option ℕ}
    (ha : c.acquire.1 = some (cookie, mdl)) :
    (∀ bytes, mdl = some bytes → bytes = c.imageSize) ∧ (w ≤ cookie → mdl = some c.imageSize) := by
  obtain ⟨hac, hcookie, -⟩ := Slot.acquire_some ha
  have hmdl : mdl = (c.ring.frames c.ring.nextSubmitIndex).mdl.map (·.byteCount) := by
    have hf : c.ring.framesAcquire = some ((c.ring.nextSubmitIndex,
        (c.ring.frames c.ring.nextSubmitIndex).mdl.map (·.byteCount)), c.ring.take) := if_pos hac
    unfold Slot.acquire at ha
    rw [hf] at ha
    cases ha
    rfl
  have hsized : ∀ bytes, mdl = some bytes → bytes = c.imageSize := by
    rintro bytes rfl
    obtain ⟨m, hm, rfl⟩ := Option.map_eq_some_iff.mp hmdl.symm
    exact h.sized _ m hm
  refine ⟨hsized, fun hw => ?_⟩
  have hpos := hac.2.1
  have hnext := h.next
  have hsome : (c.ring.frames c.ring.nextSubmitIndex).mdl ≠ none :=
    h.filled _ (hw.trans_eq hcookie) (by omega)
  obtain ⟨m, hm⟩ := Option.ne_none_iff_exists'.mp hsome
  rw [hm] at hmdl
  exact hmdl.trans (congrArg some (hsized m.byteCount hmdl))

end Slot.Fits

namespace VerbPc

def SizedTo (n : ℕ) : VerbPc → Prop
  | .allocate args _ => args.frameSize = n
  | .lock args _ mdl => args.frameSize = n ∧ mdl.byteCount = n
  | _ => True

theorem Locking.congr {pc : VerbPc} {r r' : Ring} (h : pc.Locking r)
    (hm : ∀ i, (r'.frames i).mdl = (r.frames i).mdl) : pc.Locking r' := by
  cases pc with
  | allocate | lock => exact ⟨h.1, h.2.1, fun k hk => hm k ▸ h.2.2 k hk⟩
  | publish => exact ⟨h.1, fun k hk => hm k ▸ h.2 k hk⟩
  | _ => trivial

theorem readies_of_unmapped {pc : VerbPc} (h : pc.unmapped = false) : pc.readies = false := by
  cases pc <;> first | rfl | cases h

theorem of_not_readies {pc : VerbPc} (h : pc.readies = false) (r : Ring) (n : ℕ) :
    pc.Locking r ∧ pc.SizedTo n := by
  cases pc <;> first | exact ⟨trivial, trivial⟩ | cases h

end VerbPc

namespace IoctlDevice

def Programs (s : IoctlDevice) : Act → Prop
  | .dev a => ∀ c, s.slot = some c → s.dev.Programs c.imageSize a
  | _ => True

/-- The ring of the slot `c` and the engine under it agree on the image size. -/
structure Fitted (s : IoctlDevice) (c : Slot) : Prop where
  ring : c.Fits s.pc.walked
  locking : s.pc.Locking c.ring
  unmapped : s.pc.readies = true → c.ring.mappedFrameCount = 0
  sizes : s.pc.SizedTo c.imageSize
  framed : s.dev.Framed c.imageSize

namespace Fitted
variable {s s' : IoctlDevice} {c : Slot}

/-- No map is under way. -/
theorem rest (hr : c.Fits s.pc.walked) (hpc : s.pc.readies = false) (hd : s.dev.Framed c.imageSize) :
    s.Fitted c := by
  obtain ⟨hlock, hsizes⟩ := VerbPc.of_not_readies hpc c.ring c.imageSize
  exact ⟨hr, hlock, fun hm => absurd hm (by simp [hpc]), hsizes, hd⟩

theorem turn (h : s.Fitted c) (hw : s.pc.walked = 0) (hpc : s'.pc.walked = 0 ∧ s'.pc.readies = false)
    (hd : s'.dev.Framed c.imageSize) : s'.Fitted c :=
  rest (hpc.1 ▸ hw ▸ h.ring) hpc.2 hd

theorem call (h : s.Fitted c) {a : Device.Act} (hd : s.dev.step a = some s'.dev)
    (ha : s.dev.Programs c.imageSize a) (hw : s.pc.walked = 0)
    (hpc : s'.pc.walked = 0 ∧ s'.pc.readies = false) : s'.Fitted c :=
  h.turn hw hpc (h.framed.step ha hd)

theorem samePages (h : s.Fitted c) {c' : Slot} {dev : Device} {slot : Option Slot}
    (hs : c.SamePages c') (hr : c'.Fits s.pc.walked) (hd : dev.Framed c.imageSize) :
    Fitted { s with dev, slot } c' where
  ring := hr
  locking := h.locking.congr hs.mdl
  unmapped hpc := hs.mapped.trans (h.unmapped hpc)
  sizes := by
    rw [hs.imageSize]
    exact h.sizes
  framed := by
    rw [hs.imageSize]
    exact hd

theorem setMdls (h : s.Fitted c) (mdls : Mdls) : Fitted { s with mdls } c :=
  ⟨h.ring, h.locking, h.unmapped, h.sizes, h.framed⟩

theorem mapFailed (h : s.Fitted c) {i : ℕ} (hr : s.pc.readies = true)
    (hf : ∀ k < i, (c.ring.frames k).mdl ≠ none) (status : NtStatus) (error : PlError) {c' : Slot}
    (hc' : (s.mapFailed c i status error).slot = some c') :
    (s.mapFailed c i status error).Fitted c' := by
  have hnext := h.ring.next
  rw [h.unmapped hr] at hnext
  cases hc'
  exact .rest (h.ring.count hf rfl rfl rfl (show c.ring.nextSubmitIndex = 0 by omega)) rfl h.framed

end Fitted

/-- Ring and engine agree, if there is a slot. -/
def Fitting (s : IoctlDevice) : Prop := ∀ c, s.slot = some c → s.Fitted c

namespace Fitting
variable {s s' : IoctlDevice}

theorem does (h : s.Fitting) {o : VerbAnswer} (hx : Does s o s.pc s') : s'.Fitting := by
  intro c' hc'
  generalize hpc : s.pc = pc at hx
  cases hx with
  | ended hends =>
    refine (h c' hc').turn ?_ ⟨rfl, rfl⟩ (h c' hc').framed
    rw [hpc]
    cases pc <;> first | rfl | cases hends
  | built =>
    cases hc'
    exact .rest (.fresh _ _) rfl (.of_unconfigured ⟨rfl, .renew s.dev.eng⟩
      (remains_free _ (fun _ => rfl) fun _ => rfl) rfl)
  | setOneShot hd | pump hd | start hd | listen hd | finish hd =>
    exact (h c' hc').call hd trivial (by rw [hpc]; rfl) ⟨rfl, rfl⟩
  | @stop next dev hd =>
    exact (h c' hc').call hd trivial (by rw [hpc]; rfl) (by cases next <;> exact ⟨rfl, rfl⟩)
  | @pumped next =>
    exact (h c' hc').turn (by rw [hpc]; rfl) (by cases next <;> exact ⟨rfl, rfl⟩) (h c' hc').framed
  | quarantine => exact (h c' hc').turn (by rw [hpc]; rfl) ⟨rfl, rfl⟩ (h c' hc').framed
  | @setPumpRing c b hs =>
    have hf := h c hs
    cases hc'
    refine .rest ?_ (by cases b <;> rfl) hf.framed
    have hring : c.Fits 0 := by simpa [hpc, VerbPc.walked] using hf.ring
    cases b <;> exact hring.keep ⟨rfl, fun _ => rfl, rfl⟩ hring.next
  | @requeue c next hs =>
    have hf := h c hs
    have hring : c.Fits 0 := by simpa [hpc, VerbPc.walked] using hf.ring
    cases hc'
    refine .rest (hring.keep ⟨rfl, fun i => ?_, rfl⟩ hring.next) rfl hf.framed
    simp only [Slot.setRing_ring, Ring.framesRequeue]
    split <;> rfl
  | @unmapEmpty c i force next hs | @unmapFrame c i force next mdl hs =>
    have hf := h c hs
    have hring : c.Fits i := by simpa [hpc, VerbPc.walked] using hf.ring
    cases hc'
    exact .rest hring.unmapFrame rfl hf.framed
  | @unmapHeld c i next mdl hs =>
    have hf := h c' hc'
    have hring : c'.Fits i := by simpa [hpc, VerbPc.walked] using hf.ring
    exact .rest (hring.mono (Nat.le_succ i)) rfl hf.framed
  -- the counters start over, and a map may now size the ring anew
  | @unmapDone c i force next hs =>
    have hf := h c hs
    cases hc'
    have hring : Slot.Fits { c.restart c.ring.reset with shots := if next.maps then [] else c.shots }
        next.pc.walked :=
      ⟨hf.ring.sized, fun _ _ hi => absurd hi (Nat.not_lt_zero _), Nat.zero_lt_one⟩
    exact ⟨hring, by cases next <;> exact trivial, fun _ => rfl, by cases next <;> exact trivial, hf.framed⟩
  -- the one check of the frame size: every later lock relies on it
  | @validated c args hs hpos hle hsize =>
    have hf := h c hs
    cases hs.symm.trans hc'
    exact ⟨by simpa [hpc, VerbPc.walked] using hf.ring,
      ⟨Nat.zero_le _, hle, fun i hi => absurd hi (Nat.not_lt_zero i)⟩,
      fun _ => hf.unmapped (by rw [hpc]; rfl), hsize, hf.framed⟩
  | @allocated args i hi =>
    have hf := h c' hc'
    obtain ⟨hle, hmax, hlocked⟩ : i ≤ args.frameCount ∧ args.frameCount ≤ maxVideoFrames ∧
      ∀ k < i, (c'.ring.frames k).mdl ≠ none := by simpa [hpc, VerbPc.Locking] using hf.locking
    have hsize : args.frameSize = c'.imageSize := by simpa [hpc, VerbPc.SizedTo] using hf.sizes
    exact ⟨by simpa [hpc, VerbPc.walked] using hf.ring, ⟨hi, hmax, hlocked⟩,
      fun _ => hf.unmapped (by rw [hpc]; rfl), ⟨hsize, hsize⟩, hf.framed⟩
  | @allLocked args i hi =>
    have hf := h c' hc'
    obtain ⟨-, hmax, hlocked⟩ : i ≤ args.frameCount ∧ args.frameCount ≤ maxVideoFrames ∧
      ∀ k < i, (c'.ring.frames k).mdl ≠ none := by simpa [hpc, VerbPc.Locking] using hf.locking
    exact ⟨by simpa [hpc, VerbPc.walked] using hf.ring, ⟨hmax, fun k hk => hlocked k (hk.trans_le hi)⟩,
      fun _ => hf.unmapped (by rw [hpc]; rfl), trivial, hf.framed⟩
  -- frame `i` joins the frames below it, all of the checked size
  | @locked c args i mdl hs =>
    have hf := h c hs
    have hz := hf.unmapped (by rw [hpc]; rfl)
    obtain ⟨hlt, hmax, hlocked⟩ : i < args.frameCount ∧ args.frameCount ≤ maxVideoFrames ∧
      ∀ k < i, (c.ring.frames k).mdl ≠ none := by simpa [hpc, VerbPc.Locking] using hf.locking
    obtain ⟨hsize, hmdl⟩ : args.frameSize = c.imageSize ∧ mdl.byteCount = c.imageSize := by
      simpa [hpc, VerbPc.SizedTo] using hf.sizes
    cases hc'
    refine ⟨(hf.ring.of_unmapped hz).lock hz hmdl, ⟨hlt, hmax, fun k hk => ?_⟩, fun _ => hz, hsize,
      hf.framed⟩
    show ((Function.update c.ring.frames i ⟨some mdl, .queued⟩) k).mdl ≠ none
    rw [Function.update_apply]
    split
    · rintro ⟨⟩
    · exact hlocked k (by omega)
  | @notAllocated c args i hs hi =>
    obtain ⟨-, -, hlocked⟩ : i ≤ args.frameCount ∧ args.frameCount ≤ maxVideoFrames ∧
      ∀ k < i, (c.ring.frames k).mdl ≠ none := by simpa [hpc, VerbPc.Locking] using (h c hs).locking
    exact (h c hs).mapFailed (by rw [hpc]; rfl) hlocked _ _ hc'
  | @notLocked c args i mdl hs =>
    obtain ⟨-, -, hlocked⟩ : i < args.frameCount ∧ args.frameCount ≤ maxVideoFrames ∧
      ∀ k < i, (c.ring.frames k).mdl ≠ none := by simpa [hpc, VerbPc.Locking] using (h c hs).locking
    exact ((h c hs).setMdls _).mapFailed (by rw [← hpc.symm]; rfl) hlocked _ _ hc'
  | @published c args hs =>
    have hf := h c hs
    obtain ⟨-, hlocked⟩ : args.frameCount ≤ maxVideoFrames ∧
      ∀ k < args.frameCount, (c.ring.frames k).mdl ≠ none := by
        simpa [hpc, VerbPc.Locking] using hf.locking
    cases hc'
    refine .rest (hf.ring.count hlocked rfl rfl rfl rfl) ?_ hf.framed
    show VerbPc.readies (if _ then _ else _) = false
    split <;> rfl
  | @events c pc pc' a events hs ht he =>
    have hf := h c hs
    have hring : c.Fits 0 := by
      have hw : pc.walked = 0 := by cases ht <;> rfl
      rw [← hw, ← hpc]
      exact hf.ring
    have heq := ht.ring he
    cases hc'
    have hpc' : pc'.walked = 0 ∧ pc'.readies = false := by cases ht <;> exact ⟨rfl, rfl⟩
    refine .rest ?_ hpc'.2 hf.framed
    show Slot.Fits _ pc'.walked
    rw [hpc'.1]
    exact hring.setEvents heq
  | destroy => cases hc'

theorem feeds (h : s.Fitting) {a : Device.Act} {dev : Device} {slot : Option Slot}
    (ha : ∀ c, s.slot = some c → s.dev.Programs c.imageSize a)
    (hf : s.dev.feed Slot.callbacks s.slot a = some (dev, slot)) :
    Fitting { s with dev, slot } := by
  intro c' hc'
  have hfeeds := Device.Feeds.of_feed hf
  have hmap := hfeeds.mapped
  rw [show slot = some c' from hc'] at hmap
  obtain ⟨c, hc, -⟩ := Option.map_eq_some_iff.mp hmap.symm
  have hfit := h c hc
  have hframed := hfit.framed.step (ha c hc) (Device.feed_step hf)
  rw [hc] at hfeeds
  cases hfeeds with
  | acquires | finds =>
    cases hc'
    exact hfit.samePages (.acquire c) hfit.ring.acquire hframed
  | @delivers d =>
    cases hc'
    exact hfit.samePages (.deliver c s.dev.ses.oneShot d) (hfit.ring.deliver _ d) hframed
  | silent =>
    cases hc'
    exact hfit.samePages ⟨rfl, fun _ => rfl, rfl⟩ hfit.ring hframed

theorem takes (h : s.Fitting) (hfound : s.Founded) {a : Act} (ha : s.Programs a) (hx : Takes s a s') :
    s'.Fitting := by
  intro c' hc'
  cases hx with
  | slotDev hp hshared hf => exact h.feeds ha hf c' hc'
  | pinDev hp => cases (hfound.pin hp).symm.trans hc'
  | same => exact h c' hc'
  | enters hu he hd =>
    have hplain := he.entry.atRest (by rw [show s.slot = some c' from hc']; rintro ⟨⟩)
    obtain ⟨hwalk, -, hun, -⟩ := VerbPc.plain_spec hplain
    refine (h c' hc').call hd trivial (by rw [hu.1]; rfl) ⟨hwalk, VerbPc.readies_of_unmapped hun⟩
  | verb hc hx => exact h.does hx c' hc'
  | @signal a x c events hc hsig he =>
    have hring : events.ring = c.events.ring := by
      obtain ⟨n, e, rest, rfl | rfl⟩ := hsig <;>
      · simp only [Events.step] at he
        split at he <;> cases he
        rfl
    have hfit := h c hc
    cases hc'
    exact hfit.samePages (.events c hring) (hfit.ring.setEvents hring) hfit.framed
  | @removed dev _ hu hd hd' =>
    have hheld : Fitted { s with dev } c' :=
      (h c' hc').call hd trivial (by rw [hu.1]; rfl) (by rw [hu.1]; exact ⟨rfl, rfl⟩)
    exact hheld.call hd' trivial (by rw [show s.pc = _ from hu.1]; rfl) ⟨rfl, rfl⟩
  | pinOpened hu hs => cases hs.symm.trans hc'
  | pinClosed hp => cases (hfound.pin hp).symm.trans hc'

theorem of_reaches (h : machine.Reaches Programs s) : s.Fitting := by
  refine h.invariant (I := Fitting) ?_ ?_
  · intro c hc
    cases hc
  · intro s a s' hr hi ha hs
    exact hi.takes (founded_of_reachable hr.reachable) ha (.of_step hs)

end Fitting
end IoctlDevice

/-- The device behind the open of a stream: with its first engine, or with the next one. -/
inductive Device.OpensStream : Device → Prop
  | create : OpensStream Device.create
  | renew (s : Device) : OpensStream (s.renew.goto .free)

theorem Device.Framed.renew {n : ℕ} (s : Device) {c : Ctl} (hc : c.configured = false) :
    Framed n (s.renew.goto c) :=
  of_unconfigured ⟨hc, .renew s.eng⟩ (remains_free _ (fun _ => rfl) fun _ => rfl) rfl

theorem Device.Framed.opened {n : ℕ} {s : Device} (h : s.OpensStream) : Framed n s := by
  cases h with
  | create => exact .create
  | renew s => exact .renew s rfl

section
variable {σ τ : Type}
open Dcam

/-- The frame length that a start programs from a configuration of the stream, at some frame
interval and bus speed and whatever the camera answers. -/
def Stream.Configures (camera : RegisterPort τ) (stream : Dcam.Stream) (frameBytes : ℕ) : Prop :=
  ∃ interval maxSpeedCode t p,
    (configureStream camera { stream with frameInterval := interval } maxSpeedCode t).1 = .ok p ∧
      frameBytes = p.bytesPerPacket * p.packetsPerFrame % 2 ^ 32

/-- The starts of a device are of the stream. -/
def Device.Streams (camera : RegisterPort τ) (stream : Dcam.Stream) (s : Device) : Device.Act → Prop
  | .ctl o => ∀ eb, s.ctl = .start eb .configure → o.ok = true →
      Stream.Configures camera stream o.frameBytes
  | _ => True

/-- The starts of a slot are of the stream that its prepare left in it. -/
def IoctlDevice.Streams (camera : RegisterPort τ) (csrBase : ℕ) (modes : List VideoMode)
    (s : IoctlDevice) : IoctlDevice.Act → Prop
  | .dev (.ctl o) => ∀ c eb, s.slot = some c → s.dev.ctl = .start eb .configure → o.ok = true →
      ∃ t stream, (prepareStream camera csrBase modes t).1 = .ok stream ∧
        stream.imageSize = c.imageSize ∧ Stream.Configures camera stream o.frameBytes
  | _ => True

/-- Good frames are reported at `n` bytes, and buffers that hold as much go on to the bus. -/
structure Device.AgreesOn (n : ℕ) (s : Device) : Prop where
  delivered : ∀ d ∈ s.eng.delivered, d.Whole n
  accepts : ∀ {k i d o cookie bytes s'}, s.step (.run (.pump k (.acquire i d)) o) = some s' →
    o.acquired = some (cookie, some bytes) → n ≤ bytes →
      s'.eng.pool = .pump k (.publish i d cookie) ::ₘ s.eng.pool.erase (.pump k (.acquire i d))

/-- Good frames are reported at the image size, and a frame that is mapped goes on to the bus. -/
structure IoctlDevice.AgreesOn (c : Slot) (s : IoctlDevice) : Prop where
  delivered : ∀ d ∈ s.dev.eng.delivered, d.Whole c.imageSize
  mapped : ∀ i mdl, (c.ring.frames i).mdl = some mdl → mdl.byteCount = c.imageSize
  accepts : ∀ {k i d o cookie mdl s'}, s.step (.dev (.run (.pump k (.acquire i d)) o)) = some s' →
    o.acquired = some (cookie, mdl) → mdl ≠ none ∨ s.pc.walked ≤ cookie →
      mdl = some c.imageSize ∧ s'.dev.eng.pool =
        .pump k (.publish i d cookie) ::ₘ s.dev.eng.pool.erase (.pump k (.acquire i d))

theorem IoctlDevice.Fitted.agreesOn {s : IoctlDevice} {c : Slot} (hc : s.slot = some c)
    (hfound : s.Founded) (h : s.Fitted c) : s.AgreesOn c := by
  refine ⟨h.framed.delivered, h.ring.sized, fun {k i d o cookie mdl s'} hs ho hmdl => ?_⟩
  have hpin : s.pinOpen = false := by
    by_contra hp
    cases (hfound.pin (by simpa using hp)).symm.trans hc
  simp only [step, devStep, hpin, Bool.false_eq_true, if_false, Device.Act.shared, if_true] at hs
  obtain ⟨⟨dev, slot⟩, hf, rfl⟩ := Option.map_eq_some_iff.mp hs
  rw [hc] at hf
  have hacquire : c.acquire.1 = some (cookie, mdl) :=
    (congrArg Prod.fst (Device.feed_acquire hf)).trans ho
  obtain ⟨hsized, hwhole⟩ := h.ring.acquired hacquire
  have hsize : mdl = some c.imageSize := by
    obtain hmdl | hw := hmdl
    · obtain ⟨bytes, rfl⟩ := Option.ne_none_iff_exists'.mp hmdl
      rw [hsized bytes rfl]
    · exact hwhole hw
  exact ⟨hsize, h.framed.accepts (Device.feed_step hf) (hsize ▸ ho) le_rfl⟩

theorem Stream.Packetises.within {e : VideoMode} {stream : Dcam.Stream} {p : Packetisation}
    (h : Packetises e stream p) {maxDmaBufferSize : ℕ} {alloc : ℕ → ℕ → Bool} {c : Chunking}
    (hc : setupChunks (p.bytesPerPacket * p.packetsPerFrame) p.bytesPerPacket maxDmaBufferSize alloc
      = .ok c) :
    ∀ d ∈ prime c (p.bytesPerPacket * p.packetsPerFrame) p.bytesPerPacket,
      d.offset + d.length ≤ stream.imageSize := by
  intro d hd
  have hpos := Nat.mul_pos h.bytesPerPacket_pos h.packetsPerFrame_pos
  have hcap : p.bytesPerPacket * p.packetsPerFrame < 2 ^ 31 := by
    rw [h.frameBytes]
    exact h.imageSize_le.trans_lt (by decide)
  have htiles := setupChunks_tiles h.bytesPerPacket_pos hpos (Nat.dvd_mul_right _ _) hcap hc
  exact (htiles.of_mem hd).2.trans_eq h.frameBytes

section
variable {builder : RegisterPort σ} {camera : RegisterPort τ} {csrBase : ℕ} {b : Bringup σ}
  {stream : Dcam.Stream}

theorem Stream.Extends.packetises
    (hs : Extends camera csrBase (enumerateModes builder csrBase b).2.modes stream)
    {interval maxSpeedCode : ℕ} {t : τ} {p : Packetisation}
    (h : (configureStream camera { stream with frameInterval := interval } maxSpeedCode t).1 = .ok p) :
    ∃ e ∈ (enumerateModes builder csrBase b).2.modes, stream.mode = some e ∧ Packetises e stream p := by
  have htable := enumerateModes_table builder csrBase b
  cases hmode : stream.mode with
  | none =>
    simp only [configureStream, hmode] at h
    cases h
  | some e =>
    obtain ⟨he, hn⟩ := hs.negotiates (fun e he => negotiable_of_built (htable.built e he))
      htable.length_le hmode
    have hn' : Negotiates e { stream with frameInterval := interval } :=
      ⟨hn.width_le, hn.height_le, hn.fixed, hn.imageSize⟩
    have hp := configureStream_packetises (htable.built e he) hn' hmode h
    exact ⟨e, he, rfl, hp.bytesPerPacket_pos, hp.packetsPerFrame_pos, hp.noWrap, hp.frameBytes,
      hp.imageSize, hp.imageSize_le⟩

theorem Stream.Configures.eq_imageSize {frameBytes : ℕ} (h : Configures camera stream frameBytes)
    (hs : Extends camera csrBase (enumerateModes builder csrBase b).2.modes stream) :
    frameBytes = stream.imageSize := by
  obtain ⟨interval, maxSpeedCode, t, p, hp, rfl⟩ := h
  obtain ⟨e, -, -, hpack⟩ := hs.packetises hp
  rw [Nat.mod_eq_of_lt hpack.noWrap, hpack.frameBytes]

/-- Where the format queries agree with a prepare, a ring of frames of the queried size passes the
checks of a map on the slot prepared. -/
theorem Stream.QueriesAgree.validates {modes : List VideoMode} {t : τ}
    (h : QueriesAgree camera csrBase modes t) :
    ∃ window u pixelFormat v stream w,
      getCurrentSubwindow camera csrBase modes t = (.ok window, u) ∧
      getCurrentPixelFormat camera csrBase modes u = (.ok pixelFormat, v) ∧
      prepareStream camera csrBase modes v = (.ok stream, w) ∧
      ∀ (s : IoctlDevice) (c : Slot) (args : MapArgs), c.imageSize = stream.imageSize →
        args.frameSize = queriedFrameSize window pixelFormat →
        0 < args.frameCount → args.frameCount ≤ maxVideoFrames →
        args.baseVA + args.frameCount * args.frameSize ≤ 2 ^ 32 →
        s.validateStep c args = some (s.goto (.allocate args 0)) := by
  obtain ⟨window, u, pixelFormat, v, stream, w, hwindow, hcoding, hprepare, hsize⟩ := h
  refine ⟨window, u, pixelFormat, v, stream, w, hwindow, hcoding, hprepare, ?_⟩
  intro s c args hc hargs hpos hmax hfit
  have heq : args.frameSize = c.imageSize := by rw [hargs, hc, hsize]
  unfold IoctlDevice.validateStep
  rw [if_neg (by omega), if_neg (not_not.mpr heq), if_neg (by omega)]

end

/-- The packets of a frame, the image size of both front-ends and the length that the engine
guards and reports are one number. -/
theorem frame_size_agreement (builder : RegisterPort σ) (camera : RegisterPort τ) (csrBase : ℕ)
    (b : Bringup σ) :
    let modes := (enumerateModes builder csrBase b).2.modes
    (∀ stream, Stream.Extends camera csrBase modes stream →
      (∀ interval maxSpeedCode t p,
        (configureStream camera { stream with frameInterval := interval } maxSpeedCode t).1 = .ok p →
          ∃ e ∈ modes, stream.mode = some e ∧ Stream.Packetises e stream p ∧
            ∀ maxDmaBufferSize alloc c,
              setupChunks (p.bytesPerPacket * p.packetsPerFrame) p.bytesPerPacket maxDmaBufferSize
                alloc = .ok c →
                ∀ d ∈ prime c (p.bytesPerPacket * p.packetsPerFrame) p.bytesPerPacket,
                  d.offset + d.length ≤ stream.imageSize) ∧
      ∀ s₀ s, Device.OpensStream s₀ →
        Machine.Reaches ⟨s₀, Device.step⟩ (Device.Streams camera stream) s →
          s.AgreesOn stream.imageSize) ∧
    ∀ s, IoctlDevice.machine.Reaches (IoctlDevice.Streams camera csrBase modes) s →
      ∀ c, s.slot = some c → s.AgreesOn c := by
  intro modes
  refine ⟨fun stream hs => ⟨fun interval maxSpeedCode t p hp => ?_, fun s₀ s h₀ hr => ?_⟩,
    fun s hr c hc => ?_⟩
  · obtain ⟨e, he, hmode, hpack⟩ := hs.packetises hp
    exact ⟨e, he, hmode, hpack, fun _ _ _ hchunks => hpack.within hchunks⟩
  · have hprograms : Machine.Reaches ⟨s₀, Device.step⟩ (Device.Programs stream.imageSize) s := by
      refine hr.mono fun s a ha => ?_
      cases a with
      | ctl o => exact fun eb hconf hok => (ha eb hconf hok).eq_imageSize hs
      | _ => trivial
    have hframed := Device.Framed.of_reaches (.opened h₀) hprograms
    exact ⟨hframed.delivered, hframed.accepts⟩
  · have hprograms : IoctlDevice.machine.Reaches IoctlDevice.Programs s := by
      refine hr.mono fun s a ha => ?_
      cases a with
      | dev a =>
        cases a with
        | ctl o =>
          intro c hc eb hconf hok
          obtain ⟨t, stream, hprepare, hsize, hconfigures⟩ := ha c eb hc hconf hok
          rw [← hsize]
          exact hconfigures.eq_imageSize (.prepared hprepare)
        | _ => exact fun _ _ => trivial
      | _ => trivial
    exact (IoctlDevice.Fitting.of_reaches hprograms c hc).agreesOn hc
      (IoctlDevice.founded_of_reachable hr.reachable)

end

namespace Device

instance (n : ℕ) (s : Device) (a : Act) : Decidable (s.Programs n a) :=
  match a with
  | .ctl o => inferInstanceAs (Decidable (∀ eb, s.ctl = .start eb .configure → o.ok = true → o.frameBytes = n))
  | .run _ _ | .callback _ _ | .callPump | .startWork | .workMutex | .lateListen _ | .lateGrant _ _
  | .notifyCancel | .acquireMutex | .api _ | .releaseMutex => isTrue trivial

def wholeFrameRun (n : ℕ) : List Act :=
  let go : Act := .ctl ⟨.completed statusSuccess, 1, true, true, n, false⟩
  [Act.acquireMutex, .api (.start true)] ++ List.replicate 11 go ++
    [Act.runs (.pump .control .elect), .runs (.pump .control .top), .runs (.pump .control (.claim 0)),
      .run (.pump .control (.acquire 0 0)) ⟨statusSuccess, some (7, some n), true⟩,
      .runs (.pump .control (.publish 0 0 7)), .runs (.pump .control (.beginAttach 0 0)),
      .runs (.pump .control (.claim 1)), .runs (.pump .control (.acquire 1 1)),
      .runs (.pump .control (.giveBack 1)), .runs (.pump .control .bottom),
      .runs (.attachAtBus 0), .runs (.attachComplete 0 statusSuccess 7), .runs (.attachLive true),
      .runs (.requestWork .completion .exchange), .runs (.requestWork .completion .acquireLock),
      .runs (.requestWork .completion .queue), .runs .irpDone, .runs .irpDoneTest] ++
    List.replicate 8 go ++
    [Act.releaseMutex, .callback 0 statusSuccess, .runs (.beginDetach .handler 0), .runs (.detachAtBus 0),
      .runs (.detachComplete 0 statusSuccess 7 n statusSuccess), .runs (.detachDeliver 7 n statusSuccess)]

end Device

/-- 640x480 in MONO8 is 300 packets of 1024 bytes, and so a frame of 307200 bytes. -/
theorem frame_size_agreement_vga :
    let stream : Dcam.Stream := ⟨some Stream.vgaMode, 640, 480, 307200, 333333⟩
    let s := Device.machine.after (Device.Programs 307200) (Device.wholeFrameRun 307200)
    Stream.Packetises Stream.vgaMode stream ⟨1024, 300⟩ ∧ s.eng.delivered = [⟨7, 307200, statusSuccess⟩] ∧
      s.AgreesOn 307200 := by
  intro stream s
  have hopen : Stream.openStream Stream.vgaBringup.modes ⟨Stream.sizeofFormat, ⟨0, 0, 0, 0⟩,
      ⟨333333, 0, (0, 0), (0, 0), 640, 480, 8, Stream.ksBiRgb, 0, 0, 0⟩, []⟩ = some stream := by
    decide +kernel
  have hconfigure : (Dcam.configureStream Dcam.registerFile stream 2 Stream.vgaBringup.camera).1 =
      .ok ⟨1024, 300⟩ := by
    decide +kernel
  have hagree := frame_size_agreement Dcam.registerFile Dcam.registerFile 0xFFFFF0F00000
    ⟨Stream.vgaRegisters, []⟩
  rw [show (Dcam.enumerateModes Dcam.registerFile 0xFFFFF0F00000 ⟨Stream.vgaRegisters, []⟩).2 =
    Stream.vgaBringup from rfl] at hagree
  obtain ⟨hpacketises, hframes⟩ := hagree.1 stream (.opened hopen)
  have hr : Device.machine.Reaches (Device.Streams Dcam.registerFile stream) s := by
    refine (Device.machine.reaches_after (Device.Programs 307200) _).mono fun t a ha => ?_
    cases a with
    | ctl o => exact fun eb hc hok => ⟨333333, 2, _, _, hconfigure, ha eb hc hok⟩
    | _ => trivial
  obtain ⟨e, -, hmode, hpack, -⟩ := hpacketises 333333 2 Stream.vgaBringup.camera _ hconfigure
  cases hmode
  exact ⟨hpack, by decide +kernel, hframes _ s .create hr⟩

end Photonic
