import Mathlib.Data.Finset.Basic
import Photonic.Lib.Machine
import Photonic.Lib.Heap
import Photonic.Ioctl.Ring

namespace Photonic

/-- `PHOTONIC_IOCTL_EVENT`, with the reference it holds on the event object. `since` is how
many frames were counted when it came onto the list, and `armed` the countdown it came
with. -/
structure Event where
  ref : ℕ
  handle : ℕ
  type : ℕ
  countdown : ℕ
  since : ℕ
  armed : ℕ
  deriving DecidableEq, Repr

/-- What the holder of `InterfaceMutex` is in the middle of. -/
inductive EventVerb
  | idle
  | register (e : Event)
  | unregister (e : Event)
  | flush (events : List Event)
  | released
  deriving DecidableEq, Repr

/-- The slot's events with the threads at work on them. `delivered` counts the successful
deliveries, and `passed` those whose pass over the list is made. `counted` are the
deliveries before their pass, and `fired` what those behind it still have to signal. -/
structure Events where
  ring : Ring
  delivered : ℕ
  passed : ℕ
  counted : List ℕ
  fired : List (ℕ × List Event)
  eventList : List Event
  verb : EventVerb
  refs : Heap
  signalled : List (Event × ℕ)
  dropped : List Event

namespace Event

def tick (e : Event) : Event := { e with countdown := e.countdown - 1 }

/-- The number of the delivery that an event fires for. -/
def due (e : Event) : ℕ := e.since + e.armed

/-- The countdown a registration arms. -/
def arm (type mappedFrameCount : ℕ) : ℕ := if type = 0 then 1 else mappedFrameCount

end Event

namespace Events

/-- The loop of `PhotonicIoctlFramesSignalEvents` under the lock: what stays on the list,
and what it retires. -/
def kept (events : List Event) : List Event := (events.map .tick).filter (·.countdown ≠ 0)

def retired (events : List Event) : List Event := (events.map .tick).filter (·.countdown = 0)

inductive Act
  | deliver (oneShot : Bool) (d : Delivery)
  | pass (n : ℕ)
  | fire (n : ℕ) (e : Event) (rest : List Event)
  | register (handle type : ℕ) (allocated referenced : Bool)
  | insert
  | unregister (handle type : ℕ)
  | dereference
  | flush
  deriving DecidableEq, Repr

/-- A reference that is released without a signal. -/
def drop (s : Events) (e : Event) (verb : EventVerb) : Events :=
  { s with verb, refs := s.refs.free e.ref, dropped := s.dropped ++ [e] }

def step (s : Events) : Act → Option Events
  -- FrameLock: the frame is counted; the pass over the list comes later, under EventLock
  | .deliver oneShot d =>
    if s.verb = .released then none
    else if maxVideoFrames ≤ Ring.index d.cookie ∨ ntSuccess d.status = false then
      some { s with ring := s.ring.framesDeliver oneShot d }
    else
      some { s with
        ring := s.ring.framesDeliver oneShot d
        delivered := s.delivered + 1
        counted := s.counted ++ [s.delivered + 1] }
  | .pass n =>
    if n ∈ s.counted then
      some { s with
        passed := s.passed + 1
        counted := s.counted.erase n
        eventList := kept s.eventList
        fired := s.fired ++ [(n, retired s.eventList)] }
    else none
  | .fire n e rest =>
    if (n, e :: rest) ∈ s.fired then
      some { s with
        fired := (n, rest) :: s.fired.erase (n, e :: rest)
        refs := s.refs.free e.ref
        signalled := s.signalled ++ [(e, n)] }
    else none
  | .register handle type allocated referenced =>
    if s.verb = .idle then
      if s.ring.mappedFrameCount = 0 ∨ (type ≠ 0 ∧ type ≠ 1) ∨ allocated = false then some s
      else match s.refs.alloc referenced with
        | (none, _) => some s
        | (some ref, refs) =>
          let armed := Event.arm type s.ring.mappedFrameCount
          some { s with refs, verb := .register ⟨ref, handle, type, armed, 0, armed⟩ }
    else none
  -- the counter at this moment is where the event starts to wait
  | .insert =>
    match s.verb with
    | .register e =>
      some { s with verb := .idle, eventList := s.eventList ++ [{ e with since := s.delivered }] }
    | _ => none
  | .unregister handle type =>
    if s.verb = .idle then
      match s.eventList.find? fun e => e.handle = handle ∧ e.type = type with
      | none => some s
      | some e => some { s with eventList := s.eventList.erase e, verb := .unregister e }
    else none
  | .flush =>
    if s.verb = .idle then some { s with eventList := [], verb := .flush s.eventList } else none
  | .dereference =>
    match s.verb with
    | .unregister e => some (s.drop e .idle)
    | .flush (e :: events) => some (s.drop e (.flush events))
    | .flush [] => some { s with verb := .released }
    | _ => none

/-- A slot with `frameCount` frames mapped. -/
def machine (frameCount : ℕ) : Machine Events Act where
  init := ⟨Ring.fresh.publish frameCount, 0, 0, [], [], [], .idle, .empty, [], []⟩
  step := step

/-- An event comes onto the list while no delivery is between its count and its pass, and a
pass out of its turn finds no event that it or the pass whose turn it is would retire. -/
def InTurn (s : Events) : Act → Prop
  | .insert => s.counted = []
  | .pass n => n = s.passed + 1 ∨ ∀ e ∈ s.eventList, e.countdown ≠ 1 ∧ e.due ≠ n
  | _ => True

instance (s : Events) (a : Act) : Decidable (s.InTurn a) :=
  match a with
  | .insert => inferInstanceAs (Decidable (_ = _))
  | .pass _ => inferInstanceAs (Decidable (_ ∨ _))
  | .deliver _ _ | .fire _ _ _ | .register _ _ _ _ | .unregister _ _ | .dereference
  | .flush => .isTrue trivial

def inHand : EventVerb → List Event
  | .register e | .unregister e => [e]
  | .flush events => events
  | _ => []

/-- The references that are neither signalled nor dropped yet. -/
def live (s : Events) : List ℕ :=
  (s.eventList ++ inHand s.verb ++ s.fired.flatMap Prod.snd).map (·.ref)

structure Referenced (s : Events) : Prop where
  owned : s.refs.Owned s.live
  released : ∀ r, s.refs.frees r =
    (s.signalled.map (·.1.ref)).count r + (s.dropped.map (·.ref)).count r

theorem kept_append_retired (events : List Event) :
    ((kept events ++ retired events).map (·.ref)).Perm (events.map (·.ref)) := by
  have hp := List.filter_append_perm (fun e : Event => decide (e.countdown ≠ 0)) (events.map .tick)
  have hf : ((events.map Event.tick).filter fun e => !decide (e.countdown ≠ 0)) = retired events := by
    simp [retired]
  rw [hf] at hp
  refine (hp.map (·.ref)).trans (List.Perm.of_eq ?_)
  rw [List.map_map]
  rfl

namespace Referenced
variable {s s' : Events}

theorem drop (h : s.Referenced) {e : Event} {verb : EventVerb}
    (hv : inHand s.verb = e :: inHand verb) : (s.drop e verb).Referenced := by
  have ho := h.owned
  constructor
  · refine Heap.Owned.free (ho.perm ?_)
    have hp : (s.eventList ++ inHand s.verb ++ s.fired.flatMap Prod.snd).Perm
        (e :: (s.eventList ++ inHand verb ++ s.fired.flatMap Prod.snd)) := by
      rw [hv, List.append_assoc, List.append_assoc]
      exact List.perm_middle
    exact hp.map _
  · intro r
    have hr := h.released r
    simp only [Events.drop, Heap.free, List.map_append, List.map_cons, List.map_nil,
      List.count_append, List.count_singleton]
    by_cases heq : e.ref = r
    · subst heq
      simp only [Function.update_self, beq_self_eq_true, if_true]
      omega
    · rw [Function.update_of_ne (Ne.symm heq), if_neg (by simpa using heq)]
      omega

theorem fire (h : s.Referenced) {n : ℕ} {e : Event} {rest : List Event}
    (hmem : (n, e :: rest) ∈ s.fired) :
    { s with
      fired := (n, rest) :: s.fired.erase (n, e :: rest)
      refs := s.refs.free e.ref
      signalled := s.signalled ++ [(e, n)] }.Referenced := by
  have hfired : (s.fired.flatMap Prod.snd).Perm
      (e :: ((n, rest) :: s.fired.erase (n, e :: rest)).flatMap Prod.snd) :=
    (List.perm_cons_erase hmem).flatMap_right Prod.snd
  constructor
  · refine Heap.Owned.free (h.owned.perm ?_)
    have hp := ((List.Perm.refl (s.eventList ++ inHand s.verb)).append hfired).trans List.perm_middle
    exact hp.map _
  · intro r
    have hr := h.released r
    simp only [Heap.free, List.map_append, List.map_cons, List.map_nil, List.count_append,
      List.count_singleton]
    by_cases heq : e.ref = r
    · subst heq
      simp only [Function.update_self, beq_self_eq_true, if_true]
      omega
    · rw [Function.update_of_ne (Ne.symm heq), if_neg (by simpa using heq)]
      omega

theorem step {a : Act} (h : s.Referenced) (hs : s.step a = some s') : s'.Referenced := by
  cases a with
  | deliver oneShot d =>
    simp only [Events.step] at hs
    split at hs
    · cases hs
    split at hs <;> cases hs <;> exact ⟨h.owned, h.released⟩
  | pass n =>
    simp only [Events.step] at hs
    split at hs <;> cases hs
    refine ⟨h.owned.perm ?_, h.released⟩
    have hp := (kept_append_retired s.eventList).symm
    simp only [live, List.map_append, List.flatMap_append, List.flatMap_cons, List.flatMap_nil,
      List.append_nil] at hp ⊢
    refine ((hp.append_right _).append_right _).trans ?_
    simp only [List.append_assoc]
    refine List.Perm.append_left _ (List.perm_append_comm.trans ?_)
    rw [List.append_assoc]
  | fire n e rest =>
    simp only [Events.step] at hs
    split at hs <;> cases hs
    next hmem => exact h.fire hmem
  | register handle type allocated referenced =>
    simp only [Events.step] at hs
    split at hs
    · next hv =>
      split at hs
      · cases hs
        exact h
      split at hs
      · cases hs
        exact h
      · next ref refs ha =>
        cases hs
        have hf : refs.frees = s.refs.frees := by
          unfold Heap.alloc at ha
          split at ha <;> cases ha
          rfl
        refine ⟨(h.owned.alloc ha).perm ?_, by rw [hf]; exact h.released⟩
        simp only [live, inHand, hv, List.append_nil, List.map_append, List.append_assoc]
        exact List.perm_middle.symm
    · cases hs
  | insert =>
    simp only [Events.step] at hs
    split at hs
    · next e hv =>
      cases hs
      refine ⟨h.owned.perm (List.Perm.of_eq ?_), h.released⟩
      simp [live, inHand, hv]
    · cases hs
  | unregister handle type =>
    simp only [Events.step] at hs
    split at hs
    · next hv =>
      split at hs
      · cases hs
        exact h
      · next e hfind =>
        cases hs
        refine ⟨h.owned.perm ?_, h.released⟩
        have hmem := List.mem_of_find?_eq_some hfind
        have hp : (s.eventList ++ inHand s.verb ++ s.fired.flatMap Prod.snd).Perm
            (s.eventList.erase e ++ inHand (.unregister e) ++ s.fired.flatMap Prod.snd) := by
          rw [hv]
          refine List.Perm.append_right _ ?_
          simp only [inHand, List.append_nil]
          exact (List.perm_cons_erase hmem).trans (List.perm_append_singleton _ _).symm
        exact hp.map _
    · cases hs
  | flush =>
    simp only [Events.step] at hs
    split at hs <;> cases hs
    next hv =>
    refine ⟨h.owned.perm (List.Perm.of_eq ?_), h.released⟩
    simp [live, inHand, hv]
  | dereference =>
    simp only [Events.step] at hs
    split at hs
    · next e hv =>
      cases hs
      exact h.drop (by rw [hv]; rfl)
    · next e events hv =>
      cases hs
      exact h.drop (by rw [hv]; rfl)
    · next hv =>
      cases hs
      refine ⟨h.owned.perm (List.Perm.of_eq ?_), h.released⟩
      simp [live, inHand, hv]
    · cases hs

end Referenced

theorem tick_mem_kept {events : List Event} {e : Event} (h : e ∈ kept events) :
    ∃ e' ∈ events, e = e'.tick ∧ e.countdown ≠ 0 := by
  obtain ⟨hm, hc⟩ := List.mem_filter.mp h
  obtain ⟨e', he', rfl⟩ := List.mem_map.mp hm
  exact ⟨e', he', rfl, by simpa using hc⟩

theorem tick_mem_retired {events : List Event} {e : Event} (h : e ∈ retired events) :
    ∃ e' ∈ events, e = e'.tick ∧ e.countdown = 0 := by
  obtain ⟨hm, hc⟩ := List.mem_filter.mp h
  obtain ⟨e', he', rfl⟩ := List.mem_map.mp hm
  exact ⟨e', he', rfl, by simpa using hc⟩

structure Armed (frameCount : ℕ) (e : Event) : Prop where
  pos : 0 < e.armed
  arm : e.armed = Event.arm e.type frameCount

/-- An event on the list has as many passes to come as its countdown says, and the delivery
it is due for has not made its pass. One that is retired is signalled for that delivery. -/
structure Timed (frameCount : ℕ) (s : Events) : Prop where
  mapped : s.ring.mappedFrameCount = frameCount
  total : s.ring.totalFrameCount = BitVec.ofNat 32 s.delivered
  passed : s.passed + s.counted.length = s.delivered
  counted : ∀ n ∈ s.counted, n ≤ s.delivered
  waiting : ∀ e ∈ s.eventList, Armed frameCount e ∧ 0 < e.countdown ∧
    e.countdown + s.passed = e.due ∧ (s.delivered < e.due ∨ e.due ∈ s.counted)
  registering : ∀ e, s.verb = .register e → Armed frameCount e ∧ e.countdown = e.armed
  fired : ∀ t ∈ s.fired, ∀ e ∈ t.2, Armed frameCount e ∧ t.1 = e.due ∧ t.1 ≤ s.delivered
  signalled : ∀ p ∈ s.signalled, Armed frameCount p.1 ∧ p.2 = p.1.due ∧ p.2 ≤ s.delivered

namespace Timed
variable {frameCount : ℕ} {s s' : Events}

theorem framesDeliver_mapped (oneShot : Bool) (r : Ring) (d : Delivery) :
    (r.framesDeliver oneShot d).mappedFrameCount = r.mappedFrameCount := by
  unfold Ring.framesDeliver
  split
  · rfl
  · split <;> simp

theorem framesDeliver_total (oneShot : Bool) (r : Ring) (d : Delivery) :
    (r.framesDeliver oneShot d).totalFrameCount =
      if maxVideoFrames ≤ Ring.index d.cookie ∨ ntSuccess d.status = false then r.totalFrameCount
      else r.totalFrameCount + 1 := by
  unfold Ring.framesDeliver
  by_cases hi : maxVideoFrames ≤ Ring.index d.cookie
  · simp [hi]
  · cases hd : ntSuccess d.status <;> simp [hi, Ring.count]

theorem deliver (h : Timed frameCount s) {oneShot : Bool} {d : Delivery}
    (hs : s.step (.deliver oneShot d) = some s') : Timed frameCount s' := by
  simp only [Events.step] at hs
  split at hs
  · cases hs
  split at hs <;> cases hs
  · next hno =>
    refine ⟨(framesDeliver_mapped ..).trans h.mapped, ?_, h.passed, h.counted, h.waiting,
      h.registering, h.fired, h.signalled⟩
    rw [← h.total, framesDeliver_total, if_pos hno]
  · next hyes =>
    constructor
    · exact (framesDeliver_mapped ..).trans h.mapped
    · rw [framesDeliver_total, if_neg hyes, h.total, BitVec.ofNat_add]
      rfl
    · have := h.passed
      simp only [List.length_append, List.length_singleton]
      omega
    · intro n hn
      rcases List.mem_append.mp hn with hn | hn
      · exact (h.counted n hn).trans (Nat.le_succ _)
      · exact (List.mem_singleton.mp hn).le
    · intro e he
      obtain ⟨ha, hc, hd, hw⟩ := h.waiting e he
      refine ⟨ha, hc, hd, ?_⟩
      -- due later still, or with this very delivery, whose pass is now to come
      rcases hw with hlt | hmem
      · rcases Nat.lt_or_eq_of_le (Nat.succ_le_of_lt hlt) with hlt | heq
        · exact .inl hlt
        · exact .inr (List.mem_append_right _ (List.mem_singleton.mpr heq.symm))
      · exact .inr (List.mem_append_left _ hmem)
    · exact h.registering
    · intro t ht e he
      obtain ⟨ha, hd, hle⟩ := h.fired t ht e he
      exact ⟨ha, hd, hle.trans (Nat.le_succ _)⟩
    · intro p hp
      obtain ⟨ha, hd, hle⟩ := h.signalled p hp
      exact ⟨ha, hd, hle.trans (Nat.le_succ _)⟩

theorem pass (h : Timed frameCount s) {n : ℕ} (hn : s.InTurn (.pass n))
    (hs : s.step (.pass n) = some s') : Timed frameCount s' := by
  simp only [Events.step] at hs
  split at hs <;> cases hs
  next hmem =>
  constructor
  · exact h.mapped
  · exact h.total
  · have := h.passed
    have hlen := List.length_erase_of_mem hmem
    have := List.length_pos_of_mem hmem
    simp only [hlen]
    omega
  · exact fun m hm => h.counted m (List.mem_of_mem_erase hm)
  · intro e he
    obtain ⟨e', he', rfl, hne⟩ := tick_mem_kept he
    obtain ⟨ha, hc, hd, hw⟩ := h.waiting e' he'
    simp only [Event.tick] at hne ⊢
    refine ⟨⟨ha.pos, ha.arm⟩, by omega, ?_, ?_⟩
    · show e'.countdown - 1 + (s.passed + 1) = e'.due
      omega
    · -- the pass of the delivery it is due for would have retired it
      have hdue : e'.due ≠ n := by
        rcases hn with heq | hno
        · omega
        · exact (hno e' he').2
      exact hw.imp_right fun hm => (List.mem_erase_of_ne hdue).mpr hm
  · exact h.registering
  · intro t ht e he
    rcases List.mem_append.mp ht with ht | ht
    · exact h.fired t ht e he
    · cases List.mem_singleton.mp ht
      obtain ⟨e', he', rfl, hz⟩ := tick_mem_retired he
      obtain ⟨ha, hc, hd, -⟩ := h.waiting e' he'
      simp only [Event.tick] at hz
      -- an event that retires was waiting, so the pass is the next in turn
      have hturn : n = s.passed + 1 := hn.resolve_right fun hno => (hno e' he').1 (by omega)
      refine ⟨⟨ha.pos, ha.arm⟩, ?_, h.counted n hmem⟩
      show n = e'.due
      omega
  · exact h.signalled

theorem step {a : Act} (h : Timed frameCount s) (hn : s.InTurn a) (hs : s.step a = some s') :
    Timed frameCount s' := by
  cases a with
  | deliver oneShot d => exact h.deliver hs
  | pass n => exact h.pass hn hs
  | fire n e rest =>
    simp only [Events.step] at hs
    split at hs <;> cases hs
    next hmem =>
    refine ⟨h.mapped, h.total, h.passed, h.counted, h.waiting, h.registering, ?_, ?_⟩
    · intro t ht e' he'
      rcases List.mem_cons.mp ht with rfl | ht
      · exact h.fired _ hmem e' (List.mem_cons_of_mem _ he')
      · exact h.fired t (List.mem_of_mem_erase ht) e' he'
    · intro p hp
      rcases List.mem_append.mp hp with hp | hp
      · exact h.signalled p hp
      · cases List.mem_singleton.mp hp
        exact h.fired _ hmem e List.mem_cons_self
  | register handle type allocated referenced =>
    simp only [Events.step] at hs
    split at hs
    · split at hs
      · cases hs
        exact h
      next hok =>
      split at hs
      · cases hs
        exact h
      · cases hs
        refine ⟨h.mapped, h.total, h.passed, h.counted, h.waiting, ?_, h.fired, h.signalled⟩
        rintro e ⟨⟩
        refine ⟨⟨?_, by rw [← h.mapped]⟩, rfl⟩
        simp only [Event.arm]
        push Not at hok
        split <;> omega
    · cases hs
  | insert =>
    simp only [Events.step] at hs
    split at hs
    · next e hv =>
      cases hs
      obtain ⟨ha, hc⟩ := h.registering e hv
      refine ⟨h.mapped, h.total, h.passed, h.counted, ?_, nofun, h.fired, h.signalled⟩
      intro e' he'
      rcases List.mem_append.mp he' with he' | he'
      · exact h.waiting e' he'
      · cases List.mem_singleton.mp he'
        -- inserted in turn: no counted delivery is still to walk the list
        have hpass := h.passed
        have hnil : s.counted = [] := hn
        rw [hnil] at hpass
        have hpos := ha.pos
        simp only [List.length_nil] at hpass
        refine ⟨⟨ha.pos, ha.arm⟩, ?_, ?_, .inl ?_⟩
        · show 0 < e.countdown
          omega
        · show e.countdown + s.passed = s.delivered + e.armed
          omega
        · show s.delivered < s.delivered + e.armed
          omega
    · cases hs
  | unregister handle type =>
    simp only [Events.step] at hs
    split at hs
    · split at hs <;> cases hs
      · exact h
      · exact ⟨h.mapped, h.total, h.passed, h.counted,
          fun e he => h.waiting e (List.mem_of_mem_erase he), nofun, h.fired, h.signalled⟩
    · cases hs
  | flush =>
    simp only [Events.step] at hs
    split at hs <;> cases hs
    exact ⟨h.mapped, h.total, h.passed, h.counted, nofun, nofun, h.fired, h.signalled⟩
  | dereference =>
    simp only [Events.step] at hs
    split at hs <;> cases hs <;>
      exact ⟨h.mapped, h.total, h.passed, h.counted, h.waiting, nofun, h.fired, h.signalled⟩

end Timed

section
variable {frameCount : ℕ} {s : Events}

theorem Referenced.of_reachable (h : (machine frameCount).Reachable s) : s.Referenced := by
  refine h.invariant (I := Referenced) ⟨Heap.owned_empty, fun _ => rfl⟩ ?_
  intro s a s' _ hi _ hs
  exact hi.step hs

theorem Timed.of_reaches (h : (machine frameCount).Reaches InTurn s) : Timed frameCount s := by
  refine h.invariant (I := Timed frameCount) ?_ ?_
  · refine ⟨rfl, rfl, rfl, ?_, ?_, ?_, ?_, ?_⟩
    all_goals
      intro x hx
      cases hx
  · intro s a s' _ hi hp hs
    exact hi.step hp hs

/-- While no event is registered between a delivery's count and its pass, and passes retire
events in the order of the counts: an event is signalled for the delivery that its countdown
behind its registration names, which the frame counter counts too; one that is still on the
list is not due, or its delivery is about to make its pass; and each reference is held, or
was released with one signal or with one drop. -/
theorem event_countdown (h : (machine frameCount).Reaches InTurn s) :
    (∀ p ∈ s.signalled, p.1.armed = Event.arm p.1.type frameCount ∧ p.1.since < p.2 ∧
      p.2 = p.1.since + p.1.armed ∧ p.2 ≤ s.delivered) ∧
    (∀ e ∈ s.eventList, s.delivered < e.since + e.armed ∨ e.since + e.armed ∈ s.counted) ∧
    (∀ r < s.refs.next,
      s.live.count r + (s.signalled.map (·.1.ref)).count r + (s.dropped.map (·.ref)).count r = 1) ∧
    (∀ r, s.refs.frees r = (s.signalled.map (·.1.ref)).count r + (s.dropped.map (·.ref)).count r) ∧
    s.ring.totalFrameCount = BitVec.ofNat 32 s.delivered := by
  have ht := Timed.of_reaches h
  have hr := Referenced.of_reachable h.reachable
  refine ⟨fun p hp => ?_, fun e he => (ht.waiting e he).2.2.2, fun r hlt => ?_, hr.released, ht.total⟩
  · obtain ⟨ha, hd, hle⟩ := ht.signalled p hp
    have := ha.pos
    have hdue : p.2 = p.1.since + p.1.armed := hd
    exact ⟨ha.arm, by omega, hdue, hle⟩
  · have := hr.owned.below r hlt
    rw [hr.released r] at this
    omega

end

/-- An event is registered for the next frame and one for a full ring. Of two frames, the
first fires the one, and the second the other. -/
def twoFramesRun : List Act :=
  [.register 7 0 true true, .insert, .register 8 1 true true, .insert,
    .deliver false ⟨0, 8, statusSuccess⟩, .pass 1, .deliver false ⟨1, 8, statusSuccess⟩,
    .fire 1 ⟨0, 7, 0, 0, 0, 1⟩ [], .pass 2, .fire 2 ⟨1, 8, 1, 0, 0, 2⟩ []]

theorem event_countdown_twoFramesRun :
    let s := (machine 2).after InTurn twoFramesRun
    s.signalled.map (·.2) = [1, 2] ∧ ∀ p ∈ s.signalled, p.2 = p.1.since + p.1.armed := by
  refine ⟨by decide, fun p hp => ?_⟩
  exact ((event_countdown (Machine.reaches_after InTurn twoFramesRun)).1 p hp).2.2.1

/-- A frame is counted, an event is registered for the next one, and the counted frame's
delivery makes its pass. -/
def gapRun : List Act :=
  [.deliver false ⟨0, 8, statusSuccess⟩, .register 7 0 true true, .insert, .pass 1,
    .fire 1 ⟨0, 7, 0, 0, 1, 1⟩ []]

/-- Without the condition a frame that was counted before the registration fires the event. -/
theorem fires_for_counted_frame : ¬∀ frameCount s, (machine frameCount).Reachable s →
    ∀ p ∈ s.signalled, p.2 = p.1.since + p.1.armed := by
  intro h
  have hmem : (⟨0, 7, 0, 0, 1, 1⟩, 1) ∈ ((machine 2).after (fun _ _ => True) gapRun).signalled := by
    decide
  exact absurd (h 2 _ (Machine.reaches_after _ gapRun) _ hmem) (by decide)

end Events
end Photonic
