import EvoAudio.Multiroom.Receiver

/-!
# The order of the jitter buffer

What the receiver task renders of the frames of one stream: each of them once,
in the order of their presentation times and never early, as long as they arrive
before they are due and the queue stays within its cap. The sum of a frame's
offset and the leader is a `u64`; a frame whose sum wraps is rendered at once.
-/

namespace EvoAudio.Multiroom.Receiver

/-- When a frame is due. A frame from before the anchor is due with it. -/
def dueAt (anchor : Nat × Nat) (leaderMs : Nat) (frame : Frame) : Nat :=
  anchor.1 + (frame.presentationTimeMs - anchor.2 + leaderMs) * 1000000

/-- A frame that was handed to ALSA, with the clock and the leader its tick read. -/
structure Rendering where
  frame : Frame
  now : Nat
  leaderMs : Nat
  deriving DecidableEq, Repr

/-- What an event renders. -/
def State.renders (s : State) : Event → List Rendering
  | .tick now leaderMs _ _ =>
    match s.anchor with
    | some anchor => (renderDue anchor now leaderMs s.queue).1.map (⟨·, now, leaderMs⟩)
    | none => []
  | _ => []

/-- What a run renders, oldest first. -/
def State.renderings (g : Option String) : State → List Event → List Rendering
  | _, [] => []
  | s, e :: events => s.renders e ++ (s.step g e).renderings g events

/-- The frames of a run that the receiver takes, in the order they arrive. -/
def acceptedFrames (g : Option String) (events : List Event) : List Frame :=
  events.filterMap fun e =>
    match e with
    | .received frame _ => if refuses g frame then none else some frame
    | _ => none

/-- The clock does not run backwards, no tick reads a leader below `leaderMs`,
and every frame that is taken arrives before it is due and finds room in the
queue. The broadcast never lags. -/
def Timely (g : Option String) (leaderMs : Nat) : Nat → State → List Event → Prop
  | _, _, [] => True
  | clock, s, .received frame now :: events =>
    clock ≤ now ∧
      (refuses g frame = false → s.queue.length < maxReceiverQueueFrames ∧
        now < dueAt (s.anchor.getD (now, frame.presentationTimeMs)) leaderMs frame) ∧
      Timely g leaderMs now (s.step g (.received frame now)) events
  | clock, s, .tick now leader below writeOk :: events =>
    clock ≤ now ∧ leaderMs ≤ leader ∧
      Timely g leaderMs now (s.step g (.tick now leader below writeOk)) events
  | _, _, .lagged _ :: _ => False

/-- At a tick, the leader and the offset of a queued frame stay below `2 ^ 64`
together. -/
def Event.Unwrapped (s : State) : Event → Prop
  | .tick _ leader _ _ => ∀ anchor ∈ s.anchor, ∀ frame ∈ s.queue,
      frame.presentationTimeMs - anchor.2 + leader < 2 ^ 64
  | _ => True

def Unwrapped (g : Option String) : State → List Event → Prop
  | _, [] => True
  | s, e :: events => e.Unwrapped s ∧ Unwrapped g (s.step g e) events

-- ---------------------------------------------------------------------------
-- One event
-- ---------------------------------------------------------------------------

theorem Before.trans {a b c : Frame} (h : Before a b) (h' : Before b c) : Before a c := by
  unfold Before at *
  omega

instance : IsTrans Frame Before := ⟨fun _ _ _ => Before.trans⟩

instance : Std.Total Before := ⟨fun a b => by unfold Before; omega⟩

/-- What is due earlier is presented earlier. -/
theorem before_of_dueAt_lt {anchor : Nat × Nat} {a b : Frame}
    (h : dueAt anchor leaderMs a < dueAt anchor leaderMs b) : Before a b := by
  unfold dueAt at h
  refine .inl ?_
  omega

theorem dueAt_mono {anchor : Nat × Nat} {frame : Frame} (h : leaderMs ≤ leader) :
    dueAt anchor leaderMs frame ≤ dueAt anchor leader frame := by
  unfold dueAt
  omega

theorem renderAt_eq_dueAt {anchor : Nat × Nat} {frame : Frame}
    (h : frame.presentationTimeMs - anchor.2 + leaderMs < 2 ^ 64) :
    renderAt anchor leaderMs frame = dueAt anchor leaderMs frame := by
  rw [renderAt, dueAt, Nat.mod_eq_of_lt h]

theorem renderAt_le_dueAt {anchor : Nat × Nat} {frame : Frame} :
    renderAt anchor leaderMs frame ≤ dueAt anchor leaderMs frame := by
  have hle := Nat.mod_le (frame.presentationTimeMs - anchor.2 + leaderMs) (2 ^ 64)
  unfold renderAt dueAt
  omega

/-- The frames that a tick pops have reached their time. -/
theorem renderAt_le_of_mem {anchor : Nat × Nat} {queue : List Frame} {frame : Frame}
    (h : frame ∈ (renderDue anchor now leaderMs queue).1) :
    renderAt anchor leaderMs frame ≤ now := by
  induction queue with
  | nil => simp [renderDue] at h
  | cons head queue ih =>
    simp only [renderDue] at h
    split at h
    · simp at h
    next hdue =>
      rcases List.mem_cons.mp h with rfl | h
      · exact Nat.le_of_not_gt hdue
      · exact ih h

/-- A tick at which everything queued is due leaves nothing. -/
theorem renderDue_all {anchor : Nat × Nat} {queue : List Frame}
    (h : ∀ frame ∈ queue, renderAt anchor leaderMs frame ≤ now) :
    renderDue anchor now leaderMs queue = (queue, []) := by
  induction queue with
  | nil => rfl
  | cons head queue ih =>
    obtain ⟨hhead, hqueue⟩ := List.forall_mem_cons.mp h
    simp only [renderDue, if_neg (Nat.not_lt.mpr hhead), ih hqueue]

/-- What a tick does to the frames. -/
theorem tick_frames {s : State} (hanchor : s.anchor = some anchor) :
    (s.tick now leaderMs below writeOk).queue = (renderDue anchor now leaderMs s.queue).2 ∧
      (s.tick now leaderMs below writeOk).rendered =
        s.rendered ++ (renderDue anchor now leaderMs s.queue).1 ∧
      (s.tick now leaderMs below writeOk).anchor = some anchor := by
  have happ := renderDue_append anchor now leaderMs s.queue
  unfold State.tick
  rw [hanchor]
  dsimp only
  split
  next rest heq =>
    rw [heq] at happ ⊢
    split
    · exact ⟨happ.symm, by simp, rfl⟩
    · exact ⟨happ.symm, by simp, hanchor⟩
  next due rest _ heq =>
    rw [heq]
    exact ⟨rfl, rfl, rfl⟩

/-- What taking a frame does to the frames, when there is room for it. -/
theorem receive_frames {s : State} (hroom : s.queue.length < maxReceiverQueueFrames)
    (htaken : refuses g frame = false) :
    (s.receive g frame now).queue = (s.queue ++ [frame]).insertionSort Before ∧
      (s.receive g frame now).rendered = s.rendered ∧
      (s.receive g frame now).anchor = some (s.anchor.getD (now, frame.presentationTimeMs)) := by
  simp only [refuses, Bool.or_eq_false_iff] at htaken
  have hdrop : (s.queue.length + 1) - maxReceiverQueueFrames = 0 := by omega
  simp [State.receive, htaken.1, htaken.2, State.enqueue, hdrop]

theorem receive_refused {s : State} (hrefused : refuses g frame = true) :
    s.receive g frame now = { s with frameDrops := s.frameDrops + 1 } := by
  simp only [refuses, Bool.or_eq_true] at hrefused
  unfold State.receive
  rcases hrefused with h | h
  · simp [h]
  · simp [h]

theorem step_rendered (g : Option String) (s : State) (e : Event) :
    (s.step g e).rendered = s.rendered ++ (s.renders e).map Rendering.frame := by
  cases e with
  | received frame now =>
    simp only [State.step, State.renders, State.receive, State.enqueue]
    split
    · simp
    · split <;> simp
  | lagged dropped => simp [State.step, State.lag, State.renders]
  | tick now leaderMs below writeOk =>
    cases hanchor : s.anchor with
    | none => simp [State.step, State.tick, State.renders, hanchor]
    | some anchor =>
      simp [State.step, State.renders, hanchor, (tick_frames hanchor).2.1, Function.comp_def]

theorem run_rendered (g : Option String) (s : State) (events : List Event) :
    (s.run g events).rendered = s.rendered ++ (s.renderings g events).map Rendering.frame := by
  induction events generalizing s with
  | nil => simp [State.run, State.renderings]
  | cons e events ih =>
    have hrest := ih (s.step g e)
    simp only [State.run, List.foldl_cons] at hrest ⊢
    simp [hrest, step_rendered, State.renderings]

-- ---------------------------------------------------------------------------
-- Timely runs
-- ---------------------------------------------------------------------------

/-- The frames taken so far are rendered or queued, both in order and the first
before the second, and what is rendered was due. -/
structure Ordered (leaderMs clock : Nat) (taken : List Frame) (s : State) : Prop where
  perm : (s.rendered ++ s.queue).Perm taken
  sorted : (s.rendered ++ s.queue).Pairwise Before
  due : ∀ frame ∈ s.rendered, ∃ anchor ∈ s.anchor, dueAt anchor leaderMs frame ≤ clock
  anchored : s.anchor = none → s.queue = []

namespace Ordered

variable {s : State} {clock leaderMs : Nat} {taken : List Frame}

theorem receive (h : Ordered leaderMs clock taken s) (hclock : clock ≤ now)
    (hroom : s.queue.length < maxReceiverQueueFrames) (htaken : refuses g frame = false)
    (hearly : now < dueAt (s.anchor.getD (now, frame.presentationTimeMs)) leaderMs frame) :
    Ordered leaderMs now (taken ++ [frame]) (s.receive g frame now) := by
  obtain ⟨hqueue, hrendered, hanchor⟩ := @receive_frames g frame now s hroom htaken
  have hsort := List.perm_insertionSort Before (s.queue ++ [frame])
  have hsplit := List.pairwise_append.mp h.sorted
  have hdue (old : Frame) (hold : old ∈ s.rendered) :
      dueAt (s.anchor.getD (now, frame.presentationTimeMs)) leaderMs old ≤ clock := by
    obtain ⟨anchor, hanchor, hdue⟩ := h.due old hold
    rw [Option.mem_def.mp hanchor]
    exact hdue
  refine ⟨?_, ?_, ?_, by simp [hanchor]⟩
  · rw [hqueue, hrendered]
    refine (hsort.append_left s.rendered).trans ?_
    rw [← List.append_assoc]
    exact h.perm.append_right [frame]
  · rw [hqueue, hrendered, List.pairwise_append]
    refine ⟨hsplit.1, List.pairwise_insertionSort Before _, fun old hold queued hqueued => ?_⟩
    rcases List.mem_append.mp (hsort.mem_iff.mp hqueued) with hqueued | hqueued
    · exact hsplit.2.2 old hold queued hqueued
    · -- what was rendered was due before the frame arrived, and the frame is not
      cases List.mem_singleton.mp hqueued
      exact before_of_dueAt_lt (Nat.lt_of_le_of_lt ((hdue old hold).trans hclock) hearly)
  · intro old hold
    rw [hrendered] at hold
    exact ⟨_, hanchor, (hdue old hold).trans hclock⟩

theorem tick (h : Ordered leaderMs clock taken s) (hclock : clock ≤ now)
    (hleader : leaderMs ≤ leader)
    (hfits : ∀ anchor ∈ s.anchor, ∀ frame ∈ s.queue,
      frame.presentationTimeMs - anchor.2 + leader < 2 ^ 64) :
    Ordered leaderMs now taken (s.tick now leader below writeOk) := by
  cases hanchor : s.anchor with
  | none =>
    have hsame : s.tick now leader below writeOk = s := by simp [State.tick, hanchor]
    rw [hsame]
    refine ⟨h.perm, h.sorted, fun frame hframe => ?_, h.anchored⟩
    obtain ⟨anchor, hsome, -⟩ := h.due frame hframe
    rw [hanchor] at hsome
    cases hsome
  | some anchor =>
    obtain ⟨hqueue, hrendered, hanchor'⟩ := @tick_frames anchor now leader below writeOk s hanchor
    have happ := renderDue_append anchor now leader s.queue
    refine ⟨?_, ?_, ?_, by simp [hanchor']⟩
    · rw [hqueue, hrendered, List.append_assoc, happ]
      exact h.perm
    · rw [hqueue, hrendered, List.append_assoc, happ]
      exact h.sorted
    · intro frame hframe
      refine ⟨anchor, hanchor', ?_⟩
      rw [hrendered] at hframe
      rcases List.mem_append.mp hframe with hold | hnew
      · obtain ⟨anchor', hsome, hdue⟩ := h.due frame hold
        cases hanchor.symm.trans hsome
        exact hdue.trans hclock
      · have hqueued : frame ∈ s.queue := happ ▸ List.mem_append_left _ hnew
        have hdue := renderAt_le_of_mem hnew
        rw [renderAt_eq_dueAt (hfits anchor hanchor frame hqueued)] at hdue
        exact (dueAt_mono hleader).trans hdue

end Ordered

theorem acceptedFrames_cons (g : Option String) (e : Event) (events : List Event) :
    acceptedFrames g (e :: events) = acceptedFrames g [e] ++ acceptedFrames g events :=
  List.filterMap_append (l := [e])

theorem run_ordered {g : Option String} {s : State} {events : List Event}
    (htimely : Timely g leaderMs clock s events) (hunwrapped : Unwrapped g s events)
    (h : Ordered leaderMs clock taken s) :
    ∃ clock', Ordered leaderMs clock' (taken ++ acceptedFrames g events) (s.run g events) := by
  induction events generalizing s clock taken with
  | nil => exact ⟨clock, by simpa [acceptedFrames, State.run] using h⟩
  | cons e events ih =>
    obtain ⟨hfits, hunwrapped⟩ := hunwrapped
    rw [acceptedFrames_cons, ← List.append_assoc]
    cases e with
    | received frame now =>
      obtain ⟨hclock, hearly, htimely⟩ := htimely
      refine ih htimely hunwrapped ?_
      cases hrefused : refuses g frame with
      | true =>
        have hsame : s.step g (.received frame now) = _ := receive_refused hrefused
        have hnone : acceptedFrames g [.received frame now] = [] := by
          simp [acceptedFrames, hrefused]
        rw [hsame, hnone, List.append_nil]
        refine ⟨h.perm, h.sorted, fun old hold => ?_, h.anchored⟩
        obtain ⟨anchor, hanchor, hdue⟩ := h.due old hold
        exact ⟨anchor, hanchor, hdue.trans hclock⟩
      | false =>
        have hone : acceptedFrames g [.received frame now] = [frame] := by
          simp [acceptedFrames, hrefused]
        rw [hone]
        exact h.receive hclock (hearly hrefused).1 hrefused (hearly hrefused).2
    | tick now leader below writeOk =>
      obtain ⟨hclock, hleader, htimely⟩ := htimely
      refine ih htimely hunwrapped ?_
      have hnone : acceptedFrames g [.tick now leader below writeOk] = [] := rfl
      rw [hnone, List.append_nil]
      exact h.tick hclock hleader hfits
    | lagged dropped => exact htimely.elim

/-- Without a lag the anchor stays where the first frame has put it. -/
theorem run_anchor {g : Option String} {s : State} {events : List Event}
    (htimely : Timely g leaderMs clock s events) (h : s.anchor = some anchor) :
    (s.run g events).anchor = some anchor := by
  induction events generalizing s clock with
  | nil => exact h
  | cons e events ih =>
    cases e with
    | received frame now =>
      refine ih htimely.2.2 ?_
      simp only [State.step, State.receive, State.enqueue]
      split
      · exact h
      · split
        · exact h
        · simp [h]
    | tick now leader below writeOk => exact ih htimely.2.2 (tick_frames h).2.2
    | lagged dropped => exact htimely.elim

theorem renderings_due {g : Option String} {s : State} {events : List Event}
    (htimely : Timely g leaderMs clock s events) (hunwrapped : Unwrapped g s events)
    (h : rendering ∈ s.renderings g events) :
    ∃ anchor ∈ (s.run g events).anchor,
      dueAt anchor rendering.leaderMs rendering.frame ≤ rendering.now := by
  induction events generalizing s clock with
  | nil => cases h
  | cons e events ih =>
    obtain ⟨hfits, hunwrapped⟩ := hunwrapped
    cases e with
    | received frame now => exact ih htimely.2.2 hunwrapped h
    | lagged dropped => exact htimely.elim
    | tick now leader below writeOk =>
      rcases List.mem_append.mp h with hnow | hlater
      · cases hanchor : s.anchor with
        | none => simp [State.renders, hanchor] at hnow
        | some anchor =>
          simp only [State.renders, hanchor, List.mem_map] at hnow
          obtain ⟨frame, hframe, rfl⟩ := hnow
          have hqueued : frame ∈ s.queue :=
            renderDue_append anchor now leader s.queue ▸ List.mem_append_left _ hframe
          have hdue := renderAt_le_of_mem hframe
          rw [renderAt_eq_dueAt (hfits anchor hanchor frame hqueued)] at hdue
          exact ⟨anchor, run_anchor htimely hanchor, hdue⟩
      · exact ih htimely.2.2 hunwrapped hlater

/-- The frames that are taken are rendered once each, in the order of their
presentation times and sequence numbers, and never before they are due. -/
structure RendersInOrder (g : Option String) (events : List Event) : Prop where
  once : ((State.init.run g events).rendered ++ (State.init.run g events).queue).Perm
    (acceptedFrames g events)
  order : (State.init.run g events).rendered.Pairwise Before
  logged : (State.init.renderings g events).map Rendering.frame =
    (State.init.run g events).rendered
  notEarly : ∀ rendering ∈ State.init.renderings g events,
    ∃ anchor ∈ (State.init.run g events).anchor,
      dueAt anchor rendering.leaderMs rendering.frame ≤ rendering.now
  /-- None is left when a tick comes at which all are due. -/
  all : ∀ now leader below writeOk,
    (∀ anchor ∈ (State.init.run g events).anchor, ∀ frame ∈ acceptedFrames g events,
      dueAt anchor leader frame ≤ now) →
    ((State.init.run g events).tick now leader below writeOk).rendered.Perm
      (acceptedFrames g events)

/-- A tick at which everything queued is due renders what is left. -/
theorem tick_renders_all {s : State} (hperm : (s.rendered ++ s.queue).Perm taken)
    (hanchored : s.anchor = none → s.queue = [])
    (hdue : ∀ anchor ∈ s.anchor, ∀ frame ∈ taken, dueAt anchor leader frame ≤ now) :
    (s.tick now leader below writeOk).rendered.Perm taken := by
  cases hanchor : s.anchor with
  | none =>
    rw [hanchored hanchor, List.append_nil] at hperm
    simpa [State.tick, hanchor] using hperm
  | some anchor =>
    have hall : renderDue anchor now leader s.queue = (s.queue, []) := by
      refine renderDue_all fun frame hframe => renderAt_le_dueAt.trans ?_
      exact hdue anchor hanchor frame (hperm.mem_iff.mp (List.mem_append_right _ hframe))
    rw [(tick_frames hanchor).2.1, hall]
    exact hperm

/-- In every run where the frames arrive in time and find room, and where no
sum of an offset and a leader wraps, they are rendered in order. -/
theorem renders_in_order {g : Option String} {leaderMs : Nat} {events : List Event}
    (htimely : Timely g leaderMs 0 .init events) (hunwrapped : Unwrapped g .init events) :
    RendersInOrder g events := by
  have hinit : Ordered leaderMs 0 [] .init :=
    ⟨.refl _, by simp [State.init], by simp [State.init], by simp [State.init]⟩
  obtain ⟨clock, hordered⟩ := run_ordered htimely hunwrapped hinit
  rw [List.nil_append] at hordered
  refine ⟨hordered.perm, (List.pairwise_append.mp hordered.sorted).1, ?_,
    fun rendering h => renderings_due htimely hunwrapped h, ?_⟩
  · simp [run_rendered, State.init]
  · intro now leader below writeOk hdue
    exact tick_renders_all hordered.perm hordered.anchored hdue

section Runs

instance decidableTimely (g : Option String) (leaderMs : Nat) : (clock : Nat) → (s : State) →
    (events : List Event) → Decidable (Timely g leaderMs clock s events)
  | _, _, [] => .isTrue trivial
  | _, _, .lagged _ :: _ => .isFalse id
  | clock, s, .received frame now :: events =>
    have := decidableTimely g leaderMs now (s.step g (.received frame now)) events
    inferInstanceAs (Decidable (clock ≤ now ∧ _ ∧ _))
  | clock, s, .tick now leader below writeOk :: events =>
    have := decidableTimely g leaderMs now (s.step g (.tick now leader below writeOk)) events
    inferInstanceAs (Decidable (clock ≤ now ∧ leaderMs ≤ leader ∧ _))

instance decidableEventUnwrapped (s : State) : (e : Event) → Decidable (e.Unwrapped s)
  | .tick _ leader _ _ => inferInstanceAs (Decidable (∀ anchor ∈ s.anchor, ∀ frame ∈ s.queue,
      frame.presentationTimeMs - anchor.2 + leader < 2 ^ 64))
  | .received _ _ | .lagged _ => .isTrue trivial

instance decidableUnwrapped (g : Option String) : (s : State) → (events : List Event) →
    Decidable (Unwrapped g s events)
  | _, [] => .isTrue trivial
  | s, e :: events =>
    have := decidableUnwrapped g (s.step g e) events
    inferInstanceAs (Decidable (e.Unwrapped s ∧ _))

end Runs

/-- Two frames overtake each other on the way. -/
def overtaking : List Event :=
  [.received (quietFrame 2) 0, .received (quietFrame 1) 5000000, .tick 250000000 200 false true]

theorem renders_in_order_overtaking :
    Timely (some "g") 200 0 .init overtaking ∧ Unwrapped (some "g") .init overtaking ∧
      RendersInOrder (some "g") overtaking ∧
      (State.init.run (some "g") overtaking).rendered = [quietFrame 1, quietFrame 2] :=
  ⟨by decide, by decide, @renders_in_order (some "g") 200 overtaking (by decide) (by decide),
    by decide⟩

/-- A frame of the far end of the stream's clock. -/
def farFrame : Frame := { quietFrame 2 with presentationTimeMs := 2 ^ 64 - 10 }

def wrapping : List Event :=
  [.received (quietFrame 0) 0, .received farFrame 0, .tick 20000000 20 false true]

/-- Both frames arrive in time, and the second is rendered with the first, some
584 million years early. -/
theorem far_frame_renders_early :
    Timely (some "g") 20 0 .init wrapping ∧ ¬ RendersInOrder (some "g") wrapping := by
  refine ⟨by decide, fun h => ?_⟩
  obtain ⟨anchor, hanchor, hdue⟩ := h.notEarly ⟨farFrame, 20000000, 20⟩ (by decide)
  have hzero : anchor = (0, 0) := by
    have hsome : (State.init.run (some "g") wrapping).anchor = some (0, 0) := by decide
    exact Option.some.inj (hanchor.symm.trans hsome)
  subst hzero
  revert hdue
  decide

end EvoAudio.Multiroom.Receiver
