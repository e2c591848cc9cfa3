import Mathlib.Algebra.Ring.Nat
import Mathlib.Data.List.Sort

/-!
# The receiver task

The frame handling of `run_receiver_task`: frames are refused, queued in
presentation order, trimmed to the cap, rendered when due, or thrown away
when the broadcast lags. One `Event` is one turn of the select loop; leaving
the loop (shutdown, closed stream) ends the list of events.

Times are nanoseconds of the local monotonic clock, stream times are `u64`
milliseconds, and the counters are unbounded.
-/

namespace EvoAudio.Multiroom.Receiver

structure Frame where
  fromDeviceId : String
  groupId : String
  sequence : Nat
  presentationTimeMs : Nat
  codec : String
  rateHz : Nat
  channels : Nat
  payload : List UInt8
  deriving DecidableEq, Repr

def baselineSampleRateHz : Nat := 48000
def baselineChannels : Nat := 2
def maxReceiverQueueFrames : Nat := 250

inductive Event
  /-- `Ok(frame)`, with the clock reading an anchor would take. -/
  | received (frame : Frame) (now : Nat)
  | lagged (dropped : Nat)
  /-- A scheduler tick. `below` is what `queued_frames_below` answers and
  `writeOk` whether the silence is written. -/
  | tick (now leaderMs : Nat) (below writeOk : Bool)
  deriving Repr

structure State where
  counter : Nat
  frameDrops : Nat
  underruns : Nat
  queueDepth : Nat
  queue : List Frame
  /-- `anchor_local` and `anchor_pts_ms`, which are set and reset together. -/
  anchor : Option (Nat × Nat)
  /-- The frames handed to ALSA, oldest first. -/
  rendered : List Frame
  deriving DecidableEq, Repr

def State.init : State :=
  { counter := 0, frameDrops := 0, underruns := 0, queueDepth := 0, queue := [], anchor := none,
    rendered := [] }

-- ---------------------------------------------------------------------------
-- The three arms of the loop
-- ---------------------------------------------------------------------------

def unrelatedGroup (expectedGroupId : Option String) (frame : Frame) : Bool :=
  match expectedGroupId with
  | some expected => frame.groupId != expected
  | none => false

def unsupportedFormat (frame : Frame) : Bool :=
  frame.codec != "pcm_s16_le" || frame.rateHz != baselineSampleRateHz ||
    frame.channels != baselineChannels || frame.payload.length % 4 != 0

def refuses (expectedGroupId : Option String) (frame : Frame) : Bool :=
  unrelatedGroup expectedGroupId frame || unsupportedFormat frame

/-- The order `sort_by` keeps the queue in; the sort is stable. -/
def Before (a b : Frame) : Prop :=
  a.presentationTimeMs < b.presentationTimeMs ∨
    a.presentationTimeMs = b.presentationTimeMs ∧ a.sequence ≤ b.sequence

instance (a b : Frame) : Decidable (Before a b) :=
  inferInstanceAs (Decidable (_ ∨ _))

/-- Push, sort, and drop the oldest frames beyond the cap. -/
def State.enqueue (s : State) (frame : Frame) : State :=
  let queue := (s.queue ++ [frame]).insertionSort Before
  let toDrop := queue.length - maxReceiverQueueFrames
  { s with
    queue := queue.drop toDrop
    frameDrops := s.frameDrops + toDrop
    queueDepth := (queue.drop toDrop).length }

def State.receive (expectedGroupId : Option String) (s : State) (frame : Frame) (now : Nat) :
    State :=
  if unrelatedGroup expectedGroupId frame then { s with frameDrops := s.frameDrops + 1 }
  else if unsupportedFormat frame then { s with frameDrops := s.frameDrops + 1 }
  else
    let anchor := s.anchor.getD (now, frame.presentationTimeMs)
    { s with counter := s.counter + 1, anchor := some anchor }.enqueue frame

def State.lag (s : State) (dropped : Nat) : State :=
  { s with frameDrops := s.frameDrops + dropped, queue := [], queueDepth := 0, anchor := none }

/-- `render_at`; the `u64` sum of offset and leader wraps. -/
def renderAt (anchor : Nat × Nat) (leaderMs : Nat) (frame : Frame) : Nat :=
  anchor.1 + (frame.presentationTimeMs - anchor.2 + leaderMs) % 2 ^ 64 * 1000000

/-- The `while let` of a tick: the frames popped before the first one that
is not due, and the frames left. -/
def renderDue (anchor : Nat × Nat) (now leaderMs : Nat) : List Frame → List Frame × List Frame
  | [] => ([], [])
  | frame :: queue =>
    if renderAt anchor leaderMs frame > now then ([], frame :: queue)
    else
      let (due, rest) := renderDue anchor now leaderMs queue
      (frame :: due, rest)

def State.tick (s : State) (now leaderMs : Nat) (below writeOk : Bool) : State :=
  match s.anchor with
  | none => s
  | some anchor =>
    match renderDue anchor now leaderMs s.queue with
    | ([], _) => if below && writeOk then { s with underruns := s.underruns + 1 } else s
    | (due, rest) =>
      { s with queue := rest, queueDepth := rest.length, rendered := s.rendered ++ due }

def State.step (expectedGroupId : Option String) (s : State) : Event → State
  | .received frame now => s.receive expectedGroupId frame now
  | .lagged dropped => s.lag dropped
  | .tick now leaderMs below writeOk => s.tick now leaderMs below writeOk

def State.run (expectedGroupId : Option String) (s : State) (events : List Event) : State :=
  events.foldl (State.step expectedGroupId) s

-- ---------------------------------------------------------------------------
-- What one event does to the balance
-- ---------------------------------------------------------------------------

/-- The frames an event brings to the task's attention. -/
def Event.offered : Event → Nat
  | .received .. => 1
  | .lagged dropped => dropped
  | .tick .. => 0

def Event.accepted (expectedGroupId : Option String) : Event → Nat
  | .received frame _ => if refuses expectedGroupId frame then 0 else 1
  | _ => 0

/-- The queued frames a lag notification throws away. -/
def State.discarded (s : State) : Event → Nat
  | .lagged _ => s.queue.length
  | _ => 0

/-- Every frame the task has an account of. -/
def State.accounted (s : State) : Nat := s.rendered.length + s.queue.length + s.frameDrops

theorem enqueue_accounted : (State.enqueue s frame).accounted = s.accounted + 1 := by
  simp only [State.enqueue, State.accounted, List.length_drop, List.length_insertionSort,
    List.length_append, List.length_singleton]
  omega

theorem receive_accounted : (State.receive g s frame now).accounted = s.accounted + 1 := by
  unfold State.receive
  split
  · simp only [State.accounted]; omega
  · split
    · simp only [State.accounted]; omega
    · rw [enqueue_accounted]
      simp only [State.accounted]

theorem receive_counter :
    (State.receive g s frame now).counter = s.counter + if refuses g frame then 0 else 1 := by
  unfold State.receive refuses
  cases unrelatedGroup g frame <;> cases unsupportedFormat frame <;> simp [State.enqueue]

/-- The loop of a tick loses nothing: what it pops is rendered. -/
theorem renderDue_append (anchor : Nat × Nat) (now leaderMs : Nat) (queue : List Frame) :
    (renderDue anchor now leaderMs queue).1 ++ (renderDue anchor now leaderMs queue).2 = queue := by
  induction queue with
  | nil => rfl
  | cons frame queue ih =>
    simp only [renderDue]
    split
    · rfl
    · simpa using ih

theorem tick_accounted : (State.tick s now leaderMs below writeOk).accounted = s.accounted := by
  unfold State.tick
  split
  · rfl
  · rename_i anchor _
    have happ := renderDue_append anchor now leaderMs s.queue
    split
    · split <;> rfl
    · rename_i due rest _ heq
      rw [heq] at happ
      simp only [State.accounted, List.length_append, ← happ]
      omega

theorem tick_counter : (State.tick s now leaderMs below writeOk).counter = s.counter := by
  unfold State.tick
  split
  · rfl
  · split
    · split <;> rfl
    · rfl

theorem step_accounted (g : Option String) (s : State) (e : Event) :
    (State.step g s e).accounted + s.discarded e = s.accounted + e.offered := by
  cases e with
  | received frame now =>
    simp only [State.step, State.discarded, Event.offered, receive_accounted, Nat.add_zero]
  | lagged dropped =>
    simp only [State.step, State.lag, State.discarded, Event.offered, State.accounted,
      List.length_nil]
    omega
  | tick now leaderMs below writeOk =>
    simp [State.step, State.discarded, Event.offered, tick_accounted]

theorem step_counter (g : Option String) (s : State) (e : Event) :
    (State.step g s e).counter = s.counter + e.accepted g := by
  cases e with
  | received frame now => simp [State.step, receive_counter, Event.accepted]
  | lagged dropped => simp [State.step, State.lag, Event.accepted]
  | tick now leaderMs below writeOk => simp [State.step, tick_counter, Event.accepted]

-- ---------------------------------------------------------------------------
-- Whole runs
-- ---------------------------------------------------------------------------

/-- Drop counts that are not about accepted frames: refusals, and frames the
broadcast reports as never delivered. -/
def notAccepted (g : Option String) (events : List Event) : Nat :=
  (events.map fun e => e.offered - e.accepted g).sum

/-- Accepted frames are rendered, queued, or counted in `frame_drops`. -/
def Conserved (g : Option String) (events : List Event) : Prop :=
  let s := State.init.run g events
  s.counter + notAccepted g events = s.rendered.length + s.queue.length + s.frameDrops

instance : Decidable (Conserved g events) := inferInstanceAs (Decidable (_ = _))

/-- Every lag notification of the run finds the queue empty. -/
def LagsFindQueueEmpty (g : Option String) : State → List Event → Prop
  | _, [] => True
  | s, e :: events => ((∃ n, e = .lagged n) → s.queue = []) ∧
      LagsFindQueueEmpty g (s.step g e) events

/-- The accepted frames a run loses without counting them. -/
def State.lost (g : Option String) : State → List Event → Nat
  | _, [] => 0
  | s, e :: events => s.discarded e + (s.step g e).lost g events

theorem run_accounted (g : Option String) (s : State) (events : List Event) :
    (s.run g events).accounted + s.lost g events = s.accounted + (events.map Event.offered).sum := by
  induction events generalizing s with
  | nil => rfl
  | cons e events ih =>
    have hstep := step_accounted g s e
    have hrest := ih (s.step g e)
    simp only [State.run, List.foldl_cons, State.lost, List.map_cons, List.sum_cons] at hrest ⊢
    omega

theorem run_counter (g : Option String) (s : State) (events : List Event) :
    (s.run g events).counter + notAccepted g events =
      s.counter + (events.map Event.offered).sum := by
  induction events generalizing s with
  | nil => rfl
  | cons e events ih =>
    have hstep := step_counter g s e
    have hrest := ih (s.step g e)
    have hle : e.accepted g ≤ e.offered := by
      cases e with
      | received frame now => simp only [Event.accepted, Event.offered]; split <;> omega
      | lagged n => simp [Event.accepted]
      | tick now leaderMs below writeOk => simp [Event.accepted]
    simp only [State.run, List.foldl_cons, notAccepted, List.map_cons, List.sum_cons] at hrest ⊢
    omega

theorem discarded_eq_zero {s : State} {e : Event} :
    s.discarded e = 0 ↔ ((∃ n, e = .lagged n) → s.queue = []) := by
  cases e <;> simp [State.discarded]

theorem lost_eq_zero {s : State} {events : List Event} :
    s.lost g events = 0 ↔ LagsFindQueueEmpty g s events := by
  induction events generalizing s with
  | nil => simp [State.lost, LagsFindQueueEmpty]
  | cons e events ih =>
    rw [State.lost, LagsFindQueueEmpty, ← ih, ← discarded_eq_zero]
    omega

theorem conserved_iff (g : Option String) (events : List Event) :
    Conserved g events ↔ LagsFindQueueEmpty g .init events := by
  have hacc := run_accounted g .init events
  have hcnt := run_counter g .init events
  have hinit : State.init.accounted = State.init.counter := rfl
  rw [← lost_eq_zero]
  unfold Conserved
  simp only [State.accounted] at hacc hcnt hinit ⊢
  omega

def quietFrame (sequence : Nat) : Frame :=
  { fromDeviceId := "dev-a", groupId := "g", sequence := sequence,
    presentationTimeMs := 20 * sequence, codec := "pcm_s16_le", rateHz := 48000, channels := 2,
    payload := [0, 0, 0, 0] }

/-- Two frames wait in the queue when the broadcast reports one lost frame:
both are thrown away and only the third is counted. -/
theorem not_conserved_lag :
    ¬ Conserved (some "g") [.received (quietFrame 1) 0, .received (quietFrame 2) 0, .lagged 1] := by
  decide

end EvoAudio.Multiroom.Receiver
