import EvoAudio.Lib.Histories
import EvoAudio.Lib.Machine
import EvoAudio.Spectrum.Demand
import EvoAudio.Spectrum.EmitThrottle
import EvoAudio.Spectrum.OverlapRing

/-!
# The capture task

`audio.terminus/src/capture.rs`: the task opens the loopback while all its gates are open,
analyses what it reads and has frames go out. When a gate closes it sends one empty frame, so
that whoever listens knows that nothing follows, and waits. Frames go out in tasks of their own,
which may be late; the empty frame at the end is waited for.
-/

namespace EvoAudio.Spectrum

open Machine Histories

inductive TransportGate where
  | playing
  | notPlaying
  deriving DecidableEq, Repr

def TransportGate.shouldEmit : TransportGate → Bool
  | .playing => true
  | .notPlaying => false

inductive LocalRole where
  | source
  | receiver
  | auto
  deriving DecidableEq, Repr

def LocalRole.shouldEmit : LocalRole → Bool
  | .receiver => false
  | _ => true

/-- What the task reads of its watches. -/
structure Gates where
  transport : TransportGate
  demand : SpectrumDemand
  role : LocalRole
  interest : Nat
  deriving DecidableEq, Repr

def Gates.opened (gates : Gates) : Bool :=
  gates.transport.shouldEmit && gates.demand.enabled && gates.role.shouldEmit && 0 < gates.interest

/-- What the analyser is built for. -/
structure AnalyserShape where
  bins : UInt32
  channels : UInt32
  scale : FrequencyScale
  deriving DecidableEq, Repr

def SpectrumDemand.shape (d : SpectrumDemand) : AnalyserShape :=
  ⟨d.bins, d.channels, d.frequencyScale⟩

/-- What `SpectrumAnalyser::new` asserts. -/
def AnalyserShape.valid (shape : AnalyserShape) : Bool :=
  0 < shape.bins && (shape.channels = 1 || shape.channels = 2)

/-- A state of the spectrum subject. The empty frame was made from nothing. -/
structure Envelope where
  rateHz : UInt32
  bins : UInt32
  channels : UInt32
  window : Option (List Int)
  deriving DecidableEq, Repr

def renderEmptyFrame (d : SpectrumDemand) : Envelope := ⟨d.rateHzTarget, d.bins, d.channels, none⟩

/-- `rate_hz_target.max(1)` -/
def targetHz (d : SpectrumDemand) : UInt32 := if d.rateHzTarget < 1 then 1 else d.rateHzTarget

/-- Nanoseconds between two frames. -/
def minGap (d : SpectrumDemand) : Nat := 1000 / (targetHz d).toNat * 1000000

def renderFrame (d : SpectrumDemand) (shape : AnalyserShape) (window : List Int) : Envelope :=
  ⟨targetHz d, shape.bins, shape.channels, some window⟩

-- ---------------------------------------------------------------------------
-- The task
-- ---------------------------------------------------------------------------

def reconnectInitial : Nat := 250

def reconnectMax : Nat := 5000

def reconnectMaxAttempts : Nat := 12

/-- One stay in the inner loop. -/
structure Session where
  shape : AnalyserShape
  ring : OverlapRing
  throttle : EmitThrottle
  readFailures : Nat
  deriving DecidableEq, Repr

inductive CapturePhase where
  | outer
  | parked
  | opening
  | retrying
  | inner (session : Session)
  | ended
  deriving DecidableEq, Repr

/-- What the task has done. -/
inductive CaptureMark where
  | woke
  | failed (delay : Option Nat)
  | opened (shape : AnalyserShape)
  | seed (demand : SpectrumDemand)
  | hop (samples : List Int)
  | frame (gates : Gates) (window : List Int)
  | parked (demand : SpectrumDemand)
  | shutdown
  | panicked
  deriving DecidableEq, Repr

structure Capture where
  phase : CapturePhase
  wasRunning : Bool
  consecutiveFailures : Nat
  backoff : Nat
  analyser : Option AnalyserShape
  /-- The newest in front. -/
  history : List CaptureMark
  /-- What was handed to tasks of its own and has not arrived. -/
  pending : List Envelope
  /-- What has arrived, the newest in front. -/
  wire : List Envelope
  deriving DecidableEq, Repr

def Capture.initial : Capture := ⟨.outer, false, 0, reconnectInitial, none, [], [], []⟩

inductive Read where
  | samples (hop : List Int)
  /-- Fewer frames than a hop, which are dropped. -/
  | short
  | failed (recovered : Bool)
  deriving DecidableEq, Repr

inductive CaptureStep where
  | head (shutdown : Bool) (gates : Gates) (demand : SpectrumDemand) (sent : Bool)
  | wake (gates : Gates)
  | leave
  | openPcm (ok : Bool) (demand : SpectrumDemand)
  | retry (shutdown : Bool)
  | hop (shutdown : Bool) (read : Read) (gates : Gates) (now : Nat)
  | deliver (e : Envelope) (sent : Bool)
  deriving DecidableEq, Repr

namespace Capture

def stop (s : Capture) (mark : CaptureMark) : Capture :=
  { s with phase := .ended, history := mark :: s.history }

/-- The head of the outer loop, down to the wait. -/
def head (s : Capture) (shutdown : Bool) (gates : Gates) (demand : SpectrumDemand) (sent : Bool) :
    Capture :=
  if shutdown then s.stop .shutdown
  else if gates.opened then { s with phase := .opening }
  else if s.wasRunning then
    { s with
      phase := .parked
      wasRunning := false
      history := .parked demand :: s.history
      wire := if sent then renderEmptyFrame demand :: s.wire else s.wire }
  else { s with phase := .parked }

/-- `wait_for_capture_gate_or_shutdown`, looking at the gates again. -/
def wake (s : Capture) (gates : Gates) : Capture :=
  if gates.opened then
    { s with
      phase := .opening
      consecutiveFailures := 0
      backoff := reconnectInitial
      history := .woke :: s.history }
  else s

/-- The device is open, and the ring of the inner loop is empty. -/
def started (g : Geometry) (s : Capture) (demand : SpectrumDemand) : Capture :=
  { s with
    phase := .inner ⟨demand.shape, .initial g, .new, 0⟩
    wasRunning := true
    consecutiveFailures := 0
    backoff := reconnectInitial
    history := .opened demand.shape :: s.history }

/-- An analyser of another shape is built and announced before the inner loop is entered. -/
def openPcm (g : Geometry) (s : Capture) (ok : Bool) (demand : SpectrumDemand) : Capture :=
  if ok then
    if s.analyser = some demand.shape then s.started g demand
    else if demand.shape.valid then
      { s.started g demand with
        analyser := some demand.shape
        history := .seed demand :: (s.started g demand).history
        pending := renderEmptyFrame demand :: s.pending }
    else (s.started g demand).stop .panicked
  else if s.consecutiveFailures + 1 < reconnectMaxAttempts then
    { s with
      phase := .retrying
      consecutiveFailures := s.consecutiveFailures + 1
      backoff := min (s.backoff * 2) reconnectMax
      history := .failed (some s.backoff) :: s.history }
  else { s.stop (.failed none) with consecutiveFailures := s.consecutiveFailures + 1 }

/-- A hop goes into the ring. -/
def slide (g : Geometry) (s : Capture) (session : Session) (hop : List Int) : Capture :=
  { s with
    phase := .inner { session with ring := session.ring.push g hop, readFailures := 0 }
    history := .hop hop :: s.history }

/-- A full hop has been read. Every gate that is closed, and a demand of another shape, ends the
stay in the inner loop. -/
def analyse (g : Geometry) (s : Capture) (session : Session) (hop : List Int) (gates : Gates)
    (now : Nat) : Capture :=
  let ring := session.ring.push g hop
  let s := s.slide g session hop
  if !ring.ready g then s
  else if gates.opened && gates.demand.shape = session.shape then
    let call := session.throttle.shouldEmit now (minGap gates.demand)
    let s := { s with phase := .inner ⟨session.shape, ring, call.2, 0⟩ }
    if call.1 then
      { s with
        history := .frame gates ring.ring :: s.history
        pending := renderFrame gates.demand session.shape ring.ring :: s.pending }
    else s
  else { s with phase := .outer }

/-- `run_fft_loop`, once around. -/
def turn (g : Geometry) (s : Capture) (session : Session) (shutdown : Bool) (read : Read)
    (gates : Gates) (now : Nat) : Capture :=
  if shutdown then s.stop .shutdown
  else
    match read with
    | .samples hop => s.analyse g session hop gates now
    | .short => { s with phase := .inner { session with readFailures := 0 } }
    | .failed recovered =>
      if recovered && session.readFailures + 1 < reconnectMaxAttempts then
        { s with phase := .inner { session with readFailures := session.readFailures + 1 } }
      else { s with phase := .outer }

end Capture

/-- A read that gives a hop gives all of it. -/
def Read.whole (g : Geometry) : Read → Bool
  | .samples hop => hop.length = g.hopSamples
  | _ => true

def capture (g : Geometry) (s : Capture) (step : CaptureStep) : Option Capture :=
  match step with
  | .head shutdown gates demand sent =>
    if s.phase = .outer then some (s.head shutdown gates demand sent) else none
  | .wake gates => if s.phase = .parked then some (s.wake gates) else none
  | .leave => if s.phase = .parked then some (s.stop .shutdown) else none
  | .openPcm ok demand => if s.phase = .opening then some (s.openPcm g ok demand) else none
  | .retry shutdown =>
    if s.phase = .retrying then
      some (if shutdown then s.stop .shutdown else { s with phase := .outer })
    else none
  | .hop shutdown read gates now =>
    match s.phase with
    | .inner session =>
      if read.whole g then some (s.turn g session shutdown read gates now) else none
    | _ => none
  | .deliver e sent =>
    if e ∈ s.pending then
      some { s with pending := s.pending.erase e, wire := if sent then e :: s.wire else s.wire }
    else none

-- ---------------------------------------------------------------------------
-- What each part of the task can do
-- ---------------------------------------------------------------------------

variable {g : Geometry} {s s' : Capture}

theorem head_cases (s : Capture) (shutdown : Bool) (gates : Gates) (demand : SpectrumDemand)
    (sent : Bool) :
    s.head shutdown gates demand sent = s.stop .shutdown ∨
    s.head shutdown gates demand sent = { s with phase := .opening } ∨
    (s.wasRunning = true ∧ s.head shutdown gates demand sent = { s with
      phase := .parked
      wasRunning := false
      history := .parked demand :: s.history
      wire := if sent then renderEmptyFrame demand :: s.wire else s.wire }) ∨
    (s.wasRunning = false ∧ s.head shutdown gates demand sent = { s with phase := .parked }) := by
  rw [Capture.head]
  by_cases hshutdown : shutdown = true
  · exact .inl (if_pos hshutdown)
  rw [if_neg hshutdown]
  by_cases hopened : gates.opened = true
  · exact .inr (.inl (if_pos hopened))
  rw [if_neg hopened]
  by_cases hrunning : s.wasRunning = true
  · exact .inr (.inr (.inl ⟨hrunning, if_pos hrunning⟩))
  · exact .inr (.inr (.inr ⟨by simpa using hrunning, if_neg hrunning⟩))

theorem wake_cases (s : Capture) (gates : Gates) :
    s.wake gates = s ∨ s.wake gates = { s with
      phase := .opening
      consecutiveFailures := 0
      backoff := reconnectInitial
      history := .woke :: s.history } := by
  rw [Capture.wake]
  by_cases hopened : gates.opened = true
  · exact .inr (if_pos hopened)
  · exact .inl (if_neg hopened)

theorem openPcm_cases (g : Geometry) (s : Capture) (ok : Bool) (demand : SpectrumDemand) :
    (ok = true ∧
      ((s.analyser = some demand.shape ∧ s.openPcm g ok demand = s.started g demand) ∨
      s.openPcm g ok demand = { s.started g demand with
        analyser := some demand.shape
        history := .seed demand :: (s.started g demand).history
        pending := renderEmptyFrame demand :: s.pending } ∨
      s.openPcm g ok demand = (s.started g demand).stop .panicked)) ∨
    (s.consecutiveFailures + 1 < reconnectMaxAttempts ∧ s.openPcm g ok demand = { s with
      phase := .retrying
      consecutiveFailures := s.consecutiveFailures + 1
      backoff := min (s.backoff * 2) reconnectMax
      history := .failed (some s.backoff) :: s.history }) ∨
    (¬ s.consecutiveFailures + 1 < reconnectMaxAttempts ∧ s.openPcm g ok demand =
      { s.stop (.failed none) with consecutiveFailures := s.consecutiveFailures + 1 }) := by
  rw [Capture.openPcm]
  by_cases hok : ok = true
  · rw [if_pos hok]
    refine .inl ⟨hok, ?_⟩
    by_cases hshape : s.analyser = some demand.shape
    · exact .inl ⟨hshape, if_pos hshape⟩
    rw [if_neg hshape]
    by_cases hvalid : demand.shape.valid = true
    · exact .inr (.inl (if_pos hvalid))
    · exact .inr (.inr (if_neg hvalid))
  rw [if_neg hok]
  by_cases hmore : s.consecutiveFailures + 1 < reconnectMaxAttempts
  · exact .inr (.inl ⟨hmore, if_pos hmore⟩)
  · exact .inr (.inr ⟨hmore, if_neg hmore⟩)

/-- The hop goes into the ring, and then the task stays as it is, moves its throttle on, has a
frame go out as well, or leaves. -/
theorem analyse_cases (g : Geometry) (s : Capture) (session : Session) (hop : List Int)
    (gates : Gates) (now : Nat) :
    let ring := session.ring.push g hop
    let slid := s.slide g session hop
    s.analyse g session hop gates now = slid ∨
    (∃ throttle, s.analyse g session hop gates now =
      { slid with phase := .inner ⟨session.shape, ring, throttle, 0⟩ }) ∨
    (ring.ready g = true ∧ gates.opened = true ∧ gates.demand.shape = session.shape ∧
      ∃ throttle, s.analyse g session hop gates now = { slid with
        phase := .inner ⟨session.shape, ring, throttle, 0⟩
        history := .frame gates ring.ring :: slid.history
        pending := renderFrame gates.demand session.shape ring.ring :: slid.pending }) ∨
    s.analyse g session hop gates now = { slid with phase := .outer } := by
  intro ring slid
  let call := session.throttle.shouldEmit now (minGap gates.demand)
  by_cases hready : ring.ready g = true
  · by_cases hopen : (gates.opened && gates.demand.shape = session.shape) = true
    · obtain ⟨hopened, hshape⟩ := Bool.and_eq_true_iff.mp hopen
      by_cases hemit : call.1 = true
      · refine .inr (.inr (.inl ⟨hready, hopened, of_decide_eq_true hshape, call.2, ?_⟩))
        simp [Capture.analyse, ring, slid, call, hready, hopen, hemit]
      · refine .inr (.inl ⟨call.2, ?_⟩)
        simp [Capture.analyse, ring, slid, call, hready, hopen, hemit]
    · exact .inr (.inr (.inr (by simp [Capture.analyse, ring, slid, hready, hopen])))
  · exact .inl (by simp [Capture.analyse, ring, slid, hready])

theorem turn_cases (g : Geometry) (s : Capture) (session : Session) (shutdown : Bool) (read : Read)
    (gates : Gates) (now : Nat) :
    s.turn g session shutdown read gates now = s.stop .shutdown ∨
    (∃ hop, read = .samples hop ∧
      s.turn g session shutdown read gates now = s.analyse g session hop gates now) ∨
    (∃ failures, s.turn g session shutdown read gates now =
      { s with phase := .inner { session with readFailures := failures } }) ∨
    s.turn g session shutdown read gates now = { s with phase := .outer } := by
  unfold Capture.turn
  by_cases hshutdown : shutdown = true
  · exact .inl (if_pos hshutdown)
  rw [if_neg hshutdown]
  cases read with
  | samples hop => exact .inr (.inl ⟨hop, rfl, rfl⟩)
  | short => exact .inr (.inr (.inl ⟨0, rfl⟩))
  | failed recovered =>
    by_cases hmore : (recovered && session.readFailures + 1 < reconnectMaxAttempts) = true
    · exact .inr (.inr (.inl ⟨_, if_pos hmore⟩))
    · exact .inr (.inr (.inr (if_neg hmore)))

-- ---------------------------------------------------------------------------
-- What the history tells
-- ---------------------------------------------------------------------------

/-- The shape of the last opening, unless it was said that it is over. -/
def runningShape : List CaptureMark → Option AnalyserShape
  | [] => none
  | .opened shape :: _ => some shape
  | .parked _ :: _ => none
  | _ :: before => runningShape before

/-- The shape that was announced last. -/
def announcedShape : List CaptureMark → Option AnalyserShape
  | [] => none
  | .seed demand :: _ => some demand.shape
  | _ :: before => announcedShape before

/-- The hops since the last opening, the newest in front. -/
def sessionHops : List CaptureMark → List (List Int)
  | [] => []
  | .opened _ :: _ => []
  | .hop samples :: before => samples :: sessionHops before
  | _ :: before => sessionHops before

def failuresInRow : List CaptureMark → Nat
  | [] => 0
  | .failed _ :: before => failuresInRow before + 1
  | .opened _ :: _ => 0
  | .woke :: _ => 0
  | _ :: before => failuresInRow before

/-- The wait behind so many failures, in milliseconds. -/
def reconnectDelay (failures : Nat) : Nat := min (reconnectInitial * 2 ^ failures) reconnectMax

def final : CaptureMark → Bool
  | .failed none => true
  | .shutdown => true
  | .panicked => true
  | _ => false

def isOver (history : List CaptureMark) : Bool := history.head?.any final

attribute [local grind =] runningShape announcedShape sessionHops failuresInRow

/-- What is behind each thing the task does. -/
def reason (g : Geometry) : CaptureMark → List CaptureMark → Prop
  | .frame gates window, before =>
    gates.opened = true ∧ runningShape before = some gates.demand.shape ∧
      announcedShape before = some gates.demand.shape ∧
      g.overlap ≤ (sessionHops before).length ∧
      window = ((sessionHops before).take g.overlap).reverse.flatten
  | .parked _, before => (runningShape before).isSome = true
  | .failed delay, before =>
    failuresInRow before < reconnectMaxAttempts ∧
      delay = if failuresInRow before + 1 < reconnectMaxAttempts then
        some (reconnectDelay (failuresInRow before)) else none
  | _, _ => True

def explains (g : Geometry) (mark : CaptureMark) (before : List CaptureMark) : Prop :=
  isOver before = false ∧ reason g mark before

/-- The inner loop reads what it was opened for, and its ring holds what it has read. -/
structure InSession (g : Geometry) (s : Capture) (session : Session) : Prop where
  shape : runningShape s.history = some session.shape
  analyser : s.analyser = some session.shape
  ring : OverlapRing.Holds g session.ring (sessionHops s.history)
  whole : ∀ hop ∈ sessionHops s.history, hop.length = g.hopSamples

/-- A task that goes on has failures left, and waits in step with them. -/
structure GoesOn (s : Capture) : Prop where
  going : isOver s.history = false
  backoff : s.backoff = reconnectDelay s.consecutiveFailures
  bounded : s.consecutiveFailures < reconnectMaxAttempts

/-- The variables of the task are what its history tells. -/
structure Tells (g : Geometry) (s : Capture) : Prop where
  running : s.wasRunning = (runningShape s.history).isSome
  analyser : s.analyser = announcedShape s.history
  failures : s.consecutiveFailures = failuresInRow s.history
  goesOn : s.phase ≠ .ended → GoesOn s
  ended : s.phase = .ended → isOver s.history = true
  parked : s.phase = .parked → s.wasRunning = false
  inner : ∀ session, s.phase = .inner session → InSession g s session
  explained : Explained (explains g) s.history

theorem GoesOn.fresh (hgoing : isOver s.history = false) (hfailures : s.consecutiveFailures = 0)
    (hbackoff : s.backoff = reconnectInitial) : GoesOn s where
  going := hgoing
  backoff := by rw [hbackoff, hfailures]; rfl
  bounded := by rw [hfailures]; decide

theorem tells_initial : Tells g .initial where
  running := rfl
  analyser := rfl
  failures := rfl
  goesOn _ := .fresh rfl rfl rfl
  ended h := by cases h
  parked h := by cases h
  inner _ h := by cases h
  explained := trivial

theorem Tells.stopped (h : Tells g s) (hlive : s.phase ≠ .ended) : Tells g (s.stop .shutdown) where
  running := h.running
  analyser := h.analyser
  failures := h.failures
  goesOn hp := absurd rfl hp
  ended _ := rfl
  parked hp := by cases hp
  inner _ hp := by cases hp
  explained := ⟨⟨(h.goesOn hlive).going, trivial⟩, h.explained⟩

/-- A change of phase alone. -/
theorem Tells.moved (h : Tells g s) (hlive : s.phase ≠ .ended) {phase : CapturePhase}
    (hphase : phase ≠ .ended) (hparked : phase = .parked → s.wasRunning = false)
    (hinner : ∀ session, phase = .inner session → InSession g s session) :
    Tells g { s with phase := phase } where
  running := h.running
  analyser := h.analyser
  failures := h.failures
  goesOn _ := ⟨(h.goesOn hlive).going, (h.goesOn hlive).backoff, (h.goesOn hlive).bounded⟩
  ended hp := absurd hp hphase
  parked := hparked
  inner session hp :=
    let hsession := hinner session hp
    ⟨hsession.shape, hsession.analyser, hsession.ring, hsession.whole⟩
  explained := h.explained

theorem Tells.park (h : Tells g s) (hlive : s.phase ≠ .ended) (hrunning : s.wasRunning = true)
    (demand : SpectrumDemand) (wire : List Envelope) :
    Tells g { s with
      phase := .parked, wasRunning := false, history := .parked demand :: s.history
      wire := wire } where
  running := rfl
  analyser := h.analyser
  failures := h.failures
  goesOn _ := ⟨rfl, (h.goesOn hlive).backoff, (h.goesOn hlive).bounded⟩
  ended hp := by cases hp
  parked _ := rfl
  inner _ hp := by cases hp
  explained := ⟨⟨(h.goesOn hlive).going, h.running.symm.trans hrunning⟩, h.explained⟩

theorem Tells.head (h : Tells g s) (hphase : s.phase = .outer) :
    Tells g (s.head shutdown gates demand sent) := by
  have hlive : s.phase ≠ .ended := by simp [hphase]
  rcases head_cases s shutdown gates demand sent with hs | hs | ⟨hrunning, hs⟩ | ⟨hsilent, hs⟩
  · exact hs ▸ h.stopped hlive
  · exact hs ▸ h.moved hlive (by simp) (by simp) (by simp)
  · exact hs ▸ h.park hlive hrunning demand _
  · exact hs ▸ h.moved hlive (by simp) (fun _ => hsilent) (by simp)

theorem Tells.wake (h : Tells g s) (hphase : s.phase = .parked) : Tells g (s.wake gates) := by
  have hlive : s.phase ≠ .ended := by simp [hphase]
  rcases wake_cases s gates with hs | hs
  · exact hs.symm ▸ h
  rw [hs]
  exact {
    running := h.running
    analyser := h.analyser
    failures := rfl
    goesOn := fun _ => .fresh rfl rfl rfl
    ended := fun hp => by cases hp
    parked := fun hp => by cases hp
    inner := fun _ hp => by cases hp
    explained := ⟨⟨(h.goesOn hlive).going, trivial⟩, h.explained⟩ }

theorem reconnectDelay_succ (failures : Nat) :
    min (reconnectDelay failures * 2) reconnectMax = reconnectDelay (failures + 1) := by
  rw [reconnectDelay, reconnectDelay, Nat.pow_succ, ← Nat.mul_assoc]
  generalize reconnectInitial * 2 ^ failures = delay
  omega

section Open

variable {demand : SpectrumDemand}

theorem Tells.started (h : Tells g s) (hlive : s.phase ≠ .ended)
    (hshape : s.analyser = some demand.shape) : Tells g (s.started g demand) where
  running := rfl
  analyser := h.analyser
  failures := rfl
  goesOn _ := .fresh rfl rfl rfl
  ended hp := by cases hp
  parked hp := by cases hp
  inner _ hp := by
    cases hp
    exact ⟨rfl, hshape, OverlapRing.holds_initial, by simp [Capture.started, sessionHops]⟩
  explained := ⟨⟨(h.goesOn hlive).going, trivial⟩, h.explained⟩

theorem Tells.rebuilt (h : Tells g s) (hlive : s.phase ≠ .ended) (pending : List Envelope) :
    Tells g { s.started g demand with
      analyser := some demand.shape
      history := .seed demand :: (s.started g demand).history
      pending := pending } where
  running := rfl
  analyser := rfl
  failures := rfl
  goesOn _ := .fresh rfl rfl rfl
  ended hp := by cases hp
  parked hp := by cases hp
  inner _ hp := by
    cases hp
    exact ⟨rfl, rfl, OverlapRing.holds_initial, by simp [Capture.started, sessionHops]⟩
  explained := ⟨⟨rfl, trivial⟩, ⟨(h.goesOn hlive).going, trivial⟩, h.explained⟩

theorem Tells.panicked (h : Tells g s) (hlive : s.phase ≠ .ended) :
    Tells g ((s.started g demand).stop .panicked) where
  running := rfl
  analyser := h.analyser
  failures := rfl
  goesOn hp := absurd rfl hp
  ended _ := rfl
  parked hp := by cases hp
  inner _ hp := by cases hp
  explained := ⟨⟨rfl, trivial⟩, ⟨(h.goesOn hlive).going, trivial⟩, h.explained⟩

theorem Tells.failed (h : Tells g s) (hlive : s.phase ≠ .ended)
    (hmore : s.consecutiveFailures + 1 < reconnectMaxAttempts) :
    Tells g { s with
      phase := .retrying
      consecutiveFailures := s.consecutiveFailures + 1
      backoff := min (s.backoff * 2) reconnectMax
      history := .failed (some s.backoff) :: s.history } where
  running := h.running
  analyser := h.analyser
  failures := congrArg (· + 1) h.failures
  goesOn _ := by
    refine ⟨rfl, ?_, hmore⟩
    change min (s.backoff * 2) reconnectMax = reconnectDelay (s.consecutiveFailures + 1)
    rw [(h.goesOn hlive).backoff, reconnectDelay_succ]
  ended hp := by cases hp
  parked hp := by cases hp
  inner _ hp := by cases hp
  explained := by
    refine ⟨⟨(h.goesOn hlive).going, ?_, ?_⟩, h.explained⟩
    · rw [← h.failures]
      exact (h.goesOn hlive).bounded
    · rw [← h.failures, if_pos hmore, (h.goesOn hlive).backoff]

theorem Tells.exhausted (h : Tells g s) (hlive : s.phase ≠ .ended)
    (hlast : ¬ s.consecutiveFailures + 1 < reconnectMaxAttempts) :
    Tells g { s.stop (.failed none) with
      consecutiveFailures := s.consecutiveFailures + 1 } where
  running := h.running
  analyser := h.analyser
  failures := congrArg (· + 1) h.failures
  goesOn hp := absurd rfl hp
  ended _ := rfl
  parked hp := by cases hp
  inner _ hp := by cases hp
  explained := by
    refine ⟨⟨(h.goesOn hlive).going, ?_, ?_⟩, h.explained⟩
    · rw [← h.failures]
      exact (h.goesOn hlive).bounded
    · rw [← h.failures, if_neg hlast]

theorem Tells.openPcm (h : Tells g s) (hphase : s.phase = .opening) :
    Tells g (s.openPcm g ok demand) := by
  have hlive : s.phase ≠ .ended := by simp [hphase]
  rcases openPcm_cases g s ok demand with
    ⟨-, ⟨hshape, hs⟩ | hs | hs⟩ | ⟨hmore, hs⟩ | ⟨hlast, hs⟩
  · exact hs ▸ h.started hlive hshape
  · exact hs ▸ h.rebuilt hlive _
  · exact hs ▸ h.panicked hlive
  · exact hs ▸ h.failed hlive hmore
  · exact hs ▸ h.exhausted hlive hlast

end Open

section Turn

variable {session : Session} {hop : List Int} {gates : Gates}

theorem Tells.slide (h : Tells g s) (hphase : s.phase = .inner session)
    (hhop : hop.length = g.hopSamples) : Tells g (s.slide g session hop) := by
  have hlive : s.phase ≠ .ended := by simp [hphase]
  have hsession := h.inner session hphase
  exact {
    running := h.running
    analyser := h.analyser
    failures := h.failures
    goesOn := fun _ => ⟨rfl, (h.goesOn hlive).backoff, (h.goesOn hlive).bounded⟩
    ended := fun hp => by cases hp
    parked := fun hp => by cases hp
    inner := fun _ hp => by
      cases hp
      exact ⟨hsession.shape, hsession.analyser, hsession.ring.push hsession.whole hhop,
        List.forall_mem_cons.mpr ⟨hhop, hsession.whole⟩⟩
    explained := ⟨⟨(h.goesOn hlive).going, trivial⟩, h.explained⟩ }

theorem Tells.framed (h : Tells g s) (hphase : s.phase = .inner session)
    (hready : session.ring.ready g = true) (hopened : gates.opened = true)
    (hshape : gates.demand.shape = session.shape) (throttle : EmitThrottle)
    (pending : List Envelope) :
    Tells g { s with
      phase := .inner { session with throttle := throttle }
      history := .frame gates session.ring.ring :: s.history
      pending := pending } := by
  have hlive : s.phase ≠ .ended := by simp [hphase]
  have hsession := h.inner session hphase
  have hfull := hsession.ring.full_iff.mp (of_decide_eq_true hready)
  exact {
    running := h.running
    analyser := h.analyser
    failures := h.failures
    goesOn := fun _ => ⟨rfl, (h.goesOn hlive).backoff, (h.goesOn hlive).bounded⟩
    ended := fun hp => by cases hp
    parked := fun hp => by cases hp
    inner := fun _ hp => by
      cases hp
      exact ⟨hsession.shape, hsession.analyser, hsession.ring, hsession.whole⟩
    explained := by
      refine ⟨⟨(h.goesOn hlive).going, hopened, ?_, ?_, hfull, hsession.ring.window hfull⟩,
        h.explained⟩
      · rw [hshape, hsession.shape]
      · rw [hshape, ← h.analyser, hsession.analyser] }

theorem Tells.analyse (h : Tells g s) (hphase : s.phase = .inner session)
    (hhop : hop.length = g.hopSamples) : Tells g (s.analyse g session hop gates now) := by
  have hslide := h.slide hphase hhop
  have hlive : (s.slide g session hop).phase ≠ .ended := by simp [Capture.slide]
  rcases analyse_cases g s session hop gates now with
    hs | ⟨throttle, hs⟩ | ⟨hready, hopened, hshape, throttle, hs⟩ | hs
  · exact hs ▸ hslide
  · have hsession := hslide.inner _ rfl
    refine hs ▸ hslide.moved hlive (by simp) (by simp) fun _ hp => ?_
    cases hp
    exact ⟨hsession.shape, hsession.analyser, hsession.ring, hsession.whole⟩
  · exact hs ▸ hslide.framed rfl hready hopened hshape throttle _
  · exact hs ▸ hslide.moved hlive (by simp) (by simp) (by simp)

theorem Tells.turn {read : Read} (h : Tells g s) (hphase : s.phase = .inner session)
    (hwhole : read.whole g = true) : Tells g (s.turn g session shutdown read gates now) := by
  have hlive : s.phase ≠ .ended := by simp [hphase]
  have hsession := h.inner session hphase
  rcases turn_cases g s session shutdown read gates now with
    hs | ⟨hop, rfl, hs⟩ | ⟨failures, hs⟩ | hs
  · exact hs ▸ h.stopped hlive
  · exact hs ▸ h.analyse hphase (of_decide_eq_true hwhole)
  · refine hs ▸ h.moved hlive (by simp) (by simp) fun _ hp => ?_
    cases hp
    exact ⟨hsession.shape, hsession.analyser, hsession.ring, hsession.whole⟩
  · exact hs ▸ h.moved hlive (by simp) (by simp) (by simp)

end Turn

theorem tells_step (h : Tells g s) (hstep : capture g s step = some s') : Tells g s' := by
  cases step with
  | head shutdown gates demand sent =>
    obtain ⟨hphase, ⟨⟩⟩ := Option.ite_none_right_eq_some.mp hstep
    exact h.head hphase
  | wake gates =>
    obtain ⟨hphase, ⟨⟩⟩ := Option.ite_none_right_eq_some.mp hstep
    exact h.wake hphase
  | leave =>
    obtain ⟨hphase, ⟨⟩⟩ := Option.ite_none_right_eq_some.mp hstep
    exact h.stopped (by simp [hphase])
  | openPcm ok demand =>
    obtain ⟨hphase, ⟨⟩⟩ := Option.ite_none_right_eq_some.mp hstep
    exact h.openPcm hphase
  | retry shutdown =>
    obtain ⟨hphase, ⟨⟩⟩ := Option.ite_none_right_eq_some.mp hstep
    cases shutdown with
    | true => exact h.stopped (by simp [hphase])
    | false => exact h.moved (by simp [hphase]) (by simp) (by simp) (by simp)
  | hop shutdown read gates now =>
    cases hphase : s.phase with
    | inner session =>
      simp only [capture, hphase] at hstep
      obtain ⟨hwhole, ⟨⟩⟩ := Option.ite_none_right_eq_some.mp hstep
      exact h.turn hphase hwhole
    | _ => simp [capture, hphase] at hstep
  | deliver e sent =>
    obtain ⟨-, ⟨⟩⟩ := Option.ite_none_right_eq_some.mp hstep
    exact ⟨h.running, h.analyser, h.failures,
      fun hp => ⟨(h.goesOn hp).going, (h.goesOn hp).backoff, (h.goesOn hp).bounded⟩, h.ended,
      h.parked, fun session hp => ⟨(h.inner session hp).shape, (h.inner session hp).analyser,
        (h.inner session hp).ring, (h.inner session hp).whole⟩, h.explained⟩

theorem tells_of_run {steps : List CaptureStep} (h : exec (capture g) .initial steps = some s) :
    Tells g s :=
  exec_invariant_all tells_step tells_initial h

-- ---------------------------------------------------------------------------
-- Runs of the task
-- ---------------------------------------------------------------------------

section Runs

variable {steps : List CaptureStep} {after before recent : List CaptureMark}

/-- A frame goes out only with every gate open, in the shape that is running and was announced
last, and is made of the hops that fill a window, the last ones read since the opening. -/
theorem frame_of_run (h : exec (capture g) .initial steps = some s)
    (hsplit : s.history = after ++ .frame gates window :: before) :
    gates.opened = true ∧ runningShape before = some gates.demand.shape ∧
      announcedShape before = some gates.demand.shape ∧
      g.overlap ≤ (sessionHops before).length ∧
      window = ((sessionHops before).take g.overlap).reverse.flatten := by
  have hexplained := (tells_of_run h).explained
  rw [hsplit] at hexplained
  exact hexplained.at.2

theorem opened_or_running (h : (runningShape (recent ++ before)).isSome = true) :
    (∃ shape, CaptureMark.opened shape ∈ recent) ∨ (runningShape before).isSome = true := by
  induction recent with
  | nil => exact .inr h
  | cons mark recent ih =>
    cases mark with
    | opened shape => exact .inl ⟨shape, List.mem_cons_self⟩
    | parked demand => cases h
    | _ => exact (ih h).imp_left fun ⟨shape, hmem⟩ => ⟨shape, List.mem_cons_of_mem _ hmem⟩

theorem parked_behind_opening (h : runningShape (recent ++ .opened shape :: before) = none) :
    ∃ demand, CaptureMark.parked demand ∈ recent := by
  induction recent with
  | nil => cases h
  | cons mark recent ih =>
    cases mark with
    | opened shape => cases h
    | parked demand => exact ⟨demand, List.mem_cons_self⟩
    | _ =>
      obtain ⟨demand, hmem⟩ := ih h
      exact ⟨demand, List.mem_cons_of_mem _ hmem⟩

/-- The empty frame at the end is sent once for what was opened: there is an opening before each
one and between any two, and a task that waits has sent one since the last opening. -/
theorem parks_of_run (h : exec (capture g) .initial steps = some s) :
    (∀ after demand before, s.history = after ++ .parked demand :: before →
      ∃ shape, CaptureMark.opened shape ∈ before) ∧
    (∀ after demand recent demand' before,
      s.history = after ++ .parked demand :: (recent ++ .parked demand' :: before) →
        ∃ shape, CaptureMark.opened shape ∈ recent) ∧
    (s.phase = .parked → ∀ recent shape before, s.history = recent ++ .opened shape :: before →
      ∃ demand, CaptureMark.parked demand ∈ recent) := by
  have htells := tells_of_run h
  have hexplained := htells.explained
  refine ⟨fun after demand before hsplit => ?_,
    fun after demand recent demand' before hsplit => ?_, fun hphase recent shape before hsplit => ?_⟩
  · rw [hsplit] at hexplained
    have hrunning : (runningShape (before ++ [])).isSome = true := by
      rw [List.append_nil]
      exact hexplained.at.2
    exact (opened_or_running hrunning).resolve_right Bool.false_ne_true
  · rw [hsplit] at hexplained
    exact (opened_or_running hexplained.at.2).resolve_right Bool.false_ne_true
  · have hnone := htells.running
    rw [htells.parked hphase, hsplit] at hnone
    exact parked_behind_opening (by simpa using hnone.symm)

/-- Failures to open in a row are waited out twice as long each time, up to the greatest wait; the
twelfth is the last thing the task does. -/
theorem failures_of_run (h : exec (capture g) .initial steps = some s)
    (hsplit : s.history = after ++ .failed delay :: before) :
    failuresInRow before < reconnectMaxAttempts ∧
      (delay = if failuresInRow before + 1 < reconnectMaxAttempts then
        some (reconnectDelay (failuresInRow before)) else none) ∧
      (delay = none → after = [] ∧ s.phase = .ended) := by
  have htells := tells_of_run h
  have hexplained := htells.explained
  rw [hsplit] at hexplained
  obtain ⟨-, hbounded, hdelay⟩ := hexplained.at
  refine ⟨hbounded, hdelay, ?_⟩
  rintro rfl
  have hlast : after = [] := by
    rcases List.eq_nil_or_concat' after with rfl | ⟨later, mark, rfl⟩
    · rfl
    · rw [List.append_assoc, List.singleton_append] at hexplained
      cases hexplained.at.1
  refine ⟨hlast, ?_⟩
  by_contra hgoes
  have hopen := (htells.goesOn hgoes).going
  rw [hsplit, hlast] at hopen
  cases hopen

end Runs

section Sample

/-- Hops of one frame and windows of two. -/
def smallGeometry : Geometry := ⟨1, 2, by decide, by decide, by decide⟩

def stereoDemand : SpectrumDemand := ⟨true, 32, 2, 30, .log, 0⟩

def openGates : Gates := ⟨.playing, stereoDemand, .source, 1⟩

def pausedGates : Gates := { openGates with transport := .notPlaying }

/-- A window is read and goes out, and then the transport pauses. -/
def shortSession : List CaptureStep :=
  [.head false openGates stereoDemand true, .openPcm true stereoDemand,
    .hop false (.samples [1, 2]) openGates 0, .hop false (.samples [3, 4]) openGates 1,
    .hop false (.samples [5, 6]) pausedGates 2, .head false pausedGates stereoDemand true]

theorem exec_shortSession : ∃ s, exec (capture smallGeometry) .initial shortSession = some s ∧
    s.phase = .parked ∧
    s.history = [.parked stereoDemand, .hop [5, 6], .frame openGates [1, 2, 3, 4], .hop [3, 4],
      .hop [1, 2], .seed stereoDemand, .opened stereoDemand.shape] := by
  obtain ⟨s, hs, hp⟩ := exec_of_any (capture smallGeometry) .initial shortSession
    (fun s => s.phase = .parked ∧ s.history = [.parked stereoDemand, .hop [5, 6],
      .frame openGates [1, 2, 3, 4], .hop [3, 4], .hop [1, 2], .seed stereoDemand,
      .opened stereoDemand.shape]) (by decide)
  exact ⟨s, hs, of_decide_eq_true hp⟩

theorem frame_of_session :
    let before : List CaptureMark :=
      [.hop [3, 4], .hop [1, 2], .seed stereoDemand, .opened stereoDemand.shape]
    openGates.opened = true ∧ runningShape before = some stereoDemand.shape ∧
      announcedShape before = some stereoDemand.shape ∧
      smallGeometry.overlap ≤ (sessionHops before).length ∧
      [1, 2, 3, 4] = ((sessionHops before).take smallGeometry.overlap).reverse.flatten := by
  obtain ⟨s, hs, -, hhistory⟩ := exec_shortSession
  have hsplit : s.history = [.parked stereoDemand, .hop [5, 6]] ++
    .frame openGates [1, 2, 3, 4] :: [.hop [3, 4], .hop [1, 2], .seed stereoDemand,
      .opened stereoDemand.shape] := hhistory
  exact frame_of_run hs hsplit

theorem parks_of_session : ∃ demand, CaptureMark.parked demand ∈
    [.parked stereoDemand, .hop [5, 6], .frame openGates [1, 2, 3, 4], .hop [3, 4], .hop [1, 2],
      .seed stereoDemand] := by
  obtain ⟨s, hs, hphase, hhistory⟩ := exec_shortSession
  exact (parks_of_run hs).2.2 hphase _ stereoDemand.shape [] hhistory

/-- Two openings fail. -/
def failingOpens : List CaptureStep :=
  [.head false openGates stereoDemand true, .openPcm false stereoDemand, .retry false,
    .head false openGates stereoDemand true, .openPcm false stereoDemand]

theorem failures_of_session : ∃ s,
    exec (capture smallGeometry) .initial failingOpens = some s ∧
      failuresInRow [.failed (some 250)] < reconnectMaxAttempts ∧
      (some 500 : Option Nat) =
        if failuresInRow [.failed (some 250)] + 1 < reconnectMaxAttempts then
          some (reconnectDelay (failuresInRow [.failed (some 250)])) else none := by
  obtain ⟨s, hs, hp⟩ := exec_of_any (capture smallGeometry) .initial failingOpens
    (fun s => s.history = [.failed (some 500), .failed (some 250)]) (by decide)
  have hsplit : s.history = [] ++ .failed (some 500) :: [.failed (some 250)] :=
    of_decide_eq_true hp
  have hfailures := failures_of_run hs hsplit
  exact ⟨s, hs, hfailures.1, hfailures.2.1⟩

end Sample

-- ---------------------------------------------------------------------------
-- What arrives
-- ---------------------------------------------------------------------------

/-- What each thing the task does puts on its way. -/
def rendered : CaptureMark → Option Envelope
  | .frame gates window => some (renderFrame gates.demand gates.demand.shape window)
  | .seed demand => some (renderEmptyFrame demand)
  | .parked demand => some (renderEmptyFrame demand)
  | _ => none

/-- What has arrived and what is under way was sent, each as often at least. -/
def Accounted (s : Capture) : Prop :=
  (s.wire ++ s.pending).Subperm (s.history.filterMap rendered)

section Arrivals

variable {e : Envelope}

theorem Accounted.marked (h : Accounted s) (marks : List CaptureMark) (hwire : s'.wire = s.wire)
    (hpending : s'.pending = s.pending) (hhistory : s'.history = marks ++ s.history) :
    Accounted s' := by
  rw [Accounted, hwire, hpending, hhistory, List.filterMap_append]
  exact h.trans (List.sublist_append_right ..).subperm

theorem Accounted.handed (h : Accounted s) (hwire : s'.wire = s.wire)
    (hpending : s'.pending = e :: s.pending)
    (hhistory : s'.history.filterMap rendered = e :: s.history.filterMap rendered) :
    Accounted s' := by
  rw [Accounted, hwire, hpending, hhistory]
  exact List.perm_middle.subperm.trans ((List.subperm_cons e).mpr h)

theorem Accounted.shown (h : Accounted s) (hwire : s'.wire = e :: s.wire)
    (hpending : s'.pending = s.pending)
    (hhistory : s'.history.filterMap rendered = e :: s.history.filterMap rendered) :
    Accounted s' := by
  rw [Accounted, hwire, hpending, hhistory]
  exact (List.subperm_cons e).mpr h

theorem Accounted.deliver (h : Accounted s) (he : e ∈ s.pending) (sent : Bool) :
    Accounted { s with
      pending := s.pending.erase e, wire := if sent then e :: s.wire else s.wire } := by
  cases sent with
  | true =>
    have hback : (e :: s.wire ++ s.pending.erase e).Perm (s.wire ++ s.pending) :=
      List.perm_middle.symm.trans ((List.perm_cons_erase he).symm.append_left s.wire)
    exact hback.subperm.trans h
  | false => exact (List.erase_sublist.append_left s.wire).subperm.trans h

theorem Accounted.head (h : Accounted s) : Accounted (s.head shutdown gates demand sent) := by
  rcases head_cases s shutdown gates demand sent with hs | hs | ⟨-, hs⟩ | ⟨-, hs⟩ <;> rw [hs]
  · exact h.marked [.shutdown] rfl rfl rfl
  · exact h
  · cases sent with
    | true => exact h.shown rfl rfl rfl
    | false => exact h.marked [.parked demand] rfl rfl rfl
  · exact h

theorem Accounted.openPcm (h : Accounted s) : Accounted (s.openPcm g ok demand) := by
  have hstarted : Accounted (s.started g demand) := h.marked [.opened demand.shape] rfl rfl rfl
  rcases openPcm_cases g s ok demand with ⟨-, ⟨-, hs⟩ | hs | hs⟩ | ⟨-, hs⟩ | ⟨-, hs⟩ <;> rw [hs]
  · exact hstarted
  · exact hstarted.handed rfl rfl rfl
  · exact hstarted.marked [.panicked] rfl rfl rfl
  · exact h.marked [.failed (some s.backoff)] rfl rfl rfl
  · exact h.marked [.failed none] rfl rfl rfl

theorem Accounted.analyse (h : Accounted s) : Accounted (s.analyse g session hop gates now) := by
  have hslide : Accounted (s.slide g session hop) := h.marked [.hop hop] rfl rfl rfl
  rcases analyse_cases g s session hop gates now with
    hs | ⟨throttle, hs⟩ | ⟨-, -, hshape, throttle, hs⟩ | hs <;> rw [hs]
  · exact hslide
  · exact hslide
  · exact hslide.handed rfl rfl (hshape ▸ rfl)
  · exact hslide

theorem Accounted.turn {read : Read} (h : Accounted s) :
    Accounted (s.turn g session shutdown read gates now) := by
  rcases turn_cases g s session shutdown read gates now with
    hs | ⟨hop, -, hs⟩ | ⟨failures, hs⟩ | hs <;> rw [hs]
  · exact h.marked [.shutdown] rfl rfl rfl
  · exact h.analyse
  · exact h
  · exact h

theorem accounted_step (h : Accounted s) (hstep : capture g s step = some s') : Accounted s' := by
  cases step with
  | head shutdown gates demand sent =>
    obtain ⟨-, ⟨⟩⟩ := Option.ite_none_right_eq_some.mp hstep
    exact h.head
  | wake gates =>
    obtain ⟨-, ⟨⟩⟩ := Option.ite_none_right_eq_some.mp hstep
    rcases wake_cases s gates with hs | hs <;> rw [hs]
    · exact h
    · exact h.marked [.woke] rfl rfl rfl
  | leave =>
    obtain ⟨-, ⟨⟩⟩ := Option.ite_none_right_eq_some.mp hstep
    exact h.marked [.shutdown] rfl rfl rfl
  | openPcm ok demand =>
    obtain ⟨-, ⟨⟩⟩ := Option.ite_none_right_eq_some.mp hstep
    exact h.openPcm
  | retry shutdown =>
    obtain ⟨-, ⟨⟩⟩ := Option.ite_none_right_eq_some.mp hstep
    cases shutdown with
    | true => exact h.marked [.shutdown] rfl rfl rfl
    | false => exact h
  | hop shutdown read gates now =>
    cases hphase : s.phase with
    | inner session =>
      simp only [capture, hphase] at hstep
      obtain ⟨-, ⟨⟩⟩ := Option.ite_none_right_eq_some.mp hstep
      exact h.turn
    | _ => simp [capture, hphase] at hstep
  | deliver e sent =>
    obtain ⟨he, ⟨⟩⟩ := Option.ite_none_right_eq_some.mp hstep
    exact h.deliver he sent

/-- Nothing arrives that the task has not sent, and nothing more often than it was sent. -/
theorem arrived_of_run (h : exec (capture g) .initial steps = some s) (e : Envelope) :
    s.wire.count e ≤ (s.history.filterMap rendered).count e := by
  have hinitial : Accounted .initial := List.Subperm.refl []
  have haccounted := exec_invariant_all accounted_step hinitial h
  exact ((List.sublist_append_left ..).subperm.trans haccounted).count_le e

/-- The seed and the empty frame at the end look alike, and both have arrived. -/
theorem arrived_of_session : ∃ s, exec (capture smallGeometry) .initial
    (shortSession ++ [.deliver (renderEmptyFrame stereoDemand) true]) = some s ∧
      s.wire = [renderEmptyFrame stereoDemand, renderEmptyFrame stereoDemand] ∧
      s.wire.count (renderEmptyFrame stereoDemand) ≤
        (s.history.filterMap rendered).count (renderEmptyFrame stereoDemand) := by
  obtain ⟨s, hs, hp⟩ := exec_of_any (capture smallGeometry) .initial
    (shortSession ++ [.deliver (renderEmptyFrame stereoDemand) true])
    (fun s => s.wire = [renderEmptyFrame stereoDemand, renderEmptyFrame stereoDemand]) (by decide)
  exact ⟨s, hs, of_decide_eq_true hp, arrived_of_run hs _⟩

end Arrivals

-- ---------------------------------------------------------------------------
-- What arrives late
-- ---------------------------------------------------------------------------

def CaptureStep.opens : CaptureStep → Bool
  | .openPcm ok _ => ok
  | _ => false

/-- What has arrived since a state, of what was under way then, in a task that is not running. -/
structure Trails (start s : Capture) : Prop where
  silent : s.wasRunning = false
  idle : ∀ session, s.phase ≠ .inner session
  landed : ∃ landed, s.wire = landed ++ start.wire ∧ (landed ++ s.pending).Subperm start.pending

theorem Trails.keep {start : Capture} (h : Trails start s) (hsilent : s'.wasRunning = false)
    (hidle : ∀ session, s'.phase ≠ .inner session) (hwire : s'.wire = s.wire)
    (hpending : s'.pending = s.pending) : Trails start s' :=
  ⟨hsilent, hidle, hwire ▸ hpending ▸ h.landed⟩

theorem Trails.deliver {start : Capture} {e : Envelope} {sent : Bool} (h : Trails start s)
    (he : e ∈ s.pending) :
    Trails start { s with
      pending := s.pending.erase e, wire := if sent then e :: s.wire else s.wire } := by
  obtain ⟨landed, hwire, hpending⟩ := h.landed
  refine ⟨h.silent, h.idle, ?_⟩
  cases sent with
  | true =>
    refine ⟨e :: landed, congrArg (e :: ·) hwire, List.Subperm.trans ?_ hpending⟩
    have hback : (e :: landed ++ s.pending.erase e).Perm (landed ++ s.pending) :=
      List.perm_middle.symm.trans ((List.perm_cons_erase he).symm.append_left landed)
    exact hback.subperm
  | false =>
    exact ⟨landed, hwire, ((List.erase_sublist.append_left landed).subperm).trans hpending⟩

theorem trails_step {start : Capture} (h : Trails start s) (hopens : step.opens = false)
    (hstep : capture g s step = some s') : Trails start s' := by
  cases step with
  | head shutdown gates demand sent =>
    obtain ⟨-, ⟨⟩⟩ := Option.ite_none_right_eq_some.mp hstep
    rcases head_cases s shutdown gates demand sent with hs | hs | ⟨hrunning, -⟩ | ⟨-, hs⟩
    · exact hs ▸ h.keep h.silent (by simp [Capture.stop]) rfl rfl
    · exact hs ▸ h.keep h.silent (by simp) rfl rfl
    · cases h.silent.symm.trans hrunning
    · exact hs ▸ h.keep h.silent (by simp) rfl rfl
  | wake gates =>
    obtain ⟨-, ⟨⟩⟩ := Option.ite_none_right_eq_some.mp hstep
    rcases wake_cases s gates with hs | hs
    · exact hs.symm ▸ h
    · exact hs ▸ h.keep h.silent (by simp) rfl rfl
  | leave =>
    obtain ⟨-, ⟨⟩⟩ := Option.ite_none_right_eq_some.mp hstep
    exact h.keep h.silent (by simp [Capture.stop]) rfl rfl
  | openPcm ok demand =>
    obtain ⟨-, ⟨⟩⟩ := Option.ite_none_right_eq_some.mp hstep
    rcases openPcm_cases g s ok demand with ⟨hok, -⟩ | ⟨-, hs⟩ | ⟨-, hs⟩
    · cases hopens.symm.trans hok
    · exact hs ▸ h.keep h.silent (by simp) rfl rfl
    · exact hs ▸ h.keep h.silent (by simp [Capture.stop]) rfl rfl
  | retry shutdown =>
    obtain ⟨-, ⟨⟩⟩ := Option.ite_none_right_eq_some.mp hstep
    cases shutdown with
    | true => exact h.keep h.silent (by simp [Capture.stop]) rfl rfl
    | false => exact h.keep h.silent (by simp) rfl rfl
  | hop shutdown read gates now =>
    cases hphase : s.phase with
    | inner session => exact absurd hphase (h.idle session)
    | _ => simp [capture, hphase] at hstep
  | deliver e sent =>
    obtain ⟨he, ⟨⟩⟩ := Option.ite_none_right_eq_some.mp hstep
    exact h.deliver he

/-- Behind the empty frame at the end nothing arrives until the next opening but what had been
handed over before it and had not arrived. -/
theorem late_of_parked {steps : List CaptureStep} (hrunning : s.wasRunning = true)
    (hclosed : gates.opened = false)
    (h : exec (capture g) s (.head false gates demand true :: steps) = some s')
    (hopens : ∀ step ∈ steps, step.opens = false) :
    ∃ landed, s'.wire = landed ++ renderEmptyFrame demand :: s.wire ∧
      (landed ++ s'.pending).Subperm s.pending := by
  obtain ⟨t, hstep, hrest⟩ := exec_cons.mp h
  obtain ⟨-, ht⟩ := Option.ite_none_right_eq_some.mp hstep
  have hparked : s.head false gates demand true = { s with
      phase := .parked, wasRunning := false, history := .parked demand :: s.history
      wire := renderEmptyFrame demand :: s.wire } := by
    simp [Capture.head, hclosed, hrunning]
  have hmeets : Meets (capture g) (fun _ step => step.opens = false) t steps :=
    meets_of_at fun before step after _ hsplit _ => hopens step (by simp [hsplit])
  rw [hparked, Option.some.injEq] at ht
  subst ht
  have htrails := exec_invariant (fun hs hok hstep => trails_step hs hok hstep)
    ⟨rfl, by simp, [], rfl, List.Subperm.refl _⟩ hmeets hrest
  exact htrails.landed

/-- The frame of the short session arrives behind the empty frame. -/
theorem late_of_session :
    let frame := renderFrame stereoDemand stereoDemand.shape [1, 2, 3, 4]
    ∃ s s', exec (capture smallGeometry) .initial (shortSession.take 5) = some s ∧
      exec (capture smallGeometry) s [.head false pausedGates stereoDemand true,
        .deliver frame true] = some s' ∧ s'.wire = [frame, renderEmptyFrame stereoDemand] ∧
      ∃ landed, s'.wire = landed ++ renderEmptyFrame stereoDemand :: s.wire ∧
        (landed ++ s'.pending).Subperm s.pending := by
  intro frame
  obtain ⟨s', hs', hwire⟩ := exec_of_any (capture smallGeometry) .initial
    (shortSession ++ [.deliver frame true])
    (fun s => s.wire = [frame, renderEmptyFrame stereoDemand]) (by decide)
  rw [← List.take_append_drop 5 shortSession, List.append_assoc] at hs'
  obtain ⟨s, hs, hlast⟩ := exec_append.mp hs'
  have hrunning : (exec (capture smallGeometry) .initial (shortSession.take 5)).any
    (·.wasRunning) = true := by decide
  rw [hs] at hrunning
  refine ⟨s, s', hs, hlast, of_decide_eq_true hwire, ?_⟩
  exact late_of_parked hrunning (by decide) hlast (by decide)

end EvoAudio.Spectrum
