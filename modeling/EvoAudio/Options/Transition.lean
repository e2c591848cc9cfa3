import EvoAudio.Options.Settings
import Mathlib.Data.List.Basic

/-!
# The mixer transition

`run_transition` of `playback.options/src/transition.rs` walks the steps of the
mixer-transition contract over an injected executor. `run_mixer_transition` of
`lib.rs` walks them inline, with the settings, the state file and the envelope
requests to the playback warden at hand. What the world answers (the
resolutions of the warden's subject, its stream of observations, the failing
steps of a persist) is in `World`.
-/

namespace EvoAudio.Options

-- ---------------------------------------------------------------------------
-- The contract
-- ---------------------------------------------------------------------------

/-- The steps of the contract, and the subscription before them. -/
inductive Phase where
  | preSubscribe
  | readCarriedLevel
  | preMute
  | setNewAuthority
  | switchFragment
  | restartPlayback
  | verifyEffectiveLevel
  | unmute
  deriving DecidableEq, Repr

/-- The steps of `run_transition`, in order. -/
def contractSteps : List Phase :=
  [.readCarriedLevel, .preMute, .setNewAuthority, .switchFragment, .restartPlayback,
    .verifyEffectiveLevel, .unmute]

inductive TransitionOutcome where
  | applied (effectiveLevel : Nat)
  | rolledBack (atPhase : Phase) (reason : List Char)
  | failed (atPhase : Phase) (reason : List Char)
  | noOp
  deriving DecidableEq, Repr

/-- The `audio.mixer_transition` happenings. -/
inductive Lifecycle where
  | started (before after : MixerType)
  | applied (before after : MixerType) (carriedLevel effectiveLevel : Nat)
  | rolledBack (before after : MixerType) (atPhase : Phase) (reason : List Char)
  | failed (before after : MixerType) (atPhase : Phase) (reason : List Char)
  deriving DecidableEq, Repr

/-- The terminal happening that matches an outcome. -/
def TransitionOutcome.terminal (before after : MixerType) (carriedLevel : Nat) :
    TransitionOutcome → Option Lifecycle
  | .applied effectiveLevel => some (.applied before after carriedLevel effectiveLevel)
  | .rolledBack atPhase reason => some (.rolledBack before after atPhase reason)
  | .failed atPhase reason => some (.failed before after atPhase reason)
  | .noOp => none

/-- `TransitionExecutor`: each step over a state `σ`, with an error to report. -/
structure TransitionExecutor (σ : Type) where
  readCarriedLevel : MixerType → σ → Except (List Char) Nat × σ
  preMute : σ → Except (List Char) Unit × σ
  setNewAuthority : MixerType → Nat → σ → Except (List Char) Unit × σ
  switchFragment : MixerType → σ → Except (List Char) Unit × σ
  restartPlayback : σ → Except (List Char) Unit × σ
  verifyEffectiveLevel : Nat → σ → Except (List Char) Nat × σ
  unmute : σ → Except (List Char) Unit × σ
  rollback : MixerType → Phase → σ → Except (List Char) Unit × σ

section Contract

variable {σ : Type} (executor : TransitionExecutor σ) (emit : Lifecycle → σ → σ)
  (before after : MixerType)

def rollbackOrFail (atPhase : Phase) (reason : List Char) (s : σ) : TransitionOutcome × σ :=
  match executor.rollback before atPhase s with
  | (.ok _, s) => (.rolledBack atPhase reason, emit (.rolledBack before after atPhase reason) s)
  | (.error rollbackErr, s) =>
    let combined := reason ++ "; rollback failed: ".toList ++ rollbackErr
    (.failed atPhase combined, emit (.failed before after atPhase combined) s)

def runTransition (s : σ) : TransitionOutcome × σ :=
  if before = after then (.noOp, s)
  else
    match executor.readCarriedLevel before (emit (.started before after) s) with
    | (.error e, s) => rollbackOrFail executor emit before after .readCarriedLevel e s
    | (.ok carriedLevel, s) =>
    match executor.preMute s with
    | (.error e, s) => rollbackOrFail executor emit before after .preMute e s
    | (.ok _, s) =>
    match executor.setNewAuthority after carriedLevel s with
    | (.error e, s) => rollbackOrFail executor emit before after .setNewAuthority e s
    | (.ok _, s) =>
    match executor.switchFragment after s with
    | (.error e, s) => rollbackOrFail executor emit before after .switchFragment e s
    | (.ok _, s) =>
    match executor.restartPlayback s with
    | (.error e, s) => rollbackOrFail executor emit before after .restartPlayback e s
    | (.ok _, s) =>
    match executor.verifyEffectiveLevel carriedLevel s with
    | (.error e, s) => rollbackOrFail executor emit before after .verifyEffectiveLevel e s
    | (.ok effectiveLevel, s) =>
    match executor.unmute s with
    | (.error e, s) => rollbackOrFail executor emit before after .unmute e s
    | (.ok _, s) =>
      (.applied effectiveLevel, emit (.applied before after carriedLevel effectiveLevel) s)

end Contract

-- ---------------------------------------------------------------------------
-- The envelope
-- ---------------------------------------------------------------------------

inductive EnvelopeState where
  | muted
  | unmuted
  deriving DecidableEq, Repr

structure EnvelopeObserved where
  v : Nat
  generation : UInt64
  observedState : EnvelopeState
  observedAtMs : UInt64
  deriving DecidableEq, Repr

def observationMatches (observed : EnvelopeObserved) (generation : UInt64)
    (state : EnvelopeState) : Bool :=
  observed.generation = generation && observed.observedState = state

/-- What a receiver of the `envelope_observed` stream sees: an update, whose state
may be absent or malformed, a lag, the end of the stream, or nothing until the
deadline of the wait. -/
inductive Received where
  | update (observed : Option EnvelopeObserved)
  | lagged
  | closed
  | elapsed
  deriving DecidableEq, Repr

structure Channel where
  canonicalId : List Char
  stream : List Received
  deriving DecidableEq, Repr

/-- What resolving and subscribing to the warden's subject comes to. -/
inductive Resolution where
  | unannounced
  | error (reason : List Char)
  | subscribed (channel : Channel)
  deriving DecidableEq, Repr

/-- How a wait for the warden ends well. -/
inductive Ack where
  | acknowledged
  | advisory
  deriving DecidableEq, Repr

def EnvelopeState.label : EnvelopeState → List Char
  | .muted => "Muted".toList
  | .unmuted => "Unmuted".toList

def ensureEnvelopeObservedChannel (resolution : Resolution) :
    Option Channel → Except (List Char) (Option Channel)
  | some channel => .ok (some channel)
  | none =>
    match resolution with
    | .unannounced => .ok none
    | .error reason => .error reason
    | .subscribed channel => .ok (some channel)

/-- The receive loop, with what is left of the stream. A closed stream stays so. -/
def recvAck (timeoutMs : Nat) (canonicalId : List Char) (generation : UInt64)
    (state : EnvelopeState) : List Received → Except (List Char) Unit × List Received
  | .update observed :: rest =>
    if observed.any (observationMatches · generation state) then (.ok (), rest)
    else recvAck timeoutMs canonicalId generation state rest
  | .lagged :: rest => recvAck timeoutMs canonicalId generation state rest
  | .closed :: rest =>
    (.error ("envelope_observed stream closed before ack (canonical_id=".toList ++
      canonicalId ++ ")".toList), .closed :: rest)
  | .elapsed :: rest => (.error timedOut, rest)
  | [] => (.error timedOut, [])
where
  timedOut : List Char :=
    "envelope ack timeout after ".toList ++ (toString timeoutMs).toList ++
      "ms (generation=".toList ++ (toString generation).toList ++ ", expected_state=".toList ++
      state.label ++ ")".toList

def awaitEnvelopeAck (timeoutMs : Nat) (resolution : Resolution) (generation : UInt64)
    (state : EnvelopeState) (channel : Option Channel) :
    Except (List Char) Ack × Option Channel :=
  match ensureEnvelopeObservedChannel resolution channel with
  | .error reason => (.error reason, channel)
  | .ok none => (.ok .advisory, none)
  | .ok (some channel) =>
    match recvAck timeoutMs channel.canonicalId generation state channel.stream with
    | (.ok _, rest) => (.ok .acknowledged, some { channel with stream := rest })
    | (.error reason, rest) => (.error reason, some { channel with stream := rest })

-- ---------------------------------------------------------------------------
-- The inline orchestrator
-- ---------------------------------------------------------------------------

/-- What the plugin does in the course of a gesture. -/
inductive Event (φ : Type) where
  | lifecycle (happening : Lifecycle)
  | step (phase : Phase)
  | requested (generation : UInt64) (state : EnvelopeState)
  | acknowledged (generation : UInt64) (state : EnvelopeState)
  | advisory
  | persisted (settings : Settings φ)
  | published (settings : Settings φ)
  deriving DecidableEq, Repr

def Ack.event (generation : UInt64) (state : EnvelopeState) : Ack → Event φ
  | .acknowledged => .acknowledged generation state
  | .advisory => .advisory

def Event.lifecycle? : Event φ → Option Lifecycle
  | .lifecycle happening => some happening
  | _ => none

def Event.step? : Event φ → Option Phase
  | .step phase => some phase
  | _ => none

structure Plugin (φ : Type) where
  settings : Settings φ
  disk : Disk φ
  generation : UInt64
  /-- The cached `envelope_observed` channel. -/
  channel : Option Channel
  /-- The last envelope request that was published, by any gesture. -/
  lastRequest : Option EnvelopeState
  trace : List (Event φ)
  deriving DecidableEq, Repr

/-- What the world answers in the course of a gesture. -/
structure World where
  announcer : Bool
  timeoutMs : Nat
  preSubscribe : Resolution
  atMute : Resolution
  atUnmute : Resolution
  persist : PersistFaults
  restore : PersistFaults
  deriving DecidableEq, Repr

namespace Plugin

variable (world : World)

def record (event : Event φ) (s : Plugin φ) : Plugin φ := { s with trace := s.trace ++ [event] }

def emit (happening : Lifecycle) (s : Plugin φ) : Plugin φ := s.record (.lifecycle happening)

def publishEnvelopeRequested (state : EnvelopeState) (s : Plugin φ) :
    Except (List Char) UInt64 × Plugin φ :=
  if world.announcer then
    let generation := s.generation + 1
    (.ok generation, { s with generation := generation, lastRequest := some state }.record
      (.requested generation state))
  else (.error "subject_announcer unpopulated; cannot publish envelope".toList, s)

def awaitAck (resolution : Resolution) (generation : UInt64) (state : EnvelopeState)
    (s : Plugin φ) : Except (List Char) Unit × Plugin φ :=
  match awaitEnvelopeAck world.timeoutMs resolution generation state s.channel with
  | (.ok ack, channel) => (.ok (), { s with channel := channel }.record (ack.event generation state))
  | (.error reason, channel) => (.error reason, { s with channel := channel })

/-- A request and the wait for its acknowledgement, as steps 2 and 7 make them. -/
def envelope (resolution : Resolution) (state : EnvelopeState) (s : Plugin φ) :
    Except (List Char) Unit × Plugin φ :=
  match publishEnvelopeRequested world state s with
  | (.error e, s) => (.error e, s)
  | (.ok generation, s) => awaitAck world resolution generation state s

def persist (faults : PersistFaults) (s : Plugin φ) : Except (List Char) Unit × Plugin φ :=
  match persistSettings faults s.settings s.disk with
  | (disk, none) => (.ok (), { s with disk := disk }.record (.persisted s.settings))
  | (disk, some reason) => (.error reason, { s with disk := disk })

/-- Only an announced plugin publishes. -/
def publishSettingsState (s : Plugin φ) : Plugin φ :=
  if world.announcer then s.record (.published s.settings) else s

/-- Roll back without restoring the settings. -/
def rollBack (before after : MixerType) (atPhase : Phase) (reason : List Char) (s : Plugin φ) :
    TransitionOutcome × Plugin φ :=
  (.rolledBack atPhase reason, s.emit (.rolledBack before after atPhase reason))

/-- Roll back and restore the settings. -/
def rollBackRestore (before after : MixerType) (atPhase : Phase) (reason : List Char)
    (prior : Settings φ) (s : Plugin φ) : TransitionOutcome × Plugin φ :=
  match persist world.restore { s with settings := prior } with
  | (.ok _, s) => rollBack before after atPhase reason (publishSettingsState world s)
  | (.error rollbackErr, s) =>
    let combined := reason ++ "; rollback failed: ".toList ++ rollbackErr
    (.failed atPhase combined, s.emit (.failed before after atPhase combined))

def mismatch (current after : MixerType) : List Char :=
  "post-persist mixer_type ".toList ++ current.debug ++ " != target ".toList ++ after.debug

def runMixerTransition (before after : MixerType) (s : Plugin φ) :
    TransitionOutcome × Plugin φ :=
  if before = after then (.noOp, s)
  else
    let s := s.emit (.started before after)
    match ensureEnvelopeObservedChannel world.preSubscribe s.channel with
    | .error e => rollBack before after .preSubscribe e s
    | .ok channel =>
    let s := { s with channel := channel }.record (.step .readCarriedLevel)
    let carriedLevel := s.settings.startupVolumePercent
    match envelope world world.atMute .muted (s.record (.step .preMute)) with
    | (.error e, s) => rollBack before after .preMute e s
    | (.ok _, s) =>
    let s := s.record (.step .setNewAuthority)
    let priorSettings := s.settings
    match persist world.persist
        { s with settings := { priorSettings with mixerType := after } } with
    | (.error e, s) =>
      rollBack before after .setNewAuthority e { s with settings := priorSettings }
    | (.ok _, s) =>
    let s := (publishSettingsState world s).record (.step .switchFragment)
    let s := s.record (.step .restartPlayback)
    let s := s.record (.step .verifyEffectiveLevel)
    let currentMixerType := s.settings.mixerType
    if currentMixerType ≠ after then
      rollBackRestore world before after .verifyEffectiveLevel (mismatch currentMixerType after)
        priorSettings s
    else
      let effectiveLevel := carriedLevel
      match envelope world world.atUnmute .unmuted (s.record (.step .unmute)) with
      | (.error e, s) => rollBackRestore world before after .unmute e priorSettings s
      | (.ok _, s) =>
        (.applied effectiveLevel, s.emit (.applied before after carriedLevel effectiveLevel))

/-- The plugin as an executor of the contract; the settings beside it are those
that step 3 found. -/
def executor (after : MixerType) : TransitionExecutor (Plugin φ × Settings φ) where
  readCarriedLevel _ s :=
    match ensureEnvelopeObservedChannel world.preSubscribe s.1.channel with
    | .error e => (.error e, s)
    | .ok channel =>
      (.ok s.1.settings.startupVolumePercent,
        { s.1 with channel := channel }.record (.step .readCarriedLevel), s.2)
  preMute s :=
    let muted := envelope world world.atMute .muted (s.1.record (.step .preMute))
    (muted.1, muted.2, s.2)
  setNewAuthority target _ s :=
    let entered := s.1.record (.step .setNewAuthority)
    match persist world.persist
        { entered with settings := { entered.settings with mixerType := target } } with
    | (.error e, s) => (.error e, { s with settings := entered.settings }, entered.settings)
    | (.ok _, s) => (.ok (), publishSettingsState world s, entered.settings)
  switchFragment _ s := (.ok (), s.1.record (.step .switchFragment), s.2)
  restartPlayback s := (.ok (), s.1.record (.step .restartPlayback), s.2)
  verifyEffectiveLevel expected s :=
    let entered := s.1.record (.step .verifyEffectiveLevel)
    if entered.settings.mixerType ≠ after then
      (.error (mismatch entered.settings.mixerType after), entered, s.2)
    else (.ok expected, entered, s.2)
  unmute s :=
    let unmuted := envelope world world.atUnmute .unmuted (s.1.record (.step .unmute))
    (unmuted.1, unmuted.2, s.2)
  rollback _ atPhase s :=
    if atPhase = .verifyEffectiveLevel ∨ atPhase = .unmute then
      match persist world.restore { s.1 with settings := s.2 } with
      | (.ok _, restored) => (.ok (), publishSettingsState world restored, s.2)
      | (.error e, restored) => (.error e, restored, s.2)
    else (.ok (), s)

/-- The inline orchestrator is the contract's machine over the plugin, wherever the
subscription before its first step does not fail. -/
theorem runMixerTransition_eq_runTransition (before after : MixerType) (s : Plugin φ)
    (prior : Settings φ)
    (hsubscribed : ∀ e, ensureEnvelopeObservedChannel world.preSubscribe s.channel ≠ .error e) :
    runMixerTransition world before after s =
      let contract := runTransition (executor world after)
        (fun happening s => (s.1.emit happening, s.2)) before after (s, prior)
      (contract.1, contract.2.1) := by
  unfold runMixerTransition runTransition
  by_cases hsame : before = after
  · simp [hsame]
  · simp only [hsame, if_false]
    have hchannel : (s.emit (.started before after)).channel = s.channel := rfl
    cases hensure : ensureEnvelopeObservedChannel world.preSubscribe s.channel with
    | error e => exact absurd hensure (hsubscribed e)
    | ok channel =>
      simp only [executor, hchannel, hensure]
      generalize envelope world world.atMute .muted _ = muted
      obtain ⟨e | _, s⟩ := muted
      · rfl
      · dsimp only
        generalize persist world.persist _ = persisted
        obtain ⟨e | _, s'⟩ := persisted
        · rfl
        · dsimp only
          split
          · simp only [rollbackOrFail, rollBackRestore, true_or, if_true]
            generalize persist world.restore _ = restored
            obtain ⟨e | _, s⟩ := restored <;> rfl
          · dsimp only
            generalize envelope world world.atUnmute .unmuted _ = unmuted
            obtain ⟨e | _, s⟩ := unmuted
            · simp only [rollbackOrFail, rollBackRestore, or_true, if_true]
              generalize persist world.restore _ = restored
              obtain ⟨e | _, s⟩ := restored <;> rfl
            · rfl

-- ---------------------------------------------------------------------------
-- The courses a gesture can take
-- ---------------------------------------------------------------------------

/-- A gesture, traced from its start. -/
def gesture (before after : MixerType) (s : Plugin φ) : TransitionOutcome × Plugin φ :=
  runMixerTransition world before after { s with trace := [] }

/-- What a course leaves behind. -/
structure Ends (s' : Plugin φ) (trace : List (Event φ)) (settings : Settings φ)
    (file : Option (Settings φ)) (lastRequest : Option EnvelopeState) : Prop where
  trace : s'.trace = trace
  settings : s'.settings = settings
  file : s'.disk.file = file
  lastRequest : s'.lastRequest = lastRequest

def mutedAck (channel : Option Channel) (s : Plugin φ) : Except (List Char) Ack × Option Channel :=
  awaitEnvelopeAck world.timeoutMs world.atMute (s.generation + 1) .muted channel

def unmutedAck (channel : Option Channel) (s : Plugin φ) :
    Except (List Char) Ack × Option Channel :=
  awaitEnvelopeAck world.timeoutMs world.atUnmute (s.generation + 1 + 1) .unmuted
    (mutedAck world channel s).2

/-- The trace up to the mute request. -/
def opening (before after : MixerType) : List (Event φ) :=
  [.lifecycle (.started before after), .step .readCarriedLevel, .step .preMute]

/-- The trace from the mute request up to the unmute request. -/
def middle (after : MixerType) (s : Plugin φ) (ack : Ack) : List (Event φ) :=
  [.requested (s.generation + 1) .muted, ack.event (s.generation + 1) .muted,
    .step .setNewAuthority, .persisted { s.settings with mixerType := after },
    .published { s.settings with mixerType := after }, .step .switchFragment,
    .step .restartPlayback, .step .verifyEffectiveLevel, .step .unmute]

/-- The courses of a gesture, each with the answers of the world it follows from. -/
inductive Course (before after : MixerType) (s s' : Plugin φ) : TransitionOutcome → Prop
  | same (hsame : before = after)
      (hends : s'.Ends [] s.settings s.disk.file s.lastRequest) : Course before after s s' .noOp
  | unsubscribed (hne : before ≠ after)
      (hensure : ensureEnvelopeObservedChannel world.preSubscribe s.channel = .error e)
      (hends : s'.Ends [.lifecycle (.started before after),
          .lifecycle (.rolledBack before after .preSubscribe e)]
        s.settings s.disk.file s.lastRequest) :
      Course before after s s' (.rolledBack .preSubscribe e)
  | unannounced (hne : before ≠ after)
      (hensure : ensureEnvelopeObservedChannel world.preSubscribe s.channel = .ok opened)
      (hannouncer : world.announcer = false)
      (hends : s'.Ends (opening before after ++ [.lifecycle (.rolledBack before after .preMute e)])
        s.settings s.disk.file s.lastRequest) : Course before after s s' (.rolledBack .preMute e)
  | unacknowledged (hne : before ≠ after)
      (hensure : ensureEnvelopeObservedChannel world.preSubscribe s.channel = .ok opened)
      (hannouncer : world.announcer = true) (hack : (mutedAck world opened s).1 = .error e)
      (hends : s'.Ends (opening before after ++ [.requested (s.generation + 1) .muted,
          .lifecycle (.rolledBack before after .preMute e)])
        s.settings s.disk.file (some .muted)) : Course before after s s' (.rolledBack .preMute e)
  | unpersisted (ack : Ack) (hne : before ≠ after)
      (hensure : ensureEnvelopeObservedChannel world.preSubscribe s.channel = .ok opened)
      (hannouncer : world.announcer = true) (hack : (mutedAck world opened s).1 = .ok ack)
      (hpersist : world.persist.succeeds = false)
      (hends : s'.Ends (opening before after ++ [.requested (s.generation + 1) .muted,
          ack.event (s.generation + 1) .muted, .step .setNewAuthority,
          .lifecycle (.rolledBack before after .setNewAuthority e)])
        s.settings s.disk.file (some .muted)) :
      Course before after s s' (.rolledBack .setNewAuthority e)
  | restored (ack : Ack) (hne : before ≠ after)
      (hensure : ensureEnvelopeObservedChannel world.preSubscribe s.channel = .ok opened)
      (hannouncer : world.announcer = true) (hack : (mutedAck world opened s).1 = .ok ack)
      (hpersist : world.persist.succeeds = true)
      (hunmuted : (unmutedAck world opened s).1 = .error e)
      (hrestore : world.restore.succeeds = true)
      (hends : s'.Ends (opening before after ++ (middle after s ack ++
          .requested (s.generation + 1 + 1) .unmuted :: [.persisted s.settings,
            .published s.settings, .lifecycle (.rolledBack before after .unmute e)]))
        s.settings (some s.settings) (some .unmuted)) :
      Course before after s s' (.rolledBack .unmute e)
  | failed (ack : Ack) (hne : before ≠ after)
      (hensure : ensureEnvelopeObservedChannel world.preSubscribe s.channel = .ok opened)
      (hannouncer : world.announcer = true) (hack : (mutedAck world opened s).1 = .ok ack)
      (hpersist : world.persist.succeeds = true)
      (hunmuted : (unmutedAck world opened s).1 = .error e)
      (hrestore : world.restore.succeeds = false)
      (hends : s'.Ends (opening before after ++ (middle after s ack ++
          .requested (s.generation + 1 + 1) .unmuted ::
            [.lifecycle (.failed before after .unmute combined)]))
        s.settings (some { s.settings with mixerType := after }) (some .unmuted)) :
      Course before after s s' (.failed .unmute combined)
  | applied (ack ack' : Ack) (hne : before ≠ after)
      (hensure : ensureEnvelopeObservedChannel world.preSubscribe s.channel = .ok opened)
      (hannouncer : world.announcer = true) (hack : (mutedAck world opened s).1 = .ok ack)
      (hpersist : world.persist.succeeds = true)
      (hunmuted : (unmutedAck world opened s).1 = .ok ack')
      (hends : s'.Ends (opening before after ++ (middle after s ack ++
          .requested (s.generation + 1 + 1) .unmuted ::
            [ack'.event (s.generation + 1 + 1) .unmuted, .lifecycle (.applied before after
              s.settings.startupVolumePercent s.settings.startupVolumePercent)]))
        { s.settings with mixerType := after } (some { s.settings with mixerType := after })
        (some .unmuted)) :
      Course before after s s' (.applied s.settings.startupVolumePercent)

variable {world}

theorem course_gesture (before after : MixerType) (s : Plugin φ) :
    Course world before after s (gesture world before after s).2
      (gesture world before after s).1 := by
  unfold gesture runMixerTransition
  by_cases hne : before = after
  · rw [if_pos hne]
    exact .same hne ⟨rfl, rfl, rfl, rfl⟩
  · rw [if_neg hne]
    dsimp only [emit, record]
    cases hensure : ensureEnvelopeObservedChannel world.preSubscribe s.channel with
    | error e => exact .unsubscribed hne hensure ⟨rfl, rfl, rfl, rfl⟩
    | ok opened =>
      cases hannouncer : world.announcer
      · simp only [envelope, publishEnvelopeRequested, hannouncer]
        exact .unannounced hne hensure hannouncer ⟨rfl, rfl, rfl, rfl⟩
      · simp only [envelope, publishEnvelopeRequested, awaitAck, record, hannouncer, if_true]
        cases hmuted : mutedAck world opened s with
        | mk answer afterMute =>
        have hawait := hmuted
        simp only [mutedAck] at hawait
        simp only [hawait]
        cases answer with
        | error e =>
          exact .unacknowledged hne hensure hannouncer (by rw [hmuted]) ⟨rfl, rfl, rfl, rfl⟩
        | ok ack =>
        dsimp only [persist]
        cases hpersist : world.persist.succeeds
        · obtain ⟨disk, reason, hdisk, hfile⟩ := persistSettings_error hpersist
            { s.settings with mixerType := after } s.disk
          simp only [hdisk]
          exact .unpersisted ack hne hensure hannouncer (by rw [hmuted]) hpersist
            ⟨rfl, rfl, hfile, rfl⟩
        · obtain ⟨disk, hdisk, hfile⟩ := persistSettings_ok hpersist
            { s.settings with mixerType := after } s.disk
          simp only [hdisk, publishSettingsState, hannouncer, if_true, record]
          cases hunmuted : unmutedAck world opened s with
          | mk answer' afterUnmute =>
          have hawait' := hunmuted
          simp only [unmutedAck, hmuted] at hawait'
          simp only [ne_eq, not_true_eq_false, if_false, hawait']
          cases answer' with
          | ok ack' =>
            exact .applied ack ack' hne hensure hannouncer (by rw [hmuted]) hpersist (by rw [hunmuted])
              ⟨by simp [opening, middle], rfl, hfile, rfl⟩
          | error e =>
          simp only [rollBackRestore, persist, publishSettingsState, hannouncer, if_true, record]
          cases hrestore : world.restore.succeeds
          · obtain ⟨disk', reason, hdisk', hfile'⟩ := persistSettings_error hrestore s.settings disk
            simp only [hdisk']
            exact .failed ack hne hensure hannouncer (by rw [hmuted]) hpersist (by rw [hunmuted])
              hrestore ⟨by simp [opening, middle, emit, record], rfl, hfile'.trans hfile, rfl⟩
          · obtain ⟨disk', hdisk', hfile'⟩ := persistSettings_ok hrestore s.settings disk
            simp only [hdisk']
            exact .restored ack hne hensure hannouncer (by rw [hmuted]) hpersist (by rw [hunmuted])
              hrestore ⟨by simp [opening, middle, emit, record, rollBack], rfl, hfile', rfl⟩

-- ---------------------------------------------------------------------------
-- What the contract asks for
-- ---------------------------------------------------------------------------

/-- The unmute request comes after the acknowledgement of the mute request (or in
advisory mode) and after the new mixer is persisted. -/
def UnmuteGuarded (after : MixerType) (s : Plugin φ) (trace : List (Event φ)) : Prop :=
  ∀ earlier later generation, trace = earlier ++ .requested generation .unmuted :: later →
    ((∃ g, .requested g .muted ∈ earlier ∧ .acknowledged g .muted ∈ earlier) ∨
      .advisory ∈ earlier) ∧ .persisted { s.settings with mixerType := after } ∈ earlier

/-- What the contract asks of a gesture. -/
structure MeetsContract (world : World) (before after : MixerType) (s : Plugin φ) : Prop where
  refines : (∀ e, ensureEnvelopeObservedChannel world.preSubscribe s.channel ≠ .error e) →
    gesture world before after s =
      let contract := runTransition (executor world after)
        (fun happening s => (s.1.emit happening, s.2)) before after
        ({ s with trace := [] }, s.settings)
      (contract.1, contract.2.1)
  steps : (gesture world before after s).2.trace.filterMap Event.step? <+: contractSteps
  lifecycle : (gesture world before after s).2.trace.filterMap Event.lifecycle? =
    match (gesture world before after s).1.terminal before after
        s.settings.startupVolumePercent with
    | some terminal => [.started before after, terminal]
    | none => []
  unmute : UnmuteGuarded after s (gesture world before after s).2.trace
  /-- The rollback hook: the settings as they were, and the mute released. -/
  rolledBack : ∀ atPhase reason,
    (gesture world before after s).1 = .rolledBack atPhase reason →
      (gesture world before after s).2.settings = s.settings ∧
        (gesture world before after s).2.disk.file = s.disk.file ∧
          (gesture world before after s).2.lastRequest ≠ some .muted

theorem Course.steps_lifecycle {s s' : Plugin φ} (h : Course world before after s s' outcome) :
    s'.trace.filterMap Event.step? <+: contractSteps ∧
      s'.trace.filterMap Event.lifecycle? =
        match outcome.terminal before after s.settings.startupVolumePercent with
        | some terminal => [.started before after, terminal]
        | none => [] := by
  cases h with
  | same hsame hends => simp [hends.trace, TransitionOutcome.terminal]
  | unsubscribed hne hensure hends =>
    rw [hends.trace]
    exact ⟨List.nil_prefix, rfl⟩
  | unannounced hne hensure hannouncer hends =>
    rw [hends.trace]
    exact ⟨⟨_, rfl⟩, rfl⟩
  | unacknowledged hne hensure hannouncer hack hends =>
    rw [hends.trace]
    exact ⟨⟨_, rfl⟩, rfl⟩
  | unpersisted ack hne hensure hannouncer hack hpersist hends =>
    rw [hends.trace]
    cases ack <;> exact ⟨⟨_, rfl⟩, rfl⟩
  | restored ack hne hensure hannouncer hack hpersist hunmuted hrestore hends =>
    rw [hends.trace]
    cases ack <;> exact ⟨⟨_, rfl⟩, rfl⟩
  | failed ack hne hensure hannouncer hack hpersist hunmuted hrestore hends =>
    rw [hends.trace]
    cases ack <;> exact ⟨⟨_, rfl⟩, rfl⟩
  | applied ack ack' hne hensure hannouncer hack hpersist hunmuted hends =>
    rw [hends.trace]
    cases ack <;> cases ack' <;> exact ⟨⟨_, rfl⟩, rfl⟩

/-- An element that a list does not have does not split it. -/
theorem unmuteGuarded_of_not_mem {after : MixerType} {s : Plugin φ} {trace : List (Event φ)}
    (h : ∀ generation, .requested generation .unmuted ∉ trace) : UnmuteGuarded after s trace := by
  intro earlier later generation htrace
  exact absurd (htrace ▸ List.mem_append_right earlier List.mem_cons_self) (h generation)

/-- The trace of a gesture has one unmute request, with the guards before it. -/
theorem unmuteGuarded_middle {before after : MixerType} {s : Plugin φ} {ack : Ack}
    {rest : List (Event φ)} (h : ∀ generation, .requested generation .unmuted ∉ rest) :
    UnmuteGuarded after s (opening before after ++ (middle after s ack ++
      .requested (s.generation + 1 + 1) .unmuted :: rest)) := by
  intro earlier later generation htrace
  have hguards : .requested generation .unmuted ∉ opening before after ++ middle after s ack := by
    cases ack <;> simp [opening, middle, Ack.event]
  rw [← List.append_assoc] at htrace
  obtain ⟨rfl, -, -⟩ := (List.append_cons_inj_of_notMem hguards (h generation)).mp htrace
  constructor
  · cases ack with
    | acknowledged => exact .inl ⟨s.generation + 1, by simp [middle], by simp [middle, Ack.event]⟩
    | advisory => exact .inr (by simp [middle, Ack.event])
  · simp [middle]

theorem Course.unmuteGuarded {s s' : Plugin φ} (h : Course world before after s s' outcome) :
    UnmuteGuarded after s s'.trace := by
  cases h with
  | same hsame hends => exact unmuteGuarded_of_not_mem (by simp [hends.trace])
  | unsubscribed hne hensure hends => exact unmuteGuarded_of_not_mem (by simp [hends.trace])
  | unannounced hne hensure hannouncer hends =>
    exact unmuteGuarded_of_not_mem (by simp [hends.trace, opening])
  | unacknowledged hne hensure hannouncer hack hends =>
    exact unmuteGuarded_of_not_mem (by simp [hends.trace, opening])
  | unpersisted ack hne hensure hannouncer hack hpersist hends =>
    exact unmuteGuarded_of_not_mem (by cases ack <;> simp [hends.trace, opening, Ack.event])
  | restored ack hne hensure hannouncer hack hpersist hunmuted hrestore hends =>
    rw [hends.trace]
    exact unmuteGuarded_middle (by simp)
  | failed ack hne hensure hannouncer hack hpersist hunmuted hrestore hends =>
    rw [hends.trace]
    exact unmuteGuarded_middle (by simp)
  | applied ack ack' hne hensure hannouncer hack hpersist hunmuted hends =>
    rw [hends.trace]
    exact unmuteGuarded_middle (by cases ack' <;> simp [Ack.event])

/-- The condition under which a gesture that is rolled back is undone: it gets as
far as the unmute request, over a state file that agreed with the settings, or
fails before its first request. -/
def Undone (world : World) (before after : MixerType) (s : Plugin φ) : Prop :=
  before = after ∨
    match ensureEnvelopeObservedChannel world.preSubscribe s.channel with
    | .error _ => s.lastRequest ≠ some .muted
    | .ok opened =>
      if world.announcer then
        (mutedAck world opened s).1.isOk = true ∧ world.persist.succeeds = true ∧
          ((unmutedAck world opened s).1.isOk = true ∨ world.restore.succeeds = false ∨
            s.disk.file = some s.settings)
      else s.lastRequest ≠ some .muted

theorem Course.rolledBack_iff {s s' : Plugin φ} (h : Course world before after s s' outcome) :
    (∀ atPhase reason, outcome = .rolledBack atPhase reason →
      s'.settings = s.settings ∧ s'.disk.file = s.disk.file ∧ s'.lastRequest ≠ some .muted) ↔
      Undone world before after s := by
  cases h with
  | same hsame hends => simp [Undone, hsame]
  | unsubscribed hne hensure hends =>
    simp [Undone, hne, hensure, hends.settings, hends.file, hends.lastRequest]
  | unannounced hne hensure hannouncer hends =>
    simp [Undone, hne, hensure, hannouncer, hends.settings, hends.file, hends.lastRequest]
  | unacknowledged hne hensure hannouncer hack hends =>
    simp [Undone, hne, hensure, hannouncer, hack, hends.lastRequest, Except.isOk, Except.toBool]
  | unpersisted ack hne hensure hannouncer hack hpersist hends =>
    simp [Undone, hne, hensure, hannouncer, hpersist, hends.lastRequest]
  | restored ack hne hensure hannouncer hack hpersist hunmuted hrestore hends =>
    simp [Undone, hne, hensure, hannouncer, hack, hpersist, hunmuted, hrestore, hends.settings,
      hends.file, hends.lastRequest, Except.isOk, Except.toBool, eq_comm]
  | failed ack hne hensure hannouncer hack hpersist hunmuted hrestore hends =>
    simp [Undone, hne, hensure, hannouncer, hack, hpersist, hrestore, Except.isOk, Except.toBool]
  | applied ack ack' hne hensure hannouncer hack hpersist hunmuted hends =>
    simp [Undone, hne, hensure, hannouncer, hack, hpersist, hunmuted, Except.isOk, Except.toBool]

/-- A gesture meets the contract exactly when what it rolls back is undone: the
steps, the happenings and the guard of the unmute are always as the contract has
them. -/
theorem meetsContract_iff_undone (world : World) (before after : MixerType) (s : Plugin φ) :
    MeetsContract world before after s ↔ Undone world before after s := by
  have hcourse : Course world before after s _ _ := course_gesture before after s
  rw [← hcourse.rolledBack_iff]
  refine ⟨fun h => h.rolledBack, fun h => ⟨?_, hcourse.steps_lifecycle.1,
    hcourse.steps_lifecycle.2, hcourse.unmuteGuarded, h⟩⟩
  exact runMixerTransition_eq_runTransition world before after { s with trace := [] } s.settings

/-- The warden does not answer the mute request before the deadline: the gesture is
rolled back, and the chain is left muted. -/
theorem muted_after_rollback :
    ¬∀ (world : World) (before after : MixerType) (s : Plugin Nat),
      MeetsContract world before after s := by
  intro hall
  have hreleased := ((hall
    ⟨true, 5000, .subscribed ⟨"mpd".toList, [.elapsed]⟩, .unannounced, .unannounced,
      PersistFaults.none, PersistFaults.none⟩
    .software .none ⟨Settings.initial, ⟨some Settings.initial, none⟩, 0, none, none, []⟩).rolledBack
    .preMute _ rfl).2.2
  exact hreleased rfl

end Plugin

end EvoAudio.Options
