import EvoAudio.Lib.Machine
import Mathlib.Algebra.Group.Nat.Defs

/-!
# The supervisor loop

`SupervisorTask::run` of `playback.mpd/src/playback_supervisor/actor.rs` waits on
four receivers at once, takes the first that is ready and starts over. The idle
task beside it turns the wakes of MPD into events, and ends when it cannot
reconnect. A closed channel is ready at once and stays so.
-/

namespace EvoAudio.Playback.Supervisor

-- ---------------------------------------------------------------------------
-- The idle task
-- ---------------------------------------------------------------------------

inductive IdleSubsystem where
  | database
  | update
  | storedPlaylist
  | playlist
  | player
  | mixer
  | output
  | options
  | partition
  | sticker
  | subscription
  | message
  | neighbor
  | mount
  | other (name : List Char)
  deriving DecidableEq, Repr

/-- `IDLE_SUBSYSTEMS`. -/
def idleSubsystems : List IdleSubsystem := [.player, .mixer, .options, .playlist]

inductive IdleEvent where
  | changed (subsystems : List IdleSubsystem)
  | exhausted
  deriving DecidableEq, Repr

def reconnectInitial : Nat := 100

def reconnectMax : Nat := 10000

def reconnectMaxAttempts : Nat := 10

/-- `BackoffState::next_delay` in milliseconds, with the attempts used so far. -/
def nextDelay (attempt : Nat) : Option Nat :=
  if attempt ≥ reconnectMaxAttempts then none
  else some (min (reconnectInitial * 2 ^ min attempt 16) reconnectMax)

/-- Where `idle_task` waits. -/
inductive IdleTask where
  | idling
  /-- On the capacity of the event channel. -/
  | sending (event : IdleEvent)
  | reconnecting (attempt : Nat)
  | ended
  deriving DecidableEq, Repr

namespace IdleTask

/-- The answer to `idle`; `none` is an error. -/
def idleReturns (changed : Option (List IdleSubsystem)) : IdleTask → Option IdleTask
  | .idling =>
    match changed with
    | some [] => some .idling
    | some changed => some (.sending (.changed changed))
    | none => some (.reconnecting 0)
  | _ => none

/-- The end of a delay and the attempt after it, or the end of the attempts. -/
def reconnect (connects : Bool) : IdleTask → Option IdleTask
  | .reconnecting attempt =>
    match nextDelay attempt with
    | none => some (.sending .exhausted)
    | some _ =>
      if connects then some (.sending (.changed idleSubsystems))
      else some (.reconnecting (attempt + 1))
  | _ => none

def sent : IdleEvent → IdleTask
  | .changed _ => .idling
  | .exhausted => .ended

end IdleTask

-- ---------------------------------------------------------------------------
-- The loop
-- ---------------------------------------------------------------------------

inductive SupervisorMessage (κ : Type) where
  | command (cmd : κ)
  | queryState
  | cycleOutput
  deriving DecidableEq, Repr

structure AudioProtocolSettings where
  crossfadeSeconds : Nat
  gapless : Bool
  deriving DecidableEq, Repr

def AudioProtocolSettings.audiophileDefault : AudioProtocolSettings := ⟨0, true⟩

def commandChannelCapacity : Nat := 32

def idleChannelCapacity : Nat := 8

/-- The arm of the `select!` that ran, with what its receiver returned: `none`
is a closed channel. -/
inductive Arm (κ : Type) where
  | shutdown
  | command (msg : Option (SupervisorMessage κ))
  | idle (evt : Option IdleEvent)
  | settings (changed : Option AudioProtocolSettings)
  deriving DecidableEq, Repr

/-- The channels whose closing an arm can report. -/
inductive Channel where
  | commands
  | idle
  | settings
  deriving DecidableEq, Repr

def Arm.closed? : Arm κ → Option Channel
  | .command none => some .commands
  | .idle none => some .idle
  | .settings none => some .settings
  | _ => none

def Arm.applied? : Arm κ → Option AudioProtocolSettings
  | .settings changed => changed
  | _ => none

structure Iteration (κ : Type) where
  arm : Arm κ
  /-- The idle task had ended with nothing left of its events, a settings change
  was pending, and no command and no shutdown was. -/
  overdue : Bool
  deriving DecidableEq, Repr

structure State (κ : Type) where
  /-- The signal was sent, or its sender dropped. -/
  shutdown : Bool
  commands : List (SupervisorMessage κ)
  commandsClosed : Bool
  idleEvents : List IdleEvent
  idleTask : IdleTask
  settings : AudioProtocolSettings
  /-- The receiver has not seen the current settings. -/
  settingsChanged : Bool
  settingsClosed : Bool
  returned : Bool
  iterations : List (Iteration κ)
  deriving DecidableEq, Repr

/-- `recv` of an `mpsc` receiver: it waits while the channel is open and empty. -/
def recv (queue : List α) (closed : Bool) : Option (Option α) :=
  match queue with
  | message :: _ => some (some message)
  | [] => if closed then some none else none

namespace State

variable {κ : Type}

/-- `spawn`. The settings may have changed since the receiver last looked. -/
def spawn (settings : AudioProtocolSettings) (settingsChanged : Bool) : State κ where
  shutdown := false
  commands := []
  commandsClosed := false
  idleEvents := []
  idleTask := .idling
  settings := settings
  settingsChanged := settingsChanged
  settingsClosed := false
  returned := false
  iterations := []

/-- `changed` of the watch receiver: an unseen value comes before the closing. -/
def changed (s : State κ) : Option (Option AudioProtocolSettings) :=
  if s.settingsChanged then some (some s.settings)
  else if s.settingsClosed then some none else none

/-- The biased `select!`. -/
def select (s : State κ) : Option (Arm κ) :=
  if s.shutdown then some .shutdown
  else
    match recv s.commands s.commandsClosed with
    | some msg => some (.command msg)
    | none =>
      match recv s.idleEvents (s.idleTask = .ended) with
      | some evt => some (.idle evt)
      | none => s.changed.map .settings

/-- What the arm does to the receivers. -/
def handle (s : State κ) : Arm κ → State κ
  | .shutdown => { s with returned := true }
  | .command none => { s with returned := true }
  | .command (some _) => { s with commands := s.commands.tail }
  | .idle none => s
  | .idle (some _) => { s with idleEvents := s.idleEvents.tail }
  | .settings none => s
  | .settings (some _) => { s with settingsChanged := false }

def overdue (s : State κ) : Bool :=
  s.idleTask = .ended && s.idleEvents.isEmpty && s.settingsChanged &&
    s.commands.isEmpty && !s.commandsClosed && !s.shutdown

def iterate (s : State κ) : Option (State κ) :=
  if s.returned then none
  else s.select.map fun arm =>
    { s.handle arm with iterations := s.iterations ++ [⟨arm, s.overdue⟩] }

end State

inductive Action (κ : Type) where
  | command (msg : SupervisorMessage κ)
  | dropCommandSenders
  | shutdown
  | changeSettings (settings : AudioProtocolSettings)
  | dropSettingsSender
  | idleReturns (changed : Option (List IdleSubsystem))
  | reconnect (connects : Bool)
  | sendIdle
  | iterate
  deriving DecidableEq, Repr

def step (s : State κ) : Action κ → Option (State κ)
  | .command msg =>
    if s.commandsClosed || s.returned || commandChannelCapacity ≤ s.commands.length then none
    else some { s with commands := s.commands ++ [msg] }
  | .dropCommandSenders => some { s with commandsClosed := true }
  | .shutdown => some { s with shutdown := true }
  | .changeSettings settings =>
    if s.settingsClosed then none
    else some { s with settings := settings, settingsChanged := true }
  | .dropSettingsSender => some { s with settingsClosed := true }
  | .idleReturns changed => (s.idleTask.idleReturns changed).map ({ s with idleTask := · })
  | .reconnect connects => (s.idleTask.reconnect connects).map ({ s with idleTask := · })
  | .sendIdle =>
    match s.idleTask with
    | .sending event =>
      -- A dropped receiver fails the send, and the task ends on it.
      if s.returned then some { s with idleTask := .ended }
      else if idleChannelCapacity ≤ s.idleEvents.length then none
      else some { s with idleEvents := s.idleEvents ++ [event], idleTask := IdleTask.sent event }
    | _ => none
  | .iterate => s.iterate

-- ---------------------------------------------------------------------------
-- Closed channels
-- ---------------------------------------------------------------------------

namespace State

variable {κ : Type} {s s' : State κ} {a : Action κ}

/-- How many iterations only found the channel closed. -/
def closedIterations (s : State κ) (channel : Channel) : Nat :=
  s.iterations.countP fun iteration => iteration.arm.closed? = some channel

/-- How many iterations left an overdue settings change where it was. -/
def passedOver (s : State κ) : Nat :=
  s.iterations.countP fun iteration => iteration.overdue && iteration.arm.applied?.isNone

/-- Every iteration consumed something, but for one for each closed channel, and
an overdue settings change was passed over once at most. -/
structure Progressing (s : State κ) : Prop where
  closedOnce : ∀ channel, s.closedIterations channel ≤ 1
  passedOverOnce : s.passedOver ≤ 1

/-- Nothing comes before the closed channel in the order of the `select!`. -/
def Spent (s : State κ) : Channel → Prop
  | .commands => s.shutdown = false ∧ s.commands = [] ∧ s.commandsClosed = true
  | .idle => s.shutdown = false ∧ s.commands = [] ∧ s.commandsClosed = false ∧
      s.idleEvents = [] ∧ s.idleTask = .ended
  | .settings => s.shutdown = false ∧ s.commands = [] ∧ s.commandsClosed = false ∧
      s.idleEvents = [] ∧ s.idleTask ≠ .ended ∧
        s.settingsChanged = false ∧ s.settingsClosed = true

instance decidableSpent (s : State κ) : (channel : Channel) → Decidable (s.Spent channel)
  | .commands => decidable_of_iff
      (s.shutdown = false ∧ s.commands.isEmpty = true ∧ s.commandsClosed = true)
      (by simp [Spent])
  | .idle => decidable_of_iff
      (s.shutdown = false ∧ s.commands.isEmpty = true ∧ s.commandsClosed = false ∧
        s.idleEvents = [] ∧ s.idleTask = .ended) (by simp [Spent])
  | .settings => decidable_of_iff
      (s.shutdown = false ∧ s.commands.isEmpty = true ∧ s.commandsClosed = false ∧
        s.idleEvents = [] ∧ s.idleTask ≠ .ended ∧
          s.settingsChanged = false ∧ s.settingsClosed = true) (by simp [Spent])

theorem recv_eq_none {queue : List α} {closed : Bool} :
    recv queue closed = none ↔ queue = [] ∧ closed = false := by
  cases queue <;> cases closed <;> simp [recv]

theorem recv_eq_closed {queue : List α} {closed : Bool} :
    recv queue closed = some none ↔ queue = [] ∧ closed = true := by
  cases queue <;> cases closed <;> simp [recv]

theorem changed_eq_closed :
    s.changed = some none ↔ s.settingsChanged = false ∧ s.settingsClosed = true := by
  unfold changed
  cases s.settingsChanged <;> cases s.settingsClosed <;> simp

theorem select_eq_some : s.select = some arm ↔
    match arm with
    | .shutdown => s.shutdown = true
    | .command msg => s.shutdown = false ∧ recv s.commands s.commandsClosed = some msg
    | .idle evt => s.shutdown = false ∧ recv s.commands s.commandsClosed = none ∧
        recv s.idleEvents (s.idleTask = .ended) = some evt
    | .settings value => s.shutdown = false ∧ recv s.commands s.commandsClosed = none ∧
        recv s.idleEvents (s.idleTask = .ended) = none ∧ s.changed = some value := by
  unfold select
  cases s.shutdown
  · cases recv s.commands s.commandsClosed
    · cases recv s.idleEvents (decide (s.idleTask = .ended))
      · cases arm <;> simp [Option.map_eq_some_iff]
      · cases arm <;> simp
    · cases arm <;> simp
  · cases arm <;> simp

/-- The arm that runs reports a closed channel exactly where nothing comes before it. -/
theorem closed_select (h : s.select = some arm) (channel : Channel) :
    arm.closed? = some channel ↔ s.Spent channel := by
  have hselect := select_eq_some.mp h
  cases arm with
  | shutdown => cases channel <;> simp [Arm.closed?, Spent, hselect]
  | command msg =>
    obtain ⟨hshutdown, hrecv⟩ := hselect
    cases msg with
    | none =>
      obtain ⟨hnil, hclosed⟩ := recv_eq_closed.mp hrecv
      cases channel <;> simp [Arm.closed?, Spent, hshutdown, hnil, hclosed]
    | some msg =>
      have hcons : s.commands ≠ [] := by
        intro hnil
        simp [hnil, recv] at hrecv
      cases channel <;> simp [Arm.closed?, Spent, hcons]
  | idle evt =>
    obtain ⟨hshutdown, hnone, hrecv⟩ := hselect
    obtain ⟨hnil, hopen⟩ := recv_eq_none.mp hnone
    cases evt with
    | none =>
      obtain ⟨hevents, hended⟩ := recv_eq_closed.mp hrecv
      have hended := of_decide_eq_true hended
      cases channel <;> simp [Arm.closed?, Spent, hshutdown, hnil, hopen, hevents, hended]
    | some evt =>
      have hcons : s.idleEvents ≠ [] := by
        intro hevents
        rw [hevents] at hrecv
        cases hended : decide (s.idleTask = .ended) <;> simp [recv, hended] at hrecv
      cases channel <;> simp [Arm.closed?, Spent, hcons, hopen]
  | settings value =>
    obtain ⟨hshutdown, hnone, hidle, hchanged⟩ := hselect
    obtain ⟨hnil, hopen⟩ := recv_eq_none.mp hnone
    obtain ⟨hevents, hended⟩ := recv_eq_none.mp hidle
    have hended := of_decide_eq_false hended
    cases value with
    | none =>
      obtain ⟨hsame, hclosed⟩ := changed_eq_closed.mp hchanged
      cases channel <;>
        simp [Arm.closed?, Spent, hshutdown, hnil, hopen, hevents, hended, hsame, hclosed]
    | some value =>
      have hpending : ¬(s.settingsChanged = false ∧ s.settingsClosed = true) := by
        intro h
        simp [changed_eq_closed.mpr h] at hchanged
      cases channel
      · simp [Arm.closed?, Spent, hopen]
      · simp [Arm.closed?, Spent, hended]
      · simpa [Arm.closed?, Spent, hshutdown, hnil, hopen, hevents, hended] using hpending

theorem spent_of_overdue (h : s.overdue = true) : s.Spent .idle := by
  simp only [overdue, Bool.and_eq_true, decide_eq_true_eq, Bool.not_eq_true',
    List.isEmpty_iff] at h
  obtain ⟨⟨⟨⟨⟨hended, hevents⟩, -⟩, hcommands⟩, hopen⟩, hshutdown⟩ := h
  exact ⟨hshutdown, hcommands, hopen, hevents, hended⟩

/-- What an action leaves of the loop: only an iteration adds to the record. -/
theorem step_cases (h : step s a = some s') :
    (a ≠ .iterate ∧ s'.iterations = s.iterations ∧ s'.returned = s.returned) ∨
      (a = .iterate ∧ s.returned = false ∧ ∃ arm, s.select = some arm ∧
        s' = { s.handle arm with iterations := s.iterations ++ [⟨arm, s.overdue⟩] }) := by
  cases a with
  | iterate =>
    refine .inr ⟨rfl, ?_⟩
    simp only [step, iterate] at h
    split at h
    · cases h
    · rename_i hreturned
      obtain ⟨arm, harm, rfl⟩ := Option.map_eq_some_iff.mp h
      exact ⟨by simpa using hreturned, arm, harm, rfl⟩
  | command msg =>
    simp only [step] at h
    split at h
    · cases h
    · cases h
      exact .inl ⟨by simp, rfl, rfl⟩
  | changeSettings settings =>
    simp only [step] at h
    split at h
    · cases h
    · cases h
      exact .inl ⟨by simp, rfl, rfl⟩
  | idleReturns changed =>
    obtain ⟨task, -, rfl⟩ := Option.map_eq_some_iff.mp h
    exact .inl ⟨by simp, rfl, rfl⟩
  | reconnect connects =>
    obtain ⟨task, -, rfl⟩ := Option.map_eq_some_iff.mp h
    exact .inl ⟨by simp, rfl, rfl⟩
  | sendIdle =>
    simp only [step] at h
    split at h
    · split at h
      · cases h
        exact .inl ⟨by simp, rfl, rfl⟩
      · split at h
        · cases h
        · cases h
          exact .inl ⟨by simp, rfl, rfl⟩
    · cases h
  | dropCommandSenders => cases h; exact .inl ⟨by simp, rfl, rfl⟩
  | shutdown => cases h; exact .inl ⟨by simp, rfl, rfl⟩
  | dropSettingsSender => cases h; exact .inl ⟨by simp, rfl, rfl⟩

theorem closedIterations_append (h : s'.iterations = s.iterations ++ [iteration])
    (channel : Channel) :
    s'.closedIterations channel =
      s.closedIterations channel + if iteration.arm.closed? = some channel then 1 else 0 := by
  simp [closedIterations, h, List.countP_append, List.countP_cons]

theorem passedOver_append (h : s'.iterations = s.iterations ++ [iteration]) :
    s'.passedOver = s.passedOver +
      if iteration.overdue && iteration.arm.applied?.isNone then 1 else 0 := by
  simp [passedOver, h, List.countP_append, List.countP_cons]

/-- What the counts keep to in every run: the loop returns on closed commands,
and only the closed idle channel passes over a settings change. -/
structure Counted (s : State κ) : Prop where
  running : s.returned = false → s.closedIterations .commands = 0
  commandsOnce : s.closedIterations .commands ≤ 1
  passedOver : s.passedOver ≤ s.closedIterations .idle

theorem counted_spawn (settings : AudioProtocolSettings) (changed : Bool) :
    (spawn settings changed : State κ).Counted where
  running := fun _ => rfl
  commandsOnce := Nat.zero_le 1
  passedOver := Nat.le_refl 0

theorem Counted.step (hs : s.Counted) (h : step s a = some s') : s'.Counted := by
  obtain ⟨-, hiter, hreturned⟩ | ⟨-, hrunning, arm, harm, rfl⟩ := step_cases h
  · have hclosed : s'.closedIterations = s.closedIterations := by
      funext channel
      simp [closedIterations, hiter]
    have hpassed : s'.passedOver = s.passedOver := by simp [State.passedOver, hiter]
    refine ⟨?_, ?_, ?_⟩
    · rw [hclosed, hreturned]
      exact hs.running
    · rw [hclosed]
      exact hs.commandsOnce
    · rw [hclosed, hpassed]
      exact hs.passedOver
  · have hzero := hs.running hrunning
    refine ⟨fun hstill => ?_, ?_, ?_⟩
    · have hopen : arm.closed? ≠ some .commands := by
        rintro hclosed
        obtain rfl : arm = .command none := by
          cases arm with
          | command msg => cases msg <;> simp_all [Arm.closed?]
          | shutdown => simp [Arm.closed?] at hclosed
          | idle evt => cases evt <;> simp [Arm.closed?] at hclosed
          | settings value => cases value <;> simp [Arm.closed?] at hclosed
        simp [handle] at hstill
      rw [closedIterations_append rfl, hzero]
      simp [hopen]
    · rw [closedIterations_append rfl, hzero]
      split <;> simp
    · rw [closedIterations_append rfl, passedOver_append rfl]
      have hle := hs.passedOver
      split
      · rename_i hover
        have hspent := spent_of_overdue (Bool.and_eq_true_iff.mp hover).1
        rw [if_pos ((closed_select harm .idle).mpr hspent)]
        omega
      · omega

/-- An iteration does not find the idle channel, or the settings, closed a
second time. -/
def Fresh (s : State κ) : Action κ → Prop
  | .iterate => (s.Spent .idle → s.closedIterations .idle = 0) ∧
      (s.Spent .settings → s.closedIterations .settings = 0)
  | _ => True

instance decidableFresh (s : State κ) : (a : Action κ) → Decidable (s.Fresh a)
  | .iterate => inferInstanceAs (Decidable (_ ∧ _))
  | .command _ => .isTrue trivial
  | .dropCommandSenders => .isTrue trivial
  | .shutdown => .isTrue trivial
  | .changeSettings _ => .isTrue trivial
  | .dropSettingsSender => .isTrue trivial
  | .idleReturns _ => .isTrue trivial
  | .reconnect _ => .isTrue trivial
  | .sendIdle => .isTrue trivial

theorem Progressing.step_iff (hcounted : s.Counted) (hs : s.Progressing)
    (h : step s a = some s') : s'.Progressing ↔ s.Fresh a := by
  obtain ⟨hother, hiter, -⟩ | ⟨rfl, hrunning, arm, harm, rfl⟩ := step_cases h
  · have hfresh : s.Fresh a := by
      cases a with
      | iterate => exact absurd rfl hother
      | _ => trivial
    refine ⟨fun _ => hfresh, fun _ => ⟨?_, ?_⟩⟩
    · simpa [closedIterations, hiter] using hs.closedOnce
    · simpa [passedOver, hiter] using hs.passedOverOnce
  · have hcounted' := hcounted.step h
    constructor
    · intro hs'
      have hzero : ∀ channel, s.Spent channel → s.closedIterations channel = 0 := by
        intro channel hspent
        have hle := hs'.closedOnce channel
        rw [closedIterations_append rfl, if_pos ((closed_select harm channel).mpr hspent)] at hle
        omega
      exact ⟨hzero .idle, hzero .settings⟩
    · rintro ⟨hidle, hsettings⟩
      have honce : ∀ channel, (s.Spent channel → s.closedIterations channel = 0) →
          s.closedIterations channel + (if arm.closed? = some channel then 1 else 0) ≤ 1 := by
        intro channel hfresh
        split
        · rename_i hclosed
          have hzero := hfresh ((closed_select harm channel).mp hclosed)
          omega
        · exact hs.closedOnce channel
      refine ⟨fun channel => ?_, ?_⟩
      · rw [closedIterations_append rfl]
        cases channel with
        | commands => exact honce .commands fun _ => hcounted.running hrunning
        | idle => exact honce .idle hidle
        | settings => exact honce .settings hsettings
      · refine Nat.le_trans hcounted'.passedOver ?_
        rw [closedIterations_append rfl]
        exact honce .idle hidle

/-- The idle channel is closed and empty. -/
def IdleOver (s : State κ) : Prop := s.idleTask = .ended ∧ s.idleEvents = []

theorem IdleOver.step (hs : s.IdleOver) (h : step s a = some s') : s'.IdleOver := by
  obtain ⟨hended, hevents⟩ := hs
  cases a with
  | iterate =>
    obtain ⟨hother, -⟩ | ⟨-, -, arm, -, rfl⟩ := step_cases h
    · exact absurd rfl hother
    · cases arm with
      | shutdown => exact ⟨hended, hevents⟩
      | command msg => cases msg <;> exact ⟨hended, hevents⟩
      | idle evt => cases evt <;> exact ⟨hended, by simp [handle, hevents]⟩
      | settings value => cases value <;> exact ⟨hended, hevents⟩
  | command msg =>
    simp only [Supervisor.step] at h
    split at h
    · cases h
    · cases h
      exact ⟨hended, hevents⟩
  | changeSettings settings =>
    simp only [Supervisor.step] at h
    split at h
    · cases h
    · cases h
      exact ⟨hended, hevents⟩
  | idleReturns changed => simp [Supervisor.step, hended, IdleTask.idleReturns] at h
  | reconnect connects => simp [Supervisor.step, hended, IdleTask.reconnect] at h
  | sendIdle => simp [Supervisor.step, hended] at h
  | dropCommandSenders => cases h; exact ⟨hended, hevents⟩
  | shutdown => cases h; exact ⟨hended, hevents⟩
  | dropSettingsSender => cases h; exact ⟨hended, hevents⟩

theorem IdleOver.applied_select (hs : s.IdleOver) (h : s.select = some arm) :
    arm.applied? = none := by
  cases arm with
  | settings value =>
    obtain ⟨-, -, hrecv, -⟩ := select_eq_some.mp h
    simp [hs.1, hs.2, recv] at hrecv
  | _ => rfl

/-- The settings that were applied, in their order. -/
def applied (s : State κ) : List AudioProtocolSettings :=
  s.iterations.filterMap fun iteration => iteration.arm.applied?

/-- Once the idle channel is closed and empty no settings change is ever applied:
in every run from there the applied settings stay what they were. -/
theorem IdleOver.applied_exec {s s' : State κ} (hs : s.IdleOver)
    (h : Machine.exec Supervisor.step s acts = some s') : s'.applied = s.applied := by
  have hkept : s'.IdleOver ∧ s'.applied = s.applied := by
    refine Machine.exec_invariant_all (I := fun t => t.IdleOver ∧ t.applied = s.applied)
      ?_ ⟨hs, rfl⟩ h
    rintro t a t' ⟨hover, happlied⟩ hstep
    refine ⟨hover.step hstep, ?_⟩
    obtain ⟨-, hiter, -⟩ | ⟨-, -, arm, harm, rfl⟩ := step_cases hstep
    · simpa [applied, hiter] using happlied
    · simpa [applied, hover.applied_select harm] using happlied
  exact hkept.2

end State

-- ---------------------------------------------------------------------------
-- Runs
-- ---------------------------------------------------------------------------

open State

theorem progressing_spawn (settings : AudioProtocolSettings) (changed : Bool) :
    (spawn settings changed : State κ).Progressing :=
  ⟨fun _ => Nat.zero_le 1, Nat.zero_le 1⟩

/-- The idle task gives up with a settings change to come. -/
def giveUp : List (Action Nat) :=
  .idleReturns none :: List.replicate 11 (.reconnect false) ++ [.sendIdle, .iterate]

end EvoAudio.Playback.Supervisor
