import EvoAudio.Lib.Machine
import EvoAudio.Options.Setters
import EvoAudio.Options.Transition

/-!
# The verbs of playback options, one after another

The requests of `handle_request` in `playback.options/src/lib.rs`, each on the
settings in memory, the state file with its sidecar, and the settings that were
published last. The setters write memory before they persist; a transition to
another mixer type puts memory back when it cannot persist, and runs under an
overall budget that may end at any of its awaits.
-/

namespace EvoAudio.Options.Verbs

variable {φ : Type}

structure Store (φ : Type) where
  memory : Settings φ
  disk : Disk φ
  subject : Settings φ
  deriving DecidableEq, Repr

inductive VerbError where
  /-- The payload does not parse, or carries another version. -/
  | payload
  | refused (refusal : Refusal)
  | noLastKnownGood
  | restore
  deriving DecidableEq, Repr

/-- Where the overall budget of a transition ends. A file operation that is under
way then is not cancelled. -/
inductive Cut where
  | untouched
  /-- The type is set in memory. -/
  | typeSet
  | sidecarCopied
  /-- The rename completes after the state file is read back. -/
  | renameDue
  | persisted
  /-- The settings of before are back in memory. -/
  | restoring
  | restoreCopied
  | restoreRenameDue
  | restored
  deriving DecidableEq, Repr

/-- The course of a transition, as the world has it. -/
inductive Course where
  /-- A step before the new type is set fails: the subscription or the mute. -/
  | stopped
  | ran (persist : PersistFaults) (unmutes : Bool) (restore : PersistFaults)
  /-- The budget is over, and the state file is read back if it can be. -/
  | cut (point : Cut) (copyFails restoreCopyFails reloads : Bool)
  deriving DecidableEq, Repr

inductive Verb (φ : Type) where
  | get
  | malformed
  | set (setter : Setter φ)
  | setMixerType (target : MixerType)
  | resetToDefaults
  | restoreLastKnownGood
  deriving DecidableEq, Repr

/-- A request, and what goes wrong in its course. -/
structure Call (φ : Type) where
  verb : Verb φ
  persist : PersistFaults
  course : Course
  restoreFails : Bool
  publishes : Bool
  deriving DecidableEq, Repr

namespace Store

def publish (publishes : Bool) (s : Store φ) : Store φ :=
  if publishes then { s with subject := s.memory } else s

/-- What a setter does once it has its new settings. -/
def put (faults : PersistFaults) (publishes : Bool) (settings : Settings φ) (s : Store φ) :
    Except VerbError Unit × Store φ :=
  match persistSettings faults settings s.disk with
  | (disk, some _) => (.error (.refused .persist), { s with memory := settings, disk })
  | (disk, none) => (.ok (), { s with memory := settings, disk }.publish publishes)

section Cut

variable (publishes copyFails restoreCopyFails : Bool) (target : MixerType) (s : Store φ)

def typeSet : Store φ := { s with memory := { s.memory with mixerType := target } }

def sidecarCopied : Store φ := { s.typeSet target with disk := s.disk.snapshot copyFails }

def persisted : Store φ :=
  { s.typeSet target with
    disk := { s.disk.snapshot copyFails with file := some (s.typeSet target).memory } }.publish
      publishes

/-- A rollback that has got to the copy of the sidecar. -/
def restoreCopied : Store φ :=
  let persisted := s.persisted publishes copyFails target
  { persisted with memory := s.memory, disk := persisted.disk.snapshot restoreCopyFails }

/-- The state that the budget finds, for a transition from these settings. -/
def cutAt : Cut → Store φ
  | .untouched => s
  | .typeSet => s.typeSet target
  | .sidecarCopied => s.sidecarCopied copyFails target
  | .renameDue => s.sidecarCopied copyFails target
  | .persisted => s.persisted publishes copyFails target
  | .restoring => { s.persisted publishes copyFails target with memory := s.memory }
  | .restoreCopied => s.restoreCopied publishes copyFails restoreCopyFails target
  | .restoreRenameDue => s.restoreCopied publishes copyFails restoreCopyFails target
  | .restored =>
    let copied := s.restoreCopied publishes copyFails restoreCopyFails target
    { copied with disk := { copied.disk with file := some s.memory } }.publish publishes

/-- What is renamed late. -/
def lateRename : Cut → Option (Settings φ)
  | .renameDue => some (s.typeSet target).memory
  | .restoreRenameDue => some s.memory
  | _ => none

end Cut

variable [OfNat φ 0] [OfNat φ 1]

/-- `load_settings_from_disk`: a file that is missing reads as the defaults. -/
def reload (reloads : Bool) (s : Store φ) : Store φ :=
  if reloads then { s with memory := s.disk.file.getD Settings.initial } else s

/-- `run_mixer_transition` to another type, under its budget. -/
def transition (publishes : Bool) (target : MixerType) (s : Store φ) :
    Course → Except VerbError Unit × Store φ
  | .stopped => (.error (.refused .transition), s)
  | .ran persist unmutes restore =>
    match put persist publishes { s.memory with mixerType := target } s with
    | (.error _, s') => (.error (.refused .transition), { s' with memory := s.memory })
    | (.ok _, s') =>
      if unmutes then (.ok (), s')
      else (.error (.refused .transition), (put restore publishes s.memory s').2)
  | .cut point copyFails restoreCopyFails reloads =>
    let found := (s.cutAt publishes copyFails restoreCopyFails target point).reload reloads
    (.error (.refused .transition),
      match s.lateRename target point with
      | some settings => { found with disk := { found.disk with file := some settings } }
      | none => found)

variable [LE φ] [DecidableLE φ] (bounds : EqBounds φ)

def handle (call : Call φ) (s : Store φ) : Except VerbError Unit × Store φ :=
  match call.verb with
  | .get => (.ok (), s)
  | .malformed => (.error .payload, s)
  | .set setter =>
    match setter.update bounds s.memory with
    | .error refusal => (.error (.refused refusal), s)
    | .ok settings => s.put call.persist call.publishes settings
  | .setMixerType target =>
    if target = .hardware ∧ (s.memory.mixerDevice.isEmpty || s.memory.mixerControl.isEmpty) then
      (.error (.refused .mixerCoordinates), s)
    else if s.memory.mixerType = target then (.ok (), s)
    else s.transition call.publishes target call.course
  | .resetToDefaults => s.put call.persist call.publishes Settings.initial
  | .restoreLastKnownGood =>
    match s.disk.lastKnownGood with
    | none => (.error .noLastKnownGood, s)
    | some settings =>
      if call.restoreFails then (.error .restore, s)
      else
        (.ok (), { s with
          memory := settings, disk := { s.disk with file := some settings } }.publish
            call.publishes)

def step (s : Store φ) (call : Call φ) : Option (Store φ) := some (handle bounds call s).2

-- ---------------------------------------------------------------------------
-- Putting settings in force
-- ---------------------------------------------------------------------------

section Put

omit [OfNat φ 0] [OfNat φ 1] [LE φ] [DecidableLE φ]

@[simp] theorem memory_publish (publishes : Bool) (s : Store φ) :
    (s.publish publishes).memory = s.memory := by
  cases publishes <;> rfl

@[simp] theorem disk_publish (publishes : Bool) (s : Store φ) :
    (s.publish publishes).disk = s.disk := by
  cases publishes <;> rfl

variable {faults : PersistFaults} {publishes : Bool} {settings : Settings φ} {s : Store φ}

theorem put_of_succeeds (h : faults.succeeds = true) (publishes : Bool) (settings : Settings φ)
    (s : Store φ) : s.put faults publishes settings =
      (.ok (), { s with
        memory := settings
        disk := { s.disk.snapshot faults.copyFails with file := some settings } }.publish
          publishes) := by
  obtain ⟨hpath, herror⟩ : faults.pathMissing = false ∧ faults.error = none := by
    simpa [PersistFaults.succeeds] using h
  simp [put, persistSettings, hpath, herror]

theorem put_of_fails (h : faults.succeeds = false) (publishes : Bool) (settings : Settings φ)
    (s : Store φ) : ∃ disk, s.put faults publishes settings =
        (.error (.refused .persist), { s with memory := settings, disk }) ∧
      (disk = s.disk ∨ disk = s.disk.snapshot false) := by
  have hcopy : s.disk.snapshot faults.copyFails = s.disk ∨
      s.disk.snapshot faults.copyFails = s.disk.snapshot false := by
    unfold Disk.snapshot
    cases faults.copyFails with
    | false => exact .inr rfl
    | true => cases s.disk.file <;> exact .inl rfl
  unfold put persistSettings
  cases hpath : faults.pathMissing with
  | true => exact ⟨s.disk, by simp, .inl rfl⟩
  | false =>
    cases herror : faults.error with
    | none => simp [PersistFaults.succeeds, hpath, herror] at h
    | some reason => exact ⟨s.disk.snapshot faults.copyFails, by simp, hcopy⟩

end Put

-- ---------------------------------------------------------------------------
-- The transition of the inline orchestrator
-- ---------------------------------------------------------------------------

section Orchestrator

omit [LE φ] [DecidableLE φ]

omit [OfNat φ 0] [OfNat φ 1] in
theorem envelope_keeps (world : World) (resolution : Resolution) (state : EnvelopeState)
    (p : Plugin φ) : (p.envelope world resolution state).2.settings = p.settings ∧
      (p.envelope world resolution state).2.disk = p.disk := by
  unfold Plugin.envelope Plugin.publishEnvelopeRequested
  cases world.announcer with
  | false => exact ⟨rfl, rfl⟩
  | true =>
    simp only [if_true, Plugin.awaitAck, Plugin.record]
    generalize awaitEnvelopeAck _ _ _ _ _ = answer
    rcases answer with ⟨_ | _, channel⟩ <;> exact ⟨rfl, rfl⟩

omit [OfNat φ 0] [OfNat φ 1] in
theorem publishSettingsState_keeps (world : World) (p : Plugin φ) :
    (p.publishSettingsState world).settings = p.settings ∧
      (p.publishSettingsState world).disk = p.disk := by
  unfold Plugin.publishSettingsState
  cases world.announcer <;> exact ⟨rfl, rfl⟩

omit [OfNat φ 0] [OfNat φ 1] in
/-- A persist of the orchestrator is that of a setter. -/
theorem persist_cases (faults : PersistFaults) (publishes : Bool) (p : Plugin φ) (s : Store φ)
    (hdisk : s.disk = p.disk) :
    (∃ p' s', p.persist faults = (.ok (), p') ∧ s.put faults publishes p.settings = (.ok (), s') ∧
        p'.settings = p.settings ∧ s'.memory = p.settings ∧ s'.disk = p'.disk) ∨
      ∃ e p' e' s', p.persist faults = (.error e, p') ∧
        s.put faults publishes p.settings = (.error e', s') ∧ p'.settings = p.settings ∧
          s'.memory = p.settings ∧ s'.disk = p'.disk := by
  unfold Plugin.persist put
  rw [hdisk]
  rcases persistSettings faults p.settings p.disk with ⟨disk, _ | reason⟩
  · exact .inl ⟨_, _, rfl, rfl, rfl, by simp, by simp; rfl⟩
  · exact .inr ⟨_, _, _, _, rfl, rfl, rfl, rfl, rfl⟩

/-- One of the courses within the budget comes to this end of the orchestrator. -/
def Reaches (publishes : Bool) (target : MixerType) (s : Store φ)
    (run : TransitionOutcome × Plugin φ) : Prop :=
  ∃ course : Course, (∀ point a b c, course ≠ .cut point a b c) ∧
    (s.transition publishes target course).2.memory = run.2.settings ∧
      (s.transition publishes target course).2.disk = run.2.disk ∧
        ((s.transition publishes target course).1 = .ok () ↔ ∃ level, run.1 = .applied level)

theorem reaches_stopped {p : Plugin φ} {s : Store φ} (hmemory : s.memory = p.settings)
    (hdisk : s.disk = p.disk) (publishes : Bool) (target before : MixerType) (phase : Phase)
    (reason : List Char) :
    s.Reaches publishes target (p.rollBack before target phase reason) :=
  ⟨.stopped, by simp, hmemory, hdisk, by simp [transition, Plugin.rollBack]⟩

theorem reaches_rollBackRestore {p : Plugin φ} {s s' : Store φ} {persist : PersistFaults}
    (world : World) (publishes : Bool) (target before : MixerType) (phase : Phase)
    (reason : List Char)
    (hput : s.put persist publishes { s.memory with mixerType := target } = (.ok (), s'))
    (hdisk : s'.disk = p.disk) :
    s.Reaches publishes target (p.rollBackRestore world before target phase reason s.memory) := by
  refine ⟨.ran persist false world.restore, by simp, ?_⟩
  simp only [transition, hput, Bool.false_eq_true, if_false, reduceCtorEq, false_iff, not_exists]
  unfold Plugin.rollBackRestore
  obtain ⟨p'', s'', hp, hs, hps, hss, hsd⟩ | ⟨e, p'', e', s'', hp, hs, hps, hss, hsd⟩ :=
    persist_cases world.restore publishes { p with settings := s.memory } s' hdisk
  · rw [hp, hs]
    have hpub := publishSettingsState_keeps world p''
    exact ⟨hss.trans (hps.symm.trans hpub.1.symm), hsd.trans hpub.2.symm, by simp [Plugin.rollBack]⟩
  · rw [hp, hs]
    exact ⟨hss.trans hps.symm, hsd, by simp⟩

/-- A transition that stays within its budget takes one of the courses here, and
leaves the settings and the disk as the orchestrator does. -/
theorem reaches_runMixerTransition (world : World) (before target : MixerType) (p : Plugin φ)
    (s : Store φ) (hmemory : s.memory = p.settings) (hdisk : s.disk = p.disk)
    (hne : before ≠ target) :
    s.Reaches world.announcer target (p.runMixerTransition world before target) := by
  unfold Plugin.runMixerTransition
  rw [if_neg hne]
  dsimp only
  generalize hstarted : p.emit (.started before target) = started
  obtain ⟨hms, hds⟩ : s.memory = started.settings ∧ s.disk = started.disk := by
    subst hstarted
    exact ⟨hmemory, hdisk⟩
  cases ensureEnvelopeObservedChannel world.preSubscribe started.channel with
  | error e => exact reaches_stopped hms hds _ _ _ _ _
  | ok channel =>
    dsimp only
    generalize hmuting : Plugin.record (.step .preMute) _ = muting
    obtain ⟨hmm, hdm⟩ : s.memory = muting.settings ∧ s.disk = muting.disk := by
      subst hmuting
      exact ⟨hms, hds⟩
    have hmute := envelope_keeps world world.atMute .muted muting
    generalize muting.envelope world world.atMute .muted = answer at hmute ⊢
    rcases answer with ⟨e | _, muted⟩
    · exact reaches_stopped (hmm.trans hmute.1.symm) (hdm.trans hmute.2.symm) _ _ _ _ _
    · dsimp only at hmute ⊢
      generalize hentered : Plugin.record (.step .setNewAuthority) muted = entered
      obtain ⟨hme, hde⟩ : s.memory = entered.settings ∧ s.disk = entered.disk := by
        subst hentered
        exact ⟨hmm.trans hmute.1.symm, hdm.trans hmute.2.symm⟩
      rw [← hme]
      obtain ⟨p', s', hp, hs, hps, hss, hsd⟩ | ⟨e, p', e', s', hp, hs, hps, hss, hsd⟩ :=
        persist_cases world.persist world.announcer
          { entered with settings := { s.memory with mixerType := target } } s hde
      · rw [hp]
        dsimp only
        generalize hverified : Plugin.record (.step .verifyEffectiveLevel) _ = verified
        obtain ⟨hmv, hdv⟩ : verified.settings = { s.memory with mixerType := target } ∧
            s'.disk = verified.disk := by
          have hpub := publishSettingsState_keeps world p'
          subst hverified
          exact ⟨hpub.1.trans hps, hsd.trans hpub.2.symm⟩
        rw [if_neg (by simp [hmv])]
        have hunmute := envelope_keeps world world.atUnmute .unmuted
          (verified.record (.step .unmute))
        generalize Plugin.envelope world world.atUnmute .unmuted _ = answer at hunmute ⊢
        rcases answer with ⟨e | _, unmuted⟩
        · exact reaches_rollBackRestore world _ _ _ _ _ hs (hdv.trans hunmute.2.symm)
        · refine ⟨.ran world.persist true world.restore, by simp, ?_⟩
          simp only [transition, hs, if_true]
          exact ⟨hss.trans (hmv.symm.trans hunmute.1.symm), hdv.trans hunmute.2.symm, by simp⟩
      · rw [hp]
        refine ⟨.ran world.persist true world.restore, by simp, ?_⟩
        simp only [transition, hs]
        exact ⟨rfl, hsd, by simp [Plugin.rollBack]⟩

end Orchestrator

end Store

-- ---------------------------------------------------------------------------
-- What a failed setter leaves behind
-- ---------------------------------------------------------------------------

section Failed

variable [LE φ] [DecidableLE φ] [OfNat φ 0] [OfNat φ 1] (bounds : EqBounds φ)

/-- The setters, the preset verbs and the reset. -/
def Verb.isSetter : Verb φ → Bool
  | .set _ => true
  | .resetToDefaults => true
  | _ => false

/-- The settings that a setter would put in force, unless it refuses its payload. -/
def Verb.puts (settings : Settings φ) : Verb φ → Option (Settings φ)
  | .set setter => (setter.update bounds settings).toOption
  | .resetToDefaults => some Settings.initial
  | _ => none

/-- What is asked of a call that returns an error. -/
def FailsCleanly (call : Call φ) (s : Store φ) : Prop :=
  (s.handle bounds call).1 ≠ .ok () →
    (s.handle bounds call).2.memory = s.memory ∧
      (s.handle bounds call).2.disk.file = s.disk.file ∧
      (s.handle bounds call).2.subject = s.subject

theorem handle_of_puts {call : Call φ} (hverb : call.verb.isSetter = true) (s : Store φ) :
    (∃ e, call.verb.puts bounds s.memory = none ∧ s.handle bounds call = (.error e, s)) ∨
      ∃ settings, call.verb.puts bounds s.memory = some settings ∧
        s.handle bounds call = s.put call.persist call.publishes settings := by
  unfold Store.handle
  cases hcall : call.verb with
  | set setter =>
    cases hupdate : setter.update bounds s.memory with
    | error refusal =>
      exact .inl ⟨.refused refusal, by simp [Verb.puts, hupdate, Except.toOption],
        by simp [hupdate]⟩
    | ok settings =>
      exact .inr ⟨settings, by simp [Verb.puts, hupdate, Except.toOption], by simp [hupdate]⟩
  | resetToDefaults => exact .inr ⟨Settings.initial, rfl, rfl⟩
  | _ => simp [hcall, Verb.isSetter] at hverb

/-- A setter writes memory before it persists. What it wrote stays there when it
cannot persist, so it fails cleanly only if it persists, refuses its payload, or
writes what is in force already. -/
theorem failsCleanly_iff (call : Call φ) (s : Store φ) (hverb : call.verb.isSetter = true) :
    FailsCleanly bounds call s ↔
      call.persist.succeeds = true ∨
        ∀ settings ∈ call.verb.puts bounds s.memory, settings = s.memory := by
  unfold FailsCleanly
  obtain ⟨e, hputs, hrun⟩ | ⟨settings, hputs, hrun⟩ := handle_of_puts bounds hverb s
  · simp [hputs, hrun]
  · rw [hrun, hputs]
    cases hsucceeds : call.persist.succeeds with
    | true => simp [Store.put_of_succeeds hsucceeds]
    | false =>
      obtain ⟨disk, hput, hdisk⟩ := Store.put_of_fails hsucceeds call.publishes settings s
      have hfile : disk.file = s.disk.file := by
        obtain rfl | rfl := hdisk
        · rfl
        · exact file_snapshot s.disk false
      simp [hput, hfile]

end Failed

/-- The bounds of `validate_eq_band`. -/
def sourceBounds : EqBounds Rat := ⟨-15, 15, 1 / 10, 30⟩

/-- A fresh plugin on its first state file. -/
def fresh : Store Rat := ⟨Settings.initial, ⟨some Settings.initial, none⟩, Settings.initial⟩

/-- A call in whose course nothing goes wrong. -/
def smooth (verb : Verb Rat) : Call Rat :=
  ⟨verb, PersistFaults.none, .ran PersistFaults.none true PersistFaults.none, false, true⟩

/-- The staging file cannot be written. -/
def unwritable (verb : Verb Rat) : Call Rat :=
  { smooth verb with persist := ⟨false, false, some "No space left on device".toList⟩ }

theorem failsCleanly_iff_unwritable :
    Verb.isSetter (φ := Rat) (.set (.startupVolume 101)) = true ∧
      FailsCleanly sourceBounds (unwritable (.set (.startupVolume 101))) fresh :=
  ⟨rfl, (failsCleanly_iff sourceBounds (unwritable (.set (.startupVolume 101))) fresh rfl).mpr
    (.inr (by decide))⟩

/-- A DSD setting that is refused for want of space is in memory all the same,
and the next setter writes it to the state file. -/
theorem refused_setting_persists :
    let failed := fresh.handle sourceBounds (unwritable (.set (.dop true)))
    let next := failed.2.handle sourceBounds (smooth (.set (.gapless false)))
    failed.1 = .error (.refused .persist) ∧ failed.2.memory.dop = true ∧ fresh.memory.dop = false ∧
      next.1 = .ok () ∧ next.2.disk.file.map (·.dop) = some true := by
  decide

end EvoAudio.Options.Verbs
