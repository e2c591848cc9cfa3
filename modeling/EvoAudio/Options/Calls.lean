import EvoAudio.Lib.Machine
import EvoAudio.Lib.Pool
import EvoAudio.Options.Setters

/-!
# Setter calls at once

The setters run on `&self`. Each one updates the settings under the lock and then
persists and publishes a copy of them that it takes later: the copies of all the
calls go through one staging file, a rename puts whatever is staged in place, and
publishes are left to tasks of their own. A mixer transition that is rolled back
puts the settings of before it back, and one that runs over its budget puts the
state file back. A step here is one critical section, one file operation or one
publish; its call may fail.

A copy is stamped with the number of updates that it has seen, and an update
leaves a mark of what it wrote. No step reads the stamps or the marks.
-/

namespace EvoAudio.Options.Calls

variable {φ : Type}

structure Stamped (φ : Type) where
  settings : Settings φ
  stamp : Nat
  deriving DecidableEq, Repr

/-- What a file holds. -/
inductive Content (φ : Type) where
  | settings (copy : Stamped φ)
  /-- A write that failed half-way. -/
  | torn
  deriving DecidableEq, Repr

/-- What a call wrote into its fields, and the stamp of its update. -/
structure Mark (φ : Type) where
  call : Nat
  fields : List Field
  wrote : Settings φ
  stamp : Nat
  deriving DecidableEq, Repr

structure Shared (φ : Type) where
  memory : Stamped φ
  file : Option (Content φ)
  lastKnownGood : Option (Content φ)
  staging : Option (Content φ)
  subject : Stamped φ
  /-- The publishes that are under way. -/
  pending : List (Stamped φ)
  /-- Who has the `transition_lock`. -/
  lock : Option Nat
  marks : List (Mark φ)
  /-- The mixer type may be another one than at the start. -/
  typeTouched : Bool
  deriving DecidableEq, Repr

-- ---------------------------------------------------------------------------
-- Effects
-- ---------------------------------------------------------------------------

inductive Effect (φ : Type) where
  | nothing
  | copySidecar
  | stage (content : Content φ)
  | rename
  /-- An update of the settings by a call, and whether it is the transition's. -/
  | update (i : Nat) (fields : List Field) (settings : Settings φ) (ofType : Bool)
  /-- The mixer is of the wanted type already. -/
  | noOp (i : Nat)
  /-- The transition of a call puts other settings in place of all. -/
  | replace (i : Nat) (settings : Settings φ)
  | publish
  | takeLock (i : Nat)
  | finish (i : Nat) (refusal : Option Refusal)

def Shared.unmark (s : Shared φ) (i : Nat) : List (Mark φ) := s.marks.filter (·.call ≠ i)

def Effect.apply (s : Shared φ) : Effect φ → Shared φ
  | .nothing => s
  | .copySidecar => { s with lastKnownGood := s.file }
  | .stage content => { s with staging := some content }
  | .rename => { s with file := s.staging, staging := none }
  | .update i fields settings ofType =>
    { s with
      memory := ⟨settings, s.memory.stamp + 1⟩
      marks := ⟨i, fields, settings, s.memory.stamp + 1⟩ :: s.marks
      typeTouched := ofType || s.typeTouched }
  | .noOp i => { s with marks := ⟨i, [.mixerType], s.memory.settings, 0⟩ :: s.marks }
  | .replace i settings =>
    { s with
      memory := ⟨settings, s.memory.stamp + 1⟩
      marks := s.unmark i
      typeTouched := true }
  | .publish => { s with pending := s.pending ++ [s.memory] }
  | .takeLock i => { s with lock := some i }
  | .finish i refusal =>
    { s with
      lock := if s.lock = some i then none else s.lock
      marks := if refusal.isSome then s.unmark i else s.marks }

-- ---------------------------------------------------------------------------
-- Persisting
-- ---------------------------------------------------------------------------

/-- Where `persist_settings` has got to. -/
inductive Stage (φ : Type) where
  | copy
  | snapshot
  | directory (snapshot : Stamped φ)
  | write (snapshot : Stamped φ)
  | sync (snapshot : Stamped φ)
  | rename (snapshot : Stamped φ)
  deriving DecidableEq, Repr

inductive Persisting (φ : Type) where
  | next (stage : Stage φ)
  | done
  | failed
  deriving DecidableEq, Repr

def persistNext (fails : Bool) (s : Shared φ) : Stage φ → Effect φ × Persisting φ
  -- A copy that fails is only logged.
  | .copy =>
    (if s.file.isSome && !fails then .copySidecar else .nothing, .next .snapshot)
  | .snapshot => (.nothing, .next (.directory s.memory))
  | .directory snapshot => (.nothing, if fails then .failed else .next (.write snapshot))
  | .write snapshot =>
    if fails then (.stage .torn, .failed)
    else (.stage (.settings snapshot), .next (.sync snapshot))
  -- The staging file is opened again, and it may be gone.
  | .sync snapshot =>
    (.nothing, if fails || s.staging.isNone then .failed else .next (.rename snapshot))
  | .rename _ =>
    if fails || s.staging.isNone then (.nothing, .failed) else (.rename, .done)

-- ---------------------------------------------------------------------------
-- Calls
-- ---------------------------------------------------------------------------

/-- Where a setter has got to. -/
inductive SetterPoint (φ : Type) where
  | update
  | persist (stage : Stage φ) (extra : Nat)
  /-- A publish, with those after it. -/
  | publish (extra : Nat)
  | failing (refusal : Refusal)
  | returned (refusal : Option Refusal)
  deriving DecidableEq, Repr

/-- Where `handle_set_mixer_type` has got to. `prior` is the copy of the settings
to go back to. -/
inductive MixerPoint (φ : Type) where
  | check
  | locking (before : MixerType)
  | start (before : MixerType)
  | noOp
  | preMute
  | takePrior
  | setType (prior : Stamped φ)
  | persist (prior : Stamped φ) (stage : Stage φ)
  | undo (prior : Stamped φ)
  | publish (prior : Stamped φ)
  | verify (prior : Stamped φ)
  | unmute (prior : Stamped φ)
  | restore (prior : Stamped φ)
  | restorePersist (stage : Stage φ)
  | restorePublish
  /-- The budget is over. -/
  | reload
  | reloaded (content : Option (Stamped φ))
  | failing
  | returned (refusal : Option Refusal)
  deriving DecidableEq, Repr

inductive Call (φ : Type) where
  | setter (setter : Setter φ) (point : SetterPoint φ)
  | mixer (target : MixerType) (point : MixerPoint φ)
  deriving DecidableEq, Repr

def Call.fields : Call φ → List Field
  | .setter own _ => own.fields
  | .mixer _ _ => [.mixerType]

section Steps

variable [LE φ] [DecidableLE φ] [OfNat φ 0] [OfNat φ 1] (bounds : EqBounds φ)

def setterNext (i : Nat) (fails : Bool) (s : Shared φ) (setter : Setter φ) :
    SetterPoint φ → Option (Effect φ × SetterPoint φ)
  | .update =>
    match setter.update bounds s.memory.settings with
    | .ok settings => some (.update i setter.fields settings false,
        .persist .copy (setter.publishes s.memory.settings - 1))
    | .error refusal => some (.finish i (some refusal), .returned (some refusal))
  | .persist stage extra =>
    let after := persistNext fails s stage
    match after.2 with
    | .next stage => some (after.1, .persist stage extra)
    | .done => some (after.1, .publish extra)
    | .failed => some (after.1, .failing .persist)
  | .publish 0 => some (.publish, .returned none)
  | .publish (extra + 1) => some (.publish, .publish extra)
  | .failing refusal => some (.finish i (some refusal), .returned (some refusal))
  | .returned _ => none

/-- `load_settings_from_disk`: a file that is missing reads as the defaults. -/
def loadSettings (fails : Bool) (s : Shared φ) : Option (Stamped φ) :=
  if fails then none
  else
    match s.file with
    | some (.settings copy) => some copy
    | some .torn => none
    | none => some ⟨Settings.initial, 0⟩

/-- A failure of `preMute` or `unmute` is one of the envelope requests. -/
def mixerNext (i : Nat) (fails : Bool) (s : Shared φ) (target : MixerType) :
    MixerPoint φ → Option (Effect φ × MixerPoint φ)
  | .check =>
    if target = .hardware ∧
        (s.memory.settings.mixerDevice.isEmpty || s.memory.settings.mixerControl.isEmpty) then
      some (.finish i (some .mixerCoordinates), .returned (some .mixerCoordinates))
    else some (.nothing, .locking s.memory.settings.mixerType)
  | .locking before => if s.lock.isSome then none else some (.takeLock i, .start before)
  | .start before => if before = target then some (.noOp i, .noOp) else some (.nothing, .preMute)
  | .noOp => some (.finish i none, .returned none)
  | .preMute => if fails then some (.nothing, .failing) else some (.nothing, .takePrior)
  | .takePrior => some (.nothing, .setType s.memory)
  | .setType prior =>
    some (.update i [.mixerType] { s.memory.settings with mixerType := target } true,
      .persist prior .copy)
  | .persist prior stage =>
    let after := persistNext fails s stage
    match after.2 with
    | .next stage => some (after.1, .persist prior stage)
    | .done => some (after.1, .publish prior)
    | .failed => some (after.1, .undo prior)
  | .undo prior => some (.replace i prior.settings, .failing)
  | .publish prior => some (.publish, .verify prior)
  | .verify prior =>
    if s.memory.settings.mixerType = target then some (.nothing, .unmute prior)
    else some (.nothing, .restore prior)
  | .unmute prior =>
    if fails then some (.nothing, .restore prior) else some (.finish i none, .returned none)
  | .restore prior => some (.replace i prior.settings, .restorePersist .copy)
  | .restorePersist stage =>
    let after := persistNext fails s stage
    match after.2 with
    | .next stage => some (after.1, .restorePersist stage)
    | .done => some (after.1, .restorePublish)
    | .failed => some (after.1, .failing)
  | .restorePublish => some (.publish, .failing)
  | .reload => some (.nothing, .reloaded (loadSettings fails s))
  | .reloaded none => some (.nothing, .failing)
  | .reloaded (some copy) => some (.replace i copy.settings, .failing)
  | .failing => some (.finish i (some .transition), .returned (some .transition))
  | .returned _ => none

/-- The overall budget drops `run_mixer_transition` where it is. -/
def timeOut : MixerPoint φ → Option (MixerPoint φ)
  | .preMute => some .reload
  | .takePrior => some .reload
  | .setType _ => some .reload
  | .persist _ _ => some .reload
  | .undo _ => some .reload
  | .publish _ => some .reload
  | .verify _ => some .reload
  | .unmute _ => some .reload
  | .restore _ => some .reload
  | .restorePersist _ => some .reload
  | .restorePublish => some .reload
  | _ => none

def callNext (i : Nat) (fails : Bool) (s : Shared φ) : Call φ → Option (Effect φ × Call φ)
  | .setter setter point => (setterNext bounds i fails s setter point).map fun after =>
      (after.1, .setter setter after.2)
  | .mixer target point => (mixerNext i fails s target point).map fun after =>
      (after.1, .mixer target after.2)

def callTimeOut : Call φ → Option (Call φ)
  | .setter _ _ => none
  | .mixer target point => (timeOut point).map (.mixer target)

inductive Action (φ : Type) where
  | set (setter : Setter φ)
  | setMixerType (target : MixerType)
  | go (i : Nat) (fails : Bool)
  | timeOut (i : Nat)
  /-- A publish completes, or is lost to an error or to its timeout. -/
  | deliver (k : Nat)
  | lose (k : Nat)
  deriving DecidableEq, Repr

def step (pool : Pool (Shared φ) (Call φ)) : Action φ → Option (Pool (Shared φ) (Call φ))
  | .set setter => some (pool.spawn (.setter setter .update))
  | .setMixerType target => some (pool.spawn (.mixer target .check))
  | .go i fails => pool.turn (fun s call => (callNext bounds i fails s call).map fun after =>
      (after.1.apply s, after.2)) i
  | .timeOut i => pool.turn (fun s call => (callTimeOut call).map fun call' => (s, call')) i
  | .deliver k =>
    match pool.shared.pending[k]? with
    | some copy => some { pool with shared := { pool.shared with
        subject := copy, pending := pool.shared.pending.eraseIdx k } }
    | none => none
  | .lose k =>
    if k < pool.shared.pending.length then
      some { pool with shared := { pool.shared with pending := pool.shared.pending.eraseIdx k } }
    else none

/-- The plugin is loaded, from a state file or without one, and has announced
its settings. -/
def boot (settings : Settings φ) (persisted : Bool) : Pool (Shared φ) (Call φ) :=
  ⟨⟨⟨settings, 0⟩, if persisted then some (.settings ⟨settings, 0⟩) else none, none, none,
    ⟨settings, 0⟩, [], none, [], false⟩, []⟩

end Steps

-- ---------------------------------------------------------------------------
-- What is lost
-- ---------------------------------------------------------------------------

section Statement

variable [LE φ] [DecidableLE φ] [OfNat φ 0] [OfNat φ 1] (bounds : EqBounds φ)

/-- The settings as the update of a call leaves them. -/
def Call.Wrote : Call φ → Settings φ → Prop
  | .setter own _, written => ∃ s, own.update bounds s = .ok written
  | .mixer target _, written => written.mixerType = target

/-- The call has returned Ok. -/
def Call.acknowledged : Call φ → Bool
  | .setter _ (.returned none) => true
  | .mixer _ (.returned none) => true
  | _ => false

def Call.isOver : Call φ → Bool
  | .setter _ (.returned _) => true
  | .mixer _ (.returned _) => true
  | _ => false

/-- All calls have returned, and all publishes have finished. -/
def Quiet (pool : Pool (Shared φ) (Call φ)) : Prop :=
  (∀ call ∈ pool.tasks, call.isOver = true) ∧ pool.shared.pending = []

/-- Every call that returned Ok has its value in memory, in the state file and in
the subject. -/
def NoneLost (pool : Pool (Shared φ) (Call φ)) : Prop :=
  ∀ (i : Nat) (call : Call φ), pool.tasks[i]? = some call → call.acknowledged = true →
    ∃ written, call.Wrote bounds written ∧ ∃ copy, pool.shared.file = some (.settings copy) ∧
      ∀ field ∈ call.fields, field.Same pool.shared.memory.settings written ∧
        field.Same copy.settings written ∧ field.Same pool.shared.subject.settings written

end Statement

/-- The calls are on pairwise different fields. -/
def Apart (pool : Pool (Shared φ) (Call φ)) : Action φ → Prop
  | .set setter => ∀ call ∈ pool.tasks, call.fields.Disjoint setter.fields
  | .setMixerType _ => ∀ call ∈ pool.tasks, .mixerType ∉ call.fields
  | _ => True

/-- A rename puts a copy in place that has seen what the file and the snapshot of
the call have seen. -/
def StageInOrder (s : Shared φ) : Stage φ → Prop
  | .rename snapshot => ∀ content ∈ s.staging, ∃ copy, content = .settings copy ∧
      snapshot.stamp ≤ copy.stamp ∧ ∀ old, s.file = some (.settings old) → old.stamp ≤ copy.stamp
  | _ => True

/-- A copy has seen the updates of all the other calls. -/
def SeenOthers (s : Shared φ) (i : Nat) (copy : Stamped φ) : Prop :=
  ∀ mark ∈ s.marks, mark.call ≠ i → mark.stamp ≤ copy.stamp

def CallInOrder (s : Shared φ) (i : Nat) (fails : Bool) : Call φ → Prop
  | .setter _ (.persist stage _) => fails = false → StageInOrder s stage
  | .mixer _ (.persist _ stage) => fails = false → StageInOrder s stage
  | .mixer _ (.restorePersist stage) => fails = false → StageInOrder s stage
  | .mixer _ (.undo prior) => SeenOthers s i prior
  | .mixer _ (.restore prior) => SeenOthers s i prior
  | .mixer _ (.reloaded (some copy)) => SeenOthers s i copy
  -- The answer that there is nothing to do rests on a file that says so.
  | .mixer target (.start before) => before = target → ∃ copy, s.file = some (.settings copy)
  | _ => True

/-- No copy takes the place of one that has seen more updates. -/
def InOrder (pool : Pool (Shared φ) (Call φ)) : Action φ → Prop
  | .go i fails => ∀ call ∈ pool.tasks[i]?, CallInOrder pool.shared i fails call
  | .deliver k => ∀ copy ∈ pool.shared.pending[k]?, pool.shared.subject.stamp ≤ copy.stamp
  | .lose k => ∀ copy ∈ pool.shared.pending[k]?, copy.stamp ≤ pool.shared.subject.stamp ∨
      ∃ other ∈ pool.shared.pending.eraseIdx k, copy.stamp ≤ other.stamp
  | _ => True

end EvoAudio.Options.Calls
