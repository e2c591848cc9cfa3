import EvoAudio.Lib.Machine
import EvoAudio.Lib.Table
import EvoAudio.Playback.Browse

/-!
# The progress of a library scan

`library.update_source` and the watchers of `playback.mpd/src/scan_progress.rs`.
A call queues an update job at MPD and spawns a watcher, which follows MPD's
`updating_db` until no job runs and then rewrites the track counts of the source
it was spawned for. One process-wide gate admits one watcher at a time; a
watcher that finds it taken returns at once.
-/

namespace EvoAudio.Playback.ScanProgress

open Mpd (MpdError)

inductive ScanKind where
  | update
  | rescan
  deriving DecidableEq, Repr

inductive ScanPhase where
  | scanning
  | complete
  deriving DecidableEq, Repr

structure Scan where
  sourceId : List Char
  kind : ScanKind
  startedAtMs : Nat
  scannedTracks : Nat
  estimatedTotal : Option Nat
  phase : ScanPhase
  deriving DecidableEq, Repr

/-- The `audio_library_scan_progress` envelope. -/
structure Envelope where
  scans : List Scan
  deriving DecidableEq, Repr

def idleEnvelope : Envelope := ⟨[]⟩

def activeEnvelope (sourceId : List Char) (kind : ScanKind) (startedAtMs scannedTracks : Nat)
    (estimatedTotal : Option Nat) (phase : ScanPhase) : Envelope :=
  ⟨[⟨sourceId, kind, startedAtMs, scannedTracks, estimatedTotal, phase⟩]⟩

-- ---------------------------------------------------------------------------
-- The update jobs of MPD
-- ---------------------------------------------------------------------------

/-- An update job, of the whole database when the path is empty. -/
structure Job where
  id : Nat
  path : List Char
  kind : ScanKind
  deriving DecidableEq, Repr

/-- MPD's database and its update jobs. -/
structure Database where
  songs : List UnixPath
  running : Option Job
  waiting : List Job
  nextId : Nat
  deriving DecidableEq, Repr

namespace Database

/-- `status.updating_db` -/
def updatingDb (db : Database) : Option Nat := db.running.map Job.id

def enqueue (db : Database) (path : List Char) (kind : ScanKind) : Database :=
  { db with waiting := db.waiting ++ [⟨db.nextId, path, kind⟩], nextId := db.nextId + 1 }

/-- The job has been accepted and is not over. -/
def Pending (db : Database) (id : Nat) : Prop :=
  ∃ job, (db.running = some job ∨ job ∈ db.waiting) ∧ job.id = id

instance (db : Database) (id : Nat) : Decidable (db.Pending id) :=
  decidable_of_iff ((∃ job ∈ db.running, job.id = id) ∨ ∃ job ∈ db.waiting, job.id = id) (by
    simp only [Pending, Option.mem_def, or_and_right, exists_or])

end Database

/-- MPD's `count base`, of which an empty base has none. -/
def songsUnderBase (db : Database) (base : List Char) : Option Nat :=
  if base.isEmpty then none
  else some (min (enumerateSongsUnderMount db.songs base).length (2 ^ 32 - 1))

-- ---------------------------------------------------------------------------
-- Watchers
-- ---------------------------------------------------------------------------

/-- What a watcher computes once, when it has the gate. -/
structure Watch where
  startedAtMs : Nat
  estimatedTotal : Option Nat
  mpdBase : Option (List Char)
  deriving DecidableEq, Repr

inductive WatcherState where
  | spawned
  /-- The gate was taken. -/
  | returned
  | polling (watch : Watch) (lastScanned : Nat) (lastUpdatingDb : Option Nat)
  /-- In `emit_terminal`. -/
  | ending (watch : Watch) (finalScanned : Nat)
  | settling
  | enumerated (songCount : Nat)
  | settled
  | leaving
  | done
  deriving DecidableEq, Repr

structure Watcher where
  sourceId : List Char
  kind : ScanKind
  /-- The job of the call that spawned it. -/
  job : Nat
  state : WatcherState
  deriving DecidableEq, Repr

structure TrackCounts where
  trackCount : Nat
  trackCountAvailable : Nat
  deriving DecidableEq, Repr

inductive Event where
  | requested (sourceId : List Char) (job : Nat)
  | ended (job : Nat)
  | enumerated (sourceId : List Char) (songCount : Nat)
  | rewritten (sourceId : List Char) (counts : TrackCounts)
  deriving DecidableEq, Repr

structure Scans where
  registry : SourceRegistry
  counts : List (List Char × TrackCounts)
  db : Database
  watchers : List Watcher
  /-- The watcher that holds the gate. -/
  gate : Option Nat
  /-- The frames published so far, the newest first. -/
  frames : List Envelope
  /-- What has happened so far, the newest first. -/
  log : List Event

/-- What a watcher meets in one of its steps. -/
structure Tick where
  nowMs : Nat
  /-- The walker's count of the music files under the mount. -/
  estimate : Option Nat
  /-- The wall-clock ceiling has passed. -/
  elapsed : Bool
  /-- MPD answers the connection and its `status`. -/
  status : Bool
  /-- MPD answers `count base`. -/
  counted : Bool
  /-- MPD answers the connection and its `find base`. -/
  found : Bool
  /-- The announcer takes the frame. -/
  announced : Bool
  deriving DecidableEq, Repr

namespace Scans

def setState (s : Scans) (i : Nat) (watcher : Watcher) (state : WatcherState) : Scans :=
  { s with watchers := s.watchers.set i { watcher with state } }

def publish (s : Scans) (tick : Tick) (frame : Envelope) : Scans :=
  if tick.announced then { s with frames := frame :: s.frames } else s

def record (s : Scans) (event : Event) : Scans := { s with log := event :: s.log }

/-- The mount of the source as a path of the database. -/
def mpdBase (s : Scans) (musicDirectory : UnixPath) (sourceId : List Char) : Option (List Char) :=
  (s.registry.get sourceId).bind fun record =>
    (mpdDatabaseRelativePath musicDirectory record.mountPath []).toOption

def updateTrackCounts (s : Scans) (sourceId : List Char) (counts : TrackCounts) : Scans :=
  { s with counts := (sourceId, counts) :: s.counts.filter (·.1 != sourceId) }

/-- The first half of `settle_source_counts`; each failure keeps the counts. -/
def enumerateSource (musicDirectory : UnixPath) (s : Scans) (i : Nat) (watcher : Watcher)
    (tick : Tick) : Scans :=
  match s.mpdBase musicDirectory watcher.sourceId, tick.found with
  | some base, true =>
    let songCount := (enumerateSongsUnderMount s.db.songs base).length
    (s.record (.enumerated watcher.sourceId songCount)).setState i watcher (.enumerated songCount)
  | _, _ => s.setState i watcher .settled

def applySettledCounts (s : Scans) (i : Nat) (watcher : Watcher) (songCount : Nat) : Scans :=
  match s.registry.get watcher.sourceId with
  | none => s.setState i watcher .settled
  | some source =>
    let total := min songCount (2 ^ 32 - 1)
    let available := if stickerValueFor source.state = "1" then total else 0
    ((s.updateTrackCounts watcher.sourceId ⟨total, available⟩).record
      (.rewritten watcher.sourceId ⟨total, available⟩)).setState i watcher .settled

/-- One turn of the polling loop. -/
def poll (s : Scans) (i : Nat) (watcher : Watcher) (tick : Tick) (watch : Watch)
    (lastScanned : Nat) (lastUpdatingDb : Option Nat) : Scans :=
  if tick.elapsed then s.setState i watcher (.ending watch lastScanned)
  else if !tick.status then s
  else
    let counted := if tick.counted then watch.mpdBase.bind (songsUnderBase s.db) else none
    let lastScanned := counted.getD lastScanned
    match s.db.updatingDb, lastUpdatingDb with
    | some job, _ =>
      (s.publish tick (activeEnvelope watcher.sourceId watcher.kind watch.startedAtMs lastScanned
        watch.estimatedTotal .scanning)).setState i watcher (.polling watch lastScanned (some job))
    | none, some _ => s.setState i watcher (.ending watch lastScanned)
    | none, none => s.setState i watcher (.ending watch lastScanned)

/-- A watcher runs up to the next point where others can run. -/
def advance (musicDirectory : UnixPath) (s : Scans) (i : Nat) (watcher : Watcher) (tick : Tick) :
    Option Scans :=
  match watcher.state with
  | .spawned =>
    match s.gate with
    | some _ => some (s.setState i watcher .returned)
    | none =>
      let watch : Watch :=
        { startedAtMs := tick.nowMs
          estimatedTotal := (s.registry.get watcher.sourceId).bind fun _ => tick.estimate
          mpdBase := s.mpdBase musicDirectory watcher.sourceId }
      let frame := activeEnvelope watcher.sourceId watcher.kind watch.startedAtMs 0
        watch.estimatedTotal .scanning
      some ((({ s with gate := some i } : Scans).publish tick frame).setState i watcher
        (.polling watch 0 none))
  | .polling watch lastScanned lastUpdatingDb =>
    some (s.poll i watcher tick watch lastScanned lastUpdatingDb)
  | .ending watch finalScanned =>
    some ((s.publish tick (activeEnvelope watcher.sourceId watcher.kind watch.startedAtMs
      finalScanned watch.estimatedTotal .complete)).setState i watcher .settling)
  | .settling => some (s.enumerateSource musicDirectory i watcher tick)
  | .enumerated songCount => some (s.applySettledCounts i watcher songCount)
  | .settled => some ((s.publish tick idleEnvelope).setState i watcher .leaving)
  | .leaving => some (({ s with gate := none } : Scans).setState i watcher .done)
  | .returned | .done => none

end Scans

-- ---------------------------------------------------------------------------
-- The verb
-- ---------------------------------------------------------------------------

structure UpdateSourcePayload where
  v : Nat
  sourceId : List Char
  forceRescan : Bool
  deriving DecidableEq, Repr

structure UpdateSourceResponse where
  sourceId : List Char
  scanStarted : Bool
  /-- The job MPD has queued. It does not go out with the response. -/
  job : Nat
  deriving DecidableEq, Repr

/-- `update` and `rescan`, answered with the id of the job. -/
def sendUpdate (fate : Fate) (path : List Char) (kind : ScanKind) :
    Procedure Scans MpdError Nat := fun s =>
  match fate with
  | .serve => (.ok s.db.nextId, { s with db := s.db.enqueue path kind })
  | .refuse _ error => (.error error, s)
  | .lose error => (.error error, { s with db := s.db.enqueue path kind })

def UpdateSourcePayload.kind (payload : UpdateSourcePayload) : ScanKind :=
  if payload.forceRescan then .rescan else .update

def handleUpdateSource (musicDirectory : UnixPath) (fate : Fate) (payload : UpdateSourcePayload) :
    Procedure Scans LibraryVerbError UpdateSourceResponse := do
  let s ← Procedure.get
  if payload.v ≠ libraryPayloadVersion then
    .throw (.payloadVersion "library.update_source" payload.v libraryPayloadVersion)
  else
    match s.registry.get payload.sourceId with
    | none => .throw (.unknownSource payload.sourceId)
    | some source =>
      match source.state with
      | .offline _ _ => .throw (.sourceOffline payload.sourceId)
      | _ =>
        match mpdDatabaseRelativePath musicDirectory source.mountPath [] with
        | .error (.sourceOutsideMusicDirectory _ mountPath musicDirectory) =>
          .throw (.library (.sourceOutsideMusicDirectory payload.sourceId mountPath musicDirectory))
        | .ok path => do
          let job ← (sendUpdate fate path payload.kind).mapError fun error =>
            .mpd "update_source" (.mpd error)
          return ⟨payload.sourceId, true, job⟩

/-- The call, and the watcher it spawns when it succeeds. -/
def dispatchLibraryUpdateSource (musicDirectory : UnixPath) (fate : Fate)
    (payload : UpdateSourcePayload) : Procedure Scans LibraryVerbError UpdateSourceResponse := do
  let response ← handleUpdateSource musicDirectory fate payload
  .modify fun s =>
    { s with
      watchers := s.watchers ++ [⟨payload.sourceId, payload.kind, response.job, .spawned⟩]
      log := .requested payload.sourceId response.job :: s.log }
  return response

-- ---------------------------------------------------------------------------
-- Runs
-- ---------------------------------------------------------------------------

inductive Act where
  | updateSource (payload : UpdateSourcePayload) (fate : Fate)
  | advance (i : Nat) (tick : Tick)
  /-- Another task changes the registry. -/
  | sources (registry : SourceRegistry)
  /-- Another client asks for an update. -/
  | enqueue (path : List Char) (kind : ScanKind)
  | jobStarts
  | jobWrites (songs : List UnixPath)
  | jobEnds

def step (musicDirectory : UnixPath) (s : Scans) : Act → Option Scans
  | .updateSource payload fate => some (dispatchLibraryUpdateSource musicDirectory fate payload s).2
  | .advance i tick =>
    s.watchers[i]?.bind fun watcher => s.advance musicDirectory i watcher tick
  | .sources registry => some { s with registry }
  | .enqueue path kind => some { s with db := s.db.enqueue path kind }
  | .jobStarts =>
    match s.db.running, s.db.waiting with
    | none, job :: waiting => some { s with db := { s.db with running := some job, waiting } }
    | _, _ => none
  | .jobWrites songs =>
    if s.db.running.isSome then some { s with db := { s.db with songs } } else none
  | .jobEnds => s.db.running.map fun job =>
    ({ s with db := { s.db with running := none } } : Scans).record (.ended job.id)

/-- No job and no watcher has been asked for yet. -/
def start (registry : SourceRegistry) (counts : List (List Char × TrackCounts))
    (songs : List UnixPath) (nextId : Nat) : Scans :=
  ⟨registry, counts, ⟨songs, none, [], nextId⟩, [], none, [], []⟩

/-- The last job has finished and every watcher has ended. -/
def Scans.Quiet (s : Scans) : Prop :=
  s.db.running = none ∧ s.db.waiting = [] ∧
    ∀ watcher ∈ s.watchers, watcher.state = .returned ∨ watcher.state = .done

/-- The source was enumerated after the job had ended. -/
def EnumeratedAfter (log : List Event) (sourceId : List Char) (job songCount : Nat) : Prop :=
  ∃ later earlier, log = later ++ .enumerated sourceId songCount :: earlier ∧ .ended job ∈ earlier

/-- The counts of the source were rewritten from what MPD had after the job. -/
def SettledAfter (log : List Event) (sourceId : List Char) (job : Nat) : Prop :=
  ∃ later earlier songCount available,
    log = later ++ .rewritten sourceId ⟨min songCount (2 ^ 32 - 1), available⟩ :: earlier ∧
      EnumeratedAfter earlier sourceId job songCount

/-- The watcher stops polling in this step. -/
def Stops (s : Scans) (tick : Tick) : Prop :=
  tick.elapsed ∨ tick.status ∧ s.db.updatingDb = none

instance (s : Scans) (tick : Tick) : Decidable (Stops s tick) :=
  inferInstanceAs (Decidable (_ ∨ _ ∧ _))

def WatcherState.isPolling : WatcherState → Bool
  | .polling _ _ _ => true
  | _ => false

/-- A watcher that finds the gate taken leaves its job to one that still polls
for the same source. A watcher stops polling once its job, and the jobs that
were left to it, are over. MPD answers when the counts are settled, with the
source still there, and the announcer takes the idle frame. -/
def WatcherState.Undisturbed (musicDirectory : UnixPath) (s : Scans) (sourceId : List Char)
    (tick : Tick) : WatcherState → Prop
  | .spawned => ∀ j ∈ s.gate, ∃ holder ∈ s.watchers[j]?,
      holder.sourceId = sourceId ∧ holder.state.isPolling
  | .polling _ _ _ => Stops s tick → ∀ other ∈ s.watchers,
      other.sourceId = sourceId → other.state ≠ .spawned → ¬s.db.Pending other.job
  | .settling => tick.found ∧ s.mpdBase musicDirectory sourceId ≠ none
  | .enumerated _ => s.registry.get sourceId ≠ none
  | .settled => tick.announced
  | .returned | .ending _ _ | .leaving | .done => True

instance (musicDirectory : UnixPath) (s : Scans) (sourceId : List Char) (tick : Tick) :
    (state : WatcherState) → Decidable (state.Undisturbed musicDirectory s sourceId tick)
  | .spawned => inferInstanceAs (Decidable (∀ j ∈ s.gate, ∃ holder ∈ s.watchers[j]?, _ ∧ _))
  | .polling _ _ _ => inferInstanceAs (Decidable (Stops s tick → ∀ other ∈ s.watchers, _ → _ → _))
  | .settling => inferInstanceAs (Decidable (_ ∧ _))
  | .enumerated _ => inferInstanceAs (Decidable (_ ≠ none))
  | .settled => inferInstanceAs (Decidable (tick.announced = true))
  | .returned | .ending _ _ | .leaving | .done => inferInstanceAs (Decidable True)

def Undisturbed (musicDirectory : UnixPath) (s : Scans) : Act → Prop
  | .advance i tick => ∀ watcher ∈ s.watchers[i]?,
      watcher.state.Undisturbed musicDirectory s watcher.sourceId tick
  | _ => True

instance (musicDirectory : UnixPath) (s : Scans) :
    (act : Act) → Decidable (Undisturbed musicDirectory s act)
  | .advance i tick => inferInstanceAs (Decidable (∀ watcher ∈ s.watchers[i]?,
      watcher.state.Undisturbed musicDirectory s watcher.sourceId tick))
  | .updateSource _ _ | .sources _ | .enqueue _ _ | .jobStarts | .jobWrites _ | .jobEnds =>
    inferInstanceAs (Decidable True)

instance (s : Scans) : Decidable s.Quiet := inferInstanceAs (Decidable (_ ∧ _ ∧ _))

-- ---------------------------------------------------------------------------
-- What a watcher can do
-- ---------------------------------------------------------------------------

/-- A step of the watcher: its next state, the log and the frames after it. -/
inductive Turn (musicDirectory : UnixPath) (s : Scans) (watcher : Watcher) (tick : Tick) :
    WatcherState → List Event → List Envelope → Prop where
  | returned : watcher.state = .spawned → s.gate = some holder →
      Turn musicDirectory s watcher tick .returned s.log s.frames
  | started : watcher.state = .spawned →
      Turn musicDirectory s watcher tick (.polling watch scanned job) s.log frames
  | polled : watcher.state = .polling watch scanned job →
      Turn musicDirectory s watcher tick (.polling watch scanned' job') s.log frames
  | stopped : watcher.state = .polling watch scanned job → Stops s tick →
      Turn musicDirectory s watcher tick (.ending watch scanned') s.log s.frames
  | completed : watcher.state = .ending watch scanned →
      Turn musicDirectory s watcher tick .settling s.log frames
  | enumerated : watcher.state = .settling →
      Turn musicDirectory s watcher tick (.enumerated songCount)
        (.enumerated watcher.sourceId songCount :: s.log) s.frames
  | unread : watcher.state = .settling →
      ¬(tick.found ∧ s.mpdBase musicDirectory watcher.sourceId ≠ none) →
      Turn musicDirectory s watcher tick .settled s.log s.frames
  | rewritten : watcher.state = .enumerated songCount →
      Turn musicDirectory s watcher tick .settled
        (.rewritten watcher.sourceId ⟨min songCount (2 ^ 32 - 1), available⟩ :: s.log) s.frames
  | removed : watcher.state = .enumerated songCount → s.registry.get watcher.sourceId = none →
      Turn musicDirectory s watcher tick .settled s.log s.frames
  | rested : watcher.state = .settled →
      Turn musicDirectory s watcher tick .leaving s.log (s.publish tick idleEnvelope).frames
  | released : watcher.state = .leaving →
      Turn musicDirectory s watcher tick .done s.log s.frames

namespace Scans

@[simp] theorem setState_log (s : Scans) (i : Nat) (watcher : Watcher) (state : WatcherState) :
    (s.setState i watcher state).log = s.log := rfl

@[simp] theorem publish_log (s : Scans) (tick : Tick) (frame : Envelope) :
    (s.publish tick frame).log = s.log := by
  unfold publish
  split <;> rfl

/-- The watcher `i` has moved to a state. -/
def Moved (s : Scans) (i : Nat) (watcher : Watcher) (s' : Scans) (state : WatcherState) : Prop :=
  s'.watchers = s.watchers.set i { watcher with state } ∧ s'.db = s.db

theorem moved_publish {s t : Scans} (hwatchers : t.watchers = s.watchers) (hdb : t.db = s.db)
    (i : Nat) (watcher : Watcher) (tick : Tick) (frame : Envelope) (state : WatcherState) :
    s.Moved i watcher ((t.publish tick frame).setState i watcher state) state := by
  unfold publish
  split <;> exact ⟨by rw [← hwatchers]; rfl, hdb⟩

theorem poll_turn (musicDirectory : UnixPath) {s : Scans} (hi : s.watchers[i]? = some watcher)
    (hstate : watcher.state = .polling watch lastScanned lastUpdatingDb) (tick : Tick) :
    ∃ state, s.Moved i watcher (s.poll i watcher tick watch lastScanned lastUpdatingDb) state ∧
      Turn musicDirectory s watcher tick state
        (s.poll i watcher tick watch lastScanned lastUpdatingDb).log
        (s.poll i watcher tick watch lastScanned lastUpdatingDb).frames := by
  unfold poll
  split
  next helapsed => exact ⟨_, ⟨rfl, rfl⟩, .stopped hstate (.inl helapsed)⟩
  next =>
    split
    next =>
      -- An unanswered poll leaves everything as it was.
      obtain ⟨hlt, hget⟩ := List.getElem?_eq_some_iff.mp hi
      have hsame : s.watchers.set i { watcher with state := watcher.state } = s.watchers := by
        rw [← hget]
        exact List.set_getElem_self hlt
      refine ⟨watcher.state, ⟨hsame.symm, rfl⟩, ?_⟩
      rw [hstate]
      exact .polled hstate
    next hstatus =>
      have hstatus : tick.status = true := by simpa using hstatus
      dsimp only
      split
      next =>
        refine ⟨_, moved_publish rfl rfl .., ?_⟩
        rw [setState_log, publish_log]
        exact .polled hstate
      next hidle => exact ⟨_, ⟨rfl, rfl⟩, .stopped hstate (.inr ⟨hstatus, hidle⟩)⟩
      next hidle => exact ⟨_, ⟨rfl, rfl⟩, .stopped hstate (.inr ⟨hstatus, hidle⟩)⟩

theorem advance_turn {s : Scans} (hi : s.watchers[i]? = some watcher)
    (h : s.advance musicDirectory i watcher tick = some s') :
    ∃ state, s.Moved i watcher s' state ∧
      Turn musicDirectory s watcher tick state s'.log s'.frames := by
  unfold advance at h
  split at h
  next hstate =>
    split at h
    next hgate =>
      cases h
      exact ⟨_, ⟨rfl, rfl⟩, .returned hstate hgate⟩
    next =>
      cases h
      refine ⟨_, moved_publish rfl rfl .., ?_⟩
      rw [setState_log, publish_log]
      exact .started hstate
  next hstate =>
    cases h
    exact poll_turn musicDirectory hi hstate tick
  next hstate =>
    cases h
    refine ⟨_, moved_publish rfl rfl .., ?_⟩
    rw [setState_log, publish_log]
    exact .completed hstate
  next hstate =>
    cases h
    unfold enumerateSource
    split
    next => exact ⟨_, ⟨rfl, rfl⟩, .enumerated hstate⟩
    next hnot =>
      refine ⟨_, ⟨rfl, rfl⟩, .unread hstate ?_⟩
      rintro ⟨hfound, hbase⟩
      obtain ⟨base, hbase⟩ := Option.ne_none_iff_exists'.mp hbase
      exact hnot base hbase hfound
  next hstate =>
    cases h
    unfold applySettledCounts
    split
    next hnone => exact ⟨_, ⟨rfl, rfl⟩, .removed hstate hnone⟩
    next => exact ⟨_, ⟨rfl, rfl⟩, .rewritten hstate⟩
  next hstate =>
    cases h
    refine ⟨_, moved_publish rfl rfl .., ?_⟩
    rw [setState_log, publish_log]
    exact .rested hstate
  next hstate =>
    cases h
    exact ⟨_, ⟨rfl, rfl⟩, .released hstate⟩
  next => cases h
  next => cases h

end Scans

-- ---------------------------------------------------------------------------
-- What a watcher has reached
-- ---------------------------------------------------------------------------

/-- How far a watcher in this state has taken a job of its source. -/
def WatcherState.Reached (log : List Event) (sourceId : List Char) (job : Nat) :
    WatcherState → Prop
  | .spawned | .returned => False
  | .polling _ _ _ => True
  | .ending _ _ | .settling => .ended job ∈ log
  | .enumerated songCount => EnumeratedAfter log sourceId job songCount
  | .settled | .leaving | .done => SettledAfter log sourceId job

/-- The frame of the watcher is the last one out. -/
def WatcherState.Shows : WatcherState → Prop
  | .spawned | .returned | .leaving | .done => False
  | .polling _ _ _ | .ending _ _ | .settling | .enumerated _ | .settled => True

theorem EnumeratedAfter.append (h : EnumeratedAfter log sourceId job songCount)
    (more : List Event) : EnumeratedAfter (more ++ log) sourceId job songCount := by
  obtain ⟨later, earlier, rfl, hended⟩ := h
  exact ⟨more ++ later, earlier, (List.append_assoc ..).symm, hended⟩

theorem SettledAfter.append (h : SettledAfter log sourceId job) (more : List Event) :
    SettledAfter (more ++ log) sourceId job := by
  obtain ⟨later, earlier, songCount, available, rfl, hafter⟩ := h
  exact ⟨more ++ later, earlier, songCount, available, (List.append_assoc ..).symm, hafter⟩

theorem WatcherState.Reached.append {state : WatcherState} (h : state.Reached log sourceId job)
    (more : List Event) : state.Reached (more ++ log) sourceId job := by
  cases state with
  | spawned | returned | polling => exact h
  | ending | settling => exact List.mem_append_right more h
  | enumerated => exact EnumeratedAfter.append h more
  | settled | leaving | done => exact SettledAfter.append h more

theorem WatcherState.Reached.of_isPolling {state : WatcherState} (h : state.isPolling) :
    state.Reached log sourceId job := by
  cases state with
  | polling => trivial
  | _ => cases h

section Turn

variable {musicDirectory : UnixPath} {s : Scans} {watcher : Watcher} {tick : Tick}
  {state : WatcherState} {log : List Event} {frames : List Envelope}

theorem Turn.log_eq (h : Turn musicDirectory s watcher tick state log frames) :
    ∃ more, log = more ++ s.log ∧ ∀ sourceId job, .requested sourceId job ∉ more := by
  cases h with
  | enumerated | rewritten => exact ⟨[_], rfl, by simp⟩
  | _ => exact ⟨[], rfl, by simp⟩

/-- A step takes the jobs of the watcher further. -/
theorem Turn.reached (h : Turn musicDirectory s watcher tick state log frames)
    (hi : s.watchers[i]? = some watcher) (hok : Undisturbed musicDirectory s (.advance i tick))
    (hstop : ∀ watch scanned last, watcher.state = .polling watch scanned last → Stops s tick →
      .ended job ∈ s.log)
    (hreached : watcher.state.Reached s.log watcher.sourceId job) :
    state.Reached log watcher.sourceId job := by
  have hwatcher := hok watcher hi
  cases h with
  | started | polled => trivial
  | returned hstate | completed hstate | rested hstate | released hstate =>
    rw [hstate] at hreached
    exact hreached
  | stopped hstate hstops => exact hstop _ _ _ hstate hstops
  | enumerated hstate =>
    rw [hstate] at hreached
    exact ⟨[], s.log, rfl, hreached⟩
  | unread hstate hunread =>
    rw [hstate] at hwatcher
    exact absurd hwatcher hunread
  | rewritten hstate =>
    rw [hstate] at hreached
    exact ⟨[], s.log, _, _, rfl, hreached⟩
  | removed hstate hnone =>
    rw [hstate] at hwatcher
    exact absurd hnone hwatcher

theorem Turn.shows (h : Turn musicDirectory s watcher tick state log frames)
    (hi : s.watchers[i]? = some watcher) (hok : Undisturbed musicDirectory s (.advance i tick)) :
    state.Shows ∨ (frames = s.frames ∧ ¬watcher.state.Shows) ∨
      frames.head? = some idleEnvelope := by
  have hwatcher := hok watcher hi
  cases h with
  | returned hstate | released hstate =>
    refine .inr (.inl ⟨rfl, ?_⟩)
    rw [hstate]
    exact id
  | rested hstate =>
    rw [hstate] at hwatcher
    refine .inr (.inr ?_)
    have hannounced : tick.announced = true := hwatcher
    rw [Scans.publish, if_pos hannounced]
    rfl
  | _ => exact .inl trivial

end Turn

-- ---------------------------------------------------------------------------
-- The invariant
-- ---------------------------------------------------------------------------

/-- A watcher of the source is on its way with the job. -/
def Scans.Covered (s : Scans) (sourceId : List Char) (job : Nat) : Prop :=
  ∃ holder ∈ s.watchers, holder.sourceId = sourceId ∧ holder.state.Reached s.log sourceId job

structure Scans.Watched (s : Scans) : Prop where
  requested : ∀ sourceId job, .requested sourceId job ∈ s.log →
    ∃ watcher ∈ s.watchers, watcher.sourceId = sourceId ∧ watcher.job = job
  jobs : ∀ watcher ∈ s.watchers, s.db.Pending watcher.job ∨ .ended watcher.job ∈ s.log
  covered : ∀ watcher ∈ s.watchers,
    watcher.state = .spawned ∨ s.Covered watcher.sourceId watcher.job
  shown : (∀ frame ∈ s.frames.head?, frame = idleEnvelope) ∨
    ∃ watcher ∈ s.watchers, watcher.state.Shows

namespace Scans.Watched

variable {musicDirectory : UnixPath} {s s' : Scans}

/-- When a watcher stops polling, the jobs of its source that are left to
watchers are over. -/
theorem ended_of_stops (h : s.Watched) (hok : Undisturbed musicDirectory s (.advance i tick))
    (hi : s.watchers[i]? = some watcher) (hother : other ∈ s.watchers)
    (hspawned : other.state ≠ .spawned) (hsource : other.sourceId = watcher.sourceId)
    (hstate : watcher.state = .polling watch scanned last) (hstops : Stops s tick) :
    .ended other.job ∈ s.log := by
  have hwatcher := hok watcher hi
  rw [hstate] at hwatcher
  exact (h.jobs other hother).resolve_left (hwatcher hstops other hother hsource hspawned)

/-- A job that is left to a watcher is left to it after a step. -/
theorem covered_moved (h : s.Watched) (hok : Undisturbed musicDirectory s (.advance i tick))
    (hi : s.watchers[i]? = some watcher) (hmoved : s.Moved i watcher s' state)
    (hturn : Turn musicDirectory s watcher tick state s'.log s'.frames)
    (hother : other ∈ s.watchers) (hspawned : other.state ≠ .spawned) :
    s'.Covered other.sourceId other.job := by
  obtain ⟨holder, hholder, hsource, hreached⟩ := (h.covered other hother).resolve_left hspawned
  obtain ⟨more, hlog, -⟩ := hturn.log_eq
  by_cases hself : holder = watcher
  · subst hself
    refine ⟨{ holder with state }, hmoved.1 ▸ Table.mem_set_self hi _, hsource, ?_⟩
    rw [← hsource] at hreached ⊢
    refine hturn.reached hi hok (fun watch scanned last hstate hstops => ?_) hreached
    exact h.ended_of_stops hok hi hother hspawned hsource.symm hstate hstops
  · refine ⟨holder, hmoved.1 ▸ Table.mem_set_of_ne hi hholder hself _, hsource, ?_⟩
    rw [hlog]
    exact hreached.append more

/-- A watcher that has taken its first step is on its way, or has left its job
to one that is. -/
theorem covered_started {log : List Event} {frames : List Envelope}
    (hok : Undisturbed musicDirectory s (.advance i tick))
    (hi : s.watchers[i]? = some watcher) (hmoved : s.Moved i watcher s' state)
    (hturn : Turn musicDirectory s watcher tick state log frames)
    (hspawned : watcher.state = .spawned) : s'.Covered watcher.sourceId watcher.job := by
  have hwatcher := hok watcher hi
  rw [hspawned] at hwatcher
  have hself : { watcher with state } ∈ s'.watchers := hmoved.1 ▸ Table.mem_set_self hi _
  cases hturn with
  | returned _ hgate =>
    obtain ⟨holder, hholder, hsource, hpolling⟩ := hwatcher _ hgate
    have hne : holder ≠ watcher := by
      rintro rfl
      rw [hspawned] at hpolling
      cases hpolling
    refine ⟨holder, hmoved.1 ▸ Table.mem_set_of_ne hi (List.mem_of_getElem? hholder) hne _, hsource, ?_⟩
    exact .of_isPolling hpolling
  | started => exact ⟨_, hself, rfl, trivial⟩
  | polled hstate | stopped hstate | completed hstate | enumerated hstate | unread hstate
  | rewritten hstate | removed hstate | rested hstate | released hstate =>
    cases hspawned.symm.trans hstate

theorem advance (h : s.Watched) (hok : Undisturbed musicDirectory s (.advance i tick))
    (hi : s.watchers[i]? = some watcher)
    (hstep : s.advance musicDirectory i watcher tick = some s') : s'.Watched := by
  obtain ⟨state, hmoved, hturn⟩ := Scans.advance_turn hi hstep
  obtain ⟨more, hlog, hmore⟩ := hturn.log_eq
  have hwatcher := List.mem_of_getElem? hi
  have hold : ∀ other ∈ s'.watchers, other ∈ s.watchers ∨ other = { watcher with state } := by
    rw [hmoved.1]
    exact fun other => List.mem_or_eq_of_mem_set
  refine ⟨?_, ?_, ?_, ?_⟩
  · intro sourceId job hrequested
    rw [hlog] at hrequested
    obtain hnew | hearlier := List.mem_append.mp hrequested
    · exact absurd hnew (hmore sourceId job)
    · obtain ⟨other, hother, hsource, hjob⟩ := h.requested sourceId job hearlier
      by_cases hself : other = watcher
      · subst hself
        exact ⟨{ other with state }, hmoved.1 ▸ Table.mem_set_self hi _, hsource, hjob⟩
      · exact ⟨other, hmoved.1 ▸ Table.mem_set_of_ne hi hother hself _, hsource, hjob⟩
  · intro other hother
    have hjob : s.db.Pending other.job ∨ .ended other.job ∈ s.log := by
      obtain hother | rfl := hold other hother
      · exact h.jobs other hother
      · exact h.jobs watcher hwatcher
    rw [hmoved.2, hlog]
    exact hjob.imp_right (List.mem_append_right more)
  · intro other hother
    obtain hother | rfl := hold other hother
    · by_cases hspawned : other.state = .spawned
      · exact .inl hspawned
      · exact .inr (h.covered_moved hok hi hmoved hturn hother hspawned)
    · refine .inr ?_
      change s'.Covered watcher.sourceId watcher.job
      by_cases hspawned : watcher.state = .spawned
      · exact covered_started hok hi hmoved hturn hspawned
      · exact h.covered_moved hok hi hmoved hturn hwatcher hspawned
  · obtain hshows | ⟨hframes, hhidden⟩ | hidle := hturn.shows hi hok
    · exact .inr ⟨_, hmoved.1 ▸ Table.mem_set_self hi _, hshows⟩
    · rw [hframes]
      refine h.shown.imp_right fun ⟨other, hother, hshows⟩ => ⟨other, ?_, hshows⟩
      rw [hmoved.1]
      exact Table.mem_set_of_ne hi hother (by rintro rfl; exact hhidden hshows) _
    · refine .inl fun frame hframe => ?_
      exact Option.some.inj (hframe.symm.trans hidle)

/-- A step that is not a watcher's: the jobs go on, and the watchers and the
frames stay as they are. -/
theorem of_jobs (h : s.Watched) (hwatchers : s'.watchers = s.watchers)
    (hframes : s'.frames = s.frames)
    (hlog : ∃ more, s'.log = more ++ s.log ∧ ∀ sourceId job, .requested sourceId job ∉ more)
    (hjobs : ∀ job, s.db.Pending job → s'.db.Pending job ∨ .ended job ∈ s'.log) :
    s'.Watched := by
  obtain ⟨more, hlog, hmore⟩ := hlog
  refine ⟨?_, ?_, ?_, ?_⟩
  · intro sourceId job hrequested
    rw [hlog] at hrequested
    rw [hwatchers]
    exact h.requested sourceId job
      ((List.mem_append.mp hrequested).resolve_left (hmore sourceId job))
  · intro watcher hwatcher
    rw [hwatchers] at hwatcher
    obtain hpending | hended := h.jobs watcher hwatcher
    · exact hjobs watcher.job hpending
    · exact .inr (hlog ▸ List.mem_append_right more hended)
  · intro watcher hwatcher
    rw [hwatchers] at hwatcher
    refine (h.covered watcher hwatcher).imp_right fun ⟨holder, hholder, hsource, hreached⟩ => ?_
    exact ⟨holder, hwatchers ▸ hholder, hsource, hlog ▸ hreached.append more⟩
  · rw [hframes, hwatchers]
    exact h.shown

theorem enqueue (h : s.Watched) (path : List Char) (kind : ScanKind) :
    ({ s with db := s.db.enqueue path kind } : Scans).Watched := by
  refine h.of_jobs rfl rfl ⟨[], rfl, by simp⟩ ?_
  rintro job ⟨queued, hqueued, rfl⟩
  exact .inl ⟨queued, hqueued.imp_right (List.mem_append_left _), rfl⟩

/-- A call that succeeds has queued its job and spawned its watcher. -/
theorem spawn (h : s.Watched) (path sourceId : List Char) (kind kind' : ScanKind) :
    ({ s with
        db := s.db.enqueue path kind
        watchers := s.watchers ++ [⟨sourceId, kind', s.db.nextId, .spawned⟩]
        log := .requested sourceId s.db.nextId :: s.log } : Scans).Watched := by
  have hqueued := h.enqueue path kind
  refine ⟨?_, ?_, ?_, ?_⟩
  · intro sourceId' job hrequested
    obtain heq | hearlier := List.mem_cons.mp hrequested
    · cases heq
      exact ⟨_, List.mem_append_right _ (List.mem_singleton_self _), rfl, rfl⟩
    · obtain ⟨watcher, hwatcher, hsame⟩ := h.requested sourceId' job hearlier
      exact ⟨watcher, List.mem_append_left _ hwatcher, hsame⟩
  · intro watcher hwatcher
    obtain hwatcher | hnew := List.mem_append.mp hwatcher
    · exact (hqueued.jobs watcher hwatcher).imp_right (List.mem_cons_of_mem _)
    · cases List.mem_singleton.mp hnew
      exact .inl ⟨_, .inr (List.mem_append_right _ (List.mem_singleton_self _)), rfl⟩
  · intro watcher hwatcher
    obtain hwatcher | hnew := List.mem_append.mp hwatcher
    · refine (h.covered watcher hwatcher).imp_right fun ⟨holder, hholder, hsource, hreached⟩ => ?_
      exact ⟨holder, List.mem_append_left _ hholder, hsource, hreached.append [_]⟩
    · cases List.mem_singleton.mp hnew
      exact .inl rfl
  · refine h.shown.imp_right fun ⟨watcher, hwatcher, hshows⟩ => ?_
    exact ⟨watcher, List.mem_append_left _ hwatcher, hshows⟩

end Scans.Watched

theorem sendUpdate_run (fate : Fate) (path : List Char) (kind : ScanKind) (s : Scans) :
    Procedure.Triple (sendUpdate fate path kind) s
      (fun job s' => job = s.db.nextId ∧ s' = { s with db := s.db.enqueue path kind })
      (fun _ s' => s' = s ∨ ∃ path, s' = { s with db := s.db.enqueue path kind }) := by
  cases fate with
  | serve => exact ⟨rfl, rfl⟩
  | refuse => exact .inl rfl
  | lose => exact .inr ⟨path, rfl⟩

/-- A call queues its job exactly when MPD takes the command, and succeeds when
it also hears of it. -/
theorem handleUpdateSource_run (musicDirectory : UnixPath) (fate : Fate)
    (payload : UpdateSourcePayload) (s : Scans) :
    Procedure.Triple (handleUpdateSource musicDirectory fate payload) s
      (fun response s' => response.job = s.db.nextId ∧
        ∃ path, s' = { s with db := s.db.enqueue path payload.kind })
      (fun _ s' => s' = s ∨ ∃ path, s' = { s with db := s.db.enqueue path payload.kind }) := by
  unfold handleUpdateSource
  refine .bind (Q := fun a s' => a = s ∧ s' = s) ⟨rfl, rfl⟩ ?_
  rintro a s' ⟨rfl, rfl⟩
  split
  · exact .throw (.inl rfl)
  split
  · exact .throw (.inl rfl)
  split
  · exact .throw (.inl rfl)
  split
  · exact .throw (.inl rfl)
  next path _ =>
    refine .bind (.mapError (sendUpdate_run fate path payload.kind s') fun _ _ h => h) ?_
    rintro job s'' ⟨rfl, rfl⟩
    exact ⟨rfl, path, rfl⟩

/-- What a call leaves behind: nothing, a job whose answer was lost, or a job
and its watcher. -/
def Scans.Called (s : Scans) (payload : UpdateSourcePayload) (s' : Scans) : Prop :=
  s' = s ∨ ∃ path, s' = { s with db := s.db.enqueue path payload.kind } ∨
    s' = { s with
      db := s.db.enqueue path payload.kind
      watchers := s.watchers ++ [⟨payload.sourceId, payload.kind, s.db.nextId, .spawned⟩]
      log := .requested payload.sourceId s.db.nextId :: s.log }

theorem dispatch_cases (musicDirectory : UnixPath) (fate : Fate) (payload : UpdateSourcePayload)
    (s : Scans) :
    s.Called payload (dispatchLibraryUpdateSource musicDirectory fate payload s).2 := by
  refine (Procedure.Triple.bind ((handleUpdateSource_run musicDirectory fate payload s).mono
    (fun _ _ h => h) fun _ _ h => ?_) ?_).state
  · exact h.imp_right fun ⟨path, h⟩ => ⟨path, .inl h⟩
  · rintro response s' ⟨hjob, path, rfl⟩
    rw [hjob]
    exact .inr ⟨path, .inr rfl⟩

theorem Scans.Watched.step {musicDirectory : UnixPath} {s s' : Scans} (h : s.Watched)
    (hok : Undisturbed musicDirectory s act)
    (hstep : ScanProgress.step musicDirectory s act = some s') : s'.Watched := by
  cases act with
  | updateSource payload fate =>
    cases hstep
    obtain hsame | ⟨path, hlost | hspawned⟩ := dispatch_cases musicDirectory fate payload s
    · rw [hsame]
      exact h
    · rw [hlost]
      exact h.enqueue path payload.kind
    · rw [hspawned]
      exact h.spawn path payload.sourceId payload.kind payload.kind
  | advance i tick =>
    obtain ⟨watcher, hi, hstep⟩ := Option.bind_eq_some_iff.mp hstep
    exact h.advance hok hi hstep
  | sources registry =>
    cases hstep
    exact h.of_jobs rfl rfl ⟨[], rfl, by simp⟩ fun _ => .inl
  | enqueue path kind =>
    cases hstep
    exact h.enqueue path kind
  | jobStarts =>
    unfold ScanProgress.step at hstep
    dsimp only at hstep
    split at hstep
    next first rest hrunning hwaiting =>
      cases hstep
      refine h.of_jobs rfl rfl ⟨[], rfl, by simp⟩ ?_
      rintro job ⟨queued, hqueued | hqueued, rfl⟩
      · cases hrunning.symm.trans hqueued
      · rw [hwaiting] at hqueued
        obtain rfl | hrest := List.mem_cons.mp hqueued
        · exact .inl ⟨queued, .inl rfl, rfl⟩
        · exact .inl ⟨queued, .inr hrest, rfl⟩
    next => cases hstep
  | jobWrites songs =>
    unfold ScanProgress.step at hstep
    dsimp only at hstep
    split at hstep
    next =>
      cases hstep
      exact h.of_jobs rfl rfl ⟨[], rfl, by simp⟩ fun _ => .inl
    next => cases hstep
  | jobEnds =>
    obtain ⟨running, hrunning, rfl⟩ := Option.map_eq_some_iff.mp hstep
    refine h.of_jobs rfl rfl ⟨[.ended running.id], rfl, by simp⟩ ?_
    rintro job ⟨queued, hqueued | hqueued, rfl⟩
    · cases hrunning.symm.trans hqueued
      exact .inr (List.mem_cons_self ..)
    · exact .inl ⟨queued, .inr hqueued, rfl⟩

theorem start_watched (registry : SourceRegistry) (counts : List (List Char × TrackCounts))
    (songs : List UnixPath) (nextId : Nat) : (start registry counts songs nextId).Watched :=
  ⟨by simp [start], by simp [start], by simp [start], .inl (by simp [start])⟩

/-- When no watcher is turned away for another source, none stops polling
before the jobs left to it are over, and MPD and the announcer answer at the
end, every source that an update was asked for is settled after its job. -/
theorem scans_settled (musicDirectory : UnixPath) (registry : SourceRegistry)
    (counts : List (List Char × TrackCounts)) (songs : List UnixPath) (nextId : Nat)
    (acts : List Act)
    (hm : Machine.Meets (step musicDirectory) (Undisturbed musicDirectory)
      (start registry counts songs nextId) acts)
    (he : Machine.exec (step musicDirectory) (start registry counts songs nextId) acts = some s)
    (hquiet : s.Quiet) :
    (∀ sourceId job, .requested sourceId job ∈ s.log → SettledAfter s.log sourceId job) ∧
      ∀ frame ∈ s.frames.head?, frame = idleEnvelope := by
  have hwatched : s.Watched := Machine.exec_invariant Scans.Watched.step
    (start_watched registry counts songs nextId) hm he
  have hended := hquiet.2.2
  constructor
  · intro sourceId job hrequested
    obtain ⟨watcher, hwatcher, rfl, rfl⟩ := hwatched.requested sourceId job hrequested
    obtain hspawned | ⟨holder, hholder, -, hreached⟩ := hwatched.covered watcher hwatcher
    · obtain hstate | hstate := hended watcher hwatcher <;> cases hspawned.symm.trans hstate
    · obtain hstate | hstate := hended holder hholder
      · rw [hstate] at hreached
        exact hreached.elim
      · rw [hstate] at hreached
        exact hreached
  · refine hwatched.shown.resolve_right ?_
    rintro ⟨watcher, hwatcher, hshows⟩
    obtain hstate | hstate := hended watcher hwatcher <;> rw [hstate] at hshows <;> exact hshows

theorem SettledAfter.ended (h : SettledAfter log sourceId job) : .ended job ∈ log := by
  obtain ⟨later, earlier, _, _, rfl, later', earlier', rfl, hended⟩ := h
  simp [hended]

theorem SettledAfter.rewritten (h : SettledAfter log sourceId job) :
    ∃ counts, .rewritten sourceId counts ∈ log := by
  obtain ⟨later, earlier, songCount, available, rfl, -⟩ := h
  exact ⟨_, List.mem_append_right _ (List.mem_cons_self ..)⟩

theorem SettledAfter.of_ended (h : SettledAfter (.ended other :: log) sourceId job) :
    SettledAfter log sourceId job := by
  obtain ⟨later, earlier, songCount, available, heq, hafter⟩ := h
  cases later with
  | nil => cases heq
  | cons event later =>
    cases heq
    exact ⟨later, earlier, songCount, available, rfl, hafter⟩

/-- Everything is answered. -/
def answered : Tick := ⟨0, none, false, true, true, true, true⟩

def updateOf (sourceId : String) : Act :=
  .updateSource ⟨libraryPayloadVersion, sourceId.toList, false⟩ .serve

def stickScans : Scans := start nestedSources [] [UnixPath.components "USB/stick/a.flac".toList] 1

def stepMusic := step (UnixPath.components "/music".toList)

/-- A job runs while its watcher polls, and ends. -/
def watchedJob : List Act :=
  [updateOf "usb", .advance 0 answered, .jobStarts, .advance 0 answered, .jobEnds] ++
    List.replicate 6 (.advance 0 answered)

/-- A job that is watched to its end settles the stick. -/
theorem scans_settled_stick :
    ∃ s, Machine.exec stepMusic stickScans watchedJob = some s ∧
      SettledAfter s.log "usb".toList 1 ∧ ∀ frame ∈ s.frames.head?, frame = idleEnvelope := by
  have hm : Machine.Meets stepMusic (Undisturbed (UnixPath.components "/music".toList)) stickScans
      watchedJob := by decide
  obtain ⟨s, he, hend⟩ := Machine.exec_of_any stepMusic stickScans watchedJob
    (fun s => decide (s.Quiet ∧ .requested "usb".toList 1 ∈ s.log)) (by decide)
  obtain ⟨hquiet, hrequested⟩ := of_decide_eq_true hend
  obtain ⟨hsettled, hidle⟩ := scans_settled _ _ _ _ _ watchedJob hm he hquiet
  exact ⟨s, he, hsettled _ _ hrequested, hidle⟩

/-- The internal library is updated while the stick is watched: its watcher
returns, and the watcher of the stick settles the stick alone. -/
def twoSources : List Act :=
  [updateOf "usb", .advance 0 answered, updateOf "local-internal", .advance 1 answered,
    .jobStarts, .jobEnds, .jobStarts, .jobEnds] ++ List.replicate 6 (.advance 0 answered)

/-- The first poll comes before MPD has taken the job up. -/
def earlyPoll : List Act :=
  updateOf "usb" :: List.replicate 7 (.advance 0 answered) ++ [.jobStarts, .jobEnds]

/-- A source is not settled when its watcher finds the gate taken, and settled
too early when its job is not yet seen. -/
theorem sources_not_settled :
    (∃ s, Machine.exec stepMusic stickScans twoSources = some s ∧ s.Quiet ∧
      .requested "local-internal".toList 2 ∈ s.log ∧
      s.counts.lookup "local-internal".toList = none ∧
      ¬SettledAfter s.log "local-internal".toList 2) ∧
    ∃ s, Machine.exec stepMusic stickScans earlyPoll = some s ∧ s.Quiet ∧
      .requested "usb".toList 1 ∈ s.log ∧ ¬SettledAfter s.log "usb".toList 1 := by
  constructor
  · obtain ⟨s, he, hend⟩ := Machine.exec_of_any stepMusic stickScans twoSources
      (fun s => decide (s.Quiet ∧ .requested "local-internal".toList 2 ∈ s.log ∧
        s.counts.lookup "local-internal".toList = none ∧
        s.log.all fun event => match event with
          | .rewritten sourceId _ => sourceId != "local-internal".toList
          | _ => true)) (by decide)
    obtain ⟨hquiet, hrequested, hcounts, hnone⟩ := of_decide_eq_true hend
    refine ⟨s, he, hquiet, hrequested, hcounts, fun hsettled => ?_⟩
    obtain ⟨counts, hrewritten⟩ := hsettled.rewritten
    simpa using List.all_eq_true.mp hnone _ hrewritten
  · obtain ⟨s, he, hend⟩ := Machine.exec_of_any stepMusic stickScans earlyPoll
      (fun s => decide (s.Quiet ∧ .requested "usb".toList 1 ∈ s.log ∧
        s.log = .ended 1 :: s.log.tail ∧ .ended 1 ∉ s.log.tail)) (by decide)
    obtain ⟨hquiet, hrequested, hlog, hearly⟩ := of_decide_eq_true hend
    refine ⟨s, he, hquiet, hrequested, fun hsettled => ?_⟩
    rw [hlog] at hsettled
    exact hearly hsettled.of_ended.ended

end EvoAudio.Playback.ScanProgress
