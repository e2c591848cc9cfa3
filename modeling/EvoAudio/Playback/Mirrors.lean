import EvoAudio.Lib.Machine
import EvoAudio.Playback.PlaylistVerbs
import Mathlib.Data.Finset.Basic

/-!
# The mirrors of the shelves

`refresh_favourites`, `publish_queue` and `publish_index` each read MPD and then
write a mirror, without a lock across the two. They are run by the verb
handlers at their end, by the observer of `playback.mpd/src/idle_observer.rs`
when MPD reports a change, and once at the start. A handler is a task that runs
up to its next MPD round trip or its next look at a mirror; between two steps of
it any other task and any other client of MPD can run.
-/

namespace EvoAudio.Playback.Mirroring

open Mpd (MpdError)

inductive IdleSubsystem where
  | database
  | update
  | storedPlaylist
  | playlist
  | player
  deriving DecidableEq, Repr

/-- What the shelves keep of MPD. -/
structure Mirror where
  queue : Option Envelope
  index : Option (List IndexRow)
  membership : Finset (List Char)
  favourites : Option (List (List Char))
  deriving DecidableEq

/-- How far a refresh has come, with what it has read. -/
inductive Point where
  | queue
  | queueItems (items : List MpdQueueItem)
  | queueBuilt (envelope : Envelope)
  | index
  | indexNames (names : List (List Char))
  | indexBuilt (rows : List IndexRow)
  | favourites
  | favouritesRead (uris : List (List Char))
  /-- The membership is written, the envelope is not. -/
  | favouritesListed (uris : List (List Char))
  deriving DecidableEq, Repr

/-- A handler, by the answers `ρ` of its commands and the errors `ε` it can end
with. -/
inductive Task (ρ ε : Type) where
  | done (result : Except ε Unit)
  | send (command : Server → Except MpdError (ρ × Server)) (next : Except MpdError ρ → Task ρ ε)
  | look (next : Mirror → Task ρ ε)
  | refresh (point : Point) (next : Task ρ ε)

variable {ρ ε : Type}

def Task.andThen : Task ρ ε → Task ρ ε → Task ρ ε
  | .done _, after => after
  | .send command next, after => .send command fun answer => (next answer).andThen after
  | .look next, after => .look fun mirror => (next mirror).andThen after
  | .refresh point next, after => .refresh point (next.andThen after)

def Task.isDone : Task ρ ε → Bool
  | .done _ => true
  | _ => false

-- ---------------------------------------------------------------------------
-- Refreshes
-- ---------------------------------------------------------------------------

/-- What comes of a command, and the server after it. -/
def answer (fate : Fate) (command : Server → Except MpdError (α × Server)) (server : Server) :
    Except MpdError α × Server :=
  match fate, command server with
  | .serve, .ok (a, server) => (.ok a, server)
  | .serve, .error error => (.error error, server)
  | .refuse _ error, _ => (.error error, server)
  | .lose error, .ok (_, server) => (.error error, server)
  | .lose _, .error error => (.error error, server)

/-- One step of a refresh: the mirror after it, and where the refresh stands
unless it is over. -/
def Point.step (favouritesName : List Char) (fate : Fate) (server : Server) (mirror : Mirror) :
    Point → Mirror × Option Point
  | .queue =>
    match (answer fate (read Server.playlistinfo) server).1 with
    | .ok items => (mirror, some (.queueItems items))
    | .error _ => (mirror, none)
  | .queueItems items =>
    match (answer fate (read Server.status) server).1 with
    | .ok status => (mirror, some (.queueBuilt (renderEnvelope items status)))
    | .error _ => (mirror, none)
  | .queueBuilt envelope => ({ mirror with queue := some envelope }, none)
  | .index =>
    match (answer fate (read Server.listplaylists) server).1 with
    | .ok names => (mirror, some (.indexNames names))
    | .error _ => (mirror, none)
  | .indexNames names =>
    if names.isEmpty then (mirror, some (.indexBuilt []))
    else
      match (answer fate (Server.playlistFileCounts names) server).1 with
      | .ok counts => (mirror, some (.indexBuilt (List.zipWith IndexRow.mk names counts)))
      | .error _ => (mirror, some (.indexBuilt (names.map fun name => ⟨name, none⟩)))
  | .indexBuilt rows => ({ mirror with index := some rows }, none)
  | .favourites =>
    match (answer fate (Server.listplaylistinfo favouritesName) server).1 with
    | .ok uris => (mirror, some (.favouritesRead uris))
    | .error error =>
      if ackCode error = some 50 then (mirror, some (.favouritesRead [])) else (mirror, none)
  | .favouritesRead uris =>
    ({ mirror with membership := uris.toFinset }, some (.favouritesListed uris))
  | .favouritesListed uris => ({ mirror with favourites := some uris }, none)

/-- The rest of a refresh, and what follows it. -/
def Task.resume (next : Task ρ ε) : Option Point → Task ρ ε
  | some point => .refresh point next
  | none => next

/-- One step of a task: the server, the mirror and the task after it. -/
def Task.step (favouritesName : List Char) (fate : Fate) (server : Server) (mirror : Mirror) :
    Task ρ ε → Option (Server × Mirror × Task ρ ε)
  | .done _ => none
  | .send command next =>
    let (reply, server) := answer fate command server
    some (server, mirror, next reply)
  | .look next => some (server, mirror, next mirror)
  | .refresh point next =>
    let (mirror, rest) := point.step favouritesName fate server mirror
    some (server, mirror, next.resume rest)

-- ---------------------------------------------------------------------------
-- The verbs of the favourites
-- ---------------------------------------------------------------------------

def favouritesPayloadVersion : Nat := 1

inductive FavouritesError where
  | payloadVersion (verb : String) (got expected : Nat)
  | notFavourite (uri : List Char)
  | mpd (verb : String) (error : MpdError)
  deriving DecidableEq, Repr

/-- A verb of the favourites. A command without rows answers none. -/
abbrev FavouritesTask := Task (List (List Char)) FavouritesError

def withoutRows (command : Server → Except MpdError (Unit × Server)) (server : Server) :
    Except MpdError (List (List Char) × Server) :=
  (command server).map fun (_, server) => ([], server)

def checkFavouritesVersion (v : Nat) (verb : String) (next : FavouritesTask) : FavouritesTask :=
  if v ≠ favouritesPayloadVersion then
    .done (.error (.payloadVersion verb v favouritesPayloadVersion))
  else next

/-- The command of a verb. It ends the verb when it fails. -/
def sendFor (verb : String) (command : Server → Except MpdError (List (List Char) × Server))
    (next : List (List Char) → FavouritesTask) : FavouritesTask :=
  .send command fun
    | .ok uris => next uris
    | .error error => .done (.error (.mpd verb error))

def refreshFavourites : FavouritesTask := .refresh .favourites (.done (.ok ()))

def handleAddFavourite (favouritesName : List Char) (v : Nat) (uri : List Char) : FavouritesTask :=
  checkFavouritesVersion v "favourites.add_favourite" <|
    .look fun mirror =>
      if uri ∈ mirror.membership then .done (.ok ())
      else sendFor "add_favourite" (withoutRows (Server.playlistadd favouritesName uri)) fun _ =>
        refreshFavourites

/-- The favourite is looked up in the membership and then found in MPD. -/
def atFavourite (favouritesName : List Char) (verb : String) (uri : List Char)
    (next : List (List Char) → Nat → FavouritesTask) : FavouritesTask :=
  .look fun mirror =>
    if uri ∉ mirror.membership then .done (.error (.notFavourite uri))
    else sendFor verb (Server.listplaylistinfo favouritesName) fun uris =>
      match uris.findIdx? (· == uri) with
      | none => .done (.error (.notFavourite uri))
      | some position => next uris position

def handleRemoveFavourite (favouritesName : List Char) (v : Nat) (uri : List Char) :
    FavouritesTask :=
  checkFavouritesVersion v "favourites.remove_favourite" <|
    atFavourite favouritesName "remove_favourite" uri fun _ position =>
      sendFor "remove_favourite" (withoutRows (Server.playlistdelete favouritesName position))
        fun _ => refreshFavourites

def handleClearFavourites (favouritesName : List Char) (v : Nat) : FavouritesTask :=
  checkFavouritesVersion v "favourites.clear_favourites" <|
    .send (withoutRows (Server.playlistclear favouritesName)) fun
      | .ok _ => refreshFavourites
      | .error error =>
        if ackCode error = some 50 then refreshFavourites
        else .done (.error (.mpd "clear_favourites" error))

def handleMoveFavourite (favouritesName : List Char) (v : Nat) (uri : List Char)
    (toPosition : Nat) : FavouritesTask :=
  checkFavouritesVersion v "favourites.move_favourite" <|
    atFavourite favouritesName "move_favourite" uri fun uris fromPosition =>
      sendFor "move_favourite" (withoutRows (Server.playlistmove favouritesName fromPosition
        (min toPosition (uris.length - 1)))) fun _ => refreshFavourites

-- ---------------------------------------------------------------------------
-- The observer and the start
-- ---------------------------------------------------------------------------

/-- Which refreshes a burst of events has had already. -/
structure Handled where
  queuePublished : Bool
  storedPlaylistHandled : Bool
  databaseRehydrated : Bool

/-- One refresh for each kind of event in the burst. The library is rehydrated
and swept by a task of its own. -/
def dispatchRefresh (triage : Task ρ ε) (handled : Handled) : List IdleSubsystem → Task ρ ε
  | [] => .done (.ok ())
  | .playlist :: rest | .player :: rest =>
    if !handled.queuePublished then
      .refresh .queue (dispatchRefresh triage { handled with queuePublished := true } rest)
    else dispatchRefresh triage handled rest
  | .storedPlaylist :: rest =>
    if !handled.storedPlaylistHandled then
      .refresh .index (.refresh .favourites
        (dispatchRefresh triage { handled with storedPlaylistHandled := true } rest))
    else dispatchRefresh triage handled rest
  | .database :: rest | .update :: rest =>
    if !handled.databaseRehydrated then
      triage.andThen (dispatchRefresh triage { handled with databaseRehydrated := true } rest)
    else dispatchRefresh triage handled rest

/-- The warm start. -/
def rehydrateAll (triage : Task ρ ε) : Task ρ ε :=
  .refresh .queue (.refresh .index (.refresh .favourites triage))

/-- The empty envelopes the subjects are announced with. -/
def announced : Mirror where
  queue := some ⟨[], 0, none, false⟩
  index := some []
  membership := ∅
  favourites := some []

-- ---------------------------------------------------------------------------
-- Runs
-- ---------------------------------------------------------------------------

structure Mirrors (ρ ε : Type) where
  server : Server
  mirror : Mirror
  /-- The events MPD holds for the observer. -/
  changed : List IdleSubsystem
  /-- The observer's last dispatch, then the warm start and the handlers. -/
  tasks : List (Task ρ ε)

inductive Act (ρ ε : Type) where
  | call (task : Task ρ ε)
  | run (i : Nat) (fate : Fate)
  /-- The observer is told of the events, in some order, and connects or not. -/
  | wake (order : List IdleSubsystem) (connected : Bool)
  /-- Another client changes MPD. -/
  | client (change : Server → Server)
  | event (subsystem : IdleSubsystem)

/-- The events of a change. -/
def raised (before after : Server) : List IdleSubsystem :=
  (if before.playlistinfo = after.playlistinfo then [] else [.playlist]) ++
    (if before.status = after.status then [] else [.player]) ++
      if before.playlists = after.playlists then [] else [.storedPlaylist]

def Mirrors.become (s : Mirrors ρ ε) (server : Server) : Mirrors ρ ε :=
  { s with server, changed := s.changed ++ raised s.server server }

/-- The shelves of a device. -/
structure Device (ρ ε : Type) where
  favouritesName : List Char
  /-- `rehydrate_from_mpd` and `run_triage`. -/
  triage : Task ρ ε

def step (device : Device ρ ε) (s : Mirrors ρ ε) : Act ρ ε → Option (Mirrors ρ ε)
  | .call task => some { s with tasks := s.tasks ++ [task] }
  | .run i fate =>
    s.tasks[i]?.bind fun task =>
      (task.step device.favouritesName fate s.server s.mirror).map fun (server, mirror, task) =>
        { s.become server with mirror, tasks := s.tasks.set i task }
  | .wake order connected =>
    match s.tasks with
    | observer :: handlers =>
      if observer.isDone ∧ s.changed ≠ [] ∧ order ⊆ s.changed ∧ s.changed ⊆ order then
        let dispatch :=
          if connected then dispatchRefresh device.triage ⟨false, false, false⟩ order else observer
        some { s with changed := [], tasks := dispatch :: handlers }
      else none
    | [] => none
  | .client change => some (s.become (change s.server))
  | .event subsystem => some { s with changed := s.changed ++ [subsystem] }

def start (device : Device ρ ε) (server : Server) : Mirrors ρ ε :=
  ⟨server, announced, [], [.done (.ok ()), rehydrateAll device.triage]⟩

/-- Every handler has finished and every event has been dispatched. -/
def Mirrors.Quiet (s : Mirrors ρ ε) : Prop := s.changed = [] ∧ ∀ task ∈ s.tasks, task.isDone

instance (s : Mirrors ρ ε) : Decidable s.Quiet := inferInstanceAs (Decidable (_ ∧ _))

-- ---------------------------------------------------------------------------
-- What MPD has
-- ---------------------------------------------------------------------------

inductive Cell where
  | queue
  | index
  | membership
  | favourites
  deriving DecidableEq, Repr

/-- The events that a change of the mirrored data comes with. -/
def Cell.watched : Cell → List IdleSubsystem
  | .queue => [.playlist, .player]
  | .index | .membership | .favourites => [.storedPlaylist]

/-- The rows of the index. -/
def indexRows (server : Server) : List IndexRow :=
  server.listplaylists.map fun name => ⟨name, (server.playlists.lookup name).map List.length⟩

/-- A playlist that is not there has no entries. -/
def favouriteUris (favouritesName : List Char) (server : Server) : List (List Char) :=
  (server.playlists.lookup favouritesName).getD []

/-- The mirror equals what MPD has. -/
def Mirror.Shows (favouritesName : List Char) (server : Server) (mirror : Mirror) : Cell → Prop
  | .queue => mirror.queue = some server.envelope
  | .index => mirror.index = some (indexRows server)
  | .membership => mirror.membership = (favouriteUris favouritesName server).toFinset
  | .favourites => mirror.favourites = some (favouriteUris favouritesName server)

/-- The refresh is to write the cell, and what it has read so far is what MPD
has. -/
def Point.Brings (favouritesName : List Char) (server : Server) : Cell → Point → Prop
  | .queue, .queue => True
  | .queue, .queueItems items => items = server.playlistinfo
  | .queue, .queueBuilt envelope => envelope = server.envelope
  | .index, .index => True
  | .index, .indexNames names => names = server.listplaylists
  | .index, .indexBuilt rows => rows = indexRows server
  | .membership, .favourites => True
  | .membership, .favouritesRead uris =>
    uris.toFinset = (favouriteUris favouritesName server).toFinset
  | .favourites, .favourites => True
  | .favourites, .favouritesRead uris => uris = favouriteUris favouritesName server
  | .favourites, .favouritesListed uris => uris = favouriteUris favouritesName server
  | _, _ => False

/-- The task is to refresh the cell whatever it is answered. -/
def Task.Brings (favouritesName : List Char) (server : Server) (cell : Cell) : Task ρ ε → Prop
  | .done _ => False
  | .send _ next => ∀ reply, (next reply).Brings favouritesName server cell
  | .look next => ∀ mirror, (next mirror).Brings favouritesName server cell
  | .refresh point next =>
    point.Brings favouritesName server cell ∨ next.Brings favouritesName server cell

/-- An event for the cell is still to be dispatched. -/
def Mirrors.Flagged (s : Mirrors ρ ε) (cell : Cell) : Prop :=
  ∃ subsystem ∈ cell.watched, subsystem ∈ s.changed

/-- Besides the step that the task `i` takes now, a refresh of the cell is still
to come. -/
def Mirrors.ComesElse (favouritesName : List Char) (s : Mirrors ρ ε) (i : Nat) (next : Task ρ ε)
    (cell : Cell) : Prop :=
  s.Flagged cell ∨ next.Brings favouritesName s.server cell ∨
    ∃ j task, j ≠ i ∧ s.tasks[j]? = some task ∧ task.Brings favouritesName s.server cell

/-- The step writes the cell, with something that is not what MPD has. -/
def Point.Overwrites (favouritesName : List Char) (server : Server) : Cell → Point → Prop
  | .queue, .queueBuilt envelope => envelope ≠ server.envelope
  | .index, .indexBuilt rows => rows ≠ indexRows server
  | .membership, .favouritesRead uris =>
    uris.toFinset ≠ (favouriteUris favouritesName server).toFinset
  | .favourites, .favouritesListed uris => uris ≠ favouriteUris favouritesName server
  | _, _ => False

/-- The step reads for the cell. -/
def Point.Reads : Cell → Point → Prop
  | .queue, .queue | .queue, .queueItems _ | .index, .index | .membership, .favourites
  | .favourites, .favourites => True
  | .index, .indexNames names => names ≠ []
  | _, _ => False

def served : Fate → Bool
  | .serve => true
  | _ => false

/-- A refresh overwrites a cell with an older reading only while another refresh
of the cell is still to come. So it is with a refresh, or a burst of events, that
MPD does not answer, unless the cell is right as it is. -/
def Undisturbed (device : Device ρ ε) (s : Mirrors ρ ε) : Act ρ ε → Prop
  | .run i fate => ∀ point next, s.tasks[i]? = some (.refresh point next) → ∀ cell,
      (point.Overwrites device.favouritesName s.server cell →
        s.ComesElse device.favouritesName i next cell) ∧
      (point.Reads cell → served fate = false →
        s.mirror.Shows device.favouritesName s.server cell ∨
          s.ComesElse device.favouritesName i next cell)
  | .wake _ connected => connected = false → ∀ cell, s.Flagged cell →
      s.mirror.Shows device.favouritesName s.server cell ∨
        ∃ task ∈ s.tasks, task.Brings device.favouritesName s.server cell
  | _ => True

-- ---------------------------------------------------------------------------
-- Changes of MPD
-- ---------------------------------------------------------------------------

/-- The two servers have the same data for the cell. -/
def Cell.Agrees (before after : Server) : Cell → Prop
  | .queue => before.playlistinfo = after.playlistinfo ∧ before.status = after.status
  | .index | .membership | .favourites => before.playlists = after.playlists

/-- A change comes with an event. -/
theorem agrees_or_raised (before after : Server) (cell : Cell) :
    cell.Agrees before after ∨ ∃ subsystem ∈ cell.watched, subsystem ∈ raised before after := by
  have hstored : before.playlists = after.playlists ∨ .storedPlaylist ∈ raised before after := by
    by_cases h : before.playlists = after.playlists
    · exact .inl h
    · exact .inr (by simp [raised, h])
  cases cell with
  | queue =>
    by_cases hinfo : before.playlistinfo = after.playlistinfo
    · by_cases hstatus : before.status = after.status
      · exact .inl ⟨hinfo, hstatus⟩
      · exact .inr ⟨.player, by simp [Cell.watched], by simp [raised, hstatus]⟩
    · exact .inr ⟨.playlist, by simp [Cell.watched], by simp [raised, hinfo]⟩
  | index | membership | favourites =>
    exact hstored.imp_right fun h => ⟨.storedPlaylist, by simp [Cell.watched], h⟩

section Agrees

variable {before after : Server}

theorem Cell.Agrees.envelope (h : Cell.queue.Agrees before after) :
    before.envelope = after.envelope := by
  rw [Server.envelope, Server.envelope, h.1, h.2]

theorem indexRows_congr (h : before.playlists = after.playlists) :
    indexRows before = indexRows after := by
  rw [indexRows, indexRows, Server.listplaylists, Server.listplaylists, h]

theorem favouriteUris_congr (name : List Char) (h : before.playlists = after.playlists) :
    favouriteUris name before = favouriteUris name after := by
  rw [favouriteUris, favouriteUris, h]

theorem Mirror.Shows.congr {mirror : Mirror} (h : mirror.Shows name before cell)
    (hagrees : cell.Agrees before after) : mirror.Shows name after cell := by
  cases cell with
  | queue => exact Eq.trans h (congrArg some hagrees.envelope)
  | index => exact Eq.trans h (congrArg some (indexRows_congr hagrees))
  | membership => exact Eq.trans h (congrArg List.toFinset (favouriteUris_congr name hagrees))
  | favourites => exact Eq.trans h (congrArg some (favouriteUris_congr name hagrees))

theorem Point.Brings.congr {point : Point} (h : point.Brings name before cell)
    (hagrees : cell.Agrees before after) : point.Brings name after cell := by
  cases cell with
  | queue =>
    cases point with
    | queueItems items => exact Eq.trans h hagrees.1
    | queueBuilt envelope => exact Eq.trans h hagrees.envelope
    | _ => exact h
  | index =>
    cases point with
    | indexNames names => exact Eq.trans h (congrArg (List.map Prod.fst) hagrees)
    | indexBuilt rows => exact Eq.trans h (indexRows_congr hagrees)
    | _ => exact h
  | membership =>
    cases point with
    | favouritesRead uris =>
      exact Eq.trans h (congrArg List.toFinset (favouriteUris_congr name hagrees))
    | _ => exact h
  | favourites =>
    cases point with
    | favouritesRead uris | favouritesListed uris =>
      exact Eq.trans h (favouriteUris_congr name hagrees)
    | _ => exact h

theorem Task.Brings.congr {task : Task ρ ε} (h : task.Brings name before cell)
    (hagrees : cell.Agrees before after) : task.Brings name after cell := by
  induction task with
  | done => exact h
  | send command next ih => exact fun reply => ih reply (h reply)
  | look next ih => exact fun mirror => ih mirror (h mirror)
  | refresh point next ih => exact h.imp (·.congr hagrees) ih

end Agrees

-- ---------------------------------------------------------------------------
-- A step of a refresh
-- ---------------------------------------------------------------------------

theorem answer_served (command : Server → Except MpdError (α × Server)) (server : Server)
    (h : served fate = true) : (answer fate command server).1 = (command server).map Prod.fst := by
  cases fate with
  | serve => cases hcommand : command server <;> simp [answer, hcommand, Except.map]
  | refuse | lose => cases h

theorem lookup_listed {server : Server} (h : name ∈ server.listplaylists) :
    ∃ list, server.playlists.lookup name = some list := by
  obtain ⟨playlist, hplaylist, rfl⟩ := List.mem_map.mp h
  have hsome : (server.playlists.lookup playlist.1).isSome := by
    rw [List.lookup_isSome_iff]
    exact ⟨playlist, hplaylist, beq_self_eq_true _⟩
  exact Option.isSome_iff_exists.mp hsome

/-- The counts of the playlists that MPD lists are known. -/
theorem playlistFileCounts_listed (server : Server) :
    (Server.playlistFileCounts server.listplaylists server).map Prod.fst =
      .ok (server.listplaylists.map fun name =>
        (server.playlists.lookup name).map List.length) := by
  have hknown (names : List (List Char)) (h : ∀ name ∈ names, name ∈ server.listplaylists) :
      names.mapM (fun name => server.playlists.lookup name) =
        some (names.map (favouriteUris · server)) := by
    induction names with
    | nil => rfl
    | cons name names ih =>
      obtain ⟨list, hlist⟩ := lookup_listed (h name (List.mem_cons_self ..))
      have hrest := ih fun other hother => h other (List.mem_cons_of_mem _ hother)
      simp [List.mapM_cons, hlist, hrest, favouriteUris]
  have hlisted := hknown server.listplaylists fun _ h => h
  unfold Server.playlistFileCounts
  rw [hlisted]
  refine congrArg Except.ok ?_
  rw [List.map_map]
  refine List.map_congr_left fun name hname => ?_
  obtain ⟨list, hlist⟩ := lookup_listed hname
  simp [favouriteUris, hlist]

/-- What a step leaves of a cell it does not overwrite. -/
theorem Point.step_shows (point : Point) {mirror : Mirror} (fate : Fate)
    (h : mirror.Shows name server cell) :
    (point.step name fate server mirror).1.Shows name server cell ∨
      point.Overwrites name server cell := by
  cases point with
  | queue | queueItems | index | indexNames | favourites =>
    refine .inl ?_
    dsimp only [step]
    repeat' split
    all_goals exact h
  | queueBuilt envelope =>
    cases cell with
    | queue => exact or_iff_not_imp_right.mpr fun hsame => congrArg some (not_not.mp hsame)
    | _ => exact .inl h
  | indexBuilt rows =>
    cases cell with
    | index => exact or_iff_not_imp_right.mpr fun hsame => congrArg some (not_not.mp hsame)
    | _ => exact .inl h
  | favouritesRead uris =>
    cases cell with
    | membership => exact or_iff_not_imp_right.mpr fun hsame => not_not.mp hsame
    | _ => exact .inl h
  | favouritesListed uris =>
    cases cell with
    | favourites => exact or_iff_not_imp_right.mpr fun hsame => congrArg some (not_not.mp hsame)
    | _ => exact .inl h

theorem Point.step_favourites (mirror : Mirror) (hserved : served fate = true) :
    Point.favourites.step name fate server mirror =
      (mirror, some (.favouritesRead (favouriteUris name server))) := by
  dsimp only [step]
  rw [answer_served _ server hserved, Server.listplaylistinfo, favouriteUris]
  cases server.playlists.lookup name with
  | some entries => rfl
  | none => rfl

theorem Point.step_indexNames (mirror : Mirror) (hserved : served fate = true) :
    (Point.indexNames server.listplaylists).step name fate server mirror =
      (mirror, some (.indexBuilt (indexRows server))) := by
  dsimp only [step]
  split
  next hempty => simp [indexRows, List.isEmpty_iff.mp hempty]
  next =>
    rw [answer_served _ server hserved, playlistFileCounts_listed]
    simp [indexRows, List.zipWith_map_right, List.zipWith_self]

/-- A refresh that has read what MPD has goes on with it, unless a read is not
answered. -/
theorem Point.step_brings (point : Point) (mirror : Mirror) (fate : Fate)
    (h : point.Brings name server cell) :
    (point.step name fate server mirror).1.Shows name server cell ∨
      (∃ point', (point.step name fate server mirror).2 = some point' ∧
        point'.Brings name server cell) ∨
      (point.Reads cell ∧ served fate = false) := by
  cases cell with
  | queue =>
    cases point with
    | queue =>
      cases hserved : served fate with
      | false => exact .inr (.inr ⟨trivial, rfl⟩)
      | true =>
        have hread := answer_served (read Server.playlistinfo) server hserved
        refine .inr (.inl ⟨.queueItems server.playlistinfo, ?_, rfl⟩)
        simp [step, hread, read, Except.map]
    | queueItems items =>
      cases hserved : served fate with
      | false => exact .inr (.inr ⟨trivial, rfl⟩)
      | true =>
        have hread := answer_served (read Server.status) server hserved
        refine .inr (.inl ⟨.queueBuilt (renderEnvelope items server.status), ?_, ?_⟩)
        · simp [step, hread, read, Except.map]
        · exact congrArg (renderEnvelope · server.status) h
    | queueBuilt envelope => exact .inl (congrArg some h)
    | _ => exact h.elim
  | index =>
    cases point with
    | index =>
      cases hserved : served fate with
      | false => exact .inr (.inr ⟨trivial, rfl⟩)
      | true =>
        have hread := answer_served (read Server.listplaylists) server hserved
        refine .inr (.inl ⟨.indexNames server.listplaylists, ?_, rfl⟩)
        simp [step, hread, read, Except.map]
    | indexNames names =>
      obtain rfl : names = server.listplaylists := h
      cases hserved : served fate with
      | false =>
        by_cases hnames : server.listplaylists = []
        · refine .inr (.inl ⟨.indexBuilt (indexRows server), ?_, rfl⟩)
          simp [step, indexRows, hnames]
        · exact .inr (.inr ⟨hnames, rfl⟩)
      | true => exact .inr (.inl ⟨_, congrArg Prod.snd (step_indexNames mirror hserved), rfl⟩)
    | indexBuilt rows => exact .inl (congrArg some h)
    | _ => exact h.elim
  | membership =>
    cases point with
    | favourites =>
      cases hserved : served fate with
      | false => exact .inr (.inr ⟨trivial, rfl⟩)
      | true => exact .inr (.inl ⟨_, congrArg Prod.snd (step_favourites mirror hserved), rfl⟩)
    | favouritesRead uris => exact .inl h
    | _ => exact h.elim
  | favourites =>
    cases point with
    | favourites =>
      cases hserved : served fate with
      | false => exact .inr (.inr ⟨trivial, rfl⟩)
      | true => exact .inr (.inl ⟨_, congrArg Prod.snd (step_favourites mirror hserved), rfl⟩)
    | favouritesRead uris => exact .inr (.inl ⟨_, rfl, h⟩)
    | favouritesListed uris => exact .inl (congrArg some h)
    | _ => exact h.elim

theorem Task.Brings.resume {next : Task ρ ε} (h : next.Brings name server cell)
    (rest : Option Point) : (next.resume rest).Brings name server cell := by
  cases rest with
  | some point => exact .inr h
  | none => exact h

-- ---------------------------------------------------------------------------
-- The invariant
-- ---------------------------------------------------------------------------

/-- The cell is right, or a refresh of it is still to come. -/
def Mirrors.Kept (name : List Char) (s : Mirrors ρ ε) (cell : Cell) : Prop :=
  s.mirror.Shows name s.server cell ∨ s.Flagged cell ∨
    ∃ j : Nat, ∃ task, s.tasks[j]? = some task ∧ task.Brings name s.server cell

namespace Mirrors

variable {s : Mirrors ρ ε} {cell : Cell}

theorem Kept.become (h : s.Kept name cell) (server : Server) :
    (s.become server).Kept name cell := by
  obtain hagrees | ⟨subsystem, hwatched, hraised⟩ := agrees_or_raised s.server server cell
  · obtain hshows | ⟨subsystem, hwatched, hchanged⟩ | ⟨j, task, htask, hbrings⟩ := h
    · exact .inl (hshows.congr hagrees)
    · exact .inr (.inl ⟨subsystem, hwatched, List.mem_append_left _ hchanged⟩)
    · exact .inr (.inr ⟨j, task, htask, hbrings.congr hagrees⟩)
  · exact .inr (.inl ⟨subsystem, hwatched, List.mem_append_right _ hraised⟩)

/-- A task goes on to one that brings what it brought. -/
theorem Kept.set {task task' : Task ρ ε} (h : s.Kept name cell) (hi : s.tasks[i]? = some task)
    (hnext : task.Brings name s.server cell → task'.Brings name s.server cell) :
    ({ s with tasks := s.tasks.set i task' } : Mirrors ρ ε).Kept name cell := by
  obtain hshows | hflagged | ⟨j, other, hother, hbrings⟩ := h
  · exact .inl hshows
  · exact .inr (.inl hflagged)
  · refine .inr (.inr ?_)
    by_cases hj : j = i
    · subst hj
      cases Option.some.inj (hi.symm.trans hother)
      obtain ⟨hlt, -⟩ := List.getElem?_eq_some_iff.mp hi
      exact ⟨j, task', List.getElem?_set_self hlt, hnext hbrings⟩
    · exact ⟨j, other, (List.getElem?_set_ne (Ne.symm hj)).trans hother, hbrings⟩

/-- What comes from elsewhere still comes after the step of the task. -/
theorem ComesElse.kept {task next task' : Task ρ ε} (h : s.ComesElse name i next cell)
    (hi : s.tasks[i]? = some task)
    (hnext : next.Brings name s.server cell → task'.Brings name s.server cell) (mirror : Mirror) :
    ({ s with mirror, tasks := s.tasks.set i task' } : Mirrors ρ ε).Kept name cell := by
  obtain hflagged | hbrings | ⟨j, other, hj, hother, hbrings⟩ := h
  · exact .inr (.inl hflagged)
  · obtain ⟨hlt, -⟩ := List.getElem?_eq_some_iff.mp hi
    exact .inr (.inr ⟨i, task', List.getElem?_set_self hlt, hnext hbrings⟩)
  · exact .inr (.inr ⟨j, other, (List.getElem?_set_ne hj.symm).trans hother, hbrings⟩)

/-- A step of a refresh. -/
theorem Kept.refresh {device : Device ρ ε} {next : Task ρ ε}
    (h : s.Kept device.favouritesName cell) (hok : Undisturbed device s (.run i fate))
    (hi : s.tasks[i]? = some (.refresh point next)) :
    let after := point.step device.favouritesName fate s.server s.mirror
    ({ s with mirror := after.1, tasks := s.tasks.set i (next.resume after.2) } :
      Mirrors ρ ε).Kept device.favouritesName cell := by
  intro after
  obtain ⟨hoverwrites, hunread⟩ := hok point next hi cell
  have helse (hcomes : s.ComesElse device.favouritesName i next cell) :=
    hcomes.kept hi (fun hbrings => hbrings.resume after.2) after.1
  have hshown (hshows : s.mirror.Shows device.favouritesName s.server cell) :
      ({ s with mirror := after.1, tasks := s.tasks.set i (next.resume after.2) } :
        Mirrors ρ ε).Kept device.favouritesName cell := by
    obtain hshows | hover := point.step_shows fate hshows
    · exact .inl hshows
    · exact helse (hoverwrites hover)
  obtain hshows | hflagged | ⟨j, task, htask, hbrings⟩ := h
  · exact hshown hshows
  · exact helse (.inl hflagged)
  by_cases hj : j = i
  · subst hj
    cases Option.some.inj (hi.symm.trans htask)
    obtain hbrings | hbrings := hbrings
    · obtain hshows | ⟨point', hrest, hbrings⟩ | ⟨hreads, hserved⟩ :=
        point.step_brings s.mirror fate hbrings
      · exact .inl hshows
      · obtain ⟨hlt, -⟩ := List.getElem?_eq_some_iff.mp hi
        refine .inr (.inr ⟨j, _, List.getElem?_set_self hlt, ?_⟩)
        rw [show after.2 = some point' from hrest]
        exact .inl hbrings
      · exact (hunread hreads hserved).elim hshown helse
    · exact helse (.inr (.inl hbrings))
  · exact helse (.inr (.inr ⟨j, task, hj, htask, hbrings⟩))

end Mirrors

-- ---------------------------------------------------------------------------
-- Steps and runs
-- ---------------------------------------------------------------------------

theorem Task.andThen_brings (task : Task ρ ε) {after : Task ρ ε}
    (h : after.Brings name server cell) : (task.andThen after).Brings name server cell := by
  induction task with
  | done => exact h
  | send command next ih => exact fun reply => ih reply
  | look next ih => exact fun mirror => ih mirror
  | refresh point next ih => exact .inr ih

/-- The burst has had a refresh of the cell. -/
def Handled.covers (handled : Handled) : Cell → Bool
  | .queue => handled.queuePublished
  | .index | .membership | .favourites => handled.storedPlaylistHandled

/-- The dispatch of a burst refreshes what its events are about. -/
theorem dispatchRefresh_brings (triage : Task ρ ε) (name : List Char) (server : Server)
    (cell : Cell) (order : List IdleSubsystem) (handled : Handled)
    (hcovers : handled.covers cell = false) (hevent : ∃ event ∈ cell.watched, event ∈ order) :
    (dispatchRefresh triage handled order).Brings name server cell := by
  induction order generalizing handled with
  | nil =>
    obtain ⟨event, -, hevent⟩ := hevent
    cases hevent
  | cons first rest ih =>
    obtain ⟨event, hwatched, hevent⟩ := hevent
    have hrest (hne : event ≠ first) : ∃ event ∈ cell.watched, event ∈ rest :=
      ⟨event, hwatched, (List.mem_cons.mp hevent).resolve_left hne⟩
    cases first with
    | playlist | player =>
      rw [dispatchRefresh]
      split
      next =>
        cases cell with
        | queue => exact .inl trivial
        | index | membership | favourites =>
          refine .inr (ih _ hcovers (hrest ?_))
          rintro rfl
          simp [Cell.watched] at hwatched
      next hhandled =>
        cases cell with
        | queue => exact absurd (congrArg not hcovers) hhandled
        | index | membership | favourites =>
          refine ih _ hcovers (hrest ?_)
          rintro rfl
          simp [Cell.watched] at hwatched
    | storedPlaylist =>
      rw [dispatchRefresh]
      split
      next =>
        cases cell with
        | queue =>
          refine .inr (.inr (ih _ hcovers (hrest ?_)))
          rintro rfl
          simp [Cell.watched] at hwatched
        | index => exact .inl trivial
        | membership | favourites => exact .inr (.inl trivial)
      next hhandled =>
        cases cell with
        | queue =>
          refine ih _ hcovers (hrest ?_)
          rintro rfl
          simp [Cell.watched] at hwatched
        | index | membership | favourites => exact absurd (congrArg not hcovers) hhandled
    | database | update =>
      have hne : ∃ event ∈ cell.watched, event ∈ rest := by
        refine hrest ?_
        rintro rfl
        cases cell <;> simp [Cell.watched] at hwatched
      rw [dispatchRefresh]
      split
      next => exact triage.andThen_brings (ih _ (by cases cell <;> exact hcovers) hne)
      next => exact ih _ hcovers hne

section Runs

variable {device : Device ρ ε} {s s' : Mirrors ρ ε}

theorem Mirrors.Kept.run {task : Task ρ ε} {cell : Cell} (h : s.Kept device.favouritesName cell)
    (hok : Undisturbed device s (.run i fate)) (hi : s.tasks[i]? = some task)
    (hstep : (task.step device.favouritesName fate s.server s.mirror).map
      (fun (server, mirror, task) =>
        { s.become server with mirror, tasks := s.tasks.set i task }) = some s') :
    s'.Kept device.favouritesName cell := by
  cases task with
  | done => cases hstep
  | send command next =>
    cases hstep
    exact (h.set hi fun hbrings => hbrings _).become _
  | look next =>
    cases hstep
    exact (h.set hi fun hbrings => hbrings _).become _
  | refresh point next =>
    cases hstep
    exact (h.refresh hok hi).become _

theorem Task.isDone_not_brings {task : Task ρ ε} (h : task.isDone) :
    ¬task.Brings name server cell := by
  cases task with
  | done => exact id
  | _ => cases h

/-- The events are taken by a dispatch that refreshes what they are about. -/
theorem kept_wake (h : ∀ cell, s.Kept device.favouritesName cell)
    (hok : Undisturbed device s (.wake order connected))
    (hstep : step device s (.wake order connected) = some s') (cell : Cell) :
    s'.Kept device.favouritesName cell := by
  unfold step at hstep
  dsimp only at hstep
  split at hstep
  next observer handlers htasks =>
    split at hstep
    next hidle =>
      obtain ⟨hdone, -, -, horder⟩ := hidle
      cases hstep
      -- A task that brings the cell is a handler: the observer is idle.
      have hhandler (task : Task ρ ε) (htask : task ∈ s.tasks)
          (hbrings : task.Brings device.favouritesName s.server cell) : ∃ j : Nat,
          ∃ task, ((if connected then dispatchRefresh device.triage ⟨false, false, false⟩ order
            else observer) :: handlers)[j]? = some task ∧
              task.Brings device.favouritesName s.server cell := by
        rw [htasks] at htask
        obtain rfl | htask := List.mem_cons.mp htask
        · exact absurd hbrings (Task.isDone_not_brings hdone)
        · obtain ⟨j, hj⟩ := List.mem_iff_getElem?.mp htask
          exact ⟨j + 1, task, hj, hbrings⟩
      obtain hshows | hflagged | ⟨j, task, htask, hbrings⟩ := h cell
      · exact .inl hshows
      · cases hconnected : connected with
        | true =>
          obtain ⟨event, hwatched, hchanged⟩ := hflagged
          refine .inr (.inr ⟨0, _, rfl, ?_⟩)
          exact dispatchRefresh_brings _ _ _ cell order ⟨false, false, false⟩
            (by cases cell <;> rfl) ⟨event, hwatched, horder hchanged⟩
        | false =>
          obtain hshows | ⟨task, htask, hbrings⟩ := hok hconnected cell hflagged
          · exact .inl hshows
          · exact .inr (.inr (hconnected ▸ hhandler task htask hbrings))
      · exact .inr (.inr (hhandler task (List.mem_of_getElem? htask) hbrings))
    next => cases hstep
  next => cases hstep

theorem kept_step (h : ∀ cell, s.Kept device.favouritesName cell) (hok : Undisturbed device s act)
    (hstep : step device s act = some s') (cell : Cell) : s'.Kept device.favouritesName cell := by
  cases act with
  | call task =>
    cases hstep
    obtain hshows | hflagged | ⟨j, other, hother, hbrings⟩ := h cell
    · exact .inl hshows
    · exact .inr (.inl hflagged)
    · obtain ⟨hlt, -⟩ := List.getElem?_eq_some_iff.mp hother
      exact .inr (.inr ⟨j, other, (List.getElem?_append_left hlt).trans hother, hbrings⟩)
  | run i fate =>
    obtain ⟨task, hi, hstep⟩ := Option.bind_eq_some_iff.mp hstep
    exact (h cell).run hok hi hstep
  | wake order connected => exact kept_wake h hok hstep cell
  | client change =>
    cases hstep
    exact (h cell).become _
  | event subsystem =>
    cases hstep
    obtain hshows | ⟨event, hwatched, hchanged⟩ | hbrings := h cell
    · exact .inl hshows
    · exact .inr (.inl ⟨event, hwatched, List.mem_append_left _ hchanged⟩)
    · exact .inr (.inr hbrings)

theorem start_kept (device : Device ρ ε) (server : Server) (cell : Cell) :
    (start device server).Kept device.favouritesName cell := by
  refine .inr (.inr ⟨1, _, rfl, ?_⟩)
  cases cell with
  | queue => exact .inl trivial
  | index => exact .inr (.inl trivial)
  | membership | favourites => exact .inr (.inr (.inl trivial))

/-- In a run that overwrites no cell for good, the mirrors are what MPD has once
all is quiet. -/
theorem mirrors_converge (device : Device ρ ε) (server : Server) (acts : List (Act ρ ε))
    (hm : Machine.Meets (step device) (Undisturbed device) (start device server) acts)
    (he : Machine.exec (step device) (start device server) acts = some s) (hquiet : s.Quiet) :
    ∀ cell, s.mirror.Shows device.favouritesName s.server cell := by
  intro cell
  obtain hshows | ⟨event, -, hevent⟩ | ⟨j, task, htask, hbrings⟩ :=
    Machine.exec_invariant (I := fun s => ∀ cell, s.Kept device.favouritesName cell) kept_step
      (start_kept device server) hm he cell
  · exact hshows
  · rw [hquiet.1] at hevent
    cases hevent
  · exact absurd hbrings (Task.isDone_not_brings (hquiet.2 task (List.mem_of_getElem? htask)))

end Runs

-- ---------------------------------------------------------------------------
-- Two runs
-- ---------------------------------------------------------------------------

/-- What the refresh is about to write is what MPD has. -/
def Point.isCurrent (name : List Char) (server : Server) : Point → Bool
  | .queueBuilt envelope => envelope = server.envelope
  | .indexBuilt rows => rows = indexRows server
  | .favouritesRead uris | .favouritesListed uris => uris = favouriteUris name server
  | _ => true

/-- Every refresh is answered and writes what MPD has. -/
def isClean (device : Device ρ ε) (s : Mirrors ρ ε) : Act ρ ε → Bool
  | .run i fate =>
    match s.tasks[i]? with
    | some (.refresh point _) => served fate && point.isCurrent device.favouritesName s.server
    | _ => true
  | .wake _ connected => connected
  | _ => true

theorem Point.isCurrent.not_overwrites {point : Point} (h : point.isCurrent name server) :
    ¬point.Overwrites name server cell := by
  cases point with
  | queueBuilt envelope =>
    cases cell with
    | queue => exact not_not.mpr (of_decide_eq_true h)
    | _ => exact id
  | indexBuilt rows =>
    cases cell with
    | index => exact not_not.mpr (of_decide_eq_true h)
    | _ => exact id
  | favouritesRead uris =>
    cases cell with
    | membership => exact not_not.mpr (congrArg List.toFinset (of_decide_eq_true h))
    | _ => exact id
  | favouritesListed uris =>
    cases cell with
    | favourites => exact not_not.mpr (of_decide_eq_true h)
    | _ => exact id
  | _ => cases cell <;> exact id

theorem undisturbed_of_isClean (device : Device ρ ε) (s : Mirrors ρ ε) (act : Act ρ ε)
    (h : isClean device s act = true) : Undisturbed device s act := by
  cases act with
  | run i fate =>
    intro point next hi cell
    simp only [isClean, hi, Bool.and_eq_true] at h
    obtain ⟨hserved, hcurrent⟩ := h
    refine ⟨fun hover => absurd hover (Point.isCurrent.not_overwrites hcurrent), ?_⟩
    intro _ hunserved
    cases hserved.symm.trans hunserved
  | wake order connected =>
    intro hfalse
    cases hfalse.symm.trans h
  | _ => trivial

/-- The songs of `twoArtists`, and no favourites yet. -/
def twoSongs : Server :=
  .idle (.files twoArtists.songs twoArtists.distinct twoArtists.leaf twoArtists.named)

def favouritesDevice : Device (List (List Char)) FavouritesError :=
  ⟨"__favourites__".toList, .done (.ok ())⟩

abbrev FavouritesAct := Act (List (List Char)) FavouritesError

/-- The warm start, then a verb that adds a favourite and reads it back. -/
def favouriteAdded : List FavouritesAct :=
  List.replicate 9 (.run 1 .serve) ++
    .call (handleAddFavourite "__favourites__".toList favouritesPayloadVersion "a.flac".toList) ::
      List.replicate 3 (.run 2 .serve)

/-- The verb writes what it has read, then the observer does. -/
def inTurn : List FavouritesAct :=
  favouriteAdded ++ List.replicate 2 (.run 2 .serve) ++
    .wake [.storedPlaylist] true :: List.replicate 6 (.run 0 .serve)

theorem mirrors_converge_in_turn :
    ∃ s, Machine.exec (step favouritesDevice) (start favouritesDevice twoSongs) inTurn = some s ∧
      s.Quiet ∧ ∀ cell, s.mirror.Shows "__favourites__".toList s.server cell := by
  have hclean : Machine.Meets (step favouritesDevice)
      (fun s act => isClean favouritesDevice s act = true) (start favouritesDevice twoSongs)
      inTurn := by decide
  obtain ⟨s, he, hend⟩ := Machine.exec_of_any (step favouritesDevice)
    (start favouritesDevice twoSongs) inTurn
    (fun s => decide s.Quiet) (by decide)
  have hquiet : s.Quiet := of_decide_eq_true hend
  exact ⟨s, he, hquiet, mirrors_converge favouritesDevice twoSongs inTurn
    (hclean.imp (undisturbed_of_isClean favouritesDevice)) he hquiet⟩

/-- Another client adds a favourite after the verb has read, and the observer has
written both before the verb writes the one it has read. -/
def overtaken : List FavouritesAct :=
  favouriteAdded ++
    .client (fun server =>
      (answer .serve (Server.playlistadd "__favourites__".toList "b.flac".toList) server).2) ::
    .wake [.storedPlaylist] true :: List.replicate 6 (.run 0 .serve) ++
    List.replicate 2 (.run 2 .serve)

theorem favourite_lost :
    ∃ s, Machine.exec (step favouritesDevice) (start favouritesDevice twoSongs) overtaken = some s ∧
      s.Quiet ∧ favouriteUris "__favourites__".toList s.server =
        ["a.flac".toList, "b.flac".toList] ∧
      s.mirror.membership = {"a.flac".toList} ∧
      ¬s.mirror.Shows "__favourites__".toList s.server .membership := by
  obtain ⟨s, he, hend⟩ := Machine.exec_of_any (step favouritesDevice)
    (start favouritesDevice twoSongs) overtaken
    (fun s => decide (s.Quiet ∧
      favouriteUris "__favourites__".toList s.server = ["a.flac".toList, "b.flac".toList] ∧
      s.mirror.membership = {"a.flac".toList})) (by decide)
  obtain ⟨hquiet, huris, hmembership⟩ := of_decide_eq_true hend
  refine ⟨s, he, hquiet, huris, hmembership, ?_⟩
  intro hshows
  have hsame := hmembership.symm.trans hshows
  rw [huris] at hsame
  exact absurd hsame (by decide)

end EvoAudio.Playback.Mirroring
