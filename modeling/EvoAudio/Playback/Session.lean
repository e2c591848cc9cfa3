import EvoAudio.Lib.Procedure
import EvoAudio.Playback.Server

/-!
# The shelf connection and the queue mirror

The queue verbs of `playback.mpd/src/queue.rs` drive MPD over one connection.
A `Link` says what becomes of every command they send: MPD serves it, refuses
it, or serves it while its reply is lost. `publish_queue` copies the queue into
the mirror that `queue.get_queue` answers from.
-/

namespace EvoAudio.Playback

open Mpd (MpdError)

/-- The commands that are sent in a command list. -/
inductive Batched where
  | clear
  | add (uri : List Char)
  | findadd (pairs : List (String × List Char))
  | searchadd (pairs : List (String × List Char))
  | playPosition (position : Nat)
  | playlistadd (name uri : List Char)
  | searchaddpl (name : List Char) (pairs : List (String × List Char))
  | playlistdelete (name : List Char) (position : Nat)
  deriving DecidableEq, Repr

inductive Command where
  | playlistinfo
  | status
  | currentsong
  | clear
  | stop
  | play
  | playPosition (position : Nat)
  | pause (paused : Bool)
  | add (uri : List Char)
  | addid (uri : List Char) (position : Option Nat)
  | addtagid (id : Nat) (tag : String) (value : List Char)
  | deleteid (id : Nat)
  | moveid (id position : Nat)
  | listplaylistinfo (name : List Char)
  | listTag (tag : String)
  | find (pairs : List (String × List Char))
  | search (pairs : List (String × List Char))
  | count (pairs : List (String × List Char))
  | findadd (pairs : List (String × List Char))
  | searchadd (pairs : List (String × List Char))
  | listallinfo (path : List Char)
  | commandList (batch : List Batched)
  | lsinfo (dir : List Char)
  | listplaylists
  | playlistFileCounts (names : List (List Char))
  | playlistadd (name uri : List Char)
  | playlistdelete (name : List Char) (position : Nat)
  | playlistclear (name : List Char)
  | playlistmove (name : List Char) (source target : Nat)
  | rename (source target : List Char)
  | rm (name : List Char)
  | save (name : List Char)
  deriving DecidableEq, Repr

/-- What becomes of a command. A refused command list has run that many of its
commands; any other refused command has not run. -/
inductive Fate where
  | serve
  | refuse (executed : Nat) (error : MpdError)
  | lose (error : MpdError)

/-- The fate of the command sent after so many others. -/
abbrev Link := Nat → Command → Fate

/-- One row of the `audio_queue` envelope. -/
abbrev Item := MpdQueueItem

/-- The `audio_queue` envelope. -/
structure Envelope where
  items : List Item
  length : Nat
  currentPosition : Option Nat
  truncated : Bool
  deriving DecidableEq, Repr

structure Session where
  server : Server
  mirror : Option Envelope
  /-- The commands sent so far, the newest first, and whether they were answered. -/
  log : List (Command × Bool)

/-- Why a `dlna:` URI could not be turned into a stream. -/
inductive DlnaFault where
  | malformed
  | noDispatcher
  | dispatch (reason : String)
  | parse (reason : String)
  | missingUri
  | notHttp (uri : List Char)
  deriving DecidableEq, Repr

inductive Reason where
  | mpd (error : MpdError)
  | step (what : String) (error : MpdError)
  | dlna (uri : List Char) (fault : DlnaFault)
  | source (message : String) (sourceId : List Char)
  | listing (dir : List Char) (error : MpdError)
  | text (message : String)
  deriving DecidableEq, Repr

inductive VerbError where
  | payloadVersion (verb : String) (got expected : Nat)
  | emptyUris
  | queueEmpty
  | positionOutOfRange (position length : Nat)
  | mpd (verb : String) (reason : Reason)
  deriving DecidableEq, Repr

-- ---------------------------------------------------------------------------
-- Sending commands
-- ---------------------------------------------------------------------------

def dispatch (link : Link) (command : Command) (effect : Server → Except MpdError (α × Server)) :
    Procedure Session MpdError α := fun s =>
  let answered (yes : Bool) (server : Server) : Session :=
    ⟨server, s.mirror, (command, yes) :: s.log⟩
  match link s.log.length command, effect s.server with
  | .serve, .ok (a, server) => (.ok a, answered true server)
  | .serve, .error error => (.error error, answered false s.server)
  | .refuse _ error, _ => (.error error, answered false s.server)
  | .lose error, .ok (_, server) => (.error error, answered false server)
  | .lose _, .error error => (.error error, answered false s.server)

def read (f : Server → α) (server : Server) : Except MpdError (α × Server) := .ok (f server, server)

section Commands

variable (link : Link)

def playlistinfo := dispatch link .playlistinfo (read Server.playlistinfo)
def status := dispatch link .status (read Server.status)
def currentSong := dispatch link .currentsong (read Server.current)
def clear := dispatch link .clear Server.clear
def stop := dispatch link .stop Server.stop
def play := dispatch link .play Server.play
def playPosition (position : Nat) :=
  dispatch link (.playPosition position) (Server.playPosition position)
def pause (paused : Bool) := dispatch link (.pause paused) (Server.pause paused)
def add (uri : List Char) := dispatch link (.add uri) (Server.add uri)
def addid (uri : List Char) (position : Option Nat) :=
  dispatch link (.addid uri position) (Server.addid uri position)
def addtagid (id : Nat) (tag : String) (value : List Char) :=
  dispatch link (.addtagid id tag value) (Server.addtagid id)
def deleteid (id : Nat) := dispatch link (.deleteid id) (Server.deleteid id)
def moveid (id position : Nat) := dispatch link (.moveid id position) (Server.moveid id position)
def listplaylistinfo (name : List Char) :=
  dispatch link (.listplaylistinfo name) (Server.listplaylistinfo name)
def findadd (pairs : List (String × List Char)) : Procedure Session MpdError Unit :=
  if pairs.isEmpty then return else dispatch link (.findadd pairs) (Server.findadd pairs)
def searchadd (pairs : List (String × List Char)) : Procedure Session MpdError Unit :=
  if pairs.isEmpty then return else dispatch link (.searchadd pairs) (Server.searchadd pairs)
def lsinfo (dir : List Char) := dispatch link (.lsinfo dir) (Server.lsinfo dir)
def listplaylists := dispatch link .listplaylists (read Server.listplaylists)
def playlistFileCounts (names : List (List Char)) : Procedure Session MpdError (List (Option Nat)) :=
  if names.isEmpty then return []
  else dispatch link (.playlistFileCounts names) (Server.playlistFileCounts names)
def playlistadd (name uri : List Char) :=
  dispatch link (.playlistadd name uri) (Server.playlistadd name uri)
def playlistdelete (name : List Char) (position : Nat) :=
  dispatch link (.playlistdelete name position) (Server.playlistdelete name position)
def playlistclear (name : List Char) :=
  dispatch link (.playlistclear name) (Server.playlistclear name)
def playlistmove (name : List Char) (source target : Nat) :=
  dispatch link (.playlistmove name source target) (Server.playlistmove name source target)
def renamePlaylist (source target : List Char) :=
  dispatch link (.rename source target) (Server.rename source target)
def rmPlaylist (name : List Char) := dispatch link (.rm name) (Server.rm name)
def savePlaylist (name : List Char) := dispatch link (.save name) (Server.save name)

end Commands

def Batched.effect : Batched → Server → Except MpdError (Unit × Server)
  | .clear => Server.clear
  | .add uri => Server.add uri
  | .findadd pairs => Server.findadd pairs
  | .searchadd pairs => Server.searchadd pairs
  | .playPosition position => Server.playPosition position
  | .playlistadd name uri => Server.playlistadd name uri
  | .searchaddpl name pairs => Server.searchaddpl name pairs
  | .playlistdelete name position => Server.playlistdelete name position

/-- MPD runs a command list in order and stops at the first command it refuses.
What ran before stays. -/
def runBatch : List Batched → Server → Except MpdError Unit × Server
  | [], server => (.ok (), server)
  | command :: batch, server =>
    match command.effect server with
    | .ok ((), server) => runBatch batch server
    | .error error => (.error error, server)

def commandList (link : Link) (batch : List Batched) : Procedure Session MpdError Unit := fun s =>
  if batch = [] then (.ok (), s)
  else
    let answered (yes : Bool) (server : Server) : Session :=
      ⟨server, s.mirror, (.commandList batch, yes) :: s.log⟩
    match link s.log.length (.commandList batch) with
    | .serve =>
      match runBatch batch s.server with
      | (.ok (), server) => (.ok (), answered true server)
      | (.error error, server) => (.error error, answered false server)
    | .refuse executed error =>
      (.error error, answered false (runBatch (batch.take executed) s.server).2)
    | .lose error => (.error error, answered false (runBatch batch s.server).2)

/-- `.map_err(|e| VerbError::Mpd { .. })` -/
def verbMpd (verb : String) (act : Procedure Session MpdError α) : Procedure Session VerbError α :=
  act.mapError fun error => .mpd verb (.mpd error)

def verbStep (verb what : String) (act : Procedure Session MpdError α) :
    Procedure Session VerbError α :=
  act.mapError fun error => .mpd verb (.step what error)

-- ---------------------------------------------------------------------------
-- The mirror
-- ---------------------------------------------------------------------------

def queueTruncationDefault : Nat := 500

/-- The envelope of a queue listing and a player status. -/
def renderEnvelope (items : List MpdQueueItem) (status : MpdStatus) : Envelope where
  items := items.take queueTruncationDefault
  length := items.length
  currentPosition := status.songPosition
  truncated := items.length > queueTruncationDefault

def buildEnvelope (link : Link) : Procedure Session MpdError Envelope := do
  let items ← playlistinfo link
  let status ← status link
  return renderEnvelope items status

/-- A mirror that could not be rebuilt is left as it was. -/
def publishQueue (link : Link) : Procedure Session VerbError Unit := do
  match ← (buildEnvelope link).attempt with
  | .ok envelope => .modify fun s => { s with mirror := some envelope }
  | .error _ => return

/-- The player is read for the now-playing subject. -/
def publishNowPlayingAfterTransport (link : Link) : Procedure Session VerbError Unit := do
  match ← (status link).attempt with
  | .error _ => return
  | .ok _ =>
    let _ ← (currentSong link).attempt
    return

/-- Where a `Next` insert goes: after the current song, at the end without one. -/
def nextInsertPosition (link : Link) (verb : String) : Procedure Session VerbError (Option Nat) := do
  let status ← verbMpd verb (status link)
  return status.songPosition.map (· + 1)

-- ---------------------------------------------------------------------------
-- What a command can do
-- ---------------------------------------------------------------------------

open Procedure (Triple)

variable {link : Link} {s : Session}

/-- The session after a command that left MPD as it was. -/
def Session.sent (s : Session) (command : Command) (answered : Bool) : Session :=
  ⟨s.server, s.mirror, (command, answered) :: s.log⟩

@[simp] theorem Session.sent_server : (s.sent command answered).server = s.server := rfl
@[simp] theorem Session.sent_mirror : (s.sent command answered).mirror = s.mirror := rfl
@[simp] theorem Session.sent_log :
    (s.sent command answered).log = (command, answered) :: s.log := rfl

theorem run_verbMpd {act : Procedure Session MpdError α} (h : act s = (r, s')) :
    verbMpd verb act s = (r.mapError fun error => .mpd verb (.mpd error), s') :=
  Procedure.run_mapError h

theorem run_verbStep {act : Procedure Session MpdError α} (h : act s = (r, s')) :
    verbStep verb what act s = (r.mapError fun error => .mpd verb (.step what error), s') :=
  Procedure.run_mapError h

section

variable {command : Command} {effect : Server → Except MpdError (α × Server)}

theorem dispatch_served (hlink : link s.log.length command = .serve)
    (heffect : effect s.server = .ok (a, server)) :
    dispatch link command effect s =
      (.ok a, ⟨server, s.mirror, (command, true) :: s.log⟩) := by
  simp [dispatch, hlink, heffect]

theorem dispatch_acked (hlink : link s.log.length command = .serve)
    (heffect : effect s.server = .error error) :
    dispatch link command effect s = (.error error, s.sent command false) := by
  simp [dispatch, hlink, heffect, Session.sent]

theorem dispatch_refused (hlink : link s.log.length command = .refuse executed error) :
    dispatch link command effect s = (.error error, s.sent command false) := by
  simp [dispatch, hlink, Session.sent]

theorem dispatch_unanswered (hlink : link s.log.length command = .lose error)
    (heffect : effect s.server = .ok (a, server)) :
    dispatch link command effect s =
      (.error error, ⟨server, s.mirror, (command, false) :: s.log⟩) := by
  simp [dispatch, hlink, heffect]

end

/-- A command that succeeds was served. One that fails has changed nothing, unless
MPD ran it and its reply was lost. -/
theorem dispatch_fate (link : Link) (command : Command)
    (effect : Server → Except MpdError (α × Server)) (s : Session) :
    Triple (dispatch link command effect) s
      (fun a s' => link s.log.length command = .serve ∧ effect s.server = .ok (a, s'.server) ∧
        s'.mirror = s.mirror ∧ s'.log = (command, true) :: s.log)
      (fun _ s' =>
        ((s'.server = s.server ∧ ((∃ error, effect s.server = .error error) ∨
          ∃ executed error, link s.log.length command = .refuse executed error)) ∨
        ∃ error a, link s.log.length command = .lose error ∧
          effect s.server = .ok (a, s'.server)) ∧
        s'.mirror = s.mirror ∧ s'.log = (command, false) :: s.log) := by
  unfold Triple dispatch
  cases link s.log.length command with
  | serve =>
    cases h : effect s.server with
    | ok result => exact ⟨rfl, rfl, rfl, rfl⟩
    | error error => exact ⟨.inl ⟨rfl, .inl ⟨error, rfl⟩⟩, rfl, rfl⟩
  | refuse executed error => exact ⟨.inl ⟨rfl, .inr ⟨executed, error, rfl⟩⟩, rfl, rfl⟩
  | lose error =>
    cases h : effect s.server with
    | ok result => exact ⟨.inr ⟨error, result.1, rfl, rfl⟩, rfl, rfl⟩
    | error error => exact ⟨.inl ⟨rfl, .inl ⟨error, rfl⟩⟩, rfl, rfl⟩

theorem dispatch_run (link : Link) (command : Command)
    (effect : Server → Except MpdError (α × Server)) (s : Session) :
    Triple (dispatch link command effect) s
      (fun a s' => effect s.server = .ok (a, s'.server) ∧ s'.mirror = s.mirror ∧
        s'.log = (command, true) :: s.log)
      (fun _ s' => (s'.server = s.server ∨ ∃ a, effect s.server = .ok (a, s'.server)) ∧
        s'.mirror = s.mirror ∧ s'.log = (command, false) :: s.log) := by
  refine (dispatch_fate link command effect s).mono (fun _ _ h => h.2) ?_
  rintro _ s' ⟨⟨hserver, -⟩ | ⟨error, a, -, heffect⟩, hrest⟩
  · exact ⟨.inl hserver, hrest⟩
  · exact ⟨.inr ⟨a, heffect⟩, hrest⟩

theorem dispatch_read_run (link : Link) (command : Command) (f : Server → α) (s : Session) :
    Triple (dispatch link command (read f)) s
      (fun a s' => a = f s.server ∧ s' = s.sent command true)
      (fun _ s' => s' = s.sent command false) := by
  refine (dispatch_run link command (read f) s).mono ?_ ?_
  · rintro a ⟨server, mirror, log⟩ ⟨hread, rfl, rfl⟩
    cases hread
    exact ⟨rfl, rfl⟩
  · rintro e ⟨server, mirror, log⟩ ⟨hserver | ⟨a, hread⟩, rfl, rfl⟩
    · cases hserver
      rfl
    · cases hread
      rfl

/-- A command that reads or is refused on account of what it reads. -/
theorem dispatch_same_run (link : Link) (command : Command)
    {effect : Server → Except MpdError (α × Server)} (s : Session)
    (heffect : ∀ a server, effect s.server = .ok (a, server) → server = s.server) :
    Triple (dispatch link command effect) s
      (fun a s' => effect s.server = .ok (a, s.server) ∧ s'.server = s.server ∧
        s'.mirror = s.mirror)
      (fun _ s' => s'.server = s.server ∧ s'.mirror = s.mirror) := by
  refine (dispatch_run link command effect s).mono ?_ ?_
  · rintro a s' ⟨heff, hmirror, -⟩
    have hserver := heffect _ _ heff
    exact ⟨hserver ▸ heff, hserver, hmirror⟩
  · rintro e s' ⟨hserver | ⟨a, heff⟩, hmirror, -⟩
    · exact ⟨hserver, hmirror⟩
    · exact ⟨heffect _ _ heff, hmirror⟩

/-- The envelope of the queue as MPD has it. -/
def Server.envelope (server : Server) : Envelope := renderEnvelope server.playlistinfo server.status

/-- The last command sent was a read for the mirror, and it was not answered. -/
def Session.Unread (s : Session) : Prop :=
  s.log.head? = some (.playlistinfo, false) ∨ s.log.head? = some (.status, false)

/-- A publish copies the queue MPD has, or leaves the mirror alone when one of
its reads was not answered. -/
theorem publishQueue_run (link : Link) (s : Session) :
    Triple (publishQueue link) s
      (fun _ s' => s'.server = s.server ∧
        (s'.mirror = some s.server.envelope ∨ s'.mirror = s.mirror ∧ s'.Unread))
      (fun _ _ => False) := by
  have hbuild : Triple (buildEnvelope link) s
      (fun envelope s' => envelope = s.server.envelope ∧ s'.server = s.server)
      (fun _ s' => s'.server = s.server ∧ s'.mirror = s.mirror ∧ s'.Unread) := by
    refine .bind ((dispatch_read_run link _ _ s).mono (fun _ _ h => h) ?_) ?_
    · rintro e _ rfl
      exact ⟨rfl, rfl, .inl rfl⟩
    · rintro items _ ⟨rfl, rfl⟩
      refine .bind ((dispatch_read_run link _ _ _).mono (fun _ _ h => h) ?_) ?_
      · rintro e _ rfl
        exact ⟨rfl, rfl, .inr rfl⟩
      · rintro status _ ⟨rfl, rfl⟩
        exact .pure ⟨rfl, rfl⟩
  refine .bind (hbuild.attempt
    (R := fun r s' => s'.server = s.server ∧
      match r with
      | .ok envelope => envelope = s.server.envelope
      | .error _ => s'.mirror = s.mirror ∧ s'.Unread) ?_ ?_) ?_
  · rintro envelope s' ⟨rfl, hserver⟩
    exact ⟨hserver, rfl⟩
  · rintro e s' ⟨hserver, hmirror⟩
    exact ⟨hserver, hmirror⟩
  · rintro (e | envelope) s' ⟨hserver, hr⟩
    · exact ⟨hserver, .inr hr⟩
    · exact ⟨hserver, .inl (congrArg some hr)⟩

theorem publishNowPlaying_run (link : Link) (s : Session) :
    Triple (publishNowPlayingAfterTransport link) s
      (fun _ s' => s'.server = s.server ∧ s'.mirror = s.mirror) (fun _ _ => False) := by
  have hread {α : Type} (command : Command) (f : Server → α) (s : Session) :
      Triple ((dispatch link command (read f)).attempt : Procedure Session VerbError _) s
        (fun _ s' => s'.server = s.server ∧ s'.mirror = s.mirror) (fun _ _ => False) := by
    refine (dispatch_read_run link command f s).attempt ?_ ?_
    · rintro a _ ⟨-, rfl⟩
      exact ⟨rfl, rfl⟩
    · rintro e _ rfl
      exact ⟨rfl, rfl⟩
  refine .bind (hread _ _ s) ?_
  rintro (e | status) s' ⟨hserver, hmirror⟩
  · exact .pure ⟨hserver, hmirror⟩
  · refine .bind (hread _ _ s') ?_
    rintro _ s'' ⟨hserver', hmirror'⟩
    exact .pure ⟨hserver'.trans hserver, hmirror'.trans hmirror⟩

end EvoAudio.Playback
