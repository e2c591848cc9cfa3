import EvoAudio.Mpd.Framing
import Mathlib.Data.List.Nodup

/-!
# MPD as the plugin's commands see it

The state of the MPD server that the queue verbs read and change: the queue,
the player, the song database and the stored playlists, with the effect of each
command. A command that MPD itself refuses answers with an `ACK`.
-/

namespace EvoAudio.Playback

open Mpd (MpdError)

/-- `queue_path_is_under`: the path is the prefix itself or sits beneath it. -/
def queuePathIsUnder (filePath pre : List Char) : Bool :=
  match Text.stripPrefix pre filePath with
  | some rest => rest.isEmpty || rest.head? == some '/'
  | none => false

-- ---------------------------------------------------------------------------
-- The queue
-- ---------------------------------------------------------------------------

structure Row where
  id : Nat
  uri : List Char
  deriving DecidableEq, Repr

/-- The rows in playing order. Song ids are handed out once. -/
structure Queue where
  rows : List Row
  nextId : Nat
  distinct : (rows.map Row.id).Nodup
  fresh : ∀ row ∈ rows, row.id < nextId
  deriving DecidableEq

namespace Queue

def empty : Queue := ⟨[], 0, by simp, by simp⟩

theorem insert_perm (rows : List Row) (position : Nat) (row : Row) :
    (rows.take position ++ row :: rows.drop position).Perm (row :: rows) := by
  have h := @List.perm_middle _ row (rows.take position) (rows.drop position)
  rwa [List.take_append_drop] at h

def insert (queue : Queue) (position : Nat) (uri : List Char) : Queue where
  rows := queue.rows.take position ++ ⟨queue.nextId, uri⟩ :: queue.rows.drop position
  nextId := queue.nextId + 1
  distinct := by
    rw [((insert_perm queue.rows position _).map Row.id).nodup_iff, List.map_cons, List.nodup_cons]
    refine ⟨fun hmem => ?_, queue.distinct⟩
    obtain ⟨row, hrow, hid⟩ := List.mem_map.mp hmem
    exact Nat.ne_of_lt (queue.fresh row hrow) hid
  fresh := by
    intro row hrow
    rcases List.mem_cons.mp ((insert_perm queue.rows position _).mem_iff.mp hrow) with rfl | hrow
    · exact Nat.lt_succ_self _
    · exact Nat.lt_succ_of_lt (queue.fresh row hrow)

def append (queue : Queue) : List (List Char) → Queue
  | [] => queue
  | uri :: uris => (queue.insert queue.rows.length uri).append uris

def remove (queue : Queue) (id : Nat) : Queue where
  rows := queue.rows.filter (·.id != id)
  nextId := queue.nextId
  distinct := queue.distinct.sublist (List.filter_sublist.map _)
  fresh row hrow := queue.fresh row (List.mem_filter.mp hrow).1

/-- The row moves to a position counted without it. -/
def move (queue : Queue) (row : Row) (hrow : row ∈ queue.rows) (position : Nat) : Queue where
  rows := (queue.remove row.id).rows.take position ++ row :: (queue.remove row.id).rows.drop position
  nextId := queue.nextId
  distinct := by
    rw [((insert_perm (queue.remove row.id).rows position row).map Row.id).nodup_iff, List.map_cons,
      List.nodup_cons]
    refine ⟨fun hmem => ?_, (queue.remove row.id).distinct⟩
    obtain ⟨other, hother, hid⟩ := List.mem_map.mp hmem
    exact absurd hid (by simpa using (List.mem_filter.mp hother).2)
  fresh := by
    intro other hother
    rcases List.mem_cons.mp
      ((insert_perm (queue.remove row.id).rows position row).mem_iff.mp hother) with rfl | hother
    · exact queue.fresh _ hrow
    · exact (queue.remove row.id).fresh other hother

def clear (queue : Queue) : Queue := ⟨[], queue.nextId, by simp, by simp⟩

end Queue

-- ---------------------------------------------------------------------------
-- The song database
-- ---------------------------------------------------------------------------

/-- The songs MPD knows, with its exact (`find`) and substring (`search`)
matching of one tag and the values it lists for a tag. `streams` are the URIs
outside the database that MPD can play. No song is a directory of another one. -/
structure Library where
  songs : List (List Char)
  finds : List Char → String × List Char → Bool
  searches : List Char → String × List Char → Bool
  values : String → List (List Char)
  streams : List Char → Bool
  distinct : songs.Nodup
  leaf : ∀ song ∈ songs, ∀ other ∈ songs, queuePathIsUnder other song → other = song
  named : [] ∉ songs
  outside : ∀ uri, streams uri → uri ≠ [] ∧ ∀ song ∈ songs, queuePathIsUnder song uri = false

namespace Library

/-- A database of files without tags. -/
def files (songs : List (List Char)) (distinct : songs.Nodup)
    (leaf : ∀ song ∈ songs, ∀ other ∈ songs, queuePathIsUnder other song → other = song)
    (named : [] ∉ songs) : Library where
  songs
  finds _ _ := false
  searches _ _ := false
  values _ := []
  streams _ := false
  distinct
  leaf
  named
  outside := by simp

def find (library : Library) (pairs : List (String × List Char)) : List (List Char) :=
  library.songs.filter fun song => pairs.all (library.finds song)

def search (library : Library) (pairs : List (String × List Char)) : List (List Char) :=
  library.songs.filter fun song => pairs.all (library.searches song)

/-- The songs under a directory, all of them for the empty path. A path with no
songs is not in the database. -/
def listallinfo (library : Library) (path : List Char) : Option (List (List Char)) :=
  if path = [] then some library.songs
  else
    match library.songs.filter (queuePathIsUnder · path) with
    | [] => none
    | songs => some songs

/-- What `add` puts in the queue: a song, everything under a directory, or a
stream. -/
def add (library : Library) (uri : List Char) : Option (List (List Char)) :=
  match library.listallinfo uri with
  | some songs => some songs
  | none => if library.streams uri then some [uri] else none

def playable (library : Library) (uri : List Char) : Bool :=
  library.songs.contains uri || library.streams uri

theorem listallinfo_named {library : Library} {found : List (List Char)}
    (h : library.listallinfo path = some found) : [] ∉ found := by
  unfold listallinfo at h
  split at h
  · cases h
    exact library.named
  · split at h
    next => cases h
    next heq =>
      cases h
      intro hempty
      exact library.named (List.mem_filter.mp hempty).1

theorem add_named {library : Library} {found : List (List Char)}
    (h : library.add uri = some found) : [] ∉ found := by
  unfold add at h
  split at h
  next heq =>
    cases h
    exact listallinfo_named heq
  next =>
    split at h
    next hstream =>
      cases h
      simpa using (library.outside uri hstream).1.symm
    next => cases h

theorem search_named {library : Library} : [] ∉ library.search pairs :=
  fun h => library.named (List.mem_filter.mp h).1

end Library

/-- A line of a directory listing. -/
inductive DirEntry where
  | directory (path : List Char)
  | file (path : List Char)
  deriving DecidableEq, Repr

namespace DirEntry

def file? : DirEntry → Option (List Char)
  | .file path => some path
  | .directory _ => none

def directory? : DirEntry → Option (List Char)
  | .directory path => some path
  | .file _ => none

end DirEntry

/-- The rest of a path behind a directory. The empty path is the root. -/
def beneath (dir path : List Char) : Option (List Char) :=
  if dir = [] then some path
  else
    match Text.stripPrefix dir path with
    | some [] => some []
    | some ('/' :: rest) => some rest
    | _ => none

/-- The line of a directory listing a song is seen by: its own, or that of the
directory on the way to it. -/
def lsinfoEntry (dir song : List Char) : Option DirEntry :=
  (beneath dir song).map fun rest =>
    match Text.splitOnce ['/'] rest with
    | none => .file song
    | some (head, _) => .directory (if dir = [] then head else dir ++ '/' :: head)

def Library.lsinfo (library : Library) (dir : List Char) : Option (List DirEntry) :=
  match (library.songs.filterMap (lsinfoEntry dir)).eraseDups with
  | [] => if dir = [] then some [] else none
  | entries => some entries

-- ---------------------------------------------------------------------------
-- The server
-- ---------------------------------------------------------------------------

inductive PlayState where
  | playing
  | paused
  | stopped
  deriving DecidableEq, Repr

structure Server where
  queue : Queue
  state : PlayState
  /-- The song id of the current row. -/
  current : Option Nat
  library : Library
  playlists : List (List Char × List (List Char))
  entries : ∀ playlist ∈ playlists, [] ∉ playlist.2

structure MpdStatus where
  state : PlayState
  songPosition : Option Nat
  deriving DecidableEq, Repr

structure MpdQueueItem where
  position : Nat
  id : Nat
  filePath : List Char
  deriving DecidableEq, Repr

/-- `ACK [50@0]`: no such song, directory or playlist. -/
def noExist : MpdError := .ack 50 0 [] []

/-- `ACK [2@0]`: bad song index. -/
def badSongIndex : MpdError := .ack 2 0 [] []

/-- `ACK [56@0]`: the playlist exists already. -/
def playlistExists : MpdError := .ack 56 0 [] []

/-- What `playlistclear` answers for a playlist there is not. -/
def noSuchPlaylist : MpdError :=
  .ack 50 0 "playlistclear".toList "No such playlist".toList

namespace Server

theorem no_playlists : ∀ playlist ∈ ([] : List (List Char × List (List Char))), [] ∉ playlist.2 :=
  fun _ h => (nomatch h)

/-- A server with an empty queue and no playlists. -/
def idle (library : Library) : Server := ⟨.empty, .stopped, none, library, [], no_playlists⟩

def playlistinfo (server : Server) : List MpdQueueItem :=
  server.queue.rows.mapIdx fun position row => ⟨position, row.id, row.uri⟩

def status (server : Server) : MpdStatus :=
  ⟨server.state, server.current.bind fun id => server.queue.rows.findIdx? (·.id == id)⟩

def addid (uri : List Char) (position : Option Nat) (server : Server) :
    Except MpdError (Nat × Server) :=
  let position := position.getD server.queue.rows.length
  if !server.library.playable uri then .error noExist
  else if position > server.queue.rows.length then .error badSongIndex
  else .ok (server.queue.nextId, { server with queue := server.queue.insert position uri })

def add (uri : List Char) (server : Server) : Except MpdError (Unit × Server) :=
  match server.library.add uri with
  | some songs => .ok ((), { server with queue := server.queue.append songs })
  | none => .error noExist

def findadd (pairs : List (String × List Char)) (server : Server) : Except MpdError (Unit × Server) :=
  .ok ((), { server with queue := server.queue.append (server.library.find pairs) })

def searchadd (pairs : List (String × List Char)) (server : Server) :
    Except MpdError (Unit × Server) :=
  .ok ((), { server with queue := server.queue.append (server.library.search pairs) })

/-- The current row, when it is deleted while playing, gives way to the next. -/
def deleteid (id : Nat) (server : Server) : Except MpdError (Unit × Server) :=
  if server.queue.rows.any (·.id == id) then
    let next := (server.queue.rows.dropWhile (·.id != id)).tail.head?.map Row.id
    let current :=
      if server.current = some id then (if server.state = .playing then next else none)
      else server.current
    .ok ((), { server with queue := server.queue.remove id, current })
  else .error noExist

def moveid (id position : Nat) (server : Server) : Except MpdError (Unit × Server) :=
  match h : server.queue.rows.find? (·.id == id) with
  | none => .error noExist
  | some row =>
    if position ≥ server.queue.rows.length then .error badSongIndex
    else .ok ((), { server with queue := server.queue.move row (List.mem_of_find?_eq_some h) position })

def clear (server : Server) : Except MpdError (Unit × Server) :=
  .ok ((), { server with queue := server.queue.clear, state := .stopped, current := none })

def stop (server : Server) : Except MpdError (Unit × Server) :=
  .ok ((), { server with state := .stopped })

def playPosition (position : Nat) (server : Server) : Except MpdError (Unit × Server) :=
  match server.queue.rows[position]? with
  | some row => .ok ((), { server with state := .playing, current := some row.id })
  | none => .error badSongIndex

/-- `play` without a position goes on where the player stands. -/
def play (server : Server) : Except MpdError (Unit × Server) :=
  match server.queue.rows with
  | [] => .ok ((), server)
  | row :: _ => .ok ((), { server with state := .playing, current := server.current.getD row.id })

def pause (paused : Bool) (server : Server) : Except MpdError (Unit × Server) :=
  .ok ((), { server with state :=
    if server.state = .stopped then .stopped else if paused then .paused else .playing })

/-- Tags are not part of what the verbs read back. -/
def addtagid (id : Nat) (server : Server) : Except MpdError (Unit × Server) :=
  if server.queue.rows.any (·.id == id) then .ok ((), server) else .error noExist

def listplaylistinfo (name : List Char) (server : Server) :
    Except MpdError (List (List Char) × Server) :=
  match server.playlists.lookup name with
  | some entries => .ok (entries, server)
  | none => .error noExist

def listplaylists (server : Server) : List (List Char) := server.playlists.map Prod.fst

/-- The entries behind the position move up. -/
def playlistdelete (name : List Char) (position : Nat) (server : Server) :
    Except MpdError (Unit × Server) :=
  match server.playlists.lookup name with
  | none => .error noExist
  | some entries =>
    if position ≥ entries.length then .error badSongIndex
    else
      .ok ((), { server with
        playlists := server.playlists.map fun playlist =>
          if playlist.1 = name then (name, playlist.2.eraseIdx position) else playlist
        entries := by
          intro playlist hplaylist hempty
          obtain ⟨old, hold, rfl⟩ := List.mem_map.mp hplaylist
          refine server.entries old hold ?_
          split at hempty
          · exact List.mem_of_mem_eraseIdx hempty
          · exact hempty })

-- ---------------------------------------------------------------------------
-- Stored playlists
-- ---------------------------------------------------------------------------

def lsinfo (dir : List Char) (server : Server) :
    Except MpdError (List DirEntry × Server) :=
  match server.library.lsinfo dir with
  | some entries => .ok (entries, server)
  | none => .error noExist

/-- The `file` lines of each of the playlists. -/
def playlistFileCounts (names : List (List Char)) (server : Server) :
    Except MpdError (List (Option Nat) × Server) :=
  match names.mapM fun name => server.playlists.lookup name with
  | some lists => .ok (lists.map fun list => some list.length, server)
  | none => .error noExist

/-- The playlist has these entries from now on. -/
def putPlaylist (server : Server) (name : List Char) (list : List (List Char)) (named : [] ∉ list) :
    Server :=
  { server with
    playlists := (name, list) :: server.playlists.filter (·.1 != name)
    entries := by
      intro playlist hplaylist
      rcases List.mem_cons.mp hplaylist with rfl | hplaylist
      · exact named
      · exact server.entries playlist (List.mem_filter.mp hplaylist).1 }

def rm (name : List Char) (server : Server) : Except MpdError (Unit × Server) :=
  match server.playlists.lookup name with
  | none => .error noExist
  | some _ =>
    .ok ((), { server with
      playlists := server.playlists.filter (·.1 != name)
      entries := fun playlist hplaylist =>
        server.entries playlist (List.mem_filter.mp hplaylist).1 })

theorem lookup_named (server : Server) (name : List Char) :
    [] ∉ (server.playlists.lookup name).getD [] := by
  cases h : server.playlists.lookup name with
  | none => simp
  | some list =>
    obtain ⟨before, after, hsplit, -⟩ := List.lookup_eq_some_iff.mp h
    refine server.entries (name, list) ?_
    rw [hsplit]
    exact List.mem_append_right _ (List.mem_cons_self ..)

/-- A playlist there is not is made. -/
def appendToPlaylist (name : List Char) (list : List (List Char)) (named : [] ∉ list)
    (server : Server) : Server :=
  server.putPlaylist name ((server.playlists.lookup name).getD [] ++ list) fun h =>
    (List.mem_append.mp h).elim (server.lookup_named name) named

def playlistadd (name uri : List Char) (server : Server) : Except MpdError (Unit × Server) :=
  match h : server.library.add uri with
  | some songs => .ok ((), server.appendToPlaylist name songs (Library.add_named h))
  | none => .error noExist

def searchaddpl (name : List Char) (pairs : List (String × List Char)) (server : Server) :
    Except MpdError (Unit × Server) :=
  .ok ((), server.appendToPlaylist name (server.library.search pairs) Library.search_named)

def playlistclear (name : List Char) (server : Server) : Except MpdError (Unit × Server) :=
  match server.playlists.lookup name with
  | none => .error noSuchPlaylist
  | some _ => .ok ((), server.putPlaylist name [] (List.not_mem_nil))

/-- The entry moves to a position counted without it. -/
def playlistmove (name : List Char) (source target : Nat) (server : Server) :
    Except MpdError (Unit × Server) :=
  match h : server.playlists.lookup name with
  | none => .error noExist
  | some list =>
    match hentry : list[source]? with
    | none => .error badSongIndex
    | some entry =>
      if target ≥ list.length then .error badSongIndex
      else
        .ok ((), server.putPlaylist name ((list.eraseIdx source).insertIdx target entry) (by
          intro hmem
          have hnamed := server.lookup_named name
          rw [h] at hnamed
          rcases List.eq_or_mem_of_mem_insertIdx hmem with heq | hmem
          · exact hnamed (heq ▸ List.mem_of_getElem? hentry)
          · exact hnamed (List.mem_of_mem_eraseIdx hmem)))

/-- A playlist never takes the name of another one. -/
def rename (source target : List Char) (server : Server) : Except MpdError (Unit × Server) :=
  match server.playlists.lookup source, server.playlists.lookup target with
  | none, _ => .error noExist
  | some _, some _ => .error playlistExists
  | some _, none =>
    .ok ((), { server with
      playlists := server.playlists.map fun playlist =>
        if playlist.1 = source then (target, playlist.2) else playlist
      entries := by
        intro playlist hplaylist
        obtain ⟨old, hold, rfl⟩ := List.mem_map.mp hplaylist
        have hnamed := server.entries old hold
        split <;> exact hnamed })

/-- The queue is stored as a playlist, never over another one. -/
def save (name : List Char) (server : Server) : Except MpdError (Unit × Server) :=
  match server.playlists.lookup name with
  | some _ => .error playlistExists
  | none =>
    .ok ((), server.putPlaylist name ((server.queue.rows.map Row.uri).filter (· ≠ [])) (by simp))

end Server

end EvoAudio.Playback
