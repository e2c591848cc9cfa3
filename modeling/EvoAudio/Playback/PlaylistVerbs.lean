import EvoAudio.Lib.Table
import EvoAudio.Lib.Words
import EvoAudio.Playback.Facets
import EvoAudio.Playback.QueueVerbs
import Mathlib.Data.List.Destutter

/-!
# The playlist verbs

The request handlers of `playback.mpd/src/playlist.rs`. MPD's stored playlists
are the only store: every verb writes through MPD's own commands and publishes
the index of the playlists at its end. `playlist.save_selection` resolves a
selection as `queue.enqueue_selection` does and writes it to a playlist.
-/

namespace EvoAudio.Playback

open Mpd (MpdError)
open Procedure (Triple Along)

def playlistPayloadVersion : Nat := 1

def maxPlaylistNameBytes : Nat := 128

/-- A row of the `audio_playlist_index` envelope. -/
structure IndexRow where
  name : List Char
  itemCount : Option Nat
  deriving DecidableEq, Repr

structure Shelves where
  session : Session
  /-- The last index that was published. -/
  index : Option (List IndexRow)
  itemCountCache : List (List Char × Option Nat)

inductive PlaylistError where
  | payloadVersion (verb : String) (got expected : Nat)
  | invalidName (offending : List Char) (reason : String)
  | notFound (name : List Char)
  | duplicateName (name : List Char)
  | favouritesProtected (name : List Char)
  | mpd (verb : String) (reason : Reason)
  deriving DecidableEq, Repr

/-- An entry of a `source.dlna.browse` response. -/
structure DlnaEntry where
  kind : Option String
  path : Option (List Char)
  deriving DecidableEq, Repr

structure DlnaPage where
  entries : List DlnaEntry
  truncated : Bool
  nextPage : Option Nat
  deriving DecidableEq, Repr

structure PlaylistContext where
  favouritesName : List Char
  /-- A registered source, with the service id of a DLNA one. -/
  registry : List Char → Option (Option (List Char))
  /-- `source.dlna.browse` by service, object, page and page size. -/
  shelfDispatcher : Option (List Char → List Char → Nat → Nat → Except Reason DlnaPage)
  /-- How an error that is no `ACK` is printed. -/
  faultText : MpdError → List Char

-- ---------------------------------------------------------------------------
-- MPD as the playlist verbs call it
-- ---------------------------------------------------------------------------

def onSession (act : Procedure Session ε α) : Procedure Shelves ε α :=
  act.within Shelves.session fun s session => { s with session }

def playlistMpd (verb : String) (act : Procedure Session MpdError α) :
    Procedure Shelves PlaylistError α :=
  onSession (act.mapError fun error => .mpd verb (.mpd error))

def ackCode : MpdError → Option UInt32
  | .ack code _ _ _ => some code
  | _ => none

def ackText (code listPosition : UInt32) (command message : List Char) : List Char :=
  "MPD ACK [".toList ++ Text.decimal code ++ '@' :: Text.decimal listPosition ++
    "] \x7b".toList ++ command ++ "\x7d ".toList ++ message

def errorText (ctx : PlaylistContext) : MpdError → List Char
  | .ack code listPosition command message => ackText code listPosition command message
  | error => ctx.faultText error

/-- The playlist is not there yet. No other letters than the ASCII ones are
those of the two texts in lower case. -/
def isAbsent (ctx : PlaylistContext) (error : MpdError) : Bool :=
  let msg := Text.asciiLower (errorText ctx error)
  (Text.splitOnce "no such playlist".toList msg).isSome ||
    (Text.splitOnce "no such file".toList msg).isSome

-- ---------------------------------------------------------------------------
-- The index
-- ---------------------------------------------------------------------------

/-- Counts that could not be read are unknown, never zero. -/
def itemCounts (link : Link) (names : List (List Char)) :
    Procedure Shelves MpdError (List (Option Nat)) := do
  match ← (onSession (playlistFileCounts link names)).attempt with
  | .ok counts => return counts
  | .error (_ : MpdError) => return names.map fun _ => none

def buildIndexEnvelope (link : Link) : Procedure Shelves MpdError (List IndexRow) := do
  let names ← onSession (listplaylists link)
  let counts ← itemCounts link names
  .modify fun s => { s with
    itemCountCache := names.zip counts ++ s.itemCountCache.filter (!names.contains ·.1) }
  return List.zipWith IndexRow.mk names counts

/-- An index that could not be built is left as it was. -/
def publishIndex (link : Link) : Procedure Shelves PlaylistError Unit := do
  match ← (buildIndexEnvelope link).attempt with
  | .ok rows => .modify fun s => { s with index := some rows }
  | .error _ => return

-- ---------------------------------------------------------------------------
-- Names
-- ---------------------------------------------------------------------------

def checkPlaylistVersion (v : Nat) (verb : String) : Procedure Shelves PlaylistError Unit :=
  if v ≠ playlistPayloadVersion then .throw (.payloadVersion verb v playlistPayloadVersion)
  else return

/-- `{:04X}` -/
def hex4 (n : Nat) : String :=
  .ofList (((Nat.toDigits 16 n).map Char.toUpper).leftpad 4 '0')

def isControl (c : Char) : Bool := c.toNat < 0x20 || c.toNat == 0x7F

def validatePlaylistName (name : List Char) : Except PlaylistError Unit :=
  let bytes := (Text.encode name).length
  if name = [] then .error (.invalidName name "name must not be empty")
  else if bytes > maxPlaylistNameBytes then
    .error (.invalidName name
      s!"name length {bytes} bytes exceeds the {maxPlaylistNameBytes}-byte cap")
  else if '/' ∈ name then
    .error (.invalidName name "name must not contain the path separator '/'")
  else
    match name.find? isControl with
    | some c =>
      .error (.invalidName name ("name must not contain control character U+" ++ hex4 c.toNat))
    | none => .ok ()

def checkName (name : List Char) : Procedure Shelves PlaylistError Unit :=
  match validatePlaylistName name with
  | .ok () => return
  | .error error => .throw error

/-- What every verb that names a playlist looks at first. -/
def checkPayload (v : Nat) (verb : String) (names : List (List Char)) :
    Procedure Shelves PlaylistError Unit := do
  checkPlaylistVersion v verb
  .each checkName names

-- ---------------------------------------------------------------------------
-- Reading
-- ---------------------------------------------------------------------------

def handleListPlaylists : Procedure Shelves PlaylistError (List IndexRow) := do
  let s ← Procedure.get
  return s.index.getD []

def handleGetPlaylist (link : Link) (v : Nat) (name : List Char) :
    Procedure Shelves PlaylistError (List (List Char)) := do
  checkPayload v "playlist.get_playlist" [name]
  match ← (onSession (listplaylistinfo link name)).attempt with
  | .ok entries => return entries
  | .error error =>
    if ackCode error = some 50 then .throw (.notFound name)
    else .throw (.mpd "get_playlist" (.mpd error))

-- ---------------------------------------------------------------------------
-- Creating, deleting and renaming
-- ---------------------------------------------------------------------------

def lsinfoBudget : Nat := 64

/-- The directories to come are listed in their order, the ones a listing has
before those that came earlier. -/
def firstSongIn (link : Link) : Nat → List (List Char) →
    Procedure Shelves PlaylistError (Option (List Char))
  | 0, _ | _, [] => return none
  | budget + 1, dir :: pending => do
    let entries ← onSession ((lsinfo link dir).mapError fun error =>
      PlaylistError.mpd "create_playlist" (.listing dir error))
    match entries.findSome? DirEntry.file? with
    | some path => return some path
    | none => firstSongIn link budget (entries.filterMap DirEntry.directory? ++ pending)

def firstSongInDatabase (link : Link) : Procedure Shelves PlaylistError (Option (List Char)) :=
  firstSongIn link lsinfoBudget [[]]

/-- MPD makes a playlist by writing a song to it, which is then taken out. -/
def seedPlaylist (link : Link) (name seed : List Char) : Procedure Shelves PlaylistError Unit := do
  onSession ((playlistadd link name seed).mapError fun error =>
    .mpd "create_playlist" (.step "playlistadd seed" error))
  match ← (onSession (playlistdelete link name 0)).attempt with
  | .ok () => publishIndex link
  | .error error => do
    let _ ← (onSession (playlistclear link name)).attempt
    .throw (.mpd "create_playlist" (.step "playlistdelete seed" error))

def handleCreatePlaylist (link : Link) (v : Nat) (name : List Char) :
    Procedure Shelves PlaylistError Unit := do
  checkPayload v "playlist.create_playlist" [name]
  let names ← playlistMpd "create_playlist" (listplaylists link)
  if names.contains name then .throw (.duplicateName name)
  else do
    match ← firstSongInDatabase link with
    | none =>
      .throw (.mpd "create_playlist" (.text ("MPD's database holds no song to seed the playlist " ++
        "with. MPD creates a stored playlist by writing a song into it, and this plugin must " ++
        "not write the playlist directory itself")))
    | some seed => seedPlaylist link name seed

def handleDeletePlaylist (ctx : PlaylistContext) (link : Link) (v : Nat) (name : List Char) :
    Procedure Shelves PlaylistError Unit := do
  checkPayload v "playlist.delete_playlist" [name]
  if name = ctx.favouritesName then .throw (.favouritesProtected name)
  else do
    match ← (onSession (rmPlaylist link name)).attempt with
    | .ok () => publishIndex link
    | .error error =>
      if ackCode error = some 50 then .throw (.notFound name)
      else .throw (.mpd "delete_playlist" (.mpd error))

def handleRenamePlaylist (ctx : PlaylistContext) (link : Link) (v : Nat)
    (fromName toName : List Char) : Procedure Shelves PlaylistError Unit := do
  checkPayload v "playlist.rename_playlist" [fromName, toName]
  if fromName = ctx.favouritesName ∨ toName = ctx.favouritesName then
    .throw (.favouritesProtected ctx.favouritesName)
  else do
    match ← (onSession (renamePlaylist link fromName toName)).attempt with
    | .ok () => publishIndex link
    | .error error =>
      if ackCode error = some 50 then .throw (.notFound fromName)
      else if ackCode error = some 56 then .throw (.duplicateName toName)
      else .throw (.mpd "rename_playlist" (.mpd error))

-- ---------------------------------------------------------------------------
-- Entries
-- ---------------------------------------------------------------------------

/-- A command list is sent and the index published. -/
def writePlaylist (link : Link) (verb : String) (batch : List Batched) :
    Procedure Shelves PlaylistError Unit := do
  playlistMpd verb (commandList link batch)
  publishIndex link

def handleAddToPlaylist (link : Link) (v : Nat) (name : List Char) (uris : List (List Char)) :
    Procedure Shelves PlaylistError Unit := do
  checkPayload v "playlist.add_to_playlist" [name]
  if uris.isEmpty then return
  else writePlaylist link "add_to_playlist" (uris.map (.playlistadd name))

/-- From the last position to the first, so that no delete moves a later one. -/
def descending (positions : List Nat) : List Nat :=
  ((positions.insertionSort (· ≤ ·)).destutter (· ≠ ·)).reverse

def handleRemoveFromPlaylist (link : Link) (v : Nat) (name : List Char) (positions : List Nat) :
    Procedure Shelves PlaylistError Unit := do
  checkPayload v "playlist.remove_from_playlist" [name]
  if positions.isEmpty then return
  else
    writePlaylist link "remove_from_playlist" ((descending positions).map (.playlistdelete name))

def handleMoveInPlaylist (link : Link) (v : Nat) (name : List Char)
    (fromPosition toPosition : Nat) : Procedure Shelves PlaylistError Unit := do
  checkPayload v "playlist.move_in_playlist" [name]
  playlistMpd "move_in_playlist" (playlistmove link name fromPosition toPosition)
  publishIndex link

-- ---------------------------------------------------------------------------
-- `playlist.save_selection`
-- ---------------------------------------------------------------------------

inductive SaveSelectionMode where
  | create
  | append
  deriving DecidableEq, Repr

structure SaveSelectionPayload where
  v : Nat
  playlistName : List Char
  sourceId : Option (List Char)
  selection : SelectionInput
  mode : SaveSelectionMode
  page : Option Nat
  pageSize : Option Nat
  deriving DecidableEq, Repr

inductive SaveSelectionResponse where
  | criteria (added : Option Nat)
  | criteriaEmpty
  | container (added : Nat) (truncated : Bool) (nextPage : Option Nat)
  | containerEmpty (truncated : Bool) (nextPage : Option Nat)
  deriving DecidableEq, Repr

/-- `create` starts from an empty playlist. One that is not there is empty. -/
def startPlaylist (ctx : PlaylistContext) (link : Link) (name : List Char) :
    SaveSelectionMode → Procedure Shelves PlaylistError Unit
  | .append => return
  | .create => do
    match ← (onSession (playlistclear link name)).attempt with
    | .ok () => return
    | .error error =>
      if isAbsent ctx error then return else .throw (.mpd "save_selection" (.mpd error))

/-- A filter is written with `searchaddpl`, whether it is a substring one or not. -/
def saveBatch (name : List Char) : ResolvedSelection → List Batched
  | .filter pairs _ => [.searchaddpl name pairs]
  | .uriList list => list.map (.playlistadd name)

def selectsNothing (link : Link) : ResolvedSelection → Procedure Session MpdError Bool
  | .uriList list => return list.isEmpty
  | .filter pairs _ => do
    let songs ← countMatching link pairs
    return songs == 0

def handleSaveSelectionCriteria (ctx : PlaylistContext) (link : Link) (naming : Naming)
    (name : List Char) (criteria : SelectionCriteria) (mode : SaveSelectionMode) :
    Procedure Shelves PlaylistError SaveSelectionResponse := do
  let resolved ← playlistMpd "save_selection" (resolve link naming criteria)
  let nothing ← playlistMpd "save_selection" (selectsNothing link resolved)
  if nothing then return .criteriaEmpty
  else do
    startPlaylist ctx link name mode
    writePlaylist link "save_selection" (saveBatch name resolved)
    match resolved with
    | .uriList (uri :: uris) => return .criteria (some (uri :: uris).length)
    | _ => return .criteria none

/-- The stored identity of a leaf outlives the stream it stands for. -/
def stableUri (serviceId : List Char) (entry : DlnaEntry) : Option (List Char) :=
  if entry.kind ≠ some "file" then none
  else
    match entry.path with
    | none | some [] => none
    | some objectId => some ("dlna:".toList ++ serviceId ++ '/' :: objectId)

/-- The leaves of one page of a container, by their stored identities. -/
def containerPage (ctx : PlaylistContext) (payload : SaveSelectionPayload) (uri : List Char) :
    Except PlaylistError (List (List Char) × DlnaPage) :=
  let refuse (reason : Reason) : Except PlaylistError (List (List Char) × DlnaPage) :=
    .error (.mpd "save_selection" reason)
  match payload.sourceId with
  | none => refuse (.text "container selection requires source_id at top level")
  | some sourceId =>
    match ctx.registry sourceId with
    | none => refuse (.source "unknown source_id" sourceId)
    | some none =>
      refuse (.source "only network_dlna sources resolve containers today" sourceId)
    | some (some serviceId) =>
      match ctx.shelfDispatcher with
      | none =>
        refuse (.text ("container selection requires the peer-shelf dispatcher, but " ++
          "LoadContext.shelf_request_dispatcher was None at admission"))
      | some browse =>
        match browse serviceId uri (payload.page.getD 0) (payload.pageSize.getD dlnaPageDefault) with
        | .error reason => refuse reason
        | .ok page => .ok (page.entries.filterMap (stableUri serviceId), page)

def handleSaveSelectionContainer (ctx : PlaylistContext) (link : Link)
    (payload : SaveSelectionPayload) (uri : List Char) :
    Procedure Shelves PlaylistError SaveSelectionResponse :=
  match containerPage ctx payload uri with
  | .error error => .throw error
  | .ok (stableUris, page) =>
    if stableUris.isEmpty then return .containerEmpty page.truncated page.nextPage
    else do
      startPlaylist ctx link payload.playlistName payload.mode
      writePlaylist link "save_selection" (stableUris.map (.playlistadd payload.playlistName))
      return .container stableUris.length page.truncated page.nextPage

def handleSaveSelection (ctx : PlaylistContext) (link : Link) (naming : Naming)
    (payload : SaveSelectionPayload) : Procedure Shelves PlaylistError SaveSelectionResponse := do
  checkPayload payload.v "playlist.save_selection" [payload.playlistName]
  match payload.selection with
  | .container uri => handleSaveSelectionContainer ctx link payload uri
  | .criteria criteria =>
    handleSaveSelectionCriteria ctx link naming payload.playlistName criteria payload.mode

-- ---------------------------------------------------------------------------
-- Looking without writing
-- ---------------------------------------------------------------------------

/-- Nothing was sent that replaces a playlist, and MPD is as it was. -/
structure Session.Looked (s s' : Session) : Prop where
  server : s'.server = s.server
  log : ∃ sent, s'.log = sent ++ s.log ∧ ∀ entry ∈ sent, ∀ name, entry.1.replaces name = false

instance : IsPreorder Session Session.Looked where
  refl _ := ⟨rfl, [], rfl, by simp⟩
  trans := by
    rintro s s' s'' ⟨hserver, sent, hlog, hsent⟩ ⟨hserver', sent', hlog', hsent'⟩
    refine ⟨hserver'.trans hserver, sent' ++ sent, by rw [hlog', hlog, List.append_assoc], ?_⟩
    intro entry hentry
    exact (List.mem_append.mp hentry).elim (hsent' entry) (hsent entry)

/-- A relation of the sessions, whatever becomes of the index. -/
def Shelves.Via (R : Session → Session → Prop) (s s' : Shelves) : Prop := R s.session s'.session

instance {R : Session → Session → Prop} [IsPreorder Session R] :
    IsPreorder Shelves (Shelves.Via R) where
  refl s := refl_of R s.session
  trans _ _ _ h h' := trans_of R h h'

section Looking

variable {R : Session → Session → Prop}

theorem onSession_via {act : Procedure Session ε α} (h : Along R act) :
    Along (Shelves.Via R) (onSession act) :=
  .of_triple fun s => (h.triple s.session).within (fun _ _ h => h) (fun _ _ h => h)

theorem playlistMpd_via {act : Procedure Session MpdError α} (h : Along R act) :
    Along (Shelves.Via R) (playlistMpd verb act) := onSession_via h.mapError

theorem playlistMpd_triple {act : Procedure Session MpdError α} {s : Shelves}
    {Q : α → Session → Prop} {E : MpdError → Session → Prop} (h : Triple act s.session Q E) :
    Triple (playlistMpd verb act) s (fun a s' => Q a s'.session)
      (fun _ s' => ∃ error, E error s'.session) := by
  have hmapped : Triple (act.mapError fun error => PlaylistError.mpd verb (.mpd error)) s.session Q
      (fun _ t => ∃ error, E error t) := h.mapError fun error _ h => ⟨error, h⟩
  unfold playlistMpd onSession
  exact hmapped.within (fun _ _ h => h) fun _ _ h => h

theorem dispatch_looks (link : Link) {command : Command}
    {effect : Server → Except MpdError (α × Server)}
    (hcommand : ∀ name, command.replaces name = false)
    (heffect : ∀ server a server', effect server = .ok (a, server') → server' = server) :
    Along Session.Looked (dispatch link command effect) := by
  have hsent (answered : Bool) (s s' : Session) (h : s'.log = (command, answered) :: s.log) :
      ∃ sent, s'.log = sent ++ s.log ∧
        ∀ entry ∈ sent, ∀ name, entry.1.replaces name = false := by
    refine ⟨[(command, answered)], h, fun entry hentry => ?_⟩
    cases List.mem_singleton.mp hentry
    exact hcommand
  refine .of_triple fun s => (dispatch_run link command effect s).mono ?_ ?_
  · rintro a s' ⟨hrun, -, hlog⟩
    exact ⟨heffect _ _ _ hrun, hsent _ _ _ hlog⟩
  · rintro e s' ⟨hserver | ⟨a, hrun⟩, -, hlog⟩
    · exact ⟨hserver, hsent _ _ _ hlog⟩
    · exact ⟨heffect _ _ _ hrun, hsent _ _ _ hlog⟩

theorem read_looks (link : Link) {command : Command} (f : Server → α)
    (hcommand : ∀ name, command.replaces name = false) :
    Along Session.Looked (dispatch link command (read f)) :=
  dispatch_looks link hcommand fun _ _ _ h => by cases h; rfl

theorem publishIndex_looks (link : Link) :
    Along (Shelves.Via Session.Looked) (publishIndex link) := by
  have hcounts (names : List (List Char)) :
      Along Session.Looked (playlistFileCounts link names) := by
    unfold playlistFileCounts
    split
    · exact .pure _
    · refine dispatch_looks link (fun _ => rfl) fun server a server' h => ?_
      unfold Server.playlistFileCounts at h
      split at h <;> cases h
      rfl
  have hbuild : Along (Shelves.Via Session.Looked) (buildIndexEnvelope link) := by
    refine .bind (onSession_via (read_looks link _ fun _ => rfl)) fun names => ?_
    refine .bind ?_ fun counts => ?_
    · refine .bind (.attempt (onSession_via (hcounts names))) fun outcome => ?_
      cases outcome with
      | ok counts => exact .pure _
      | error error => exact .pure _
    · exact .bind (fun s => refl_of Session.Looked s.session) fun _ => .pure _
  refine .bind (.attempt hbuild) fun outcome => ?_
  cases outcome with
  | ok rows => exact fun s => refl_of Session.Looked s.session
  | error error => exact .pure _

end Looking

-- ---------------------------------------------------------------------------
-- What a selection is saved as, when MPD serves every command
-- ---------------------------------------------------------------------------

/-- The entries of a playlist. One that is not there has none. -/
def Server.stored (server : Server) (name : List Char) : List (List Char) :=
  (server.playlists.lookup name).getD []

theorem Server.lookup_putPlaylist {server : Server} {named : [] ∉ list} :
    (server.putPlaylist name list named).playlists.lookup other =
      if other = name then some list else server.playlists.lookup other :=
  Table.lookup_cons_filter ..

theorem Server.stored_appendToPlaylist {server : Server} {named : [] ∉ list} :
    (server.appendToPlaylist name list named).stored name = server.stored name ++ list := by
  rw [stored, appendToPlaylist, lookup_putPlaylist, if_pos rfl]
  rfl

theorem Server.playlistadd_ok {server : Server} {found : List (List Char)}
    (h : server.library.add uri = some found) :
    server.playlistadd name uri =
      .ok ((), server.appendToPlaylist name found (Library.add_named h)) := by
  unfold playlistadd
  split
  next found' h' =>
    obtain rfl := Option.some.inj (h'.symm.trans h)
    rfl
  next h' => cases h'.symm.trans h

theorem Server.playlistadd_error {server : Server} (h : server.library.add uri = none) :
    server.playlistadd name uri = .error noExist := by
  unfold playlistadd
  split
  next h' => cases h'.symm.trans h
  next => rfl

/-- Playlists take what the queue would take, up to the first URI MPD refuses. -/
theorem runBatch_playlistadd (name : List Char) (uris : List (List Char)) (server : Server) :
    (runBatch (uris.map (.playlistadd name)) server).2.stored name =
      server.stored name ++ added server.library uris := by
  induction uris generalizing server with
  | nil => simp [runBatch, added]
  | cons uri uris ih =>
    simp only [List.map_cons, runBatch, Batched.effect, added]
    cases hadd : server.library.add uri with
    | none => simp [Server.playlistadd_error hadd]
    | some found =>
      rw [Server.playlistadd_ok hadd]
      dsimp only
      rw [ih, Server.stored_appendToPlaylist, List.append_assoc]
      rfl

/-- The songs that are written for a resolved selection. -/
def written (library : Library) : ResolvedSelection → List (List Char)
  | .uriList uris => added library uris
  | .filter pairs _ => library.search pairs

theorem runBatch_saveBatch (name : List Char) (resolved : ResolvedSelection) (server : Server) :
    (runBatch (saveBatch name resolved) server).2.stored name =
      server.stored name ++ written server.library resolved := by
  cases resolved with
  | uriList uris => exact runBatch_playlistadd name uris server
  | filter pairs substring =>
    exact @Server.stored_appendToPlaylist _ name server Library.search_named

theorem run_playlistMpd {act : Procedure Session MpdError α} {s : Shelves}
    (h : act s.session = (r, t)) :
    playlistMpd verb act s =
      (r.mapError fun error => .mpd verb (.mpd error), { s with session := t }) := by
  unfold playlistMpd onSession
  exact Procedure.run_within (Procedure.run_mapError h)

theorem writePlaylist_server (verb : String) (batch : List Batched) (s : Shelves) :
    (writePlaylist serving verb batch s).2.session.server =
      (runBatch batch s.session.server).2 := by
  have hbatch := commandList_serving batch s.session
  unfold writePlaylist
  cases hrun : commandList serving batch s.session with
  | mk r t =>
    rw [hrun] at hbatch
    cases r with
    | error e => rw [Procedure.run_bind_error (run_playlistMpd hrun), ← hbatch]
    | ok u =>
      rw [Procedure.run_bind_ok (run_playlistMpd hrun), ← hbatch]
      exact (publishIndex_looks serving _).server

theorem isAbsent_noSuchPlaylist (ctx : PlaylistContext) : isAbsent ctx noSuchPlaylist = true := by
  change (let msg := Text.asciiLower (ackText 50 0 "playlistclear".toList
    "No such playlist".toList); (Text.splitOnce "no such playlist".toList msg).isSome ||
    (Text.splitOnce "no such file".toList msg).isSome) = true
  decide

/-- A playlist that is not there yet is left for the write to make. -/
theorem startPlaylist_fresh (ctx : PlaylistContext) (mode : SaveSelectionMode) (s : Shelves)
    (hfresh : s.session.server.playlists.lookup name = none) :
    ∃ t : Session, startPlaylist ctx serving name mode s = (.ok (), { s with session := t }) ∧
      t.server = s.session.server := by
  cases mode with
  | append => exact ⟨s.session, rfl, rfl⟩
  | create =>
    have heffect : Server.playlistclear name s.session.server = .error noSuchPlaylist := by
      simp [Server.playlistclear, hfresh]
    have hrun : playlistclear serving name s.session = _ := dispatch_acked rfl heffect
    refine ⟨s.session.sent (.playlistclear name) false, ?_, rfl⟩
    have hclear : onSession (playlistclear serving name) s = _ := Procedure.run_within hrun
    change (Procedure.attempt _ >>= _ : Procedure Shelves PlaylistError Unit) s = _
    rw [Procedure.run_bind_ok (Procedure.run_attempt hclear)]
    simp only [isAbsent_noSuchPlaylist, if_true]
    rfl

theorem selectsNothing_serving {resolved : ResolvedSelection} (h : resolved.Searchable)
    (s : Session) :
    ∃ s', selectsNothing serving resolved s = (.ok (vacant s.server.library resolved), s') ∧
      s'.server = s.server := by
  cases resolved with
  | uriList list => exact ⟨s, rfl, rfl⟩
  | filter pairs substring =>
    have hne : pairs.isEmpty = false := by simpa using h.1
    refine ⟨s.sent (.count pairs) true, ?_, rfl⟩
    simp only [selectsNothing, countMatching, hne]
    rfl

theorem run_checkPayload (h : validatePlaylistName name = .ok ()) (s : Shelves) :
    checkPayload playlistPayloadVersion verb [name] s = (.ok (), s) := by
  have hversion : checkPlaylistVersion playlistPayloadVersion verb s = (.ok (), s) := rfl
  have hcheck : checkName name s = (.ok (), s) := by simp [checkName, h]
  rw [checkPayload, Procedure.run_bind_ok hversion, Procedure.each, Procedure.run_bind_ok hcheck]
  rfl

/-- The songs `playlist.save_selection` leaves in its playlist. -/
def savedBy (ctx : PlaylistContext) (naming : Naming) (payload : SaveSelectionPayload)
    (s : Shelves) : List (List Char) :=
  (handleSaveSelection ctx serving naming payload s).2.session.server.stored payload.playlistName

section Saving

variable (ctx : PlaylistContext) (naming : Naming) (criteria : SelectionCriteria) (s : Shelves)
  (name : List Char) (mode : SaveSelectionMode)

/-- A selection that is not vacant is written to the new playlist. -/
theorem handleSaveSelectionCriteria_stored {resolved : ResolvedSelection}
    (hresolve : resolve serving naming criteria s.session = (.ok resolved, t))
    (hserver : t.server = s.session.server) (hresolved : resolved.Searchable)
    (hfresh : s.session.server.playlists.lookup name = none) :
    (handleSaveSelectionCriteria ctx serving naming name criteria mode s).2.session.server.stored
        name =
      if vacant s.session.server.library resolved then []
      else written s.session.server.library resolved := by
  have hnone : s.session.server.stored name = [] := by simp [Server.stored, hfresh]
  obtain ⟨t₁, hnothing, hserver₁⟩ := selectsNothing_serving hresolved t
  have hsame : t₁.server = s.session.server := hserver₁.trans hserver
  rw [hserver] at hnothing
  have hcount : playlistMpd "save_selection" (selectsNothing serving resolved)
      { s with session := t } = _ := run_playlistMpd hnothing
  unfold handleSaveSelectionCriteria
  rw [Procedure.run_bind_ok (run_playlistMpd hresolve), Procedure.run_bind_ok hcount]
  cases vacant s.session.server.library resolved with
  | true =>
    rw [if_pos rfl, if_pos rfl, Procedure.run_pure]
    exact hsame ▸ hnone
  | false =>
    obtain ⟨t₂, hstart, hserver₂⟩ :=
      startPlaylist_fresh ctx mode { s with session := t₁ } (hsame ▸ hfresh)
    have hwrite := writePlaylist_server "save_selection" (saveBatch name resolved)
      { s with session := t₂ }
    have hstored := runBatch_saveBatch name resolved t₂.server
    rw [show t₂.server = s.session.server from hserver₂.trans hsame, hnone, List.nil_append]
      at hstored
    rw [show t₂.server = s.session.server from hserver₂.trans hsame] at hwrite
    rw [if_neg Bool.false_ne_true, if_neg Bool.false_ne_true, Procedure.run_bind_ok hstart]
    cases hrun : writePlaylist serving "save_selection" (saveBatch name resolved)
        { s with session := t₂ } with
    | mk r s' =>
      rw [hrun] at hwrite
      cases r with
      | error e => rw [Procedure.run_bind_error hrun, hwrite, hstored]
      | ok u =>
        rw [Procedure.run_bind_ok hrun, ← hstored, ← hwrite]
        split <;> rfl

/-- The pairs a genre is looked for by. -/
def genrePairs : List (String × List Char) :=
  ("genre", Text.trim criteria.value) :: (parentPair criteria.parent).toList

/-- A genre that some song has is had by every song that is found by a part of
it, and the same goes for the parent context. -/
def WholeValues (library : Library) : Prop :=
  criteria.dimension = .genre → Text.trim criteria.value ≠ [] →
    library.find (genrePairs criteria) ≠ [] → ∀ song ∈ library.songs,
      (genrePairs criteria).all (library.searches song) =
        (genrePairs criteria).all (library.finds song)

end Saving

theorem search_perm_find_iff (library : Library) (pairs : List (String × List Char)) :
    (library.search pairs).Perm (library.find pairs) ↔
      ∀ song ∈ library.songs,
        pairs.all (library.searches song) = pairs.all (library.finds song) := by
  constructor
  · intro hperm song hsong
    have hmem := hperm.mem_iff (a := song)
    rw [Library.search, Library.find, List.mem_filter, List.mem_filter] at hmem
    exact Bool.eq_iff_iff.mpr ⟨fun h => (hmem.mp ⟨hsong, h⟩).2, fun h => (hmem.mpr ⟨hsong, h⟩).2⟩
  · intro h
    rw [Library.search, Library.find, List.filter_congr h]

theorem written_perm_iff {server : Server} {criteria : SelectionCriteria}
    {resolved : ResolvedSelection} (h : Resolves server criteria resolved) :
    (if vacant server.library resolved then [] else written server.library resolved).Perm
        (offered server.library criteria.dimension resolved .append) ↔
      WholeValues criteria server.library := by
  unfold Resolves at h
  dsimp only at h
  split at h
  next hempty =>
    refine iff_of_true ?_ fun _ hvalue => absurd (List.isEmpty_iff.mp hempty) hvalue
    rw [h]
    exact .refl _
  next hvalue =>
    have hlist (uris : List (List Char)) (hresolved : resolved = .uriList uris)
        (hdimension : criteria.dimension ≠ .genre) :
        (if vacant server.library resolved then [] else written server.library resolved).Perm
            (offered server.library criteria.dimension resolved .append) ↔
          WholeValues criteria server.library := by
      refine iff_of_true ?_ fun hgenre => absurd hgenre hdimension
      rw [hresolved]
      exact .refl _
    cases hdimension : criteria.dimension <;> rw [hdimension] at h <;> dsimp only at h
    case artist | album =>
      obtain ⟨uris, hresolved, -⟩ := h
      exact hdimension ▸ hlist uris hresolved (by simp [hdimension])
    case folder => exact hdimension ▸ hlist _ h (by simp [hdimension])
    case playlist =>
      obtain ⟨entries, -, hresolved⟩ := h
      exact hdimension ▸ hlist entries hresolved (by simp [hdimension])
    case year =>
      refine iff_of_true ?_ fun hgenre => by simp [hdimension] at hgenre
      rw [h]
      exact .refl _
    case genre =>
      have hpairs : resolved = .filter (genrePairs criteria) false := h
      rw [hpairs]
      unfold offered
      split
      next hvacant =>
        refine iff_of_true (.refl _) fun _ _ hfound => absurd ?_ hfound
        simpa [vacant] using hvacant
      next hvacant =>
        have hfound : server.library.find (genrePairs criteria) ≠ [] := by
          simpa [vacant] using hvacant
        refine (search_perm_find_iff server.library _).trans ⟨fun h _ _ _ => h, fun h => ?_⟩
        exact h hdimension (by simpa using hvalue) hfound

/-- A selection is saved as it would be enqueued, exactly when no song is found
by a mere part of a genre or of its parent context. -/
theorem saved_perm_enqueued_iff (ctx : PlaylistContext) (naming : Naming)
    (criteria : SelectionCriteria) (s : Shelves) (name : List Char) (mode : SaveSelectionMode)
    (sourceId : Option (List Char)) (page pageSize : Option Nat)
    (hname : validatePlaylistName name = .ok ())
    (hfresh : s.session.server.playlists.lookup name = none) :
    (savedBy ctx naming
        ⟨playlistPayloadVersion, name, sourceId, .criteria criteria, mode, page, pageSize⟩ s).Perm
      (placedBy naming criteria s.session .append) ↔
      WholeValues criteria s.session.server.library := by
  have hsaved : savedBy ctx naming
      ⟨playlistPayloadVersion, name, sourceId, .criteria criteria, mode, page, pageSize⟩ s =
      (handleSaveSelectionCriteria ctx serving naming name criteria mode s).2.session.server.stored
        name := by
    unfold savedBy handleSaveSelection
    rw [Procedure.run_bind_ok (run_checkPayload hname s)]
  rw [hsaved]
  cases hrun : resolve serving naming criteria s.session with
  | mk r t =>
    have hresolve := resolve_run serving naming criteria s.session
    cases r with
    | error e =>
      have hserver : t.server = s.session.server := (hresolve.error hrun).1
      rw [handleSaveSelectionCriteria, Procedure.run_bind_error (run_playlistMpd hrun), placedBy,
        handleEnqueueSelectionCriteria, Procedure.run_bind_error (run_verbMpd hrun), hserver,
        placed_fresh, Server.stored, hfresh]
      refine iff_of_true (.refl _) fun hgenre hvalue => ?_
      simp [resolve, hgenre, hvalue] at hrun
    | ok resolved =>
      obtain ⟨hresolves, hserver, -⟩ := hresolve.ok hrun
      have hplaced := (handleEnqueueSelectionCriteria_gains hrun hserver hresolves.searchable
        .append (Nat.le_refl s.session.server.queue.nextId) (placed_fresh _)).placed
      rw [placed_fresh, List.append_nil] at hplaced
      rw [handleSaveSelectionCriteria_stored ctx naming criteria s name mode hrun hserver
        hresolves.searchable hfresh, ← written_perm_iff hresolves]
      exact ⟨fun h => h.trans hplaced, fun h => h.trans hplaced.symm⟩

/-- The songs of `twoArtists`, one of rock and one of hard rock. -/
def rockLibrary : Library :=
  .tagged ["a.flac".toList, "b.flac".toList]
    (fun song tag =>
      if tag ≠ "genre" then []
      else if song = "a.flac".toList then ["Rock".toList] else ["Hard Rock".toList])
    twoArtists.distinct twoArtists.leaf twoArtists.named

def rockShelves : Shelves := ⟨emptyQueue rockLibrary, none, []⟩

def internalPlaylists : PlaylistContext where
  favouritesName := "__favourites__".toList
  registry _ := none
  shelfDispatcher := none
  faultText _ := []

def genre (value : String) : SelectionCriteria := ⟨.genre, value.toList, none⟩

/-- The hard rock is saved as it is enqueued. -/
theorem saved_perm_enqueued_iff_hard_rock :
    validatePlaylistName "mix".toList = .ok () ∧
      rockShelves.session.server.playlists.lookup "mix".toList = none ∧
      (savedBy internalPlaylists plainNaming
          ⟨playlistPayloadVersion, "mix".toList, none, .criteria (genre "Hard Rock"), .create, none,
            none⟩ rockShelves).Perm
        (placedBy plainNaming (genre "Hard Rock") rockShelves.session .append) := by
  refine ⟨by decide, rfl, ?_⟩
  refine (saved_perm_enqueued_iff internalPlaylists plainNaming (genre "Hard Rock") rockShelves
    "mix".toList .create none none none (by decide) rfl).mpr ?_
  intro _ _ _
  decide

/-- Saving the rock takes the hard rock along. -/
theorem saved_rock_has_hard_rock :
    validatePlaylistName "mix".toList = .ok () ∧
      rockShelves.session.server.playlists.lookup "mix".toList = none ∧
      savedBy internalPlaylists plainNaming
          ⟨playlistPayloadVersion, "mix".toList, none, .criteria (genre "Rock"), .create, none, none⟩
          rockShelves =
        ["a.flac".toList, "b.flac".toList] ∧
      placedBy plainNaming (genre "Rock") rockShelves.session .append = ["a.flac".toList] := by
  decide

end EvoAudio.Playback
