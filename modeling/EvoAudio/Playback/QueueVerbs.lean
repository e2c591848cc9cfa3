import EvoAudio.Playback.Selection

/-!
# The queue verbs

The request handlers of `playback.mpd/src/queue.rs` that change the queue:
`queue.enqueue`, `queue.enqueue_selection`, removing, moving and clearing, and
the two playlist loads. Each of them sends its commands one after the other,
gives up at the first one that fails, and publishes the queue at its end.
-/

namespace EvoAudio.Playback

open Mpd (MpdError)
open Procedure (Triple Along)

def queuePayloadVersion : Nat := 1

def checkVersion (v : Nat) (verb : String) : Procedure Session VerbError Unit :=
  if v ≠ queuePayloadVersion then .throw (.payloadVersion verb v queuePayloadVersion) else return

-- ---------------------------------------------------------------------------
-- Resolving `dlna:` URIs
-- ---------------------------------------------------------------------------

structure ResolvedTrack where
  uri : List Char
  title : Option (List Char)
  artist : Option (List Char)
  album : Option (List Char)
  genre : Option (List Char)
  date : Option (List Char)
  composer : Option (List Char)
  deriving DecidableEq, Repr

def ResolvedTrack.passthrough (uri : List Char) : ResolvedTrack :=
  ⟨uri, none, none, none, none, none, none⟩

def ResolvedTrack.tags (track : ResolvedTrack) : List (String × Option (List Char)) :=
  [("Title", track.title), ("Artist", track.artist), ("Album", track.album),
    ("Genre", track.genre), ("Date", track.date), ("Composer", track.composer)]

def ResolvedTrack.hasTags (track : ResolvedTrack) : Bool := track.tags.any (·.2.isSome)

/-- The string fields of a `source.dlna.resolve` response. -/
abbrev ResolveResponse := String → Option (List Char)

/-- The source plugin on the `audio.dlna` shelf: its answer for an object of a
service, and what `collect_dlna_container_leaves` collects from its pages for a
container, with the page size, before MPD is written to. -/
structure ShelfDispatcher where
  resolve : List Char → List Char → Except DlnaFault ResolveResponse
  leaves : List Char → List Char → Nat → Except Reason (List (List Char) × Bool)

structure QueueContext where
  shelfDispatcher : Option ShelfDispatcher
  /-- A registered source, with the service id of a DLNA one. -/
  registry : List Char → Option (Option (List Char))

def parseDlnaUri (uri : List Char) : Option (List Char × List Char) := do
  let rest ← Text.stripPrefix "dlna:".toList uri
  let (serviceId, objectId) ← Text.splitOnce ['/'] rest
  if serviceId.isEmpty || objectId.isEmpty then none else some (serviceId, objectId)

/-- The track a response describes. Empty fields count as missing. -/
def harvest (response : ResolveResponse) : Except DlnaFault ResolvedTrack :=
  let optStr (key : String) : Option (List Char) := (response key).filter (!·.isEmpty)
  match response "uri" with
  | none => .error .missingUri
  | some httpUri =>
    if !("http://".toList.isPrefixOf httpUri || "https://".toList.isPrefixOf httpUri) then
      .error (.notHttp httpUri)
    else .ok ⟨httpUri, optStr "title", optStr "artist", optStr "album", optStr "genre",
      optStr "date", optStr "composer"⟩

def resolveDlna (ctx : QueueContext) (uri : List Char) : Except DlnaFault ResolvedTrack := do
  let some (serviceId, objectId) := parseDlnaUri uri | .error .malformed
  let some dispatcher := ctx.shelfDispatcher | .error .noDispatcher
  let response ← dispatcher.resolve serviceId objectId
  harvest response

/-- MPD itself does not know the `dlna:` scheme. -/
def resolveUriForMpd (ctx : QueueContext) (verb : String) (uri : List Char) :
    Except VerbError ResolvedTrack :=
  if !"dlna:".toList.isPrefixOf uri then .ok (.passthrough uri)
  else (resolveDlna ctx uri).mapError fun fault => .mpd verb (.dlna uri fault)

/-- Every URI is resolved before the first write to MPD. -/
def resolveAll (ctx : QueueContext) (verb : String) (uris : List (List Char)) :
    Procedure Session VerbError (List ResolvedTrack) :=
  match uris.mapM (resolveUriForMpd ctx verb) with
  | .ok tracks => return tracks
  | .error error => .throw error

-- ---------------------------------------------------------------------------
-- Adding tracks
-- ---------------------------------------------------------------------------

/-- A tag that MPD does not take is not worth an error. -/
def applyTag (link : Link) (id : Nat) (tag : String × Option (List Char)) :
    Procedure Session VerbError Unit :=
  match tag.2 with
  | none => return
  | some value =>
    if value.isEmpty then return
    else do
      let _ ← (addtagid link id tag.1 value).attempt
      return

def applyResolvedTags (link : Link) (id : Nat) (track : ResolvedTrack) :
    Procedure Session VerbError Unit :=
  if !track.hasTags then return else .each (applyTag link id) track.tags

/-- The position of the next track comes behind this one. -/
def addTrack (link : Link) (verb : String) (position : Option Nat) (track : ResolvedTrack) :
    Procedure Session VerbError (Option Nat) := do
  let id ← verbMpd verb (addid link track.uri position)
  applyResolvedTags link id track
  return position.map (· + 1)

def addTracks (link : Link) (verb : String) (position : Option Nat) (tracks : List ResolvedTrack) :
    Procedure Session VerbError Unit := do
  let _ ← Procedure.fold (addTrack link verb) position tracks
  return

-- ---------------------------------------------------------------------------
-- `queue.enqueue`
-- ---------------------------------------------------------------------------

structure EnqueuePayload where
  v : Nat
  uris : List (List Char)
  position : Option Nat
  deriving DecidableEq, Repr

/-- Without a current song there is nothing to insert after. -/
def enqueuePosition (link : Link) (requested : Option Nat) :
    Procedure Session VerbError (Option Nat) :=
  match requested with
  | none => return none
  | some requested => do
    let next ← nextInsertPosition link "enqueue"
    return next.map fun _ => requested

def handleEnqueue (ctx : QueueContext) (link : Link) (payload : EnqueuePayload) :
    Procedure Session VerbError Unit := do
  checkVersion payload.v "queue.enqueue"
  if payload.uris.isEmpty then .throw .emptyUris
  else do
    let tracks ← resolveAll ctx "enqueue" payload.uris
    let position ← enqueuePosition link payload.position
    addTracks link "enqueue" position tracks
    publishQueue link

-- ---------------------------------------------------------------------------
-- `queue.enqueue_selection`
-- ---------------------------------------------------------------------------

inductive SelectionInput where
  | container (uri : List Char)
  | criteria (criteria : SelectionCriteria)
  deriving DecidableEq, Repr

structure EnqueueSelectionPayload where
  v : Nat
  sourceId : Option (List Char)
  selection : SelectionInput
  mode : EnqueueSelectionMode
  pageSize : Option Nat
  deriving DecidableEq, Repr

inductive EnqueueSelectionResponse where
  | criteria (response : SelectionResponse)
  | container (enqueued : Nat) (truncated : Bool)
  deriving DecidableEq, Repr

def dlnaPageDefault : Nat := 50

/-- The leaves of a container of a registered DLNA source. -/
def containerLeaves (ctx : QueueContext) (sourceId : Option (List Char)) (uri : List Char)
    (pageSize : Option Nat) : Except VerbError (List (List Char) × Bool) :=
  let refuse (reason : Reason) : Except VerbError (List (List Char) × Bool) :=
    .error (.mpd "enqueue_selection" reason)
  match sourceId with
  | none => refuse (.text "container selection requires source_id at top level of payload")
  | some sourceId =>
    match ctx.registry sourceId with
    | none => refuse (.source "unknown source_id" sourceId)
    | some none =>
      refuse (.source "only network_dlna sources resolve containers today" sourceId)
    | some (some serviceId) =>
      match ctx.shelfDispatcher with
      | none =>
        refuse (.text ("container selection requires the peer-shelf dispatcher, but " ++
          "LoadContext.shelf_request_dispatcher was None at admission — the plugin was loaded " ++
          "without a dispatcher wired"))
      | some dispatcher =>
        (dispatcher.leaves serviceId uri (pageSize.getD dlnaPageDefault)).mapError
          (.mpd "enqueue_selection")

def applyContainer (link : Link) (tracks : List ResolvedTrack) :
    EnqueueSelectionMode → Procedure Session VerbError Unit
  | .append => addTracks link "enqueue_selection" none tracks
  | .next => do
    let position ← nextInsertPosition link "enqueue_selection"
    addTracks link "enqueue_selection" position tracks
  | .replace => do
    verbMpd "enqueue_selection" (clear link)
    addTracks link "enqueue_selection" none tracks
    verbMpd "enqueue_selection" (play link)
    publishNowPlayingAfterTransport link

def handleEnqueueSelectionContainer (ctx : QueueContext) (link : Link)
    (sourceId : Option (List Char)) (uri : List Char) (mode : EnqueueSelectionMode)
    (pageSize : Option Nat) : Procedure Session VerbError EnqueueSelectionResponse :=
  match containerLeaves ctx sourceId uri pageSize with
  | .error error => .throw error
  | .ok (stableUris, truncatedByCap) => do
    let tracks ← resolveAll ctx "enqueue_selection" stableUris
    if tracks.isEmpty then return .container 0 truncatedByCap
    else do
      applyContainer link tracks mode
      publishQueue link
      return .container tracks.length truncatedByCap

def handleEnqueueSelection (ctx : QueueContext) (link : Link) (naming : Naming)
    (payload : EnqueueSelectionPayload) : Procedure Session VerbError EnqueueSelectionResponse := do
  checkVersion payload.v "queue.enqueue_selection"
  match payload.selection with
  | .container uri =>
    handleEnqueueSelectionContainer ctx link payload.sourceId uri payload.mode payload.pageSize
  | .criteria criteria => do
    let response ← handleEnqueueSelectionCriteria link naming criteria payload.mode
    return .criteria response

-- ---------------------------------------------------------------------------
-- Rows and playlists
-- ---------------------------------------------------------------------------

def handleRemoveQueueItem (link : Link) (v id : Nat) : Procedure Session VerbError Unit := do
  checkVersion v "queue.remove_queue_item"
  verbMpd "remove_queue_item" (deleteid link id)
  publishQueue link

def handleMoveQueueItem (link : Link) (v id toPosition : Nat) :
    Procedure Session VerbError Unit := do
  checkVersion v "queue.move_queue_item"
  verbMpd "move_queue_item" (moveid link id toPosition)
  publishQueue link

def handleClearQueue (link : Link) : Procedure Session VerbError Unit := do
  verbMpd "clear_queue" (clear link)
  publishQueue link

def loadPlaylistWithDlnaResolve (ctx : QueueContext) (link : Link) (verb : String)
    (playlistName : List Char) : Procedure Session VerbError Unit := do
  let entries ← verbMpd verb (listplaylistinfo link playlistName)
  let tracks ← resolveAll ctx verb entries
  addTracks link verb none tracks

/-- A start that fails leaves the queue loaded. -/
def autoStart (link : Link) (startPosition : Option Nat) : Procedure Session VerbError Unit :=
  match startPosition with
  | none => return
  | some start => do
    let _ ← (playPosition link start).attempt
    return

def handleLoadPlaylistToQueue (ctx : QueueContext) (link : Link) (v : Nat)
    (playlistName : List Char) (startPosition : Option Nat) : Procedure Session VerbError Unit := do
  checkVersion v "queue.load_playlist_to_queue"
  verbMpd "load_playlist_to_queue" (clear link)
  loadPlaylistWithDlnaResolve ctx link "load_playlist_to_queue" playlistName
  autoStart link startPosition
  publishQueue link

def handleAppendPlaylistToQueue (ctx : QueueContext) (link : Link) (v : Nat)
    (playlistName : List Char) : Procedure Session VerbError Unit := do
  checkVersion v "queue.append_playlist_to_queue"
  loadPlaylistWithDlnaResolve ctx link "append_playlist_to_queue" playlistName
  publishQueue link

/-- The calls of the queue shelf that change the queue. -/
inductive QueueCall where
  | enqueue (payload : EnqueuePayload)
  | enqueueSelection (payload : EnqueueSelectionPayload)
  | removeQueueItem (v id : Nat)
  | moveQueueItem (v id toPosition : Nat)
  | clearQueue
  | loadPlaylistToQueue (v : Nat) (playlistName : List Char) (startPosition : Option Nat)
  | appendPlaylistToQueue (v : Nat) (playlistName : List Char)
  deriving DecidableEq, Repr

def QueueCall.handle (ctx : QueueContext) (link : Link) (naming : Naming) :
    QueueCall → Procedure Session VerbError (Option EnqueueSelectionResponse)
  | .enqueue payload => do
    handleEnqueue ctx link payload
    return none
  | .enqueueSelection payload => do
    let response ← handleEnqueueSelection ctx link naming payload
    return some response
  | .removeQueueItem v id => do
    handleRemoveQueueItem link v id
    return none
  | .moveQueueItem v id toPosition => do
    handleMoveQueueItem link v id toPosition
    return none
  | .clearQueue => do
    handleClearQueue link
    return none
  | .loadPlaylistToQueue v playlistName startPosition => do
    handleLoadPlaylistToQueue ctx link v playlistName startPosition
    return none
  | .appendPlaylistToQueue v playlistName => do
    handleAppendPlaylistToQueue ctx link v playlistName
    return none

-- ---------------------------------------------------------------------------
-- What the commands of a verb do to the queue and the mirror
-- ---------------------------------------------------------------------------

/-- The commands that can change the queue. -/
def Command.mutates : Command → Bool
  | .clear | .add _ | .addid _ _ | .addtagid _ _ _ | .deleteid _ | .moveid _ _ | .findadd _
  | .searchadd _ | .commandList _ => true
  | _ => false

/-- The commands that take a playlist away, empty it or give it another name. -/
def Command.replaces (name : List Char) : Command → Bool
  | .rm playlist | .playlistclear playlist => playlist == name
  | .rename source target => source == name || target == name
  | _ => false

/-- Commands were sent that left the queue and the mirror alone. -/
structure Session.Read (s s' : Session) : Prop where
  mirror : s'.mirror = s.mirror
  queue : s'.server.queue = s.server.queue
  log : s.log <:+ s'.log

/-- One of the commands sent since can have changed the queue. -/
def Session.Mutated (s s' : Session) : Prop :=
  ∃ sent, s'.log = sent ++ s.log ∧ ∃ entry ∈ sent, entry.1.mutates

/-- Nothing was published, and the queue changed only by commands that can. -/
structure Session.Unpublished (s s' : Session) : Prop where
  mirror : s'.mirror = s.mirror
  log : s.log <:+ s'.log
  queue : s'.server.queue = s.server.queue ∨ s.Mutated s'

theorem Session.Read.unpublished {s s' : Session} (h : s.Read s') : s.Unpublished s' :=
  ⟨h.mirror, h.log, .inl h.queue⟩

theorem Session.Mutated.before {s s' s'' : Session} (hlog : s.log <:+ s'.log)
    (h : s'.Mutated s'') : s.Mutated s'' := by
  obtain ⟨earlier, hearlier⟩ := hlog
  obtain ⟨sent, hsent, entry, hentry, hmutates⟩ := h
  refine ⟨sent ++ earlier, ?_, entry, List.mem_append_left _ hentry, hmutates⟩
  rw [hsent, ← hearlier, List.append_assoc]

theorem Session.Mutated.after {s s' s'' : Session} (hlog : s'.log <:+ s''.log)
    (h : s.Mutated s') : s.Mutated s'' := by
  obtain ⟨later, hlater⟩ := hlog
  obtain ⟨sent, hsent, entry, hentry, hmutates⟩ := h
  refine ⟨later ++ sent, ?_, entry, List.mem_append_right _ hentry, hmutates⟩
  rw [← hlater, hsent, List.append_assoc]

instance : IsPreorder Session Session.Read where
  refl _ := ⟨rfl, rfl, List.suffix_rfl⟩
  trans _ _ _ h h' := ⟨h'.mirror.trans h.mirror, h'.queue.trans h.queue, h.log.trans h'.log⟩

instance : IsPreorder Session Session.Unpublished where
  refl _ := ⟨rfl, List.suffix_rfl, .inl rfl⟩
  trans _ _ _ h h' := by
    refine ⟨h'.mirror.trans h.mirror, h.log.trans h'.log, ?_⟩
    rcases h'.queue with hsame | hmutated
    · rcases h.queue with hsame' | hmutated
      · exact .inl (hsame.trans hsame')
      · exact .inr (hmutated.after h'.log)
    · exact .inr (hmutated.before h.log)

/-- A command whose effect leaves the queue alone. -/
theorem dispatch_reads (link : Link) (command : Command)
    {effect : Server → Except MpdError (α × Server)}
    (h : ∀ server a server', effect server = .ok (a, server') → server'.queue = server.queue) :
    Along Session.Read (dispatch link command effect) := by
  refine .of_triple fun s => (dispatch_run link command effect s).mono ?_ ?_
  · rintro a s' ⟨heffect, hmirror, hlog⟩
    exact ⟨hmirror, h _ _ _ heffect, hlog ▸ List.suffix_cons _ _⟩
  · rintro e s' ⟨hserver | ⟨a, heffect⟩, hmirror, hlog⟩
    · exact ⟨hmirror, congrArg Server.queue hserver, hlog ▸ List.suffix_cons _ _⟩
    · exact ⟨hmirror, h _ _ _ heffect, hlog ▸ List.suffix_cons _ _⟩

theorem dispatch_mutates (link : Link) {command : Command} (h : command.mutates)
    (effect : Server → Except MpdError (α × Server)) :
    Along Session.Unpublished (dispatch link command effect) := by
  have hmutated {s s' : Session} {answered : Bool} (hlog : s'.log = (command, answered) :: s.log) :
      s.Mutated s' := ⟨[(command, answered)], hlog, _, List.mem_singleton_self _, h⟩
  refine .of_triple fun s => (dispatch_run link command effect s).mono ?_ ?_
  · rintro a s' ⟨-, hmirror, hlog⟩
    exact ⟨hmirror, hlog ▸ List.suffix_cons _ _, .inr (hmutated hlog)⟩
  · rintro e s' ⟨-, hmirror, hlog⟩
    exact ⟨hmirror, hlog ▸ List.suffix_cons _ _, .inr (hmutated hlog)⟩

theorem commandList_unpublished (link : Link) (batch : List Batched) :
    Along Session.Unpublished (commandList link batch) := by
  intro s
  have hmutated (server : Server) (answered : Bool) :
      s.Unpublished ⟨server, s.mirror, (.commandList batch, answered) :: s.log⟩ :=
    ⟨rfl, List.suffix_cons _ _, .inr ⟨[_], rfl, _, List.mem_singleton_self _, rfl⟩⟩
  unfold commandList
  split
  · exact refl_of Session.Unpublished s
  · cases link s.log.length (.commandList batch) with
    | serve =>
      dsimp only
      split <;> exact hmutated _ _
    | refuse executed error => exact hmutated _ _
    | lose error => exact hmutated _ _

theorem verbMpd_along {R : Session → Session → Prop} {act : Procedure Session MpdError α}
    (h : Along R act) : Along R (verbMpd verb act) := .mapError h

/-- Reading is one way of not publishing. -/
theorem reads_unpublished {act : Procedure Session ε α} (h : Along Session.Read act) :
    Along Session.Unpublished act := fun s => (h s).unpublished

-- ---------------------------------------------------------------------------
-- What a relation has to allow
-- ---------------------------------------------------------------------------

/-- `R` allows the commands that leave the queue and the playlists alone. -/
def Quiet (link : Link) (R : Session → Session → Prop) : Prop :=
  ∀ {α : Type} (command : Command) (effect : Server → Except MpdError (α × Server)),
    (∀ name, command.replaces name = false) →
    (∀ server a server', effect server = .ok (a, server') →
      server'.queue = server.queue ∧ server'.playlists = server.playlists) →
    Along R (dispatch link command effect)

/-- `R` allows the commands that leave the playlists alone. -/
structure Playing (link : Link) (R : Session → Session → Prop) : Prop where
  quiet : Quiet link R
  edit : ∀ {α : Type} (command : Command) (effect : Server → Except MpdError (α × Server)),
    command.mutates → (∀ name, command.replaces name = false) →
    (∀ server a server', effect server = .ok (a, server') →
      server'.playlists = server.playlists) →
    Along R (dispatch link command effect)
  batch : ∀ batch : List Batched,
    (∀ command ∈ batch, ∀ server server', command.effect server = .ok ((), server') →
      server'.playlists = server.playlists) →
    Along R (commandList link batch)

theorem read_quiet (link : Link) : Quiet link Session.Read :=
  fun command _ _ h => dispatch_reads link command fun server a server' heffect =>
    (h server a server' heffect).1

theorem unpublished_playing (link : Link) : Playing link Session.Unpublished where
  quiet command effect hcommand h := reads_unpublished (read_quiet link command effect hcommand h)
  edit _ effect hmutates _ _ := dispatch_mutates link hmutates effect
  batch batch _ := commandList_unpublished link batch

theorem Quiet.read {R : Session → Session → Prop} (hquiet : Quiet link R) (command : Command)
    (f : Server → α) (hcommand : ∀ name, command.replaces name = false) :
    Along R (dispatch link command (Playback.read f)) := by
  refine hquiet command _ hcommand ?_
  rintro server a _ ⟨⟩
  exact ⟨rfl, rfl⟩

section

variable {server server' : Server} {id : Nat}

theorem Server.add_playlists (h : Server.add uri server = .ok ((), server')) :
    server'.playlists = server.playlists := by
  unfold Server.add at h
  split at h <;> cases h
  rfl

theorem Server.addid_playlists (h : Server.addid uri position server = .ok (id, server')) :
    server'.playlists = server.playlists := by
  unfold Server.addid at h
  dsimp only at h
  split_ifs at h
  cases h
  rfl

theorem Server.addtagid_playlists (h : Server.addtagid id server = .ok ((), server')) :
    server'.playlists = server.playlists := by
  unfold Server.addtagid at h
  split_ifs at h
  cases h
  rfl

theorem Server.deleteid_playlists (h : Server.deleteid id server = .ok ((), server')) :
    server'.playlists = server.playlists := by
  unfold Server.deleteid at h
  dsimp only at h
  split at h <;> cases h
  rfl

theorem Server.moveid_playlists (h : Server.moveid id position server = .ok ((), server')) :
    server'.playlists = server.playlists := by
  unfold Server.moveid at h
  split at h
  · cases h
  · split at h <;> cases h
    rfl

theorem Server.playPosition_keeps (h : Server.playPosition position server = .ok ((), server')) :
    server'.queue = server.queue ∧ server'.playlists = server.playlists := by
  unfold Server.playPosition at h
  split at h <;> cases h
  exact ⟨rfl, rfl⟩

theorem Server.play_keeps (h : Server.play server = .ok ((), server')) :
    server'.queue = server.queue ∧ server'.playlists = server.playlists := by
  unfold Server.play at h
  split at h <;> cases h <;> exact ⟨rfl, rfl⟩

end

-- ---------------------------------------------------------------------------
-- How a verb ends
-- ---------------------------------------------------------------------------

/-- The mirror shows the queue as it is, or a read for it was not answered. -/
def Session.Renewed (s s' : Session) : Prop :=
  s'.mirror = some s'.server.envelope ∨ s'.mirror = s.mirror ∧ s'.Unread

/-- A verb that ends with a publish when it succeeds. -/
def Renews (act : Procedure Session VerbError α) : Prop :=
  ∀ s, Triple act s (fun _ => s.Renewed) (fun _ => s.Unpublished)

/-- A verb that ends with a publish or with everything as it was. -/
def Settles (act : Procedure Session VerbError α) : Prop :=
  ∀ s, Triple act s
    (fun _ s' => s'.server.queue = s.server.queue ∧ s'.mirror = s.mirror ∨ s.Renewed s')
    (fun _ => s.Unpublished)

theorem publishQueue_renews (link : Link) : Renews (publishQueue link) := by
  refine fun s => (publishQueue_run link s).mono ?_ (fun _ _ h => h.elim)
  rintro _ s' ⟨hserver, hmirror | hunread⟩
  · exact .inl (hserver ▸ hmirror)
  · exact .inr hunread

theorem Renews.after {act : Procedure Session VerbError α} {f : α → Procedure Session VerbError β}
    (h : Along Session.Unpublished act) (hf : ∀ a, Renews (f a)) : Renews (act >>= f) := by
  intro s
  refine .bind (h.triple s) fun a s' hs => (hf a s').mono ?_ ?_
  · rintro b s'' (hmirror | ⟨hmirror, hunread⟩)
    · exact .inl hmirror
    · exact .inr ⟨hmirror.trans hs.mirror, hunread⟩
  · intro e s'' hs'
    exact trans_of Session.Unpublished hs hs'

theorem Renews.map {act : Procedure Session VerbError α} (h : Renews act) (b : α → β) :
    Renews (do let a ← act; return b a) :=
  fun s => .bind (h s) fun _ _ hs => .pure hs

theorem Renews.settles {act : Procedure Session VerbError α} (h : Renews act) : Settles act :=
  fun s => (h s).mono (fun _ _ hs => .inr hs) (fun _ _ hs => hs)

theorem Settles.pure (a : α) : Settles (Pure.pure a) := fun _ => .pure (.inl ⟨rfl, rfl⟩)

theorem Settles.throw (error : VerbError) : Settles (α := α) (.throw error) :=
  fun s => .throw (refl_of Session.Unpublished s)

theorem Settles.after {act : Procedure Session VerbError α} {f : α → Procedure Session VerbError β}
    (h : Along Session.Read act) (hf : ∀ a, Settles (f a)) : Settles (act >>= f) := by
  intro s
  refine .bind (((h.triple s)).mono (fun _ _ hs => hs) fun _ _ hs => hs.unpublished) ?_
  refine fun a s' hs => (hf a s').mono ?_ ?_
  · rintro b s'' (⟨hqueue, hmirror⟩ | hmirror | ⟨hmirror, hunread⟩)
    · exact .inl ⟨hqueue.trans hs.queue, hmirror.trans hs.mirror⟩
    · exact .inr (.inl hmirror)
    · exact .inr (.inr ⟨hmirror.trans hs.mirror, hunread⟩)
  · intro e s'' hs'
    exact trans_of Session.Unpublished hs.unpublished hs'

theorem Settles.map {act : Procedure Session VerbError α} (h : Settles act) (b : α → β) :
    Settles (do let a ← act; return b a) :=
  fun s => .bind (h s) fun _ _ hs => .pure hs

-- ---------------------------------------------------------------------------
-- The parts of the verbs
-- ---------------------------------------------------------------------------

section Parts

variable (ctx : QueueContext) (naming : Naming) {R : Session → Session → Prop} [IsPreorder Session R]

theorem checkVersion_along (v : Nat) (verb : String) : Along R (checkVersion v verb) := by
  unfold checkVersion
  split
  · exact .throw _
  · exact .pure ()

theorem resolveAll_along (verb : String) (uris : List (List Char)) :
    Along R (resolveAll ctx verb uris) := by
  unfold resolveAll
  split
  · exact .pure _
  · exact .throw _

section Quiet

variable {link : Link} (hquiet : Quiet link R)
include hquiet

theorem nextInsertPosition_along (verb : String) : Along R (nextInsertPosition link verb) :=
  .bind (verbMpd_along (hquiet.read _ _ fun _ => rfl)) fun _ => .pure _

omit [IsPreorder Session R] in
theorem listplaylistinfo_along (name : List Char) : Along R (listplaylistinfo link name) := by
  refine hquiet _ _ (fun _ => rfl) fun server entries server' h => ?_
  unfold Server.listplaylistinfo at h
  split at h
  · cases h
    exact ⟨rfl, rfl⟩
  · cases h

omit [IsPreorder Session R] in
theorem listallinfo_along (path : List Char) : Along R (listallinfo link path) := by
  refine hquiet _ _ (fun _ => rfl) fun server entries server' h => ?_
  split at h
  · cases h
    exact ⟨rfl, rfl⟩
  · cases h

theorem findEach_along (field : MpdSearchField) (values : List (List Char)) :
    Along R (findEach link field values) := by
  induction values with
  | nil => exact .pure _
  | cons value values ih =>
    exact .bind (hquiet.read _ _ fun _ => rfl) fun _ => .bind ih fun _ => .pure _

theorem listEach_along (dirs : List (List Char)) : Along R (listEach link dirs) := by
  induction dirs with
  | nil => exact .pure _
  | cons dir dirs ih =>
    exact .bind (listallinfo_along hquiet dir) fun _ => .bind ih fun _ => .pure _

theorem resolve_along (criteria : SelectionCriteria) : Along R (resolve link naming criteria) := by
  unfold resolve
  dsimp only
  split
  · exact .pure _
  · cases criteria.dimension with
    | artist =>
      dsimp only [resolveArtist]
      split
      · exact .pure _
      · refine .bind (hquiet.read _ _ fun _ => rfl) fun _ =>
          .bind (hquiet.read _ _ fun _ => rfl) fun _ => ?_
        exact .bind (findEach_along hquiet _ _) fun _ => .bind (findEach_along hquiet _ _) fun _ =>
          .pure _
    | album => exact .bind (hquiet.read _ _ fun _ => rfl) fun _ => .pure _
    | genre | year | folder => exact .pure _
    | playlist => exact .bind (listplaylistinfo_along hquiet _) fun _ => .pure _

theorem countMatching_along (pairs : List (String × List Char)) :
    Along R (countMatching link pairs) := by
  unfold countMatching
  split
  · exact .pure _
  · exact hquiet.read _ _ fun _ => rfl

theorem matchesNothing_along (resolved : ResolvedSelection) :
    Along R (matchesNothing link resolved) := by
  cases resolved with
  | uriList list => exact .pure _
  | filter pairs substring =>
    exact .bind (.mapError (countMatching_along hquiet pairs)) fun _ => .pure _

theorem materialiseToUris_along (resolved : ResolvedSelection) (dimension : SelectionDimension) :
    Along R (materialiseToUris link resolved dimension) := by
  unfold materialiseToUris
  split
  · split
    · exact .pure _
    · exact listEach_along hquiet _
  · dsimp only
    split
    · split
      · exact hquiet.read _ _ fun _ => rfl
      · exact .pure _
    · exact hquiet.read _ _ fun _ => rfl

theorem selectionUris_along (resolved : ResolvedSelection) (dimension : SelectionDimension)
    (mode : EnqueueSelectionMode) : Along R (selectionUris link resolved dimension mode) := by
  cases mode with
  | next => exact verbMpd_along (materialiseToUris_along hquiet resolved dimension)
  | append | replace => cases resolved <;> exact .pure _

theorem enqueuePosition_along (requested : Option Nat) :
    Along R (enqueuePosition link requested) := by
  unfold enqueuePosition
  split
  · exact .pure _
  · exact .bind (nextInsertPosition_along hquiet _) fun _ => .pure _

theorem publishNowPlaying_along : Along R (publishNowPlayingAfterTransport link) := by
  refine .bind (.attempt (hquiet.read _ _ fun _ => rfl)) fun outcome => ?_
  cases outcome with
  | error error => exact .pure _
  | ok status => exact .bind (.attempt (hquiet.read _ _ fun _ => rfl)) fun _ => .pure _

omit [IsPreorder Session R] in
theorem playPosition_along (position : Nat) : Along R (playPosition link position) :=
  hquiet _ _ (fun _ => rfl) fun _ _ _ h => Server.playPosition_keeps h

theorem autoStart_along (startPosition : Option Nat) : Along R (autoStart link startPosition) := by
  cases startPosition with
  | none => exact .pure _
  | some start => exact .bind (.attempt (playPosition_along hquiet start)) fun _ => .pure _

end Quiet

section Playing

variable {link : Link} (hplaying : Playing link R)
include hplaying

omit [IsPreorder Session R] in
theorem addid_along (uri : List Char) (position : Option Nat) : Along R (addid link uri position) :=
  hplaying.edit _ _ rfl (fun _ => rfl) fun _ _ _ h => Server.addid_playlists h

omit [IsPreorder Session R] in
theorem add_along (uri : List Char) : Along R (add link uri) :=
  hplaying.edit _ _ rfl (fun _ => rfl) fun _ _ _ h => Server.add_playlists h

omit [IsPreorder Session R] in
theorem clear_along : Along R (clear link) :=
  hplaying.edit _ _ rfl (fun _ => rfl) fun _ _ _ h => by cases h; rfl

omit [IsPreorder Session R] in
theorem play_along : Along R (play link) :=
  hplaying.quiet _ _ (fun _ => rfl) fun _ _ _ h => Server.play_keeps h

omit [IsPreorder Session R] in
theorem replaceBatch_along (resolved : ResolvedSelection) (uris : List (List Char)) :
    Along R (commandList link (replaceBatch resolved uris)) := by
  refine hplaying.batch _ fun command hcommand server server' h => ?_
  have hqueue : command = .clear ∨ (∃ uri, command = .add uri) ∨
      (∃ pairs, command = .findadd pairs ∨ command = .searchadd pairs) ∨
      command = .playPosition 0 := by
    rcases List.mem_cons.mp hcommand with rfl | hcommand
    · exact .inl rfl
    · rcases List.mem_append.mp hcommand with hcommand | hcommand
      · cases resolved with
        | uriList list =>
          obtain ⟨uri, -, rfl⟩ := List.mem_map.mp hcommand
          exact .inr (.inl ⟨uri, rfl⟩)
        | filter pairs substring =>
          cases List.mem_singleton.mp hcommand
          cases substring
          · exact .inr (.inr (.inl ⟨pairs, .inl rfl⟩))
          · exact .inr (.inr (.inl ⟨pairs, .inr rfl⟩))
      · cases List.mem_singleton.mp hcommand
        exact .inr (.inr (.inr rfl))
  rcases hqueue with rfl | ⟨uri, rfl⟩ | ⟨pairs, rfl | rfl⟩ | rfl
  · cases h
    rfl
  · exact Server.add_playlists h
  · cases h
    rfl
  · cases h
    rfl
  · exact (Server.playPosition_keeps h).2

theorem applySelection_along (resolved : ResolvedSelection) (uris : List (List Char))
    (mode : EnqueueSelectionMode) : Along R (applySelection link resolved uris mode) := by
  cases mode with
  | append =>
    cases resolved with
    | uriList list => exact .each (fun uri => verbMpd_along (add_along hplaying uri)) uris
    | filter pairs substring =>
      refine .mapError ?_
      cases substring with
      | true =>
        change Along _ (searchadd link pairs)
        unfold searchadd
        split
        · exact .pure _
        · exact hplaying.edit _ _ rfl (fun _ => rfl) fun _ _ _ h => by cases h; rfl
      | false =>
        change Along _ (findadd link pairs)
        unfold findadd
        split
        · exact .pure _
        · exact hplaying.edit _ _ rfl (fun _ => rfl) fun _ _ _ h => by cases h; rfl
  | next =>
    refine .bind (nextInsertPosition_along hplaying.quiet _) fun position => ?_
    refine .bind (.fold (fun position uri => ?_) position uris) fun _ => .pure _
    exact .bind (verbMpd_along (addid_along hplaying uri position)) fun _ => .pure _
  | replace =>
    exact .bind (verbMpd_along (replaceBatch_along hplaying resolved uris)) fun _ =>
      publishNowPlaying_along hplaying.quiet

theorem addTracks_along (verb : String) (position : Option Nat) (tracks : List ResolvedTrack) :
    Along R (addTracks link verb position tracks) := by
  have htags (id : Nat) (track : ResolvedTrack) : Along R (applyResolvedTags link id track) := by
    unfold applyResolvedTags
    split
    · exact .pure _
    · refine .each (fun tag => ?_) _
      unfold applyTag
      split
      · exact .pure _
      · split
        · exact .pure _
        · refine .bind (.attempt ?_) fun _ => .pure _
          exact hplaying.edit _ _ rfl (fun _ => rfl) fun _ _ _ h => Server.addtagid_playlists h
  refine .bind (.fold (fun position track => ?_) position tracks) fun _ => .pure _
  exact .bind (verbMpd_along (addid_along hplaying _ _)) fun id => .bind (htags id track) fun _ =>
    .pure _

theorem applyContainer_along (tracks : List ResolvedTrack) (mode : EnqueueSelectionMode) :
    Along R (applyContainer link tracks mode) := by
  cases mode with
  | append => exact addTracks_along hplaying _ none tracks
  | next =>
    exact .bind (nextInsertPosition_along hplaying.quiet _) fun position =>
      addTracks_along hplaying _ position tracks
  | replace =>
    refine .bind (verbMpd_along (clear_along hplaying)) fun _ => ?_
    refine .bind (addTracks_along hplaying _ none tracks) fun _ => ?_
    exact .bind (verbMpd_along (play_along hplaying)) fun _ =>
      publishNowPlaying_along hplaying.quiet

theorem loadPlaylist_along (verb : String) (name : List Char) :
    Along R (loadPlaylistWithDlnaResolve ctx link verb name) := by
  refine .bind (verbMpd_along (listplaylistinfo_along hplaying.quiet name)) fun _ => ?_
  exact .bind (resolveAll_along ctx verb _) fun tracks => addTracks_along hplaying verb none tracks

end Playing

end Parts

-- ---------------------------------------------------------------------------
-- The verbs
-- ---------------------------------------------------------------------------

section Verbs

variable (ctx : QueueContext) (link : Link) (naming : Naming)

theorem handleEnqueue_settles (payload : EnqueuePayload) :
    Settles (handleEnqueue ctx link payload) := by
  refine .after (checkVersion_along _ _) fun _ => ?_
  split
  · exact .throw _
  · refine .after (resolveAll_along ctx _ _) fun tracks =>
      .after (enqueuePosition_along (read_quiet link) _) fun position => ?_
    exact (Renews.after (addTracks_along (unpublished_playing link) _ position tracks) fun _ =>
      publishQueue_renews link).settles

theorem handleEnqueueSelectionCriteria_settles (criteria : SelectionCriteria)
    (mode : EnqueueSelectionMode) :
    Settles (handleEnqueueSelectionCriteria link naming criteria mode) := by
  refine .after (verbMpd_along (resolve_along naming (read_quiet link) criteria)) fun resolved => ?_
  refine .after (matchesNothing_along (read_quiet link) resolved) fun nothing => ?_
  split
  · exact .pure _
  · refine .after (selectionUris_along (read_quiet link) resolved _ mode) fun uris => ?_
    exact (Renews.after (applySelection_along (unpublished_playing link) resolved uris mode) fun _ =>
      (publishQueue_renews link).map _).settles

theorem handleEnqueueSelectionContainer_settles (sourceId : Option (List Char)) (uri : List Char)
    (mode : EnqueueSelectionMode) (pageSize : Option Nat) :
    Settles (handleEnqueueSelectionContainer ctx link sourceId uri mode pageSize) := by
  unfold handleEnqueueSelectionContainer
  split
  · exact .throw _
  · refine .after (resolveAll_along ctx _ _) fun tracks => ?_
    split
    · exact .pure _
    · exact (Renews.after (applyContainer_along (unpublished_playing link) tracks mode) fun _ =>
        (publishQueue_renews link).map _).settles

theorem handleEnqueueSelection_settles (payload : EnqueueSelectionPayload) :
    Settles (handleEnqueueSelection ctx link naming payload) := by
  refine .after (checkVersion_along _ _) fun _ => ?_
  split
  · exact handleEnqueueSelectionContainer_settles ctx link _ _ _ _
  · exact (handleEnqueueSelectionCriteria_settles link naming _ _).map _

theorem QueueCall.handle_settles (call : QueueCall) : Settles (call.handle ctx link naming) := by
  cases call with
  | enqueue payload => exact (handleEnqueue_settles ctx link payload).map _
  | enqueueSelection payload => exact (handleEnqueueSelection_settles ctx link naming payload).map _
  | removeQueueItem v id =>
    refine .map (.after (checkVersion_along _ _) fun _ => ?_) _
    exact (Renews.after (verbMpd_along (dispatch_mutates link rfl _)) fun _ =>
      publishQueue_renews link).settles
  | moveQueueItem v id toPosition =>
    refine .map (.after (checkVersion_along _ _) fun _ => ?_) _
    exact (Renews.after (verbMpd_along (dispatch_mutates link rfl _)) fun _ =>
      publishQueue_renews link).settles
  | clearQueue =>
    exact .map (Renews.after (verbMpd_along (dispatch_mutates link rfl _)) fun _ =>
      publishQueue_renews link).settles _
  | loadPlaylistToQueue v name start =>
    refine .map (.after (checkVersion_along _ _) fun _ => Renews.settles ?_) _
    refine .after (verbMpd_along (dispatch_mutates link rfl _)) fun _ => ?_
    refine .after (loadPlaylist_along ctx (unpublished_playing link) _ name) fun _ => ?_
    exact .after (autoStart_along (unpublished_playing link).quiet start) fun _ => publishQueue_renews link
  | appendPlaylistToQueue v name =>
    refine .map (.after (checkVersion_along _ _) fun _ => ?_) _
    exact (Renews.after (loadPlaylist_along ctx (unpublished_playing link) _ name) fun _ =>
      publishQueue_renews link).settles

/-- A verb that succeeds leaves the queue and the mirror alone, or publishes the
queue as it stands unless a read for the publish is not answered. A verb that
fails publishes nothing, and can have changed the queue only after it has sent
a command that does. -/
theorem queue_verb_mirror (call : QueueCall) (s : Session) :
    Triple (call.handle ctx link naming) s
      (fun _ s' => s'.server.queue = s.server.queue ∧ s'.mirror = s.mirror ∨
        s'.mirror = some s'.server.envelope ∨ s'.mirror = s.mirror ∧ s'.Unread)
      (fun _ s' => s'.mirror = s.mirror ∧
        (s'.server.queue = s.server.queue ∨ s.Mutated s')) :=
  (call.handle_settles ctx link naming s).mono (fun _ _ h => h) (fun _ _ h => ⟨h.mirror, h.queue⟩)

end Verbs

/-- A published, empty queue and two songs. -/
def publishedEmpty : Session :=
  { emptyQueue twoArtists with mirror := some (emptyQueue twoArtists).server.envelope }

/-- MPD takes every command but adding `b.flac`. -/
def refusesB : Link := fun _ command =>
  match command with
  | .addid uri _ => if uri = "b.flac".toList then .refuse 0 badSongIndex else .serve
  | _ => .serve

/-- The call fails at its second song. The first one is in the queue and not in
the mirror. -/
theorem failed_enqueue_leaves_mirror_behind :
    let call := QueueCall.enqueue ⟨1, ["a.flac".toList, "b.flac".toList], none⟩
    let outcome := (call.handle ⟨none, fun _ => none⟩ refusesB plainNaming publishedEmpty).1
    let s' := (call.handle ⟨none, fun _ => none⟩ refusesB plainNaming publishedEmpty).2
    outcome.isOk = false ∧ publishedEmpty.mirror = some publishedEmpty.server.envelope ∧
      s'.server.queue.rows.map Row.uri = ["a.flac".toList] ∧
      s'.server.queue ≠ publishedEmpty.server.queue ∧
      s'.mirror ≠ some s'.server.envelope ∧ s'.mirror = publishedEmpty.mirror := by
  decide

end EvoAudio.Playback
