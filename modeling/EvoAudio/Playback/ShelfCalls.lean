import EvoAudio.Lib.Machine
import EvoAudio.Playback.PlaylistVerbs

/-!
# The favourites among the playlists

Every call of the queue and playlist shelves, next to the ones that change the
queue the verbs of `queue.rs` that skip, play from a position and save the
queue as a playlist. The favourites are a stored playlist like any other;
`playlist.delete_playlist` and `playlist.rename_playlist` refuse it by name.
-/

namespace EvoAudio.Playback

open Mpd (MpdError)
open Procedure (Triple Along)

-- ---------------------------------------------------------------------------
-- The queue verbs that leave the queue alone
-- ---------------------------------------------------------------------------

def handleGetQueue : Procedure Session VerbError Envelope := do
  let s ← Procedure.get
  return s.mirror.getD ⟨[], 0, none, false⟩

/-- `save` does not overwrite, so the old playlist goes first. -/
def handleSaveQueueAsPlaylist (link : Link) (v : Nat) (playlistName : List Char)
    (overwrite : Bool) : Procedure Session VerbError Unit := do
  checkVersion v "queue.save_queue_as_playlist"
  if overwrite then do
    let _ ← (rmPlaylist link playlistName).attempt
    verbMpd "save_queue_as_playlist" (savePlaylist link playlistName)
  else verbMpd "save_queue_as_playlist" (savePlaylist link playlistName)

inductive SkipOutcome where
  | playing (position : Nat)
  | paused (lastAttempted : Nat)
  | stopped
  deriving DecidableEq, Repr

/-- The walk tries every item that is not known to be out of reach. -/
def advanceToNextPlayable (link : Link) (outOfReach : List Char → Bool) :
    List MpdQueueItem → Procedure Session VerbError SkipOutcome
  | [] => return .stopped
  | item :: items =>
    if outOfReach item.filePath then advanceToNextPlayable link outOfReach items
    else do
      match ← (playPosition link item.position).attempt with
      | .ok () => return .playing item.position
      | .error (.transport _) | .error (.timeout _ _) => return .paused item.position
      | .error _ => advanceToNextPlayable link outOfReach items

def handleSkipToNextAvailable (link : Link) (outOfReach : List Char → Bool) (v : Nat) :
    Procedure Session VerbError SkipOutcome := do
  checkVersion v "queue.skip_to_next_available"
  let view ← verbStep "skip_to_next_available" "playlistinfo" (playlistinfo link)
  let status ← verbMpd "skip_to_next_available" (status link)
  let start := (status.songPosition.map (· + 1)).getD 0
  let outcome ← advanceToNextPlayable link outOfReach (view.drop start)
  publishNowPlayingAfterTransport link
  publishQueue link
  return outcome

def validatePlayFromPosition (position length : Nat) : Except VerbError Unit :=
  if length = 0 then .error .queueEmpty
  else if position ≥ length then .error (.positionOutOfRange position length)
  else .ok ()

def handlePlayFromPosition (link : Link) (v position : Nat) : Procedure Session VerbError Unit := do
  checkVersion v "queue.play_from_position"
  let items ← verbMpd "play_from_position" (playlistinfo link)
  match validatePlayFromPosition position items.length with
  | .error error => .throw error
  | .ok () => do
    verbMpd "play_from_position" (playPosition link position)
    publishNowPlayingAfterTransport link
    publishQueue link

-- ---------------------------------------------------------------------------
-- The calls
-- ---------------------------------------------------------------------------

inductive ShelfCall where
  | queue (call : QueueCall)
  | getQueue
  | saveQueueAsPlaylist (v : Nat) (playlistName : List Char) (overwrite : Bool)
  | skipToNextAvailable (v : Nat)
  | playFromPosition (v position : Nat)
  | listPlaylists
  | getPlaylist (v : Nat) (name : List Char)
  | createPlaylist (v : Nat) (name : List Char)
  | deletePlaylist (v : Nat) (name : List Char)
  | renamePlaylist (v : Nat) (fromName toName : List Char)
  | addToPlaylist (v : Nat) (name : List Char) (uris : List (List Char))
  | removeFromPlaylist (v : Nat) (name : List Char) (positions : List Nat)
  | moveInPlaylist (v : Nat) (name : List Char) (fromPosition toPosition : Nat)
  | saveSelection (payload : SaveSelectionPayload)
  deriving DecidableEq, Repr

/-- What the two shelves are run with. -/
structure Wiring where
  queue : QueueContext
  playlists : PlaylistContext
  link : Link
  naming : Naming
  /-- The URIs that are known to be unavailable on a source out of reach. -/
  outOfReach : List Char → Bool

/-- The state a call leaves behind, whatever it answers. -/
def ShelfCall.run (wiring : Wiring) (s : Shelves) : ShelfCall → Shelves
  | .queue call => (onSession (call.handle wiring.queue wiring.link wiring.naming) s).2
  | .getQueue => (onSession handleGetQueue s).2
  | .saveQueueAsPlaylist v playlistName overwrite =>
    (onSession (handleSaveQueueAsPlaylist wiring.link v playlistName overwrite) s).2
  | .skipToNextAvailable v =>
    (onSession (handleSkipToNextAvailable wiring.link wiring.outOfReach v) s).2
  | .playFromPosition v position => (onSession (handlePlayFromPosition wiring.link v position) s).2
  | .listPlaylists => (handleListPlaylists s).2
  | .getPlaylist v name => (handleGetPlaylist wiring.link v name s).2
  | .createPlaylist v name => (handleCreatePlaylist wiring.link v name s).2
  | .deletePlaylist v name => (handleDeletePlaylist wiring.playlists wiring.link v name s).2
  | .renamePlaylist v fromName toName =>
    (handleRenamePlaylist wiring.playlists wiring.link v fromName toName s).2
  | .addToPlaylist v name uris => (handleAddToPlaylist wiring.link v name uris s).2
  | .removeFromPlaylist v name positions =>
    (handleRemoveFromPlaylist wiring.link v name positions s).2
  | .moveInPlaylist v name fromPosition toPosition =>
    (handleMoveInPlaylist wiring.link v name fromPosition toPosition s).2
  | .saveSelection payload =>
    (handleSaveSelection wiring.playlists wiring.link wiring.naming payload s).2

/-- Between the calls other clients and the favourites shelf write to MPD. -/
inductive ShelfAct where
  | call (request : ShelfCall)
  | elsewhere (server : Server)

def ShelfAct.step (wiring : Wiring) (s : Shelves) : ShelfAct → Option Shelves
  | .call request => some (request.run wiring s)
  | .elsewhere server => some { s with session := { s.session with server } }

-- ---------------------------------------------------------------------------
-- Sparing a playlist
-- ---------------------------------------------------------------------------

/-- A playlist that was there is there, with entries that follow from the old. -/
def Server.Carries (name : List Char) (R : List (List Char) → List (List Char) → Prop)
    (server server' : Server) : Prop :=
  ∀ list, server.playlists.lookup name = some list →
    ∃ list', server'.playlists.lookup name = some list' ∧ R list list'

/-- No command was sent that takes the playlist away, empties it or renames it,
and its entries follow from the old ones. -/
structure Session.Spares (name : List Char) (R : List (List Char) → List (List Char) → Prop)
    (s s' : Session) : Prop where
  log : ∃ sent, s'.log = sent ++ s.log ∧ ∀ entry ∈ sent, entry.1.replaces name = false
  entries : s.server.Carries name R s'.server

section Sparing

variable {name : List Char} {R : List (List Char) → List (List Char) → Prop}

theorem Server.Carries.of_lookup_eq [IsPreorder _ R] {server server' : Server}
    (h : server'.playlists.lookup name = server.playlists.lookup name) :
    server.Carries name R server' :=
  fun list hlist => ⟨list, h.trans hlist, refl_of R list⟩

theorem Server.Carries.trans [IsPreorder _ R] {a b c : Server} (h : a.Carries name R b)
    (h' : b.Carries name R c) : a.Carries name R c := by
  intro list hlist
  obtain ⟨list₁, hlist₁, hR⟩ := h list hlist
  obtain ⟨list₂, hlist₂, hR'⟩ := h' list₁ hlist₁
  exact ⟨list₂, hlist₂, trans_of R hR hR'⟩

instance [IsPreorder _ R] : IsPreorder Session (Session.Spares name R) where
  refl _ := ⟨⟨[], rfl, by simp⟩, .of_lookup_eq rfl⟩
  trans := by
    rintro s s' s'' ⟨⟨sent, hlog, hsent⟩, hentries⟩ ⟨⟨sent', hlog', hsent'⟩, hentries'⟩
    refine ⟨⟨sent' ++ sent, by rw [hlog', hlog, List.append_assoc], ?_⟩, hentries.trans hentries'⟩
    intro entry hentry
    exact (List.mem_append.mp hentry).elim (hsent' entry) (hsent entry)

theorem dispatch_spares (link : Link) {command : Command}
    {effect : Server → Except MpdError (α × Server)} [IsPreorder _ R]
    (hcommand : command.replaces name = false)
    (heffect : ∀ server a server', effect server = .ok (a, server') →
      server.Carries name R server') :
    Along (Session.Spares name R) (dispatch link command effect) := by
  have hsent (answered : Bool) (s s' : Session) (h : s'.log = (command, answered) :: s.log) :
      ∃ sent, s'.log = sent ++ s.log ∧ ∀ entry ∈ sent, entry.1.replaces name = false := by
    refine ⟨[(command, answered)], h, fun entry hentry => ?_⟩
    cases List.mem_singleton.mp hentry
    exact hcommand
  refine .of_triple fun s => (dispatch_run link command effect s).mono ?_ ?_
  · rintro a s' ⟨hrun, -, hlog⟩
    exact ⟨hsent _ _ _ hlog, heffect _ _ _ hrun⟩
  · rintro e s' ⟨hserver | ⟨a, hrun⟩, -, hlog⟩
    · exact ⟨hsent _ _ _ hlog, .of_lookup_eq (by rw [hserver])⟩
    · exact ⟨hsent _ _ _ hlog, heffect _ _ _ hrun⟩

theorem runBatch_carries [IsPreorder _ R] {batch : List Batched}
    (h : ∀ command ∈ batch, ∀ server server', command.effect server = .ok ((), server') →
      server.Carries name R server') (server : Server) :
    server.Carries name R (runBatch batch server).2 := by
  induction batch generalizing server with
  | nil => exact .of_lookup_eq rfl
  | cons command batch ih =>
    unfold runBatch
    split
    next server' heffect =>
      have hrest := ih (fun command hcommand => h command (List.mem_cons_of_mem _ hcommand)) server'
      exact (h command (List.mem_cons_self ..) server server' heffect).trans hrest
    next => exact .of_lookup_eq rfl

theorem commandList_spares (link : Link) [IsPreorder _ R] {batch : List Batched}
    (h : ∀ command ∈ batch, ∀ server server', command.effect server = .ok ((), server') →
      server.Carries name R server') :
    Along (Session.Spares name R) (commandList link batch) := by
  intro s
  have hspares {server : Server} {answered : Bool} (hserver : s.server.Carries name R server) :
      s.Spares name R ⟨server, s.mirror, (.commandList batch, answered) :: s.log⟩ := by
    refine ⟨⟨[(.commandList batch, answered)], rfl, fun entry hentry => ?_⟩, hserver⟩
    cases List.mem_singleton.mp hentry
    rfl
  unfold commandList
  split
  · exact refl_of (Session.Spares name R) s
  · cases link s.log.length (.commandList batch) with
    | serve =>
      have hrun := runBatch_carries h s.server
      dsimp only
      split <;> rename_i heq <;> rw [heq] at hrun <;> exact hspares hrun
    | refuse executed error =>
      refine hspares (runBatch_carries (fun command hcommand => ?_) s.server)
      exact h command (List.mem_of_mem_take hcommand)
    | lose error => exact hspares (runBatch_carries h s.server)

theorem Session.Looked.spares [IsPreorder _ R] {s s' : Session} (h : s.Looked s') :
    s.Spares name R s' := by
  obtain ⟨sent, hlog, hsent⟩ := h.log
  exact ⟨⟨sent, hlog, fun entry hentry => hsent entry hentry name⟩, .of_lookup_eq (by rw [h.server])⟩

theorem spares_playing (link : Link) [IsPreorder _ R] : Playing link (Session.Spares name R) where
  quiet command effect hcommand heffect := by
    refine dispatch_spares link (hcommand name) fun server a server' h => .of_lookup_eq ?_
    rw [(heffect server a server' h).2]
  edit command effect _ hcommand heffect := by
    refine dispatch_spares link (hcommand name) fun server a server' h => .of_lookup_eq ?_
    rw [heffect server a server' h]
  batch batch hbatch := by
    refine commandList_spares link fun command hcommand server server' h => .of_lookup_eq ?_
    rw [hbatch command hcommand server server' h]

-- ---------------------------------------------------------------------------
-- The commands that write playlists
-- ---------------------------------------------------------------------------

variable {playlist : List Char} [IsPreorder _ R]

theorem Server.appendToPlaylist_carries {server : Server} {named : [] ∉ list}
    (h : playlist = name → ∀ l l', l <+: l' → R l l') :
    server.Carries name R (server.appendToPlaylist playlist list named) := by
  intro old hold
  rw [appendToPlaylist, lookup_putPlaylist]
  split
  next heq =>
    subst heq
    rw [hold]
    exact ⟨_, rfl, h rfl _ _ (List.prefix_append _ _)⟩
  next => exact ⟨old, hold, refl_of R old⟩

theorem Server.playlistadd_carries {server server' : Server}
    (h : playlist = name → ∀ l l', l <+: l' → R l l')
    (heffect : server.playlistadd playlist uri = .ok ((), server')) :
    server.Carries name R server' := by
  unfold playlistadd at heffect
  split at heffect <;> cases heffect
  exact appendToPlaylist_carries h

theorem Server.searchaddpl_carries {server server' : Server}
    (h : playlist = name → ∀ l l', l <+: l' → R l l')
    (heffect : server.searchaddpl playlist pairs = .ok ((), server')) :
    server.Carries name R server' := by
  cases heffect
  exact appendToPlaylist_carries h

theorem Server.playlistdelete_carries {server server' : Server}
    (h : playlist = name → ∀ l l', l'.Sublist l → R l l')
    (heffect : server.playlistdelete playlist position = .ok ((), server')) :
    server.Carries name R server' := by
  unfold playlistdelete at heffect
  split at heffect
  · cases heffect
  · split at heffect <;> cases heffect
    intro old hold
    dsimp only
    rw [Table.lookup_edit server.playlists playlist name (·.eraseIdx position)]
    split
    next heq =>
      rw [hold]
      exact ⟨_, rfl, h heq.symm _ _ (List.eraseIdx_sublist ..)⟩
    next => exact ⟨old, hold, refl_of R old⟩

theorem Server.playlistmove_carries {server server' : Server}
    (h : playlist = name → ∀ l l', l.Perm l' → R l l')
    (heffect : server.playlistmove playlist source target = .ok ((), server')) :
    server.Carries name R server' := by
  unfold playlistmove at heffect
  split at heffect
  next => cases heffect
  next list hlist =>
    split at heffect
    next => cases heffect
    next entry hentry =>
      split at heffect
      · cases heffect
      next htarget =>
        cases heffect
        intro old hold
        rw [lookup_putPlaylist]
        split
        next heq =>
          subst heq
          obtain rfl := Option.some.inj (hlist.symm.trans hold)
          obtain ⟨hsource, rfl⟩ := List.getElem?_eq_some_iff.mp hentry
          have hlength := List.length_eraseIdx_of_lt hsource
          refine ⟨_, rfl, h rfl _ _ (((List.perm_insertIdx _ _ ?_).trans
            (List.getElem_cons_eraseIdx_perm hsource)).symm)⟩
          omega
        next => exact ⟨old, hold, refl_of R old⟩

theorem Server.save_carries {server server' : Server}
    (heffect : server.save playlist = .ok ((), server')) : server.Carries name R server' := by
  unfold save at heffect
  split at heffect
  next => cases heffect
  next hnone =>
    cases heffect
    intro old hold
    rw [lookup_putPlaylist]
    split
    next heq => cases hnone.symm.trans (heq ▸ hold)
    next => exact ⟨old, hold, refl_of R old⟩

theorem Server.rm_carries {server server' : Server} (hne : playlist ≠ name)
    (heffect : server.rm playlist = .ok ((), server')) : server.Carries name R server' := by
  unfold rm at heffect
  split at heffect <;> cases heffect
  refine .of_lookup_eq ?_
  dsimp only
  rw [Table.lookup_filter_ne, if_neg hne.symm]

theorem Server.playlistclear_carries {server server' : Server} (hne : playlist ≠ name)
    (heffect : server.playlistclear playlist = .ok ((), server')) :
    server.Carries name R server' := by
  unfold playlistclear at heffect
  split at heffect <;> cases heffect
  refine .of_lookup_eq ?_
  rw [lookup_putPlaylist, if_neg hne.symm]

theorem Server.rename_carries {server server' : Server} (hsource : source ≠ name)
    (htarget : target ≠ name) (heffect : server.rename source target = .ok ((), server')) :
    server.Carries name R server' := by
  unfold rename at heffect
  split at heffect <;> cases heffect
  exact .of_lookup_eq (Table.lookup_rekey _ hsource.symm htarget.symm)

-- ---------------------------------------------------------------------------
-- The queue shelf
-- ---------------------------------------------------------------------------

variable (ctx : QueueContext) (link : Link) (naming : Naming)

theorem publishQueue_spares : Along (Session.Spares name R) (publishQueue link) := by
  have hquiet : Quiet link (Session.Spares name R) := (spares_playing link).quiet
  refine .bind (.attempt (.bind (hquiet.read _ _ fun _ => rfl) fun _ =>
    .bind (hquiet.read _ _ fun _ => rfl) fun _ => .pure _)) fun outcome => ?_
  cases outcome with
  | ok envelope => exact fun s => ⟨⟨[], rfl, by simp⟩, .of_lookup_eq rfl⟩
  | error error => exact .pure _

theorem handleEnqueueSelection_spares (payload : EnqueueSelectionPayload) :
    Along (Session.Spares name R) (handleEnqueueSelection ctx link naming payload) := by
  have hplaying : Playing link (Session.Spares name R) := spares_playing link
  refine .bind (checkVersion_along _ _) fun _ => ?_
  split
  · unfold handleEnqueueSelectionContainer
    split
    · exact .throw _
    · refine .bind (resolveAll_along ctx _ _) fun tracks => ?_
      split
      · exact .pure _
      · exact .bind (applyContainer_along hplaying tracks _) fun _ =>
          .bind (publishQueue_spares link) fun _ => .pure _
  · refine .bind ?_ fun _ => .pure _
    refine .bind (verbMpd_along (resolve_along naming hplaying.quiet _)) fun resolved => ?_
    refine .bind (matchesNothing_along hplaying.quiet resolved) fun nothing => ?_
    split
    · exact .pure _
    · refine .bind (selectionUris_along hplaying.quiet resolved _ _) fun uris => ?_
      exact .bind (applySelection_along hplaying resolved uris _) fun _ =>
        .bind (publishQueue_spares link) fun _ => .pure _

/-- Nothing that changes the queue writes to a playlist. -/
theorem QueueCall.handle_spares (call : QueueCall) :
    Along (Session.Spares name R) (call.handle ctx link naming) := by
  have hplaying : Playing link (Session.Spares name R) := spares_playing link
  cases call with
  | enqueue payload =>
    refine .bind (.bind (checkVersion_along _ _) fun _ => ?_) fun _ => .pure _
    split
    · exact .throw _
    · refine .bind (resolveAll_along ctx _ _) fun tracks => ?_
      refine .bind (enqueuePosition_along hplaying.quiet _) fun position => ?_
      exact .bind (addTracks_along hplaying _ position tracks) fun _ => publishQueue_spares link
  | enqueueSelection payload =>
    exact .bind (handleEnqueueSelection_spares ctx link naming payload) fun _ => .pure _
  | removeQueueItem v id =>
    refine .bind (.bind (checkVersion_along _ _) fun _ => .bind (verbMpd_along ?_) fun _ =>
      publishQueue_spares link) fun _ => .pure _
    exact hplaying.edit _ _ rfl (fun _ => rfl) fun _ _ _ h => Server.deleteid_playlists h
  | moveQueueItem v id toPosition =>
    refine .bind (.bind (checkVersion_along _ _) fun _ => .bind (verbMpd_along ?_) fun _ =>
      publishQueue_spares link) fun _ => .pure _
    exact hplaying.edit _ _ rfl (fun _ => rfl) fun _ _ _ h => Server.moveid_playlists h
  | clearQueue =>
    exact .bind (.bind (verbMpd_along (clear_along hplaying)) fun _ => publishQueue_spares link)
      fun _ => .pure _
  | loadPlaylistToQueue v playlist start =>
    refine .bind (.bind (checkVersion_along _ _) fun _ => ?_) fun _ => .pure _
    refine .bind (verbMpd_along (clear_along hplaying)) fun _ => ?_
    refine .bind (loadPlaylist_along ctx hplaying _ playlist) fun _ => ?_
    exact .bind (autoStart_along hplaying.quiet start) fun _ => publishQueue_spares link
  | appendPlaylistToQueue v playlist =>
    refine .bind (.bind (checkVersion_along _ _) fun _ => ?_) fun _ => .pure _
    exact .bind (loadPlaylist_along ctx hplaying _ playlist) fun _ => publishQueue_spares link

theorem handleSkipToNextAvailable_spares (outOfReach : List Char → Bool) (v : Nat) :
    Along (Session.Spares name R) (handleSkipToNextAvailable link outOfReach v) := by
  have hquiet : Quiet link (Session.Spares name R) := (spares_playing link).quiet
  have hwalk (items : List MpdQueueItem) :
      Along (Session.Spares name R) (advanceToNextPlayable link outOfReach items) := by
    induction items with
    | nil => exact .pure _
    | cons item items ih =>
      unfold advanceToNextPlayable
      split
      · exact ih
      · refine .bind (.attempt (playPosition_along hquiet _)) fun outcome => ?_
        split
        · exact .pure _
        · exact .pure _
        · exact .pure _
        · exact ih
  refine .bind (checkVersion_along _ _) fun _ => ?_
  refine .bind (.mapError (hquiet.read _ _ fun _ => rfl)) fun view => ?_
  refine .bind (verbMpd_along (hquiet.read _ _ fun _ => rfl)) fun status => ?_
  refine .bind (hwalk _) fun outcome => .bind (publishNowPlaying_along hquiet) fun _ => ?_
  exact .bind (publishQueue_spares link) fun _ => .pure _

theorem handlePlayFromPosition_spares (v position : Nat) :
    Along (Session.Spares name R) (handlePlayFromPosition link v position) := by
  have hquiet : Quiet link (Session.Spares name R) := (spares_playing link).quiet
  refine .bind (checkVersion_along _ _) fun _ => ?_
  refine .bind (verbMpd_along (hquiet.read _ _ fun _ => rfl)) fun items => ?_
  split
  · exact .throw _
  · refine .bind (verbMpd_along (playPosition_along hquiet _)) fun _ => ?_
    exact .bind (publishNowPlaying_along hquiet) fun _ => publishQueue_spares link

theorem savePlaylist_spares (playlist : List Char) :
    Along (Session.Spares name R) (savePlaylist link playlist) :=
  dispatch_spares link rfl fun _ _ _ h => Server.save_carries h

theorem handleSaveQueueAsPlaylist_spares (v : Nat) (playlist : List Char) (overwrite : Bool)
    (h : overwrite = true → playlist ≠ name) :
    Along (Session.Spares name R) (handleSaveQueueAsPlaylist link v playlist overwrite) := by
  refine .bind (checkVersion_along _ _) fun _ => ?_
  cases overwrite with
  | false => exact verbMpd_along (savePlaylist_spares link playlist)
  | true =>
    have hne := h rfl
    refine .bind (.attempt (dispatch_spares link ?_ fun _ _ _ h => Server.rm_carries hne h))
      fun _ => verbMpd_along (savePlaylist_spares link playlist)
    simpa [Command.replaces] using hne

-- ---------------------------------------------------------------------------
-- The playlist shelf
-- ---------------------------------------------------------------------------

theorem checkPayload_run (v : Nat) (verb : String) (names : List (List Char)) (s : Shelves) :
    Triple (checkPayload v verb names) s
      (fun _ s' => s' = s ∧ v = playlistPayloadVersion ∧
        ∀ playlist ∈ names, validatePlaylistName playlist = .ok ())
      (fun _ s' => s' = s) := by
  have hnames : Triple (Procedure.each checkName names) s
      (fun _ s' => s' = s ∧ ∀ playlist ∈ names, validatePlaylistName playlist = .ok ())
      (fun _ s' => s' = s) := by
    induction names with
    | nil => exact .pure ⟨rfl, by simp⟩
    | cons playlist names ih =>
      have hcheck : Triple (checkName playlist) s
          (fun _ s' => s' = s ∧ validatePlaylistName playlist = .ok ()) (fun _ s' => s' = s) := by
        unfold checkName
        split
        next hvalid => exact .pure ⟨rfl, hvalid⟩
        next => exact .throw rfl
      refine .bind hcheck ?_
      rintro _ _ ⟨rfl, hvalid⟩
      refine ih.mono ?_ fun _ _ h => h
      rintro _ _ ⟨rfl, hvalids⟩
      exact ⟨rfl, List.forall_mem_cons.mpr ⟨hvalid, hvalids⟩⟩
  unfold checkPayload checkPlaylistVersion
  split
  · exact .bind (Q := fun _ _ => False) (.throw rfl) fun _ _ h => h.elim
  next hversion =>
    refine .bind (Q := fun _ s' => s' = s) (.pure rfl) ?_
    rintro _ _ rfl
    exact hnames.mono (fun _ _ h => ⟨h.1, not_not.mp hversion, h.2⟩) fun _ _ h => h

theorem checkPayload_along {S : Session → Session → Prop} [IsPreorder Session S] (v : Nat)
    (verb : String) (names : List (List Char)) :
    Along (Shelves.Via S) (checkPayload v verb names) := by
  refine .of_triple fun s => (checkPayload_run v verb names s).mono ?_ ?_
  · rintro _ _ ⟨rfl, -⟩
    exact refl_of S _
  · rintro _ _ rfl
    exact refl_of S _

theorem publishIndex_spares : Along (Shelves.Via (Session.Spares name R)) (publishIndex link) :=
  fun s => (publishIndex_looks link s).spares

theorem writePlaylist_spares (verb : String) {batch : List Batched}
    (h : ∀ command ∈ batch, ∀ server server', command.effect server = .ok ((), server') →
      server.Carries name R server') :
    Along (Shelves.Via (Session.Spares name R)) (writePlaylist link verb batch) :=
  .bind (playlistMpd_via (commandList_spares link h)) fun _ => publishIndex_spares link

theorem handleGetPlaylist_spares (v : Nat) (playlist : List Char) :
    Along (Shelves.Via (Session.Spares name R)) (handleGetPlaylist link v playlist) := by
  have hplaying : Playing link (Session.Spares name R) := spares_playing link
  refine .bind (checkPayload_along _ _ _) fun _ => ?_
  refine .bind (.attempt (onSession_via (listplaylistinfo_along hplaying.quiet _))) fun outcome => ?_
  cases outcome with
  | ok entries => exact .pure _
  | error error =>
    dsimp only
    split <;> exact .throw _

theorem playlistclear_spares (hne : playlist ≠ name) :
    Along (Session.Spares name R) (playlistclear link playlist) := by
  refine dispatch_spares link ?_ fun _ _ _ h => Server.playlistclear_carries hne h
  simpa [Command.replaces] using hne

theorem firstSongIn_spares (budget : Nat) (pending : List (List Char)) :
    Along (Shelves.Via (Session.Spares name R)) (firstSongIn link budget pending) := by
  have hplaying : Playing link (Session.Spares name R) := spares_playing link
  have hlsinfo (dir : List Char) : Along (Session.Spares name R) (lsinfo link dir) := by
    refine hplaying.quiet _ _ (fun _ => rfl) fun server a server' h => ?_
    unfold Server.lsinfo at h
    split at h <;> cases h
    exact ⟨rfl, rfl⟩
  induction budget generalizing pending with
  | zero => exact .pure _
  | succ budget ih =>
    cases pending with
    | nil => exact .pure _
    | cons dir pending =>
      refine .bind (onSession_via (hlsinfo dir).mapError) fun entries => ?_
      split
      · exact .pure _
      · exact ih _

theorem seedPlaylist_spares (hne : playlist ≠ name) (seed : List Char) :
    Along (Shelves.Via (Session.Spares name R)) (seedPlaylist link playlist seed) := by
  refine .bind (onSession_via (.mapError (dispatch_spares link rfl fun _ _ _ h =>
    Server.playlistadd_carries (fun heq => absurd heq hne) h))) fun _ => ?_
  refine .bind (.attempt (onSession_via (dispatch_spares link rfl fun _ _ _ h =>
    Server.playlistdelete_carries (fun heq => absurd heq hne) h))) fun outcome => ?_
  cases outcome with
  | ok _ => exact publishIndex_spares link
  | error error =>
    exact .bind (.attempt (onSession_via (playlistclear_spares link hne))) fun _ => .throw _

theorem listplaylists_run (verb : String) (s : Shelves) :
    Triple (playlistMpd verb (listplaylists link)) s
      (fun names s' => names = s.session.server.listplaylists ∧ Shelves.Via Session.Looked s s')
      (fun _ s' => Shelves.Via Session.Looked s s') := by
  have hlooked (answered : Bool) :
      s.session.Looked (s.session.sent .listplaylists answered) := by
    refine ⟨rfl, [(.listplaylists, answered)], rfl, fun entry hentry _ => ?_⟩
    cases List.mem_singleton.mp hentry
    rfl
  refine (playlistMpd_triple (dispatch_read_run link .listplaylists _ s.session)).mono ?_ ?_
  · rintro names s' ⟨rfl, hs'⟩
    exact ⟨rfl, show s.session.Looked s'.session from hs' ▸ hlooked true⟩
  · rintro _ s' ⟨-, hs'⟩
    exact show s.session.Looked s'.session from hs' ▸ hlooked false

/-- A playlist that exists is not created again. -/
theorem handleCreatePlaylist_spares (v : Nat) (playlist : List Char) (s : Shelves)
    (hexists : (s.session.server.playlists.lookup name).isSome) :
    Shelves.Via (Session.Spares name R) s (handleCreatePlaylist link v playlist s).2 := by
  by_cases hname : playlist = name
  · have hmem : s.session.server.listplaylists.contains playlist := by
      obtain ⟨list, hlist⟩ := Option.isSome_iff_exists.mp hexists
      obtain ⟨before, after, hsplit, -⟩ := List.lookup_eq_some_iff.mp hlist
      simp [Server.listplaylists, hsplit, hname]
    refine Triple.state (P := Shelves.Via (Session.Spares name R) s)
      (.bind (Q := fun _ s' => s' = s) ((checkPayload_run v _ _ s).mono (fun _ _ h => h.1) ?_) ?_)
    · rintro _ _ rfl
      exact refl_of (Session.Spares name R) _
    · rintro _ s rfl
      refine .bind ((listplaylists_run link _ s).mono (fun _ _ h => h)
        fun _ _ h => Session.Looked.spares h) ?_
      rintro names s' ⟨rfl, hlooked⟩
      rw [if_pos hmem]
      exact .throw (Session.Looked.spares hlooked)
  · have hread : Along (Session.Spares name R) (listplaylists link) :=
      Quiet.read (spares_playing link).quiet _ _ fun _ => rfl
    have halong : Along (Shelves.Via (Session.Spares name R))
        (handleCreatePlaylist link v playlist) := by
      refine .bind (checkPayload_along _ _ _) fun _ => ?_
      refine .bind (playlistMpd_via hread) fun names => ?_
      split
      · exact .throw _
      · refine .bind (firstSongIn_spares link _ _) fun seed => ?_
        cases seed with
        | none => exact .throw _
        | some seed => exact seedPlaylist_spares link hname seed
    exact halong s

theorem handleDeletePlaylist_spares (ctx : PlaylistContext) (v : Nat) (playlist : List Char) :
    Along (Shelves.Via (Session.Spares ctx.favouritesName R))
      (handleDeletePlaylist ctx link v playlist) := by
  refine .bind (checkPayload_along _ _ _) fun _ => ?_
  split
  next => exact .throw _
  next hne =>
    refine .bind (.attempt (onSession_via (dispatch_spares link ?_ fun _ _ _ h =>
      Server.rm_carries hne h))) fun outcome => ?_
    · simpa [Command.replaces] using hne
    · cases outcome with
      | ok _ => exact publishIndex_spares link
      | error error =>
        dsimp only
        split <;> exact .throw _

theorem handleRenamePlaylist_spares (ctx : PlaylistContext) (v : Nat)
    (fromName toName : List Char) :
    Along (Shelves.Via (Session.Spares ctx.favouritesName R))
      (handleRenamePlaylist ctx link v fromName toName) := by
  refine .bind (checkPayload_along _ _ _) fun _ => ?_
  split
  next => exact .throw _
  next hne =>
    obtain ⟨hfrom, hto⟩ := not_or.mp hne
    refine .bind (.attempt (onSession_via (dispatch_spares link ?_ fun _ _ _ h =>
      Server.rename_carries hfrom hto h))) fun outcome => ?_
    · simp [Command.replaces, hfrom, hto]
    · cases outcome with
      | ok _ => exact publishIndex_spares link
      | error error =>
        dsimp only
        split
        · exact .throw _
        · split <;> exact .throw _

theorem handleAddToPlaylist_spares (h : playlist = name → ∀ l l', l <+: l' → R l l') (v : Nat)
    (uris : List (List Char)) :
    Along (Shelves.Via (Session.Spares name R)) (handleAddToPlaylist link v playlist uris) := by
  refine .bind (checkPayload_along _ _ _) fun _ => ?_
  split
  · exact .pure _
  · refine writePlaylist_spares link _ fun command hcommand server server' heffect => ?_
    obtain ⟨uri, -, rfl⟩ := List.mem_map.mp hcommand
    exact Server.playlistadd_carries h heffect

theorem handleRemoveFromPlaylist_spares (h : playlist = name → ∀ l l', l'.Sublist l → R l l')
    (v : Nat) (positions : List Nat) :
    Along (Shelves.Via (Session.Spares name R))
      (handleRemoveFromPlaylist link v playlist positions) := by
  refine .bind (checkPayload_along _ _ _) fun _ => ?_
  split
  · exact .pure _
  · refine writePlaylist_spares link _ fun command hcommand server server' heffect => ?_
    obtain ⟨position, -, rfl⟩ := List.mem_map.mp hcommand
    exact Server.playlistdelete_carries h heffect

theorem handleMoveInPlaylist_spares (h : playlist = name → ∀ l l', l.Perm l' → R l l')
    (v fromPosition toPosition : Nat) :
    Along (Shelves.Via (Session.Spares name R))
      (handleMoveInPlaylist link v playlist fromPosition toPosition) := by
  refine .bind (checkPayload_along _ _ _) fun _ => ?_
  refine .bind (playlistMpd_via (dispatch_spares link rfl fun _ _ _ heffect =>
    Server.playlistmove_carries h heffect)) fun _ => publishIndex_spares link

theorem selectsNothing_along {S : Session → Session → Prop} [IsPreorder Session S]
    (hquiet : Quiet link S) (resolved : ResolvedSelection) :
    Along S (selectsNothing link resolved) := by
  cases resolved with
  | uriList list => exact .pure _
  | filter pairs substring => exact .bind (countMatching_along hquiet pairs) fun _ => .pure _

/-- A selection that does not start by emptying the playlist adds to it. -/
theorem handleSaveSelection_spares (ctx : PlaylistContext) (payload : SaveSelectionPayload)
    (hstart : payload.mode = .append ∨ payload.playlistName ≠ name)
    (h : payload.playlistName = name → ∀ l l', l <+: l' → R l l') :
    Along (Shelves.Via (Session.Spares name R)) (handleSaveSelection ctx link naming payload) := by
  have hplaying : Playing link (Session.Spares name R) := spares_playing link
  have hopen : Along (Shelves.Via (Session.Spares name R))
      (startPlaylist ctx link payload.playlistName payload.mode) := by
    cases hmode : payload.mode with
    | append => exact .pure _
    | create =>
      have hne : payload.playlistName ≠ name := hstart.resolve_left (by simp [hmode])
      refine .bind (.attempt (onSession_via (playlistclear_spares link hne))) fun outcome => ?_
      cases outcome with
      | ok _ => exact .pure _
      | error error =>
        dsimp only
        split
        · exact .pure _
        · exact .throw _
  have hadds (uris : List (List Char)) : Along (Shelves.Via (Session.Spares name R))
      (writePlaylist link "save_selection" (uris.map (.playlistadd payload.playlistName))) := by
    refine writePlaylist_spares link _ fun command hcommand server server' heffect => ?_
    obtain ⟨uri, -, rfl⟩ := List.mem_map.mp hcommand
    exact Server.playlistadd_carries h heffect
  refine .bind (checkPayload_along _ _ _) fun _ => ?_
  split
  · unfold handleSaveSelectionContainer
    split
    · exact .throw _
    · split
      · exact .pure _
      · exact .bind hopen fun _ => .bind (hadds _) fun _ => .pure _
  · refine .bind (playlistMpd_via (resolve_along naming hplaying.quiet _)) fun resolved => ?_
    refine .bind (playlistMpd_via (selectsNothing_along link hplaying.quiet resolved)) fun _ => ?_
    split
    · exact .pure _
    · refine .bind hopen fun _ => .bind ?_ fun _ => ?_
      · cases resolved with
        | uriList uris => exact hadds uris
        | filter pairs substring =>
          refine writePlaylist_spares link _ fun command hcommand server server' heffect => ?_
          cases List.mem_singleton.mp hcommand
          exact Server.searchaddpl_carries h heffect
      · split <;> exact .pure _

end Sparing

-- ---------------------------------------------------------------------------
-- What is answered is true
-- ---------------------------------------------------------------------------

/-- An answer that comes over a link also comes over one that serves all. -/
def Agrees (act act' : Procedure Session ε α) : Prop :=
  ∀ s t a s', s.server = t.server → act s = (.ok a, s') →
    ∃ t', act' t = (.ok a, t') ∧ s'.server = t'.server

namespace Agrees

theorem pure (a : α) : Agrees (Pure.pure a : Procedure Session ε α) (Pure.pure a) := by
  rintro s t _ _ hserver ⟨⟩
  exact ⟨t, rfl, hserver⟩

theorem bind {act act' : Procedure Session ε α} {f f' : α → Procedure Session ε β}
    (h : Agrees act act') (hf : ∀ a, Agrees (f a) (f' a)) : Agrees (act >>= f) (act' >>= f') := by
  intro s t b s'' hserver hrun
  obtain ⟨a, s', hact, hrest⟩ := Procedure.of_run_bind_ok hrun
  obtain ⟨t', hact', hserver'⟩ := h s t a s' hserver hact
  obtain ⟨t'', hrest', hserver''⟩ := hf a s' t' b s'' hserver' hrest
  exact ⟨t'', (Procedure.run_bind_ok hact').trans hrest', hserver''⟩

theorem dispatch (link : Link) (command : Command)
    (effect : Server → Except MpdError (α × Server)) :
    Agrees (dispatch link command effect) (dispatch serving command effect) := by
  intro s t a s' hserver hrun
  have heffect := ((dispatch_run link command effect s).ok hrun).1
  exact ⟨_, dispatch_served rfl (hserver ▸ heffect), rfl⟩

end Agrees

theorem resolve_agrees (link : Link) (naming : Naming) (criteria : SelectionCriteria) :
    Agrees (resolve link naming criteria) (resolve serving naming criteria) := by
  have heach (field : MpdSearchField) (values : List (List Char)) :
      Agrees (findEach link field values) (findEach serving field values) := by
    induction values with
    | nil => exact .pure _
    | cons value values ih => exact .bind (.dispatch _ _ _) fun _ => .bind ih fun _ => .pure _
  unfold resolve
  dsimp only
  split
  · exact .pure _
  · cases criteria.dimension with
    | artist =>
      dsimp only [resolveArtist]
      split
      · exact .pure _
      · refine .bind (.dispatch _ _ _) fun _ => .bind (.dispatch _ _ _) fun _ => ?_
        exact .bind (heach _ _) fun _ => .bind (heach _ _) fun _ => .pure _
    | album => exact .bind (.dispatch _ _ _) fun _ => .pure _
    | genre | year | folder => exact .pure _
    | playlist => exact .bind (.dispatch _ _ _) fun _ => .pure _

theorem selectsNothing_run (link : Link) {resolved : ResolvedSelection} (h : resolved.Searchable)
    (s : Session) :
    Triple (selectsNothing link resolved) s
      (fun nothing _ => nothing = vacant s.server.library resolved) (fun _ _ => True) := by
  cases resolved with
  | uriList list => exact .pure rfl
  | filter pairs substring =>
    have hne : pairs.isEmpty = false := by simpa using h.1
    have hcount : Triple (countMatching link pairs) s
        (fun songs _ => songs = (s.server.library.find pairs).length) (fun _ _ => True) := by
      simp only [countMatching, hne]
      exact (dispatch_read_run link _ _ s).mono (fun _ _ h => h.1) fun _ _ _ => trivial
    refine .bind hcount ?_
    rintro songs s' rfl
    exact .pure rfl

/-- The selection has something to write, as far as the verb looks beforehand. -/
def SaveSelectionPayload.writes (ctx : PlaylistContext) (naming : Naming) (server : Server)
    (payload : SaveSelectionPayload) : Bool :=
  match payload.selection with
  | .container uri =>
    match containerPage ctx payload uri with
    | .ok (stableUris, _) => !stableUris.isEmpty
    | .error _ => false
  | .criteria criteria =>
    match (resolve serving naming criteria ⟨server, none, []⟩).1 with
    | .ok resolved => !vacant server.library resolved
    | .error _ => false

section Idle

variable {R : List (List Char) → List (List Char) → Prop} [IsPreorder _ R]
  (ctx : PlaylistContext) (link : Link) (naming : Naming)

/-- A selection that would match nothing resolves to one that does. -/
theorem resolve_vacant {criteria : SelectionCriteria} {s : Session}
    (h : ∀ resolved, (resolve serving naming criteria ⟨s.server, none, []⟩).1 = .ok resolved →
      vacant s.server.library resolved = true) :
    Triple (resolve link naming criteria) s
      (fun resolved s' => s.Spares name R s' ∧ s'.server = s.server ∧ resolved.Searchable ∧
        vacant s.server.library resolved = true)
      (fun _ s' => s.Spares name R s') := by
  have hplaying : Playing link (Session.Spares name R) := spares_playing link
  have halong := resolve_along naming hplaying.quiet criteria s
  refine .of_run (fun resolved s' hrun => ?_) fun e s' hrun => ?_
  · obtain ⟨hresolves, hserver, -⟩ := (resolve_run link naming criteria s).ok hrun
    obtain ⟨t, hserving, -⟩ :=
      resolve_agrees link naming criteria s ⟨s.server, none, []⟩ resolved s' rfl hrun
    rw [hrun] at halong
    exact ⟨halong, hserver, hresolves.searchable, h resolved (by rw [hserving])⟩
  · rwa [hrun] at halong

/-- With nothing to write the playlist is not emptied either. -/
theorem handleSaveSelection_idle (payload : SaveSelectionPayload) (s : Shelves)
    (hwrites : payload.writes ctx naming s.session.server = false) :
    Shelves.Via (Session.Spares name R) s (handleSaveSelection ctx link naming payload s).2 := by
  have hrefl : Shelves.Via (Session.Spares name R) s s := refl_of (Session.Spares name R) _
  refine Triple.state (.bind (Q := fun _ s' => s' = s)
    ((checkPayload_run payload.v _ _ s).mono (fun _ _ h => h.1) fun _ _ h => h ▸ hrefl) ?_)
  rintro _ s rfl
  unfold SaveSelectionPayload.writes at hwrites
  split
  next uri hselection =>
    rw [hselection] at hwrites
    unfold handleSaveSelectionContainer
    split
    next => exact .throw hrefl
    next stableUris page hpage =>
      simp only [hpage, Bool.not_eq_false'] at hwrites
      rw [if_pos hwrites]
      exact .pure hrefl
  next criteria hselection =>
    rw [hselection] at hwrites
    have hvacant : ∀ resolved,
        (resolve serving naming criteria ⟨s.session.server, none, []⟩).1 = .ok resolved →
          vacant s.session.server.library resolved = true := by
      intro resolved hresolved
      simpa [hresolved] using hwrites
    refine .bind ((playlistMpd_triple (resolve_vacant link naming hvacant)).mono (fun _ _ h => h)
      fun _ _ ⟨_, h⟩ => h) ?_
    rintro resolved s₁ ⟨hspares, hserver, hsearchable, hnone⟩
    have hlook : Along (Session.Spares name R) (selectsNothing link resolved) :=
      selectsNothing_along link (spares_playing link).quiet resolved
    have hnothing := selectsNothing_run link hsearchable s₁.session
    refine .bind ((playlistMpd_triple (.and hnothing (hlook.triple s₁.session))).mono
      (fun _ _ h => h) fun _ _ h => ?_) ?_
    · obtain ⟨_, -, hspares'⟩ := h
      exact trans_of (Session.Spares name R) hspares hspares'
    · rintro nothing s₂ ⟨rfl, hspares'⟩
      rw [hserver, hnone, if_pos rfl]
      exact .pure (trans_of (Session.Spares name R) hspares hspares')

end Idle

-- ---------------------------------------------------------------------------
-- What the calls leave of the favourites
-- ---------------------------------------------------------------------------

/-- `R`, and only between equal lists unless `p` holds. -/
def OnlyIf (p : Prop) (R : List (List Char) → List (List Char) → Prop)
    (list list' : List (List Char)) : Prop := R list list' ∧ (¬p → list' = list)

instance {R : List (List Char) → List (List Char) → Prop} [IsPreorder _ R] :
    IsPreorder _ (OnlyIf p R) where
  refl list := ⟨refl_of R list, fun _ => rfl⟩
  trans _ _ _ h h' := ⟨trans_of R h.1 h'.1, fun hp => (h'.2 hp).trans (h.2 hp)⟩

instance sublistPreorder : IsPreorder (List (List Char)) fun list list' => list'.Sublist list where
  refl := List.Sublist.refl
  trans _ _ _ h h' := h'.trans h

instance permPreorder : IsPreorder (List (List Char)) List.Perm where
  refl := List.Perm.refl
  trans _ _ _ h h' := h.trans h'

/-- How a call changes the entries of a playlist: songs are added at the end,
taken out or moved by the calls that name it, and by no other call. -/
def ShelfCall.edits (name : List Char) : ShelfCall → List (List Char) → List (List Char) → Prop
  | .addToPlaylist _ playlist _ => OnlyIf (playlist = name) (· <+: ·)
  | .saveSelection payload => OnlyIf (payload.playlistName = name) (· <+: ·)
  | .removeFromPlaylist _ playlist _ => OnlyIf (playlist = name) fun list list' => list'.Sublist list
  | .moveInPlaylist _ playlist _ _ => OnlyIf (playlist = name) List.Perm
  | _ => Eq

instance (request : ShelfCall) : IsPreorder _ (request.edits name) := by
  cases request <;> dsimp only [ShelfCall.edits] <;> infer_instance

/-- The call writes a playlist that is there anew. -/
def ShelfCall.Overwrites (wiring : Wiring) (name : List Char) (s : Shelves) : ShelfCall → Prop
  | .saveQueueAsPlaylist v playlistName overwrite =>
    v = queuePayloadVersion ∧ overwrite = true ∧ playlistName = name ∧
      (s.session.server.playlists.lookup name).isSome
  | .saveSelection payload =>
    payload.v = playlistPayloadVersion ∧ payload.mode = .create ∧ payload.playlistName = name ∧
      validatePlaylistName name = .ok () ∧ (s.session.server.playlists.lookup name).isSome ∧
      payload.writes wiring.playlists wiring.naming s.session.server = true
  | _ => False

theorem handleSaveQueueAsPlaylist_refused (link : Link) {v : Nat} (hv : v ≠ queuePayloadVersion)
    (s : Shelves) :
    (onSession (handleSaveQueueAsPlaylist link v playlist overwrite) s).2 = s := by
  have hcheck : checkVersion v "queue.save_queue_as_playlist" s.session =
      (.error (.payloadVersion "queue.save_queue_as_playlist" v queuePayloadVersion),
        s.session) := by
    unfold checkVersion
    rw [if_pos hv]
    rfl
  have hrun : handleSaveQueueAsPlaylist link v playlist overwrite s.session = _ :=
    Procedure.run_bind_error hcheck
  rw [onSession, Procedure.run_within hrun]

theorem handleSaveSelection_refused {payload : SaveSelectionPayload} (ctx : PlaylistContext)
    (link : Link) (naming : Naming) (s : Shelves)
    (h : payload.v ≠ playlistPayloadVersion ∨ validatePlaylistName payload.playlistName ≠ .ok ()) :
    (handleSaveSelection ctx link naming payload s).2 = s := by
  refine Triple.state (P := (· = s)) (.bind (Q := fun _ _ => False) ?_ fun _ _ h => h.elim)
  refine (checkPayload_run payload.v _ _ s).mono ?_ fun _ _ h => h
  rintro _ _ ⟨-, hv, hnames⟩
  exact h.elim (· hv) (· (hnames _ (List.mem_singleton_self _)))

/-- A call that does not overwrite the favourites spares them. -/
theorem ShelfCall.run_spares (wiring : Wiring) (s : Shelves) (request : ShelfCall)
    (hcall : ¬request.Overwrites wiring wiring.playlists.favouritesName s)
    (hexists : (s.session.server.playlists.lookup wiring.playlists.favouritesName).isSome) :
    s.session.Spares wiring.playlists.favouritesName
      (request.edits wiring.playlists.favouritesName) (request.run wiring s).session := by
  cases request with
  | queue call => exact onSession_via (call.handle_spares wiring.queue wiring.link wiring.naming) s
  | getQueue => exact refl_of (Session.Spares _ _) s.session
  | saveQueueAsPlaylist v playlistName overwrite =>
    by_cases hv : v = queuePayloadVersion
    · refine onSession_via (handleSaveQueueAsPlaylist_spares wiring.link v playlistName overwrite
        fun hoverwrite hname => hcall ⟨hv, hoverwrite, hname, hexists⟩) s
    · rw [ShelfCall.run, handleSaveQueueAsPlaylist_refused wiring.link hv s]
      exact refl_of (Session.Spares _ _) s.session
  | skipToNextAvailable v =>
    exact onSession_via (handleSkipToNextAvailable_spares wiring.link wiring.outOfReach v) s
  | playFromPosition v position =>
    exact onSession_via (handlePlayFromPosition_spares wiring.link v position) s
  | listPlaylists => exact refl_of (Session.Spares _ _) s.session
  | getPlaylist v name => exact handleGetPlaylist_spares wiring.link v name s
  | createPlaylist v name => exact handleCreatePlaylist_spares wiring.link v name s hexists
  | deletePlaylist v name => exact handleDeletePlaylist_spares wiring.link wiring.playlists v name s
  | renamePlaylist v fromName toName =>
    exact handleRenamePlaylist_spares wiring.link wiring.playlists v fromName toName s
  | addToPlaylist v name uris =>
    refine handleAddToPlaylist_spares wiring.link ?_ v uris s
    exact fun hname _ _ h => ⟨h, fun hne => absurd hname hne⟩
  | removeFromPlaylist v name positions =>
    refine handleRemoveFromPlaylist_spares wiring.link ?_ v positions s
    exact fun hname _ _ h => ⟨h, fun hne => absurd hname hne⟩
  | moveInPlaylist v name fromPosition toPosition =>
    refine handleMoveInPlaylist_spares wiring.link ?_ v fromPosition toPosition s
    exact fun hname _ _ h => ⟨h, fun hne => absurd hname hne⟩
  | saveSelection payload =>
    by_cases hstart : payload.mode = .append ∨
        payload.playlistName ≠ wiring.playlists.favouritesName
    · refine handleSaveSelection_spares wiring.link wiring.naming wiring.playlists payload hstart
        ?_ s
      exact fun hname _ _ h => ⟨h, fun hne => absurd hname hne⟩
    · obtain ⟨hmode, hname⟩ := not_or.mp hstart
      have hname : payload.playlistName = wiring.playlists.favouritesName := not_not.mp hname
      have hcreate : payload.mode = .create := by
        cases h : payload.mode with
        | create => rfl
        | append => exact absurd h hmode
      cases hwrites : payload.writes wiring.playlists wiring.naming s.session.server with
      | false =>
        exact handleSaveSelection_idle wiring.playlists wiring.link wiring.naming payload s hwrites
      | true =>
        have hrefused : payload.v ≠ playlistPayloadVersion ∨
            validatePlaylistName payload.playlistName ≠ .ok () := by
          rw [← not_and_or]
          rintro ⟨hv, hvalid⟩
          exact hcall ⟨hv, hcreate, hname, hname ▸ hvalid, hexists, hwrites⟩
        rw [ShelfCall.run, handleSaveSelection_refused _ _ _ s hrefused]
        exact refl_of (Session.Spares _ _) s.session

/-- A call that does not write the favourites anew. -/
def ShelfAct.Preserves (wiring : Wiring) (s : Shelves) : ShelfAct → Prop
  | .call request => ¬request.Overwrites wiring wiring.playlists.favouritesName s
  | .elsewhere _ => True

/-- In a run without such calls every call, at whatever state it comes, leaves
the favourites there: it sends nothing that removes, empties or renames them,
and changes their entries only as an edit of entries that names them. -/
theorem favourites_spared (wiring : Wiring) (s t : Shelves) (before after : List ShelfAct)
    (request : ShelfCall)
    (hm : Machine.Meets (ShelfAct.step wiring) (ShelfAct.Preserves wiring) s
      (before ++ .call request :: after))
    (ht : Machine.exec (ShelfAct.step wiring) s before = some t)
    (hexists : (t.session.server.playlists.lookup wiring.playlists.favouritesName).isSome) :
    t.session.Spares wiring.playlists.favouritesName
      (request.edits wiring.playlists.favouritesName) (request.run wiring t).session :=
  ShelfCall.run_spares wiring t request (hm.at ht) hexists

/-- One favourite, and nothing in the queue. -/
def oneFavourite : Shelves :=
  ⟨⟨{ Server.idle rockLibrary with
      playlists := [("__favourites__".toList, ["b.flac".toList])]
      entries := by decide }, none, []⟩, none, []⟩

def internalWiring : Wiring where
  queue := ⟨none, fun _ => none⟩
  playlists := internalPlaylists
  link := serving
  naming := plainNaming
  outOfReach _ := false

/-- The favourites outlive a call that deletes them, and one that saves the
queue over another playlist. -/
theorem favourites_spared_mix :
    Machine.Meets (ShelfAct.step internalWiring) (ShelfAct.Preserves internalWiring) oneFavourite
        [.call (.deletePlaylist 1 "__favourites__".toList),
          .call (.saveQueueAsPlaylist 1 "mix".toList true)] ∧
      ∃ t, Machine.exec (ShelfAct.step internalWiring) oneFavourite
          [.call (.deletePlaylist 1 "__favourites__".toList)] = some t ∧
        t.session.Spares "__favourites__".toList Eq
          ((ShelfCall.saveQueueAsPlaylist 1 "mix".toList true).run internalWiring t).session := by
  have hmeets : Machine.Meets (ShelfAct.step internalWiring) (ShelfAct.Preserves internalWiring)
      oneFavourite [.call (.deletePlaylist 1 "__favourites__".toList),
        .call (.saveQueueAsPlaylist 1 "mix".toList true)] := by
    refine ⟨id, ?_, trivial⟩
    rintro ⟨-, -, hname, -⟩
    exact absurd hname (by decide)
  refine ⟨hmeets, _, rfl, ?_⟩
  exact favourites_spared internalWiring oneFavourite _
    [.call (.deletePlaylist 1 "__favourites__".toList)] [] _ hmeets rfl (by decide)

/-- The verb that refuses to delete the favourites has company that overwrites
them: with the empty queue, or with a selection. -/
theorem overwritten_favourites :
    let saveQueue := ShelfCall.saveQueueAsPlaylist 1 "__favourites__".toList true
    let saveRock := ShelfCall.saveSelection
      ⟨1, "__favourites__".toList, none, .criteria (genre "Rock"), .create, none, none⟩
    oneFavourite.session.server.playlists.lookup "__favourites__".toList =
        some ["b.flac".toList] ∧
      ((handleDeletePlaylist internalPlaylists serving 1 "__favourites__".toList oneFavourite).1 =
        .error (.favouritesProtected "__favourites__".toList)) ∧
      ((saveQueue.run internalWiring oneFavourite).session.server.playlists.lookup
        "__favourites__".toList) = some [] ∧
      (saveQueue.run internalWiring oneFavourite).session.log.map Prod.fst =
        [.save "__favourites__".toList, .rm "__favourites__".toList] ∧
      ((saveRock.run internalWiring oneFavourite).session.server.playlists.lookup
        "__favourites__".toList) = some ["a.flac".toList, "b.flac".toList] ∧
      (.playlistclear "__favourites__".toList, true) ∈
        (saveRock.run internalWiring oneFavourite).session.log := by
  decide

end EvoAudio.Playback
