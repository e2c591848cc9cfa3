import EvoAudio.Playback.PlaylistEdits
import EvoAudio.Playback.ShelfCalls

/-!
# Overwriting a playlist

`queue.save_queue_as_playlist` removes the playlist it overwrites before MPD saves
the queue under its name, and `playlist.save_selection` clears the playlist it
creates anew before it writes the selection. Neither puts the old entries back
when the second step fails: they are kept when MPD does not run the first step,
or by chance, when what the second one leaves behind is the same list.
-/

namespace EvoAudio.Playback

open Mpd (MpdError)
open Procedure (Triple)

/-- A call that fails leaves the playlist with these entries. -/
def KeptOnError (act : Procedure Shelves ε α) (name : List Char) (entries : List (List Char))
    (s : Shelves) : Prop :=
  Triple act s (fun _ _ => True) fun _ s' =>
    s'.session.server.playlists.lookup name = some entries

/-- The entries outlive `rm` and `save`: MPD does not run the first, or does not
fail at the second, or saves the same entries. -/
def SaveKeeps (saved entries : List (List Char)) : Fate → Fate → Prop
  | .refuse _ _, _ => True
  | _, .serve => True
  | _, .refuse _ _ => False
  | _, .lose _ => saved = entries

/-- What the verb reads before it writes: the selection to write, if it is of
anything, and the answer. -/
def selectionToSave (ctx : PlaylistContext) (link : Link) (naming : Naming)
    (payload : SaveSelectionPayload) :
    Procedure Shelves PlaylistError (Option ResolvedSelection × SaveSelectionResponse) :=
  match payload.selection with
  | .container uri =>
    match containerPage ctx payload uri with
    | .error error => .throw error
    | .ok (uris, page) =>
      if uris.isEmpty then return (none, .containerEmpty page.truncated page.nextPage)
      else return (some (.uriList uris), .container uris.length page.truncated page.nextPage)
  | .criteria criteria => do
    let resolved ← playlistMpd "save_selection" (resolve link naming criteria)
    let nothing ← playlistMpd "save_selection" (selectsNothing link resolved)
    if nothing then return (none, .criteriaEmpty)
    else
      match resolved with
      | .uriList (uri :: uris) => return (some resolved, .criteria (some (uri :: uris).length))
      | _ => return (some resolved, .criteria none)

/-- What the verb does with it. -/
def writeSelection (ctx : PlaylistContext) (link : Link) (name : List Char)
    (mode : SaveSelectionMode) :
    Option ResolvedSelection × SaveSelectionResponse →
      Procedure Shelves PlaylistError SaveSelectionResponse
  | (none, response) => return response
  | (some resolved, response) => do
    startPlaylist ctx link name mode
    writePlaylist link "save_selection" (saveBatch name resolved)
    return response

/-- The commands of a write that are run when so many are. -/
def ResolvedSelection.front (executed : Nat) : ResolvedSelection → ResolvedSelection
  | .uriList uris => .uriList (uris.take executed)
  | .filter pairs substring => if executed = 0 then .uriList [] else .filter pairs substring

/-- The songs that a failed write leaves behind. -/
def Fate.leftBehind (library : Library) (resolved : ResolvedSelection) :
    Fate → Option (List (List Char))
  | .serve =>
    match resolved with
    | .uriList uris =>
      if uris.all fun uri => (library.add uri).isSome then none else some (added library uris)
    | .filter _ _ => none
  | .refuse executed _ => some (written library (resolved.front executed))
  | .lose _ => some (written library resolved)

/-- The entries outlive `playlistclear` and the write. An error of the first that
reads as if there were no playlist does not stop the second. -/
def ClearKeeps (ctx : PlaylistContext) (left : Option (List (List Char)))
    (entries : List (List Char)) : Fate → Prop
  | .serve => ∀ songs ∈ left, songs = entries
  | .refuse _ error => isAbsent ctx error = true → ∀ songs ∈ left, songs = []
  | .lose error => if isAbsent ctx error then ∀ songs ∈ left, songs = entries else entries = []

-- ---------------------------------------------------------------------------
-- Running the calls
-- ---------------------------------------------------------------------------

section Running

variable {name : List Char} {entries : List (List Char)} {s s' : Shelves}

theorem keptOnError_bind_ok {act : Procedure Shelves ε α} {f : α → Procedure Shelves ε β}
    (h : act s = (.ok a, s')) : KeptOnError (act >>= f) name entries s ↔
      KeptOnError (f a) name entries s' := by
  unfold KeptOnError Triple
  rw [Procedure.run_bind_ok h]

theorem keptOnError_bind_error {act : Procedure Shelves ε α} {f : α → Procedure Shelves ε β}
    (h : act s = (.error e, s')) : KeptOnError (act >>= f) name entries s ↔
      s'.session.server.playlists.lookup name = some entries := by
  unfold KeptOnError Triple
  rw [Procedure.run_bind_error h]

theorem keptOnError_pure (a : α) :
    KeptOnError (pure a : Procedure Shelves ε α) name entries s := trivial

end Running

-- ---------------------------------------------------------------------------
-- Saving the queue
-- ---------------------------------------------------------------------------

/-- What MPD saves of a queue. -/
def Server.saved (server : Server) : List (List Char) :=
  (server.queue.rows.map Row.uri).filter (· ≠ [])

theorem Server.save_there {server : Server} (h : server.playlists.lookup name = some list) :
    server.save name = .error playlistExists := by
  unfold save
  rw [h]

theorem Server.save_gone {server : Server} (h : server.playlists.lookup name = none) :
    ∃ server', server.save name = .ok ((), server') ∧
      server'.playlists.lookup name = some server.saved := by
  unfold save
  rw [h]
  refine ⟨_, rfl, ?_⟩
  rw [Server.lookup_putPlaylist, if_pos rfl]
  rfl

theorem Server.rm_there {server : Server} (h : server.playlists.lookup name = some list) :
    ∃ server', server.rm name = .ok ((), server') ∧ server'.playlists.lookup name = none ∧
      server'.saved = server.saved := by
  unfold rm
  rw [h]
  refine ⟨_, rfl, ?_, rfl⟩
  rw [Table.lookup_filter_ne, if_pos rfl]

/-- A playlist that is still there is never saved over. -/
theorem savePlaylist_there (link : Link) {s : Session}
    (h : s.server.playlists.lookup name = some entries) :
    Triple (verbMpd verb (savePlaylist link name)) s (fun _ _ => True)
      (fun _ t => t.server.playlists.lookup name = some entries) := by
  refine Triple.mapError ((dispatch_run link (.save name) _ s).mono (fun _ _ _ => trivial) ?_)
    fun _ _ hkept => hkept
  rintro error t ⟨hserver | ⟨a, hrun⟩, -⟩
  · rwa [hserver]
  · cases (Server.save_there h).symm.trans hrun

/-- Saving where no playlist is leaves one exactly if MPD runs the command. -/
theorem savePlaylist_gone (link : Link) {s : Session} (h : s.server.playlists.lookup name = none) :
    Triple (verbMpd verb (savePlaylist link name)) s (fun _ _ => True)
        (fun _ t => t.server.playlists.lookup name = some entries) ↔
      SaveKeeps s.server.saved entries .serve (link s.log.length (.save name)) := by
  obtain ⟨server', heffect, hlookup⟩ := Server.save_gone h
  unfold Triple verbMpd savePlaylist
  cases hlink : link s.log.length (.save name) with
  | serve => simp [Procedure.mapError, dispatch, hlink, heffect, SaveKeeps, Except.mapError]
  | refuse executed error =>
    simp [Procedure.mapError, dispatch, hlink, SaveKeeps, h, Except.mapError]
  | lose error =>
    simp [Procedure.mapError, dispatch, hlink, heffect, SaveKeeps, hlookup, Except.mapError]

/-- The playlist is gone after `rm` unless MPD refuses the command. -/
theorem rmPlaylist_there (link : Link) {s : Session}
    (h : s.server.playlists.lookup name = some entries) :
    ∃ r t, rmPlaylist link name s = (r, t) ∧ t.log.length = s.log.length + 1 ∧
      ((∃ executed error, link s.log.length (.rm name) = .refuse executed error) ∧
          t.server.playlists.lookup name = some entries ∨
        (∀ executed error, link s.log.length (.rm name) ≠ .refuse executed error) ∧
          t.server.playlists.lookup name = none ∧ t.server.saved = s.server.saved) := by
  obtain ⟨server', heffect, hgone, hsaved⟩ := Server.rm_there h
  unfold rmPlaylist
  cases hlink : link s.log.length (.rm name) with
  | serve => exact ⟨_, _, dispatch_served hlink heffect, rfl, .inr ⟨by simp, hgone, hsaved⟩⟩
  | refuse executed error =>
    exact ⟨_, _, dispatch_refused hlink, rfl, .inl ⟨⟨executed, error, rfl⟩, h⟩⟩
  | lose error =>
    exact ⟨_, _, dispatch_unanswered hlink heffect, rfl, .inr ⟨by simp, hgone, hsaved⟩⟩

theorem keptOnError_onSession {act : Procedure Session ε α} {s : Shelves} :
    KeptOnError (onSession act) name entries s ↔ Triple act s.session (fun _ _ => True)
      (fun _ t => t.server.playlists.lookup name = some entries) := by
  unfold KeptOnError Triple onSession
  cases hrun : act s.session with
  | mk r t =>
    rw [Procedure.run_within hrun]
    cases r with
    | ok a => rfl
    | error e => rfl

theorem saveQueueAsPlaylist_kept_iff (link : Link) (v : Nat) {s : Shelves}
    (hstored : s.session.server.playlists.lookup name = some entries) :
    KeptOnError (onSession (handleSaveQueueAsPlaylist link v name true)) name entries s ↔
      v ≠ queuePayloadVersion ∨ SaveKeeps s.session.server.saved entries
        (link s.session.log.length (.rm name)) (link (s.session.log.length + 1) (.save name)) := by
  rw [keptOnError_onSession]
  by_cases hv : v = queuePayloadVersion
  · have hcheck : checkVersion v "queue.save_queue_as_playlist" s.session =
        (.ok (), s.session) := by simp [checkVersion, hv]
    obtain ⟨r, t, hrm, hlog, hcase⟩ := rmPlaylist_there link hstored
    have hrun : handleSaveQueueAsPlaylist link v name true s.session =
        verbMpd "save_queue_as_playlist" (savePlaylist link name) t := by
      unfold handleSaveQueueAsPlaylist
      rw [Procedure.run_bind_ok hcheck, if_pos rfl,
        Procedure.run_bind_ok (Procedure.run_attempt hrm)]
    rw [or_iff_right (not_not.mpr hv), Triple, hrun, ← hlog]
    obtain ⟨⟨executed, error, hrefused⟩, hthere⟩ | ⟨hran, hgone, hsaved⟩ := hcase
    · rw [hrefused]
      exact iff_of_true (savePlaylist_there link hthere) trivial
    · rw [← hsaved]
      refine (savePlaylist_gone link hgone).trans ?_
      cases hlink : link s.session.log.length (.rm name) with
      | serve => rfl
      | refuse executed error => exact absurd hlink (hran executed error)
      | lose error => cases link t.log.length (.save name) <;> rfl
  · refine iff_of_true ?_ (.inl hv)
    have hcheck : checkVersion v "queue.save_queue_as_playlist" s.session =
        (.error (.payloadVersion "queue.save_queue_as_playlist" v queuePayloadVersion),
          s.session) := by simp [checkVersion, hv]
    unfold handleSaveQueueAsPlaylist Triple
    rw [Procedure.run_bind_error hcheck]
    exact hstored

-- ---------------------------------------------------------------------------
-- Saving a selection
-- ---------------------------------------------------------------------------

theorem handleSaveSelection_eq (ctx : PlaylistContext) (link : Link) (naming : Naming)
    (payload : SaveSelectionPayload) :
    handleSaveSelection ctx link naming payload =
      checkPayload payload.v "playlist.save_selection" [payload.playlistName] >>= fun _ =>
        selectionToSave ctx link naming payload >>=
          writeSelection ctx link payload.playlistName payload.mode := by
  unfold handleSaveSelection selectionToSave
  congr 1
  funext _
  cases payload.selection with
  | container uri =>
    dsimp only
    unfold handleSaveSelectionContainer
    cases containerPage ctx payload uri with
    | error error => rfl
    | ok page =>
      obtain ⟨uris, page⟩ := page
      cases uris <;> rfl
  | criteria criteria =>
    dsimp only
    unfold handleSaveSelectionCriteria
    simp only [Procedure.bind_assoc]
    congr 1
    funext resolved
    congr 1
    funext nothing
    cases nothing with
    | true => rfl
    | false =>
      cases resolved with
      | uriList uris => cases uris <;> rfl
      | filter pairs substring => rfl

theorem selectsNothing_same (link : Link) (resolved : ResolvedSelection) (s : Session) :
    Triple (selectsNothing link resolved) s
      (fun nothing s' => s.Same s' ∧ (nothing = false → ∀ name, saveBatch name resolved ≠ []))
      (fun _ s' => s.Same s') := by
  cases resolved with
  | uriList uris => exact .pure ⟨⟨rfl, rfl⟩, by simp [saveBatch]⟩
  | filter pairs substring =>
    have hcount : Triple (countMatching link pairs) s (fun _ s' => s.Same s')
        (fun _ s' => s.Same s') := by
      unfold countMatching
      split
      · exact .pure ⟨rfl, rfl⟩
      · exact (dispatch_query_run link _ _ s).mono (fun _ _ h => h.2) fun _ _ h => h
    refine .bind hcount fun songs s' hsame => .pure ⟨hsame, ?_⟩
    simp [saveBatch]

/-- Reading leaves MPD as it was. What is to be written is of something. -/
theorem selectionToSave_run (ctx : PlaylistContext) (link : Link) (naming : Naming)
    (payload : SaveSelectionPayload) (s : Shelves) :
    Triple (selectionToSave ctx link naming payload) s
      (fun selected s' => s'.session.server = s.session.server ∧
        ∀ resolved ∈ selected.1, ∀ name, saveBatch name resolved ≠ [])
      (fun _ s' => s'.session.server = s.session.server) := by
  unfold selectionToSave
  cases payload.selection with
  | container uri =>
    dsimp only
    cases containerPage ctx payload uri with
    | error error => exact .throw rfl
    | ok page =>
      obtain ⟨uris, page⟩ := page
      cases uris with
      | nil => exact .pure ⟨rfl, by simp⟩
      | cons uri uris => exact .pure ⟨rfl, by simp [saveBatch]⟩
  | criteria criteria =>
    refine .bind ((playlistMpd_triple (resolve_run link naming criteria s.session)).mono
      (fun _ _ h => h.2.1) ?_) fun resolved s' hserver => ?_
    · rintro _ _ ⟨error, hserver, -⟩
      exact hserver
    refine .bind ((playlistMpd_triple (selectsNothing_same link resolved s'.session)).mono
      (fun _ _ h => h) ?_) ?_
    · rintro _ _ ⟨error, hsame, -⟩
      exact hsame.trans hserver
    · rintro nothing s'' ⟨⟨hsame, -⟩, hbatch⟩
      cases nothing with
      | true => exact .pure ⟨hsame.trans hserver, by simp⟩
      | false =>
        have hsome : ∀ name, saveBatch name resolved ≠ [] := hbatch rfl
        cases resolved with
        | uriList uris =>
          cases uris with
          | nil => exact absurd rfl (hsome [])
          | cons uri uris => exact .pure ⟨hsame.trans hserver, by simpa using hsome⟩
        | filter pairs substring => exact .pure ⟨hsame.trans hserver, by simpa using hsome⟩

theorem Server.lookup_appendToPlaylist {server : Server} {named : [] ∉ list}
    (h : server.playlists.lookup name = some start) :
    (server.appendToPlaylist name list named).playlists.lookup name = some (start ++ list) := by
  rw [appendToPlaylist, lookup_putPlaylist, if_pos rfl, h]
  rfl

/-- A write adds to the entries a playlist has. -/
theorem lookup_saveBatch {server : Server} {resolved : ResolvedSelection}
    (h : server.playlists.lookup name = some start) :
    (runBatch (saveBatch name resolved) server).2.playlists.lookup name =
      some (start ++ written server.library resolved) := by
  cases resolved with
  | filter pairs substring =>
    exact @Server.lookup_appendToPlaylist _ _ _ server Library.search_named h
  | uriList uris =>
    simp only [saveBatch, written]
    induction uris generalizing server start with
    | nil => simp [runBatch, added, h]
    | cons uri uris ih =>
      simp only [List.map_cons, runBatch, Batched.effect, added]
      cases hadd : server.library.add uri with
      | none => simp [Server.playlistadd_error hadd, h]
      | some found =>
        rw [Server.playlistadd_ok hadd]
        dsimp only
        rw [ih (Server.lookup_appendToPlaylist h), List.append_assoc]
        rfl

theorem take_saveBatch (name : List Char) (resolved : ResolvedSelection) (executed : Nat) :
    (saveBatch name resolved).take executed = saveBatch name (resolved.front executed) := by
  cases resolved with
  | uriList uris => exact List.map_take.symm
  | filter pairs substring => cases executed <;> simp [saveBatch, ResolvedSelection.front]

/-- A write succeeds, or leaves behind what it says. -/
theorem leftBehind_cases {server : Server} (resolved : ResolvedSelection) (fate : Fate)
    (h : server.playlists.lookup name = some start) :
    ((fate.runBatch (saveBatch name resolved) server).1 = .ok () ∧
      fate.leftBehind server.library resolved = none) ∨
    ∃ error songs, (fate.runBatch (saveBatch name resolved) server).1 = .error error ∧
      fate.leftBehind server.library resolved = some songs ∧
      (fate.runBatch (saveBatch name resolved) server).2.playlists.lookup name =
        some (start ++ songs) := by
  cases fate with
  | serve =>
    cases resolved with
    | filter pairs substring => exact .inl ⟨rfl, rfl⟩
    | uriList uris =>
      have hlookup :
          (Fate.serve.runBatch (saveBatch name (.uriList uris)) server).2.playlists.lookup name =
            some (start ++ added server.library uris) := lookup_saveBatch h
      have hok := runBatch_playlistadd_isOk name uris server
      simp only [← Option.isSome_iff_ne_none, ← List.all_eq_true] at hok
      simp only [Fate.leftBehind, ← hok]
      cases hrun : (runBatch (uris.map (.playlistadd name)) server).1 with
      | ok u => exact .inl ⟨hrun, rfl⟩
      | error error => exact .inr ⟨error, _, hrun, rfl, hlookup⟩
  | refuse executed error =>
    refine .inr ⟨error, _, rfl, rfl, ?_⟩
    simp only [Fate.runBatch]
    rw [take_saveBatch]
    exact lookup_saveBatch h
  | lose error => exact .inr ⟨error, _, rfl, rfl, lookup_saveBatch h⟩

theorem writePlaylist_kept_iff (link : Link) (verb : String) {resolved : ResolvedSelection}
    (hbatch : saveBatch name resolved ≠ []) {s : Shelves}
    (h : s.session.server.playlists.lookup name = some start) (response : α) :
    KeptOnError (writePlaylist link verb (saveBatch name resolved) >>= fun _ => pure response)
        name entries s ↔
      ∀ songs ∈ (link s.session.log.length (.commandList (saveBatch name resolved))).leftBehind
        s.session.server.library resolved, start ++ songs = entries := by
  obtain ⟨s', hwrite, hserver⟩ := writePlaylist_eq link verb hbatch s
  obtain ⟨hok, hnone⟩ | ⟨error, songs, herror, hsongs, hlookup⟩ := leftBehind_cases resolved
    (link s.session.log.length (.commandList (saveBatch name resolved))) h
  · rw [hok] at hwrite
    rw [keptOnError_bind_ok hwrite, hnone]
    exact iff_of_true (keptOnError_pure response) (by simp)
  · rw [herror] at hwrite
    rw [keptOnError_bind_error hwrite, hserver, hlookup, hsongs]
    simp

section Clearing

variable {ctx : PlaylistContext} {link : Link} {s : Shelves} {t : Session}

theorem startPlaylist_cleared (hclear : playlistclear link name s.session = (.ok (), t)) :
    startPlaylist ctx link name .create s = (.ok (), { s with session := t }) :=
  Procedure.run_bind_ok (Procedure.run_attempt (Procedure.run_within hclear))

theorem startPlaylist_error (hclear : playlistclear link name s.session = (.error error, t)) :
    startPlaylist ctx link name .create s =
      (if isAbsent ctx error then .ok () else .error (.mpd "save_selection" (.mpd error)),
        { s with session := t }) := by
  refine (Procedure.run_bind_ok (Procedure.run_attempt (Procedure.run_within hclear))).trans ?_
  dsimp only
  split <;> rfl

theorem Server.playlistclear_there {server : Server}
    (h : server.playlists.lookup name = some list) :
    ∃ server', server.playlistclear name = .ok ((), server') ∧
      server'.playlists.lookup name = some [] ∧ server'.library = server.library := by
  unfold playlistclear
  rw [h]
  refine ⟨_, rfl, ?_, rfl⟩
  rw [lookup_putPlaylist, if_pos rfl]

theorem writeSelection_kept_iff {resolved : ResolvedSelection}
    (hbatch : saveBatch name resolved ≠ [])
    (hstored : s.session.server.playlists.lookup name = some entries) :
    KeptOnError (writeSelection ctx link name .create (some resolved, response)) name entries s ↔
      ClearKeeps ctx ((link (s.session.log.length + 1)
          (.commandList (saveBatch name resolved))).leftBehind s.session.server.library resolved)
        entries (link s.session.log.length (.playlistclear name)) := by
  obtain ⟨server', heffect, hcleared, hlibrary⟩ := Server.playlistclear_there hstored
  unfold writeSelection
  cases hlink : link s.session.log.length (.playlistclear name) with
  | serve =>
    rw [keptOnError_bind_ok (startPlaylist_cleared (dispatch_served hlink heffect)),
      writePlaylist_kept_iff link _ hbatch hcleared, hlibrary]
    rfl
  | refuse executed error =>
    have hstart : startPlaylist ctx link name .create s = _ :=
      startPlaylist_error (dispatch_refused hlink)
    cases habsent : isAbsent ctx error with
    | true =>
      simp only [habsent, if_true] at hstart
      let sent : Shelves := { s with session := s.session.sent (.playlistclear name) false }
      have hsent : sent.session.server.playlists.lookup name = some entries := hstored
      refine (keptOnError_bind_ok hstart).trans ?_
      refine (writePlaylist_kept_iff link _ hbatch hsent response).trans ?_
      simp [ClearKeeps, habsent, sent]
    | false =>
      simp only [habsent, Bool.false_eq_true, if_false] at hstart
      rw [keptOnError_bind_error hstart]
      exact iff_of_true hstored (by simp [ClearKeeps, habsent])
  | lose error =>
    have hstart : startPlaylist ctx link name .create s = _ :=
      startPlaylist_error (dispatch_unanswered hlink heffect)
    cases habsent : isAbsent ctx error with
    | true =>
      simp only [habsent, if_true] at hstart
      rw [keptOnError_bind_ok hstart, writePlaylist_kept_iff link _ hbatch hcleared, hlibrary]
      simp [ClearKeeps, habsent]
    | false =>
      simp only [habsent, Bool.false_eq_true, if_false] at hstart
      rw [keptOnError_bind_error hstart]
      simp [ClearKeeps, habsent, hcleared, eq_comm]

end Clearing

theorem saveSelection_kept_iff (ctx : PlaylistContext) (link : Link) (naming : Naming)
    (payload : SaveSelectionPayload) {s : Shelves} (hmode : payload.mode = .create)
    (hstored : s.session.server.playlists.lookup payload.playlistName = some entries) :
    KeptOnError (handleSaveSelection ctx link naming payload) payload.playlistName entries s ↔
      Rejected payload.v payload.playlistName ∨
        ∀ resolved response s',
          selectionToSave ctx link naming payload s = (.ok (some resolved, response), s') →
            ClearKeeps ctx ((link (s'.session.log.length + 1)
                (.commandList (saveBatch payload.playlistName resolved))).leftBehind
                  s.session.server.library resolved)
              entries (link s'.session.log.length (.playlistclear payload.playlistName)) := by
  have hread := selectionToSave_run ctx link naming payload s
  rw [handleSaveSelection_eq, hmode]
  obtain ⟨haccepted, hcheck⟩ | ⟨hrejected, error, hcheck⟩ :=
    checkPayload_cases payload.v "playlist.save_selection" payload.playlistName s
  · rw [or_iff_right haccepted, keptOnError_bind_ok hcheck]
    cases hrun : selectionToSave ctx link naming payload s with
    | mk r s' =>
      cases r with
      | error error =>
        rw [keptOnError_bind_error hrun, hread.error hrun]
        exact iff_of_true hstored (by simp)
      | ok selected =>
        obtain ⟨selected, response⟩ := selected
        obtain ⟨hserver, hbatch⟩ := hread.ok hrun
        rw [keptOnError_bind_ok hrun]
        cases selected with
        | none => exact iff_of_true (keptOnError_pure response) (by simp)
        | some resolved =>
          rw [← hserver] at hstored ⊢
          rw [writeSelection_kept_iff (hbatch resolved rfl _) hstored]
          simp
  · rw [keptOnError_bind_error hcheck]
    exact iff_of_true hstored (.inl hrejected)

/-- A stored playlist outlives a verb that overwrites it and fails exactly when MPD
does not take its entries away or leaves the same ones behind. -/
theorem overwrite_kept_iff (ctx : PlaylistContext) (link : Link) (naming : Naming) (v : Nat)
    (payload : SaveSelectionPayload) (s : Shelves) (entries : List (List Char))
    (hmode : payload.mode = .create)
    (hstored : s.session.server.playlists.lookup payload.playlistName = some entries) :
    (KeptOnError (onSession (handleSaveQueueAsPlaylist link v payload.playlistName true))
        payload.playlistName entries s ↔
      v ≠ queuePayloadVersion ∨ SaveKeeps s.session.server.saved entries
        (link s.session.log.length (.rm payload.playlistName))
        (link (s.session.log.length + 1) (.save payload.playlistName))) ∧
    (KeptOnError (handleSaveSelection ctx link naming payload) payload.playlistName entries s ↔
      Rejected payload.v payload.playlistName ∨
        ∀ resolved response s',
          selectionToSave ctx link naming payload s = (.ok (some resolved, response), s') →
            ClearKeeps ctx ((link (s'.session.log.length + 1)
                (.commandList (saveBatch payload.playlistName resolved))).leftBehind
                  s.session.server.library resolved)
              entries (link s'.session.log.length (.playlistclear payload.playlistName))) :=
  ⟨saveQueueAsPlaylist_kept_iff link v hstored,
    saveSelection_kept_iff ctx link naming payload hmode hstored⟩

/-- A folder to be saved over the playlist of `mixShelves`. -/
def saveFolder (path : String) : SaveSelectionPayload where
  v := playlistPayloadVersion
  playlistName := "mix".toList
  sourceId := none
  selection := .criteria ⟨.folder, path.toList, none⟩
  mode := .create
  page := none
  pageSize := none

/-- MPD may not write its playlists. -/
def forbidding : Link := fun _ _ => .refuse 0 (.ack 4 0 [] [])

/-- A playlist that MPD may not write is kept. -/
theorem overwrite_kept_iff_forbidden :
    mixShelves.session.server.playlists.lookup "mix".toList = some ["b.flac".toList] ∧
      KeptOnError (onSession (handleSaveQueueAsPlaylist forbidding queuePayloadVersion "mix".toList
        true)) "mix".toList ["b.flac".toList] mixShelves ∧
      KeptOnError (handleSaveSelection internalPlaylists forbidding plainNaming
        (saveFolder "a.flac")) "mix".toList ["b.flac".toList] mixShelves := by
  have hboth := overwrite_kept_iff internalPlaylists forbidding plainNaming queuePayloadVersion
    (saveFolder "a.flac") mixShelves ["b.flac".toList] rfl rfl
  refine ⟨rfl, hboth.1.mpr (.inr trivial), hboth.2.mpr (.inr ?_)⟩
  rintro resolved response s' - habsent
  exact absurd habsent (by decide)

/-- The playlist is gone when MPD does not save the queue, and empty when it does
not know the folder. -/
theorem failed_overwrite_loses_playlist :
    ¬ KeptOnError (onSession (handleSaveQueueAsPlaylist
        (fun sent _ => if sent = 0 then .serve else .refuse 0 (.ack 52 0 [] []))
        queuePayloadVersion "mix".toList true)) "mix".toList ["b.flac".toList] mixShelves ∧
      ¬ KeptOnError (handleSaveSelection internalPlaylists serving plainNaming
        (saveFolder "gone.flac")) "mix".toList ["b.flac".toList] mixShelves ∧
      mixShelves.session.server.playlists.lookup "mix".toList = some ["b.flac".toList] := by
  refine ⟨fun hkept => ?_, fun hkept => ?_, rfl⟩
  · have hlost : (none : Option (List (List Char))) = some ["b.flac".toList] :=
      hkept.error rfl
    cases hlost
  · have hlost : some [] = some ["b.flac".toList] := hkept.error rfl
    cases hlost

end EvoAudio.Playback
