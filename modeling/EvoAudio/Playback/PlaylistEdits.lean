import EvoAudio.Lib.Positions
import EvoAudio.Playback.PlaylistVerbs

/-!
# Bulk edits of a playlist

`playlist.add_to_playlist` and `playlist.remove_from_playlist` send one command
list each, of which MPD keeps what ran before the first command it refuses. The
deletes run from the last position to the first, so that the first of them is
the only one MPD can refuse; an add can be refused at any place in the list. A
reply that is lost leaves the caller with an error and MPD with the edit.
-/

namespace EvoAudio.Playback

open Mpd (MpdError)
open Procedure (Triple)

/-- What becomes of a command list that is sent. -/
def Fate.runBatch (batch : List Batched) (server : Server) : Fate → Except MpdError Unit × Server
  | .serve => Playback.runBatch batch server
  | .refuse executed error => (.error error, (Playback.runBatch (batch.take executed) server).2)
  | .lose error => (.error error, (Playback.runBatch batch server).2)

/-- The call succeeds with the playlist edited, or fails with the playlist as it
was. -/
def Atomic (act : Procedure Shelves PlaylistError α) (name : List Char)
    (edit : List (List Char) → List (List Char)) (s : Shelves) : Prop :=
  Triple act s
    (fun _ s' => s'.session.server.stored name = edit (s.session.server.stored name))
    (fun _ s' => s'.session.server.stored name = s.session.server.stored name)

/-- The same of the command list on its own. -/
def Fate.WritesWhole (batch : List Batched) (name : List Char)
    (edit : List (List Char) → List (List Char)) (server : Server) (fate : Fate) : Prop :=
  let outcome := fate.runBatch batch server
  outcome.2.stored name =
    if outcome.1.isOk then edit (server.stored name) else server.stored name

/-- What the two verbs refuse before they send anything. -/
def Rejected (v : Nat) (name : List Char) : Prop :=
  v ≠ playlistPayloadVersion ∨ validatePlaylistName name ≠ .ok ()

-- ---------------------------------------------------------------------------
-- Running a write
-- ---------------------------------------------------------------------------

theorem commandList_eq (link : Link) {batch : List Batched} (hbatch : batch ≠ []) (s : Session) :
    ∃ t, commandList link batch s =
        (((link s.log.length (.commandList batch)).runBatch batch s.server).1, t) ∧
      t.server = ((link s.log.length (.commandList batch)).runBatch batch s.server).2 := by
  unfold commandList
  rw [if_neg hbatch]
  cases link s.log.length (.commandList batch) with
  | serve =>
    simp only [Fate.runBatch]
    split <;> rename_i heq <;> rw [heq] <;> exact ⟨_, rfl, rfl⟩
  | refuse executed error => exact ⟨_, rfl, rfl⟩
  | lose error => exact ⟨_, rfl, rfl⟩

/-- The index is published whatever MPD answers. -/
theorem publishIndex_eq (link : Link) (s : Shelves) :
    ∃ s', publishIndex link s = (.ok (), s') ∧ s'.session.server = s.session.server := by
  have hserver := (publishIndex_looks link s).server
  unfold publishIndex at hserver ⊢
  cases hbuild : buildIndexEnvelope link s with
  | mk r s' =>
    rw [Procedure.run_bind_ok (Procedure.run_attempt hbuild)] at hserver ⊢
    cases r with
    | ok rows => exact ⟨_, rfl, hserver⟩
    | error e => exact ⟨_, rfl, hserver⟩

theorem writePlaylist_eq (link : Link) (verb : String) {batch : List Batched} (hbatch : batch ≠ [])
    (s : Shelves) :
    let outcome := (link s.session.log.length (.commandList batch)).runBatch batch s.session.server
    ∃ s', writePlaylist link verb batch s =
        (outcome.1.mapError fun error => .mpd verb (.mpd error), s') ∧
      s'.session.server = outcome.2 := by
  intro outcome
  obtain ⟨t, hrun, hserver⟩ := commandList_eq link hbatch s.session
  have hsent : playlistMpd verb (commandList link batch) s =
      (outcome.1.mapError fun error => .mpd verb (.mpd error), { s with session := t }) :=
    run_playlistMpd hrun
  unfold writePlaylist
  cases hresult : outcome.1 with
  | error e =>
    rw [hresult] at hsent
    exact ⟨_, Procedure.run_bind_error hsent, hserver⟩
  | ok u =>
    rw [hresult] at hsent
    obtain ⟨s', hpublish, hsame⟩ := publishIndex_eq link { s with session := t }
    exact ⟨s', (Procedure.run_bind_ok hsent).trans hpublish, hsame.trans hserver⟩

/-- What a rejected payload and a payload that is not rejected come to. -/
theorem checkPayload_cases (v : Nat) (verb : String) (name : List Char) (s : Shelves) :
    (¬ Rejected v name ∧ checkPayload v verb [name] s = (.ok (), s)) ∨
      Rejected v name ∧ ∃ error, checkPayload v verb [name] s = (.error error, s) := by
  by_cases hv : v = playlistPayloadVersion
  · subst hv
    cases hname : validatePlaylistName name with
    | ok u =>
      refine .inl ⟨?_, run_checkPayload hname s⟩
      rintro (h | h)
      · exact h rfl
      · exact h hname
    | error error =>
      have hversion : checkPlaylistVersion playlistPayloadVersion verb s = (.ok (), s) := rfl
      have hcheck : checkName name s = (.error error, s) := by simp [checkName, hname]
      refine .inr ⟨.inr (by simp [hname]), error, ?_⟩
      rw [checkPayload, Procedure.run_bind_ok hversion, Procedure.each,
        Procedure.run_bind_error hcheck]
  · have hversion : checkPlaylistVersion v verb s =
        (.error (.payloadVersion verb v playlistPayloadVersion), s) := by
      simp [checkPlaylistVersion, hv]
    exact .inr ⟨.inl hv, _, Procedure.run_bind_error hversion⟩

/-- A verb that checks its payload and writes what it is asked for, if anything,
is atomic exactly when the write is. -/
theorem atomic_write_iff (link : Link) {v : Nat} {verb verb' : String} {name : List Char}
    {batch : List Batched} {edit : List (List Char) → List (List Char)} {s : Shelves}
    (hbatch : batch ≠ []) :
    Atomic (checkPayload v verb [name] >>= fun _ => writePlaylist link verb' batch) name edit s ↔
      Rejected v name ∨
        (link s.session.log.length (.commandList batch)).WritesWhole batch name edit
          s.session.server := by
  unfold Atomic Fate.WritesWhole
  obtain ⟨haccepted, hcheck⟩ | ⟨hrejected, error, hcheck⟩ := checkPayload_cases v verb name s
  · obtain ⟨s', hwrite, hserver⟩ := writePlaylist_eq link verb' hbatch s
    rw [or_iff_right haccepted]
    unfold Triple
    rw [Procedure.run_bind_ok hcheck, hwrite]
    dsimp only
    rw [← hserver]
    cases ((link s.session.log.length (.commandList batch)).runBatch batch s.session.server).1 with
    | ok u => exact Iff.rfl
    | error e => exact Iff.rfl
  · refine iff_of_true ?_ (.inl hrejected)
    unfold Triple
    rw [Procedure.run_bind_error hcheck]

-- ---------------------------------------------------------------------------
-- Adding
-- ---------------------------------------------------------------------------

/-- Either every URI is a song or a stream of its own and MPD serves the list, or
nothing is added. -/
def Fate.AddsWhole (library : Library) (uris : List (List Char)) : Fate → Prop
  | .serve => (∀ uri ∈ uris, library.add uri = some [uri]) ∨
      (∃ uri ∈ uris, library.add uri = none) ∧ added library uris = []
  | .refuse executed _ => added library (uris.take executed) = []
  | .lose _ => added library uris = []

theorem runBatch_playlistadd_isOk (name : List Char) (uris : List (List Char)) (server : Server) :
    (runBatch (uris.map (.playlistadd name)) server).1.isOk = true ↔
      ∀ uri ∈ uris, server.library.add uri ≠ none := by
  induction uris generalizing server with
  | nil => simp [runBatch, Except.isOk, Except.toBool]
  | cons uri uris ih =>
    simp only [List.map_cons, runBatch, Batched.effect, List.forall_mem_cons]
    cases hadd : server.library.add uri with
    | none => simp [Server.playlistadd_error hadd, Except.isOk, Except.toBool]
    | some found =>
      rw [Server.playlistadd_ok hadd]
      dsimp only
      rw [ih]
      simp [Server.appendToPlaylist, Server.putPlaylist]

/-- The songs under a path that is a song are the song. -/
theorem filter_under_song {library : Library} (huri : uri ∈ library.songs)
    (h : library.songs.filter (queuePathIsUnder · uri) = uri :: more) : more = [] := by
  have hdistinct : (uri :: more).Nodup := h ▸ library.distinct.sublist List.filter_sublist
  refine List.eq_nil_iff_forall_not_mem.mpr fun song hsong => ?_
  have hmem : song ∈ library.songs.filter (queuePathIsUnder · uri) :=
    h ▸ List.mem_cons_of_mem uri hsong
  obtain ⟨hsongs, hunder⟩ := List.mem_filter.mp hmem
  have hsame : song = uri := library.leaf uri huri song hsongs hunder
  exact (List.nodup_cons.mp hdistinct).1 (hsame ▸ hsong)

/-- What MPD adds for a URI begins with the URI only when it is all there is. -/
theorem add_eq_singleton {library : Library} (h : library.add uri = some (uri :: more)) :
    more = [] := by
  unfold Library.add at h
  split at h
  next songs hlist =>
    obtain rfl := Option.some.inj h
    unfold Library.listallinfo at hlist
    split at hlist
    next hroot =>
      have huri : uri ∈ library.songs := Option.some.inj hlist ▸ List.mem_cons_self
      exact absurd (hroot ▸ huri) library.named
    next =>
      split at hlist
      next => cases hlist
      next =>
        have hfilter := Option.some.inj hlist
        have huri : uri ∈ library.songs.filter (queuePathIsUnder · uri) :=
          hfilter ▸ List.mem_cons_self
        exact filter_under_song (List.mem_filter.mp huri).1 hfilter
  next =>
    split at h
    next => simpa using h
    next => cases h

theorem added_named {library : Library} (uris : List (List Char)) : [] ∉ added library uris := by
  induction uris with
  | nil => simp [added]
  | cons uri uris ih =>
    unfold added
    split
    next hadd => simp [ih, Library.add_named hadd]
    next => simp

theorem add_eq_nil {library : Library} (h : library.add uri = some []) : uri = [] := by
  unfold Library.add Library.listallinfo at h
  by_contra hne
  simp only [hne, if_false] at h
  grind

theorem added_eq_self_iff {library : Library} {uris : List (List Char)}
    (hall : ∀ uri ∈ uris, library.add uri ≠ none) :
    added library uris = uris ↔ ∀ uri ∈ uris, library.add uri = some [uri] := by
  induction uris with
  | nil => simp [added]
  | cons uri uris ih =>
    obtain ⟨huri, huris⟩ := List.forall_mem_cons.mp hall
    have ih := ih huris
    obtain ⟨found, hadd⟩ := Option.ne_none_iff_exists'.mp huri
    simp only [added, hadd, List.forall_mem_cons]
    constructor
    · intro h
      cases found with
      | nil =>
        have hmem : uri ∈ added library uris := by rw [List.nil_append] at h; simp [h]
        exact absurd (add_eq_nil hadd ▸ hmem) (added_named uris)
      | cons song more =>
        obtain ⟨rfl, hrest⟩ := List.cons.inj h
        obtain rfl := add_eq_singleton hadd
        exact ⟨rfl, ih.mp hrest⟩
    · rintro ⟨hsome, hrest⟩
      rw [Option.some.inj hsome, ih.mpr hrest, List.singleton_append]

/-- The adds of a command list, as far as they run. -/
theorem addsWhole_iff (name : List Char) (uris : List (List Char)) (server : Server) (fate : Fate) :
    fate.WritesWhole (uris.map (.playlistadd name)) name (· ++ uris) server ↔
      fate.AddsWhole server.library uris := by
  unfold Fate.WritesWhole
  cases fate with
  | serve =>
    have hok := runBatch_playlistadd_isOk name uris server
    simp only [Fate.runBatch, runBatch_playlistadd, Fate.AddsWhole, hok]
    by_cases hall : ∀ uri ∈ uris, server.library.add uri ≠ none
    · have hnone : ¬ ∃ uri ∈ uris, server.library.add uri = none := by simpa using hall
      rw [if_pos hall, List.append_cancel_left_eq, added_eq_self_iff hall,
        or_iff_left fun h => hnone h.1]
    · have hnone : ∃ uri ∈ uris, server.library.add uri = none := by simpa using hall
      have hsongs : ¬ ∀ uri ∈ uris, server.library.add uri = some [uri] :=
        fun h => hall fun uri huri => by simp [h uri huri]
      rw [if_neg hall, List.append_right_eq_self, or_iff_right hsongs, and_iff_right hnone]
  | refuse executed error =>
    simp only [Fate.runBatch, Fate.AddsWhole, ← List.map_take, runBatch_playlistadd]
    exact List.append_right_eq_self
  | lose error =>
    simp only [Fate.runBatch, Fate.AddsWhole, runBatch_playlistadd]
    exact List.append_right_eq_self

theorem addsWhole_nil (library : Library) (fate : Fate) : fate.AddsWhole library [] := by
  cases fate <;> simp [Fate.AddsWhole, added]

/-- A verb that is asked for nothing has nothing to do. -/
theorem atomic_nothing {v : Nat} {verb : String} {name : List Char}
    {edit : List (List Char) → List (List Char)} {s : Shelves}
    (hedit : edit (s.session.server.stored name) = s.session.server.stored name) :
    Atomic (checkPayload v verb [name] >>= fun _ => pure ()) name edit s := by
  unfold Atomic Triple
  obtain ⟨-, hcheck⟩ | ⟨-, error, hcheck⟩ := checkPayload_cases v verb name s
  · rw [Procedure.run_bind_ok hcheck]
    exact hedit.symm
  · rw [Procedure.run_bind_error hcheck]

theorem addToPlaylist_atomic_iff (link : Link) (v : Nat) (name : List Char)
    (uris : List (List Char)) (s : Shelves) :
    Atomic (handleAddToPlaylist link v name uris) name (· ++ uris) s ↔
      Rejected v name ∨ (link s.session.log.length
        (.commandList (uris.map (.playlistadd name)))).AddsWhole s.session.server.library uris := by
  cases uris with
  | nil => exact iff_of_true (atomic_nothing (List.append_nil _)) (.inr (addsWhole_nil _ _))
  | cons uri uris =>
    rw [← addsWhole_iff]
    exact atomic_write_iff link (List.cons_ne_nil _ _)

-- ---------------------------------------------------------------------------
-- Removing
-- ---------------------------------------------------------------------------

/-- MPD serves the list, or deletes nothing: no command of the list ran, or the
first of them is out of range. -/
def Fate.DeletesWhole (length : Nat) (positions : List Nat) : Fate → Prop
  | .serve => True
  | .refuse executed _ => executed = 0 ∨ positions = [] ∨ ∃ p ∈ positions, length ≤ p
  | .lose _ => positions = [] ∨ ∃ p ∈ positions, length ≤ p

theorem Server.playlistdelete_cases (server : Server) (name : List Char) (p : Nat) :
    (p < (server.stored name).length ∧ ∃ server', server.playlistdelete name p = .ok ((), server') ∧
      server'.stored name = (server.stored name).eraseIdx p) ∨
    ((server.stored name).length ≤ p ∧ ∃ error, server.playlistdelete name p = .error error) := by
  unfold playlistdelete stored
  cases hlookup : server.playlists.lookup name with
  | none => exact .inr ⟨Nat.zero_le p, noExist, rfl⟩
  | some entries =>
    by_cases hp : p < entries.length
    · refine .inl ⟨hp, _, if_neg (Nat.not_le.mpr hp), ?_⟩
      have hedit := Table.lookup_edit server.playlists name name (·.eraseIdx p)
      rw [if_pos rfl, hlookup] at hedit
      dsimp only
      rw [hedit]
      rfl
    · exact .inr ⟨Nat.not_lt.mp hp, badSongIndex, if_pos (Nat.not_lt.mp hp)⟩

/-- Deletes that run from the back to the front and begin in range all run. -/
theorem runBatch_playlistdelete {positions : List Nat} {server : Server}
    (hdesc : positions.Pairwise (· > ·))
    (hrange : ∀ p ∈ positions, p < (server.stored name).length) :
    (runBatch (positions.map (.playlistdelete name)) server).1 = .ok () ∧
      (runBatch (positions.map (.playlistdelete name)) server).2.stored name =
        Positions.without positions (server.stored name) := by
  induction positions generalizing server with
  | nil => simp [runBatch]
  | cons p positions ih =>
    obtain ⟨hp, hpositions⟩ := List.forall_mem_cons.mp hrange
    obtain ⟨hbelow, hdesc⟩ := List.pairwise_cons.mp hdesc
    obtain ⟨-, server', hdelete, hstored⟩ | ⟨hle, -⟩ := server.playlistdelete_cases name p
    · simp only [List.map_cons, runBatch, Batched.effect, hdelete]
      rw [Positions.without_cons hp hbelow, ← hstored]
      refine ih hdesc fun q hq => ?_
      rw [hstored, List.length_eraseIdx_of_lt hp]
      exact Nat.lt_of_lt_of_le (hbelow q hq) (Nat.le_sub_one_of_lt hp)
    · exact absurd hp (Nat.not_lt.mpr hle)

theorem pairwise_descending (positions : List Nat) : (descending positions).Pairwise (· > ·) :=
  List.pairwise_reverse.mpr (Positions.pairwise_ascending positions)

theorem mem_descending {positions : List Nat} : p ∈ descending positions ↔ p ∈ positions :=
  List.mem_reverse.trans Positions.mem_ascending

/-- A position out of range makes the first delete fail. -/
theorem descending_head {positions : List Nat} (h : ∃ p ∈ positions, length ≤ p) :
    ∃ p rest, descending positions = p :: rest ∧ length ≤ p := by
  obtain ⟨p, hp, hle⟩ := h
  have hmem := mem_descending.mpr hp
  have hdesc := pairwise_descending positions
  cases hpositions : descending positions with
  | nil =>
    rw [hpositions] at hmem
    cases hmem
  | cons q rest =>
    rw [hpositions] at hmem hdesc
    refine ⟨q, rest, rfl, ?_⟩
    rcases List.mem_cons.mp hmem with rfl | hmem
    · exact hle
    · exact Nat.le_of_lt (Nat.lt_of_le_of_lt hle ((List.pairwise_cons.mp hdesc).1 p hmem))

theorem runBatch_out_of_range {server : Server} (h : (server.stored name).length ≤ p)
    (rest : List Batched) :
    ∃ error, runBatch (.playlistdelete name p :: rest) server = (.error error, server) := by
  obtain ⟨hlt, -⟩ | ⟨-, error, hdelete⟩ := server.playlistdelete_cases name p
  · exact absurd hlt (Nat.not_lt.mpr h)
  · exact ⟨error, by simp [runBatch, Batched.effect, hdelete]⟩

theorem descending_eq_nil {positions : List Nat} : descending positions = [] ↔ positions = [] := by
  simp only [List.eq_nil_iff_forall_not_mem, mem_descending]

theorem deletesWhole_iff (name : List Char) (positions : List Nat) (server : Server) (fate : Fate) :
    fate.WritesWhole ((descending positions).map (.playlistdelete name)) name
        (Positions.without positions) server ↔
      fate.DeletesWhole (server.stored name).length positions := by
  unfold Fate.WritesWhole
  by_cases hout : ∃ p ∈ positions, (server.stored name).length ≤ p
  · -- No delete runs, whatever becomes of the list.
    have hholds : fate.DeletesWhole (server.stored name).length positions := by
      cases fate <;> simp [Fate.DeletesWhole, hout]
    refine iff_of_true ?_ hholds
    obtain ⟨p, rest, hdescending, hp⟩ := descending_head hout
    obtain ⟨error, hrun⟩ := runBatch_out_of_range hp (rest.map (.playlistdelete name))
    rw [hdescending, List.map_cons]
    cases fate with
    | serve => simp [Fate.runBatch, hrun, Except.isOk, Except.toBool]
    | refuse executed error =>
      cases executed with
      | zero => simp [Fate.runBatch, runBatch, Except.isOk, Except.toBool]
      | succ executed =>
        obtain ⟨error', hrun⟩ := runBatch_out_of_range hp
          ((rest.map (.playlistdelete name)).take executed)
        simp [Fate.runBatch, hrun, Except.isOk, Except.toBool]
    | lose error => simp [Fate.runBatch, hrun, Except.isOk, Except.toBool]
  · have hrange : ∀ p ∈ positions, p < (server.stored name).length := by simpa using hout
    have hdescending : ∀ p ∈ descending positions, p < (server.stored name).length :=
      fun p hp => hrange p (mem_descending.mp hp)
    have hsame : Positions.without (descending positions) (server.stored name) =
        Positions.without positions (server.stored name) :=
      Positions.without_congr fun p _ => mem_descending
    obtain ⟨hok, hstored⟩ := runBatch_playlistdelete (pairwise_descending positions) hdescending
    cases fate with
    | serve =>
      simp [Fate.runBatch, hok, hstored, hsame, Fate.DeletesWhole, Except.isOk, Except.toBool]
    | refuse executed error =>
      have htake : ∀ p ∈ (descending positions).take executed, p < (server.stored name).length :=
        fun p hp => hdescending p (List.mem_of_mem_take hp)
      obtain ⟨-, hstored⟩ := runBatch_playlistdelete
        ((pairwise_descending positions).sublist (List.take_sublist executed _)) htake
      simp only [Fate.runBatch, ← List.map_take, hstored, Fate.DeletesWhole, hout, or_false]
      exact (Positions.without_eq_self_iff htake).trans
        (List.take_eq_nil_iff.trans (or_congr_right descending_eq_nil))
    | lose error =>
      simp only [Fate.runBatch, hstored, hsame, Fate.DeletesWhole, hout, or_false]
      exact Positions.without_eq_self_iff hrange

theorem deletesWhole_nil (length : Nat) (fate : Fate) : fate.DeletesWhole length [] := by
  cases fate <;> simp [Fate.DeletesWhole]

theorem removeFromPlaylist_atomic_iff (link : Link) (v : Nat) (name : List Char)
    (positions : List Nat) (s : Shelves) :
    Atomic (handleRemoveFromPlaylist link v name positions) name (Positions.without positions) s ↔
      Rejected v name ∨ (link s.session.log.length
        (.commandList ((descending positions).map (.playlistdelete name)))).DeletesWhole
          (s.session.server.stored name).length positions := by
  cases positions with
  | nil =>
    exact iff_of_true (atomic_nothing (Positions.without_nil _)) (.inr (deletesWhole_nil _ _))
  | cons p positions =>
    rw [← deletesWhole_iff]
    refine atomic_write_iff link ?_
    rw [ne_eq, List.map_eq_nil_iff, descending_eq_nil]
    exact List.cons_ne_nil p positions

/-- Removing is atomic unless a reply is lost or the list is cut off after a
delete; adding is not when MPD refuses a URI behind one that it adds, nor when a
URI is a directory. -/
theorem bulk_edits_atomic_iff (link : Link) (v : Nat) (name : List Char) (uris : List (List Char))
    (positions : List Nat) (s : Shelves) :
    (Atomic (handleAddToPlaylist link v name uris) name (· ++ uris) s ↔
      Rejected v name ∨ (link s.session.log.length
        (.commandList (uris.map (.playlistadd name)))).AddsWhole s.session.server.library uris) ∧
    (Atomic (handleRemoveFromPlaylist link v name positions) name (Positions.without positions) s ↔
      Rejected v name ∨ (link s.session.log.length
        (.commandList ((descending positions).map (.playlistdelete name)))).DeletesWhole
          (s.session.server.stored name).length positions) :=
  ⟨addToPlaylist_atomic_iff link v name uris s,
    removeFromPlaylist_atomic_iff link v name positions s⟩

/-- The songs of `twoArtists` and a playlist with the second of them. -/
def mixShelves : Shelves where
  session :=
    { emptyQueue twoArtists with
      server := (Server.idle twoArtists).putPlaylist "mix".toList ["b.flac".toList] (by decide) }
  index := none
  itemCountCache := []

/-- The first song stays when MPD does not know the second. -/
theorem refused_add_keeps_earlier :
    ¬ Atomic (handleAddToPlaylist serving playlistPayloadVersion "mix".toList
        ["a.flac".toList, "gone.flac".toList]) "mix".toList
      (· ++ ["a.flac".toList, "gone.flac".toList]) mixShelves ∧
    (handleAddToPlaylist serving playlistPayloadVersion "mix".toList
        ["a.flac".toList, "gone.flac".toList] mixShelves).1 =
      .error (.mpd "add_to_playlist" (.mpd noExist)) ∧
    (handleAddToPlaylist serving playlistPayloadVersion "mix".toList
        ["a.flac".toList, "gone.flac".toList] mixShelves).2.session.server.stored "mix".toList =
      ["b.flac".toList, "a.flac".toList] := by
  have hrun : (handleAddToPlaylist serving playlistPayloadVersion "mix".toList
        ["a.flac".toList, "gone.flac".toList] mixShelves).1 =
      .error (.mpd "add_to_playlist" (.mpd noExist)) := by decide
  have hstored : (handleAddToPlaylist serving playlistPayloadVersion "mix".toList
        ["a.flac".toList, "gone.flac".toList] mixShelves).2.session.server.stored "mix".toList =
      ["b.flac".toList, "a.flac".toList] := by decide
  refine ⟨fun hatomic => ?_, hrun, hstored⟩
  have hkept := hstored.symm.trans (hatomic.error (Prod.ext hrun rfl))
  exact absurd hkept (by decide)

end EvoAudio.Playback
