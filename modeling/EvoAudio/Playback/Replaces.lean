import EvoAudio.Playback.EmptySelections

/-!
# Replacing the queue by a selection

`queue.enqueue_selection` in the mode `replace` empties the queue before it adds
the selection: a resolved selection in one command list, the tracks of a
container one by one, so that their tags can be added. Nothing is put back when a
command behind the `clear` fails.
-/

namespace EvoAudio.Playback

open Mpd (MpdError)
open Procedure (Triple)

-- ---------------------------------------------------------------------------
-- The songs a failed replace leaves in the queue
-- ---------------------------------------------------------------------------

namespace ResolvedSelection

/-- The URIs that are sent for the selection. -/
def listed : ResolvedSelection → List (List Char)
  | .uriList uris => uris
  | .filter _ _ => []

/-- The songs that the `add`s of a selection put in the queue, up to the first
that MPD refuses. -/
def queued (library : Library) : ResolvedSelection → List (List Char)
  | .uriList uris => added library uris
  | .filter pairs substring => if substring then library.search pairs else library.find pairs

/-- MPD takes every `add` of the selection. -/
def addable (library : Library) : ResolvedSelection → Bool
  | .uriList uris => uris.all fun uri => (library.add uri).isSome
  | .filter _ _ => true

end ResolvedSelection

/-- The songs that a failed command list leaves in the queue it has cleared. A
list that MPD serves fails at an `add`, or at the `play` of an empty queue. -/
def Fate.leftQueued (library : Library) (resolved : ResolvedSelection) :
    Fate → Option (List (List Char))
  | .serve =>
    if resolved.addable library && !(resolved.queued library).isEmpty then none
    else some (resolved.queued library)
  | .refuse 0 _ => none
  | .refuse (executed + 1) _ => some ((resolved.front executed).queued library)
  | .lose _ => some (resolved.queued library)

/-- The tags of a track that are sent. -/
def ResolvedTrack.tagsSent (track : ResolvedTrack) : Nat :=
  track.tags.countP fun tag => tag.2.any (!·.isEmpty)

/-- What MPD adds of the tracks after so many commands were sent, and how many
were sent at the end when every track was added. -/
def tracksQueued (link : Link) (library : Library) :
    Nat → List ResolvedTrack → List (List Char) × Option Nat
  | sent, [] => ([], some sent)
  | sent, track :: tracks =>
    if library.playable track.uri then
      match link sent (.addid track.uri none) with
      | .serve =>
        let (songs, done) := tracksQueued link library (sent + 1 + track.tagsSent) tracks
        (track.uri :: songs, done)
      | .refuse _ _ => ([], none)
      | .lose _ => ([track.uri], none)
    else ([], none)

/-- The songs that a failed replace by tracks leaves in the queue it has cleared. -/
def containerLeft (link : Link) (library : Library) (sent : Nat) (tracks : List ResolvedTrack) :
    Option (List (List Char)) :=
  match link sent .clear with
  | .refuse _ _ => none
  | .lose _ => some []
  | .serve =>
    match tracksQueued link library (sent + 1) tracks with
    | (songs, none) => some songs
    | (songs, some sent) =>
      match link sent .play with
      | .serve => none
      | _ => some songs

/-- The queue was empty before, and the failed replace left nothing in it. -/
def LeavesEmpty (queue : Queue) (left : Option (List (List Char))) : Prop :=
  ∀ songs ∈ left, queue.rows = [] ∧ songs = []

-- ---------------------------------------------------------------------------
-- Clearing and adding
-- ---------------------------------------------------------------------------

namespace Queue

theorem append_append (queue : Queue) (songs more : List (List Char)) :
    queue.append (songs ++ more) = (queue.append songs).append more := by
  induction songs generalizing queue with
  | nil => rfl
  | cons song songs ih => exact ih _

theorem append_nextId (queue : Queue) (songs : List (List Char)) :
    (queue.append songs).nextId = queue.nextId + songs.length := by
  induction songs generalizing queue with
  | nil => rfl
  | cons song songs ih =>
    have hinsert : (queue.insert queue.rows.length song).nextId = queue.nextId + 1 := rfl
    rw [append, ih, hinsert, List.length_cons]
    omega

/-- A queue that was cleared is never the old one again, unless both are empty. -/
theorem clear_append_eq_self_iff {queue : Queue} {songs : List (List Char)} :
    queue.clear.append songs = queue ↔ queue.rows = [] ∧ songs = [] := by
  constructor
  · intro h
    have hsongs : songs = [] := by
      have hnext : queue.nextId = queue.nextId + songs.length := by
        conv_lhs => rw [← h]
        exact queue.clear.append_nextId songs
      exact List.eq_nil_of_length_eq_zero (by omega)
    rw [hsongs] at h
    exact ⟨clear_eq_self_iff.mp h, hsongs⟩
  · rintro ⟨hrows, rfl⟩
    exact clear_eq_self_iff.mpr hrows

theorem clear_append_rows_eq_nil_iff {queue : Queue} {songs : List (List Char)} :
    (queue.clear.append songs).rows = [] ↔ songs = [] := by
  rw [← List.length_eq_zero_iff, append_rows_length, clear, ← List.length_eq_zero_iff]
  simp

end Queue

-- ---------------------------------------------------------------------------
-- The command list
-- ---------------------------------------------------------------------------

section Batches

variable {server : Server}

/-- A `play` at the end of a list leaves the queue alone. -/
theorem runBatch_play_queue (executed : Nat) (server : Server) :
    (runBatch ([.playPosition 0].take executed) server).2.queue = server.queue := by
  cases executed with
  | zero => rfl
  | succ executed =>
    simp only [List.take_succ_cons, List.take_nil, runBatch, Batched.effect]
    cases hplay : Server.playPosition 0 server with
    | ok result => exact (Server.playPosition_keeps hplay).1
    | error error => rfl

theorem runBatch_adds_queue (uris : List (List Char)) (executed : Nat) (server : Server) :
    (runBatch (uris.map .add ++ [.playPosition 0].take executed) server).2.queue =
      server.queue.append (added server.library uris) := by
  induction uris generalizing server with
  | nil => exact runBatch_play_queue executed server
  | cons uri uris ih =>
    simp only [List.map_cons, List.cons_append, runBatch, Batched.effect, Server.add, added]
    cases hadd : server.library.add uri with
    | none => rfl
    | some songs => rw [Queue.append_append, ih]

theorem front_replaceBatch_length (resolved : ResolvedSelection) :
    resolved.front (replaceBatch resolved resolved.listed).length = resolved := by
  cases resolved with
  | uriList uris =>
    refine congrArg ResolvedSelection.uriList (List.take_of_length_le ?_)
    simp only [replaceBatch, ResolvedSelection.listed, List.length_append, List.length_cons,
      List.length_map]
    omega
  | filter pairs substring => rfl

/-- Behind the `clear` the executed commands add the songs of the front of the selection. -/
theorem runBatch_replaceBatch_queue (resolved : ResolvedSelection) (executed : Nat)
    (server : Server) :
    (runBatch ((replaceBatch resolved resolved.listed).take (executed + 1)) server).2.queue =
      server.queue.clear.append ((resolved.front executed).queued server.library) := by
  have htake {adds : List Batched} :
      (Batched.clear :: adds ++ [Batched.playPosition 0]).take (executed + 1) =
        .clear :: (adds.take executed ++ [.playPosition 0].take (executed - adds.length)) := by
    rw [List.cons_append, List.take_succ_cons, List.take_append]
  cases resolved with
  | uriList uris =>
    have hadds := runBatch_adds_queue (uris.take executed) (executed - uris.length)
      { server with queue := server.queue.clear, state := .stopped, current := none }
    rw [replaceBatch, ResolvedSelection.listed, htake, List.length_map, List.map_take.symm]
    exact hadds
  | filter pairs substring =>
    rw [replaceBatch, htake]
    cases executed with
    | zero => rfl
    | succ executed =>
      rw [List.take_succ_cons, List.take_nil]
      cases substring with
      | false => exact runBatch_play_queue executed { server with
          queue := server.queue.clear.append (server.library.find pairs)
          state := .stopped
          current := none }
      | true => exact runBatch_play_queue executed { server with
          queue := server.queue.clear.append (server.library.search pairs)
          state := .stopped
          current := none }

theorem runBatch_play_ok (server : Server) :
    (runBatch [.playPosition 0] server).1 = .ok () ↔ server.queue.rows ≠ [] := by
  cases hrows : server.queue.rows with
  | nil => simp [runBatch, Batched.effect, Server.playPosition, hrows]
  | cons row rows => simp [runBatch, Batched.effect, Server.playPosition, hrows]

theorem runBatch_adds_ok (uris : List (List Char)) (server : Server) :
    (runBatch (uris.map .add ++ [.playPosition 0]) server).1 = .ok () ↔
      (∀ uri ∈ uris, (server.library.add uri).isSome) ∧
        (server.queue.append (added server.library uris)).rows ≠ [] := by
  induction uris generalizing server with
  | nil => simp [runBatch_play_ok, added, Queue.append]
  | cons uri uris ih =>
    simp only [List.map_cons, List.cons_append, runBatch, Batched.effect, Server.add, added,
      List.forall_mem_cons]
    cases hadd : server.library.add uri with
    | none => simp
    | some songs => simp [ih, Queue.append_append]

/-- A served list succeeds when every `add` is taken and leaves a song to play. -/
theorem runBatch_replaceBatch_ok (resolved : ResolvedSelection) (server : Server) :
    (runBatch (replaceBatch resolved resolved.listed) server).1 = .ok () ↔
      (resolved.addable server.library && !(resolved.queued server.library).isEmpty) = true := by
  rw [Bool.and_eq_true, Bool.not_eq_true', ← Bool.not_eq_true, List.isEmpty_iff,
    ← @Queue.clear_append_rows_eq_nil_iff server.queue]
  cases resolved with
  | uriList uris =>
    have hadds := runBatch_adds_ok uris
      { server with queue := server.queue.clear, state := .stopped, current := none }
    rw [ResolvedSelection.addable, List.all_eq_true]
    exact hadds
  | filter pairs substring =>
    cases substring with
    | false => exact (runBatch_play_ok _).trans (and_iff_right rfl).symm
    | true => exact (runBatch_play_ok _).trans (and_iff_right rfl).symm

end Batches

-- ---------------------------------------------------------------------------
-- Procedures that keep the queue when they fail
-- ---------------------------------------------------------------------------

/-- A procedure that fails leaves this queue. -/
def KeptWhenFailed (queue : Queue) (act : Procedure Session ε α) (s : Session) : Prop :=
  Triple act s (fun _ _ => True) (fun _ s' => s'.server.queue = queue)

section Keeping

variable {queue : Queue} {act : Procedure Session ε α} {f : α → Procedure Session ε β} {s s' : Session}

theorem keptWhenFailed_bind_ok (h : act s = (.ok a, s')) :
    KeptWhenFailed queue (act >>= f) s ↔ KeptWhenFailed queue (f a) s' := by
  unfold KeptWhenFailed Triple
  rw [Procedure.run_bind_ok h]

theorem keptWhenFailed_bind_error (h : act s = (.error e, s')) :
    KeptWhenFailed queue (act >>= f) s ↔ s'.server.queue = queue := by
  unfold KeptWhenFailed Triple
  rw [Procedure.run_bind_error h]

/-- A sequence whose second part never fails keeps what its first part keeps. -/
theorem keptWhenFailed_bind (h : ∀ a s', Triple (f a) s' (fun _ _ => True) (fun _ _ => False)) :
    KeptWhenFailed queue (act >>= f) s ↔ KeptWhenFailed queue act s := by
  cases hrun : act s with
  | mk r s' =>
    cases r with
    | ok a =>
      rw [keptWhenFailed_bind_ok hrun]
      unfold KeptWhenFailed
      refine iff_of_true ((h a s').mono (fun _ _ h => h) fun _ _ h => h.elim) ?_
      unfold Triple
      rw [hrun]
      trivial
    | error e =>
      rw [keptWhenFailed_bind_error hrun]
      unfold KeptWhenFailed Triple
      rw [hrun]

theorem keptWhenFailed_verbMpd {act : Procedure Session MpdError α} :
    KeptWhenFailed queue (verbMpd verb act) s ↔ KeptWhenFailed queue act s := by
  unfold KeptWhenFailed Triple
  cases hrun : act s with
  | mk r s' =>
    rw [run_verbMpd hrun]
    cases r with
    | ok a => rfl
    | error e => rfl

end Keeping

theorem publishQueue_never_fails (link : Link) (s : Session) :
    Triple (publishQueue link) s (fun _ _ => True) (fun _ _ => False) :=
  (publishQueue_run link s).mono (fun _ _ _ => trivial) fun _ _ h => h

theorem publishNowPlaying_never_fails (link : Link) (s : Session) :
    Triple (publishNowPlayingAfterTransport link) s (fun _ _ => True) (fun _ _ => False) :=
  (publishNowPlaying_run link s).mono (fun _ _ _ => trivial) fun _ _ h => h

-- ---------------------------------------------------------------------------
-- A resolved selection
-- ---------------------------------------------------------------------------

theorem applyReplace_kept_iff (link : Link) (resolved : ResolvedSelection) (s : Session) :
    KeptWhenFailed s.server.queue (applyReplace link resolved resolved.listed) s ↔
      LeavesEmpty s.server.queue
        ((link s.log.length (.commandList (replaceBatch resolved resolved.listed))).leftQueued
          s.server.library resolved) := by
  have hwhole : (runBatch (replaceBatch resolved resolved.listed) s.server).2.queue =
      s.server.queue.clear.append (resolved.queued s.server.library) := by
    have hall := runBatch_replaceBatch_queue resolved
      (replaceBatch resolved resolved.listed).length s.server
    rw [List.take_of_length_le (Nat.le_succ _), front_replaceBatch_length] at hall
    exact hall
  have hok := runBatch_replaceBatch_ok resolved s.server
  have hne : replaceBatch resolved resolved.listed ≠ [] := List.cons_ne_nil _ _
  rw [applyReplace, keptWhenFailed_verbMpd]
  unfold KeptWhenFailed Triple commandList LeavesEmpty
  rw [if_neg hne]
  cases hlink : link s.log.length (.commandList (replaceBatch resolved resolved.listed)) with
  | serve =>
    cases hrun : runBatch (replaceBatch resolved resolved.listed) s.server with
    | mk r server =>
      rw [hrun] at hwhole hok
      cases r with
      | ok result =>
        simp only [Fate.leftQueued, if_pos (hok.mp rfl)]
        simp
      | error error =>
        have hfails : ¬_ := fun h => nomatch hok.mpr h
        dsimp only at hwhole ⊢
        simp only [Fate.leftQueued, if_neg hfails, hwhole, Queue.clear_append_eq_self_iff]
        simp
  | refuse executed error =>
    cases executed with
    | zero => simp [Fate.leftQueued, runBatch]
    | succ executed =>
      simp only [Fate.leftQueued, runBatch_replaceBatch_queue, Queue.clear_append_eq_self_iff]
      simp
  | lose error =>
    simp only [Fate.leftQueued, hwhole, Queue.clear_append_eq_self_iff]
    simp

-- ---------------------------------------------------------------------------
-- The tracks of a container
-- ---------------------------------------------------------------------------

section Tracks

variable {link : Link}

theorem applyTag_run (id : Nat) (tag : String × Option (List Char)) (s : Session) :
    ∃ s', applyTag link id tag s = (.ok (), s') ∧ s'.server = s.server ∧
      s'.log.length = s.log.length + if tag.2.any (!·.isEmpty) then 1 else 0 := by
  have hsame {server server' : Server} {id : Nat} (h : Server.addtagid id server = .ok ((), server')) :
      server' = server := by
    unfold Server.addtagid at h
    split at h <;> cases h
    rfl
  cases htag : tag.2 with
  | none => exact ⟨s, by simp [applyTag, htag], rfl, rfl⟩
  | some value =>
    cases hempty : value.isEmpty with
    | true => exact ⟨s, by simp [applyTag, htag, hempty], rfl, by simp [hempty]⟩
    | false =>
      have hsend : applyTag link id tag =
          ((addtagid link id tag.1 value).attempt >>= fun _ => pure ()) := by
        simp [applyTag, htag, hempty]
      cases hrun : addtagid link id tag.1 value s with
      | mk r s' =>
        refine ⟨s', ?_, ?_⟩
        · rw [hsend]
          exact Procedure.run_bind_ok (Procedure.run_attempt hrun)
        · have hdispatch := dispatch_run link (.addtagid id tag.1 value) (Server.addtagid id) s
          have hlength {answered : Bool} (hlog : s'.log = (.addtagid id tag.1 value, answered) :: s.log) :
              s'.log.length = s.log.length + if (some value).any (!·.isEmpty) then 1 else 0 := by
            simp [hlog, hempty]
          cases r with
          | ok result =>
            obtain ⟨heffect, -, hlog⟩ := hdispatch.ok hrun
            exact ⟨hsame heffect, hlength hlog⟩
          | error error =>
            obtain ⟨hserver | ⟨result, heffect⟩, -, hlog⟩ := hdispatch.error hrun
            · exact ⟨hserver, hlength hlog⟩
            · exact ⟨hsame heffect, hlength hlog⟩

theorem each_applyTag (id : Nat) (tags : List (String × Option (List Char))) (s : Session) :
    ∃ s', Procedure.each (applyTag link id) tags s = (.ok (), s') ∧ s'.server = s.server ∧
      s'.log.length = s.log.length + tags.countP fun tag => tag.2.any (!·.isEmpty) := by
  induction tags generalizing s with
  | nil => exact ⟨s, rfl, rfl, rfl⟩
  | cons tag tags ih =>
    obtain ⟨s₁, hrun₁, hserver₁, hlog₁⟩ := @applyTag_run link id tag s
    obtain ⟨s₂, hrun₂, hserver₂, hlog₂⟩ := ih s₁
    refine ⟨s₂, ?_, hserver₂.trans hserver₁, ?_⟩
    · rw [Procedure.each, Procedure.run_bind_ok hrun₁, hrun₂]
    · rw [hlog₂, hlog₁, List.countP_cons]
      omega

/-- Tags that MPD does not take are not an error. -/
theorem applyResolvedTags_run (id : Nat) (track : ResolvedTrack) (s : Session) :
    ∃ s', applyResolvedTags link id track s = (.ok (), s') ∧ s'.server = s.server ∧
      s'.log.length = s.log.length + track.tagsSent := by
  unfold applyResolvedTags
  split
  next hnone =>
    refine ⟨s, rfl, rfl, ?_⟩
    have hzero : track.tagsSent = 0 := by
      rw [ResolvedTrack.tagsSent, List.countP_eq_zero]
      intro tag htag hsent
      obtain ⟨value, hvalue, -⟩ := Option.any_eq_true .. |>.mp hsent
      have htags : track.hasTags = false := (Bool.not_eq_true' _).mp hnone
      exact List.any_eq_false.mp htags tag htag (by rw [hvalue]; rfl)
    rw [hzero, Nat.add_zero]
  next => exact each_applyTag id track.tags s

theorem addTrack_unplayable {track : ResolvedTrack} {s : Session}
    (hplay : s.server.library.playable track.uri = false) :
    ∃ error s', addTrack link verb none track s = (.error error, s') ∧
      s'.server.queue = s.server.queue := by
  have heffect : Server.addid track.uri none s.server = .error noExist := by
    simp [Server.addid, hplay]
  cases hrun : addid link track.uri none s with
  | mk r s' =>
    have hdispatch := dispatch_run link (.addid track.uri none) (Server.addid track.uri none) s
    cases r with
    | ok id => cases heffect.symm.trans (hdispatch.ok hrun).1
    | error error =>
      refine ⟨_, s', Procedure.run_bind_error (run_verbMpd hrun), ?_⟩
      obtain ⟨hserver | ⟨id, hok⟩, -⟩ := hdispatch.error hrun
      · exact congrArg Server.queue hserver
      · cases heffect.symm.trans hok

/-- The loop adds what `tracksQueued` says, and fails where that does. -/
theorem fold_addTrack (tracks : List ResolvedTrack) (s : Session) :
    ∃ r s', Procedure.fold (addTrack link verb) none tracks s = (r, s') ∧
      s'.server.queue = s.server.queue.append
        (tracksQueued link s.server.library s.log.length tracks).1 ∧
      match (tracksQueued link s.server.library s.log.length tracks).2 with
      | some sent => r = .ok none ∧ s'.log.length = sent
      | none => ∃ error, r = .error error := by
  induction tracks generalizing s with
  | nil => exact ⟨.ok none, s, rfl, rfl, rfl, rfl⟩
  | cons track tracks ih =>
    rw [Procedure.fold, tracksQueued]
    cases hplay : s.server.library.playable track.uri with
    | false =>
      obtain ⟨error, s', hrun, hqueue⟩ := @addTrack_unplayable link verb track s hplay
      rw [if_neg Bool.false_ne_true]
      exact ⟨_, s', Procedure.run_bind_error hrun, hqueue, error, rfl⟩
    | true =>
      have heffect : Server.addid track.uri none s.server = .ok (s.server.queue.nextId,
          { s.server with queue := s.server.queue.append [track.uri] }) := by
        simp [Server.addid, hplay, Queue.append]
      rw [if_pos rfl]
      cases hlink : link s.log.length (.addid track.uri none) with
      | serve =>
        have hadd : addid link track.uri none s = _ := dispatch_served hlink heffect
        obtain ⟨s₁, htags, hserver, hlog⟩ := @applyResolvedTags_run link s.server.queue.nextId track
          ⟨{ s.server with queue := s.server.queue.append [track.uri] }, s.mirror,
            (.addid track.uri none, true) :: s.log⟩
        have hrun : addTrack link verb none track s = (.ok none, s₁) := by
          unfold addTrack
          rw [Procedure.run_bind_ok (run_verbMpd hadd), Procedure.run_bind_ok htags]
          rfl
        obtain ⟨r, s', hfold, hqueue, hdone⟩ := ih s₁
        rw [hserver, hlog, List.length_cons] at hqueue hdone
        exact ⟨r, s', by rw [Procedure.run_bind_ok hrun, hfold], hqueue, hdone⟩
      | refuse executed error =>
        have hadd : addid link track.uri none s = _ := dispatch_refused hlink
        have hrun : addTrack link verb none track s = _ :=
          Procedure.run_bind_error (run_verbMpd hadd)
        exact ⟨_, _, Procedure.run_bind_error hrun, rfl, _, rfl⟩
      | lose error =>
        have hadd : addid link track.uri none s = _ := dispatch_unanswered hlink heffect
        have hrun : addTrack link verb none track s = _ :=
          Procedure.run_bind_error (run_verbMpd hadd)
        exact ⟨_, _, Procedure.run_bind_error hrun, rfl, _, rfl⟩

theorem tracksQueued_ne_nil {library : Library} {sent done : Nat} {tracks : List ResolvedTrack}
    (htracks : tracks ≠ []) (h : (tracksQueued link library sent tracks).2 = some done) :
    (tracksQueued link library sent tracks).1 ≠ [] := by
  obtain ⟨track, tracks, rfl⟩ := List.exists_cons_of_ne_nil htracks
  rw [tracksQueued] at h ⊢
  split at h
  next hplay =>
    rw [if_pos hplay]
    split at h
    · exact List.cons_ne_nil _ _
    · cases h
    · cases h
  · cases h

theorem Server.play_ok (server : Server) :
    ∃ server', Server.play server = .ok ((), server') ∧ server'.queue = server.queue := by
  unfold Server.play
  split
  · exact ⟨server, rfl, rfl⟩
  · exact ⟨_, rfl, rfl⟩

theorem applyContainer_kept_iff {tracks : List ResolvedTrack} (htracks : tracks ≠ [])
    (s : Session) :
    KeptWhenFailed s.server.queue (applyContainer link tracks .replace) s ↔
      LeavesEmpty s.server.queue (containerLeft link s.server.library s.log.length tracks) := by
  unfold applyContainer containerLeft LeavesEmpty
  cases hclear : link s.log.length .clear with
  | refuse executed error =>
    have hrun : clear link s = _ := dispatch_refused hclear
    rw [keptWhenFailed_bind_error (run_verbMpd hrun)]
    simp
  | lose error =>
    have hrun : clear link s = _ := dispatch_unanswered hclear rfl
    rw [keptWhenFailed_bind_error (run_verbMpd hrun)]
    have hempty := @Queue.clear_eq_self_iff s.server.queue
    simp [hempty]
  | serve =>
    have hrun : clear link s = _ := dispatch_served hclear rfl
    rw [keptWhenFailed_bind_ok (run_verbMpd hrun)]
    obtain ⟨r, s₁, hfold, hqueue, hdone⟩ := @fold_addTrack link "enqueue_selection" tracks
      ⟨{ s.server with queue := s.server.queue.clear, state := .stopped, current := none },
        s.mirror, (.clear, true) :: s.log⟩
    have htracksQueued := @tracksQueued_ne_nil link s.server.library (s.log.length + 1)
    dsimp only at hqueue hdone
    rw [List.length_cons] at hqueue hdone
    cases hqueued : tracksQueued link s.server.library (s.log.length + 1) tracks with
    | mk songs done =>
      rw [hqueued] at hqueue hdone
      cases done with
      | none =>
        obtain ⟨error, rfl⟩ := hdone
        have hadd : addTracks link "enqueue_selection" none tracks _ = _ :=
          Procedure.run_bind_error hfold
        rw [keptWhenFailed_bind_error hadd, hqueue, Queue.clear_append_eq_self_iff]
        simp
      | some sent =>
        obtain ⟨rfl, hlog⟩ := hdone
        have hadd : addTracks link "enqueue_selection" none tracks _ = _ :=
          Procedure.run_bind_ok hfold
        have hsongs := htracksQueued htracks (by rw [hqueued])
        rw [hqueued] at hsongs
        have hfailed {queue : Queue} (hsame : queue = s₁.server.queue) :
            queue = s.server.queue ↔
              ∀ left ∈ some songs, s.server.queue.rows = [] ∧ left = [] := by
          rw [hsame, hqueue, Queue.clear_append_eq_self_iff]
          simp
        obtain ⟨server, heffect, hsame⟩ := Server.play_ok s₁.server
        rw [keptWhenFailed_bind_ok hadd]
        subst hlog
        cases hplay : link s₁.log.length .play with
        | serve =>
          have hrun : play link s₁ = _ := dispatch_served hplay heffect
          rw [keptWhenFailed_bind_ok (run_verbMpd hrun)]
          refine iff_of_true ?_ (by simp [hplay])
          exact (publishNowPlaying_never_fails link _).mono (fun _ _ h => h) fun _ _ h => h.elim
        | refuse executed error =>
          have hrun : play link s₁ = _ := dispatch_refused hplay
          rw [keptWhenFailed_bind_error (run_verbMpd hrun)]
          simp only [hplay]
          exact hfailed rfl
        | lose error =>
          have hrun : play link s₁ = _ := dispatch_unanswered hplay heffect
          rw [keptWhenFailed_bind_error (run_verbMpd hrun)]
          simp only [hplay]
          exact hfailed hsame

end Tracks

-- ---------------------------------------------------------------------------
-- The verb
-- ---------------------------------------------------------------------------

/-- A replace that fails leaves the queue as it was before the call. -/
def ReplaceAtomic (ctx : QueueContext) (link : Link) (naming : Naming)
    (payload : EnqueueSelectionPayload) (s : Session) : Prop :=
  ∀ error,
    (handleEnqueueSelection ctx link naming { payload with mode := .replace } s).1 = .error error →
    (handleEnqueueSelection ctx link naming { payload with mode := .replace } s).2.server.queue =
      s.server.queue

/-- Whatever is resolved or collected, a replace that fails behind the `clear`
finds the queue empty and adds nothing to it. -/
def ReplaceLeavesEmpty (ctx : QueueContext) (link : Link) (naming : Naming)
    (payload : EnqueueSelectionPayload) (s : Session) : Prop :=
  match payload.selection with
  | .criteria criteria => ∀ resolved s₁ s₂,
      resolve link naming criteria s = (.ok resolved, s₁) →
      matchesNothing link resolved s₁ = (.ok false, s₂) →
      LeavesEmpty s.server.queue
        ((link s₂.log.length (.commandList (replaceBatch resolved resolved.listed))).leftQueued
          s.server.library resolved)
  | .container uri => ∀ leaves tracks,
      containerLeaves ctx payload.sourceId uri payload.pageSize = .ok leaves →
      leaves.1.mapM (resolveUriForMpd ctx "enqueue_selection") = .ok tracks → tracks ≠ [] →
      LeavesEmpty s.server.queue (containerLeft link s.server.library s.log.length tracks)

section Verb

variable {link : Link}

theorem matchesNothing_same (resolved : ResolvedSelection) (s : Session) :
    (matchesNothing link resolved s).2.server = s.server := by
  have hread {pairs : List (String × List Char)} :
      Triple (countMatching link pairs) s (fun _ s' => s'.server = s.server)
        (fun _ s' => s'.server = s.server) := by
    unfold countMatching
    split
    · exact .pure rfl
    · exact (dispatch_query_run link _ _ s).mono (fun _ _ h => h.2.1) fun _ _ h => h.1
  refine Triple.state (P := fun s' : Session => s'.server = s.server) ?_
  cases resolved with
  | uriList uris => exact .pure rfl
  | filter pairs substring =>
    exact .bind (hread.mapError fun _ _ h => h) fun _ _ h => .pure h

theorem criteria_kept_iff (naming : Naming) (criteria : SelectionCriteria) (s : Session) :
    KeptWhenFailed s.server.queue (handleEnqueueSelectionCriteria link naming criteria .replace) s ↔
      ∀ resolved s₁ s₂, resolve link naming criteria s = (.ok resolved, s₁) →
        matchesNothing link resolved s₁ = (.ok false, s₂) →
        LeavesEmpty s.server.queue
          ((link s₂.log.length (.commandList (replaceBatch resolved resolved.listed))).leftQueued
            s.server.library resolved) := by
  unfold handleEnqueueSelectionCriteria
  cases hresolve : resolve link naming criteria s with
  | mk r s₁ =>
    have hsame := resolve_run link naming criteria s
    cases r with
    | error error =>
      rw [keptWhenFailed_bind_error (run_verbMpd hresolve)]
      exact iff_of_true (congrArg Server.queue (hsame.error hresolve).1) (by simp)
    | ok resolved =>
      rw [keptWhenFailed_bind_ok (run_verbMpd hresolve)]
      have hserver₂ := (@matchesNothing_same link resolved s₁).trans (hsame.ok hresolve).2.1
      cases hnothing : matchesNothing link resolved s₁ with
      | mk r s₂ =>
        rw [hnothing] at hserver₂
        cases r with
        | error error =>
          rw [keptWhenFailed_bind_error hnothing]
          refine iff_of_true (congrArg Server.queue hserver₂) ?_
          rintro resolved' s₁' s₂' ⟨⟩ hfalse
          cases hnothing.symm.trans hfalse
        | ok nothing =>
          rw [keptWhenFailed_bind_ok hnothing]
          cases nothing with
          | true =>
            refine iff_of_true trivial ?_
            rintro resolved' s₁' s₂' ⟨⟩ hfalse
            cases hnothing.symm.trans hfalse
          | false =>
            have huris : selectionUris link resolved criteria.dimension .replace s₂ =
                (.ok resolved.listed, s₂) := by
              cases resolved <;> rfl
            have hreplace := applyReplace_kept_iff link resolved s₂
            rw [hserver₂] at hreplace
            rw [if_neg Bool.false_ne_true, keptWhenFailed_bind_ok huris, keptWhenFailed_bind,
              applySelection, keptWhenFailed_bind, hreplace]
            · constructor
              · rintro hleaves resolved' s₁' s₂' ⟨⟩ hfalse
                cases hnothing.symm.trans hfalse
                exact hleaves
              · intro hleaves
                exact hleaves resolved s₁ s₂ rfl hnothing
            · exact fun _ s' => publishNowPlaying_never_fails link s'
            · exact fun _ s' => .bind (publishQueue_never_fails link s') fun _ _ _ => .pure trivial

theorem container_kept_iff (ctx : QueueContext) (sourceId : Option (List Char)) (uri : List Char)
    (pageSize : Option Nat) (s : Session) :
    KeptWhenFailed s.server.queue
        (handleEnqueueSelectionContainer ctx link sourceId uri .replace pageSize) s ↔
      ∀ leaves tracks, containerLeaves ctx sourceId uri pageSize = .ok leaves →
        leaves.1.mapM (resolveUriForMpd ctx "enqueue_selection") = .ok tracks → tracks ≠ [] →
        LeavesEmpty s.server.queue (containerLeft link s.server.library s.log.length tracks) := by
  unfold handleEnqueueSelectionContainer
  cases hleaves : containerLeaves ctx sourceId uri pageSize with
  | error error => exact iff_of_true rfl (by simp)
  | ok leaves =>
    cases hresolved : leaves.1.mapM (resolveUriForMpd ctx "enqueue_selection") with
    | error error =>
      have hrun : resolveAll ctx "enqueue_selection" leaves.1 s = (.error error, s) := by
        simp only [resolveAll, hresolved, Procedure.run_throw]
      refine (keptWhenFailed_bind_error hrun).trans (iff_of_true rfl ?_)
      rintro leaves' tracks ⟨⟩ hok
      cases hresolved.symm.trans hok
    | ok tracks =>
      have hrun : resolveAll ctx "enqueue_selection" leaves.1 s = (.ok tracks, s) := by
        simp only [resolveAll, hresolved, Procedure.run_pure]
      refine (keptWhenFailed_bind_ok hrun).trans ?_
      have hall : (∀ leaves' tracks', (Except.ok leaves : Except VerbError _) = .ok leaves' →
          leaves'.1.mapM (resolveUriForMpd ctx "enqueue_selection") = .ok tracks' → tracks' ≠ [] →
          LeavesEmpty s.server.queue (containerLeft link s.server.library s.log.length tracks')) ↔
          (tracks ≠ [] →
            LeavesEmpty s.server.queue (containerLeft link s.server.library s.log.length tracks)) := by
        constructor
        · exact fun h hne => h leaves tracks rfl hresolved hne
        · rintro h leaves' tracks' ⟨⟩ hok hne
          cases hresolved.symm.trans hok
          exact h hne
      rw [hall]
      split
      next hempty =>
        rw [List.isEmpty_iff] at hempty
        exact iff_of_true trivial fun hne => absurd hempty hne
      next hempty =>
        rw [List.isEmpty_iff] at hempty
        rw [keptWhenFailed_bind, applyContainer_kept_iff hempty, imp_iff_right hempty]
        exact fun _ s' => .bind (publishQueue_never_fails link s') fun _ _ _ => .pure trivial

/-- A failed replace leaves the queue as it was exactly when MPD has not cleared
it, or had nothing to clear and has added nothing since. -/
theorem replaceAtomic_iff (ctx : QueueContext) (link : Link) (naming : Naming)
    (payload : EnqueueSelectionPayload) (s : Session) :
    ReplaceAtomic ctx link naming payload s ↔
      (payload.v = queuePayloadVersion → ReplaceLeavesEmpty ctx link naming payload s) := by
  have hkept : ReplaceAtomic ctx link naming payload s ↔ KeptWhenFailed s.server.queue
      (handleEnqueueSelection ctx link naming { payload with mode := .replace }) s := by
    unfold ReplaceAtomic KeptWhenFailed Triple
    cases handleEnqueueSelection ctx link naming { payload with mode := .replace } s with
    | mk r s' => cases r <;> simp
  rw [hkept, handleEnqueueSelection]
  by_cases hv : payload.v = queuePayloadVersion
  · have hcheck : checkVersion payload.v "queue.enqueue_selection" s = (.ok (), s) := by
      simp [checkVersion, hv]
    rw [keptWhenFailed_bind_ok hcheck, imp_iff_right hv]
    unfold ReplaceLeavesEmpty
    cases payload.selection with
    | container uri => exact container_kept_iff ctx payload.sourceId uri payload.pageSize s
    | criteria criteria =>
      refine Iff.trans (keptWhenFailed_bind fun _ _ => ?_) (criteria_kept_iff naming criteria s)
      exact .pure trivial
  · have hcheck : checkVersion payload.v "queue.enqueue_selection" s =
        (.error (.payloadVersion "queue.enqueue_selection" payload.v queuePayloadVersion), s) := by
      simp [checkVersion, hv]
    rw [keptWhenFailed_bind_error hcheck]
    exact iff_of_true rfl fun h => absurd h hv

end Verb

-- ---------------------------------------------------------------------------
-- A playlist with an entry that is gone
-- ---------------------------------------------------------------------------

/-- A queue of one song, and a playlist whose one entry is no longer there. -/
def goneMix : Session :=
  { emptyQueue twoArtists with
    server := { (Server.idle twoArtists).putPlaylist "mix".toList
        ["gone.flac".toList] (by decide) with
      queue := Queue.empty.insert 0 "a.flac".toList } }

def replaceByMix : EnqueueSelectionPayload where
  v := 1
  sourceId := none
  selection := .criteria ⟨.playlist, "mix".toList, none⟩
  mode := .replace
  pageSize := none

def noSources : QueueContext := ⟨none, fun _ => none⟩

/-- MPD refuses the entry when it has cleared the queue already. -/
theorem gone_entry_empties_queue :
    (handleEnqueueSelection noSources serving plainNaming replaceByMix goneMix).1 =
        .error (.mpd "enqueue_selection" (.mpd noExist)) ∧
      (handleEnqueueSelection noSources serving plainNaming replaceByMix goneMix).2.server.queue.rows =
        [] ∧
      goneMix.server.queue.rows.length = 1 ∧
      ¬ReplaceAtomic noSources serving plainNaming replaceByMix goneMix := by
  have herror : (handleEnqueueSelection noSources serving plainNaming replaceByMix goneMix).1 =
      .error (.mpd "enqueue_selection" (.mpd noExist)) := by decide
  have hrows : (handleEnqueueSelection noSources serving plainNaming replaceByMix
      goneMix).2.server.queue.rows = [] := by decide
  refine ⟨herror, hrows, by decide, fun h => ?_⟩
  have hsame := congrArg Queue.rows (h _ herror)
  cases hrows.symm.trans hsame

end EvoAudio.Playback
