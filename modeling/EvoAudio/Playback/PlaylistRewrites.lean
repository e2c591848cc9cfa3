import EvoAudio.Playback.PlaylistOverwrites

/-!
# Rewriting the entries of the playlists

When a USB stick comes back under another name, `rewrite_stored_uris_under` maps
the entries of every stored playlist to the new path. It adds the new list behind
the old one, entry by entry, and then deletes the old rows from the last to the
first. Nothing is taken back when a command fails: what has been added stays
behind the rows that have not been deleted.
-/

namespace EvoAudio.Playback

open Mpd (MpdError)
open Procedure (Triple Along)

/-- Map a path under `source` onto `target`. -/
def rewriteQueuePath (filePath source target : List Char) : Option (List Char) :=
  if !queuePathIsUnder filePath source then none
  else (Text.stripPrefix source filePath).map (target ++ ·)

/-- An entry as the new list has it. -/
def rewritten (source target entry : List Char) : List Char :=
  (rewriteQueuePath entry source target).getD entry

/-- The new list goes behind the rows of the old one, which then go from the last
to the first. -/
def replaceRows (link : Link) (name : List Char) (newList : List (List Char)) (rows : Nat) :
    Procedure Session MpdError Unit := do
  .each (playlistadd link name) newList
  .each (playlistdelete link name) (List.range rows).reverse

def rewriteOneStoredPlaylist (link : Link) (name source target : List Char) :
    Procedure Session MpdError Nat := do
  match ← (listplaylistinfo link name).attempt with
  | .error (_ : MpdError) => return 0
  | .ok entries =>
    let changed := entries.countP fun entry => (rewriteQueuePath entry source target).isSome
    if changed = 0 then return 0
    else do
      replaceRows link name (entries.map (rewritten source target)) entries.length
      return changed

/-- The favourites are among the playlists even when MPD does not list them. -/
def rewriteStoredUrisUnder (link : Link) (source target favouritesName : List Char) :
    Procedure Session MpdError Nat := do
  let listed ← listplaylists link
  let names :=
    if !favouritesName.isEmpty && !listed.contains favouritesName then listed ++ [favouritesName]
    else listed
  .fold (fun count name => do
    let changed ← rewriteOneStoredPlaylist link name source target
    return count + changed) 0 names

-- ---------------------------------------------------------------------------
-- What MPD runs of a rewrite
-- ---------------------------------------------------------------------------

/-- What MPD adds after so many commands were sent, and whether it answers every
one of the adds. -/
def addsRun (link : Link) (library : Library) (name : List Char) :
    Nat → List (List Char) → List (List Char) × Bool
  | _, [] => ([], true)
  | sent, uri :: uris =>
    match link sent (.playlistadd name uri), library.add uri with
    | .serve, some found =>
      let (songs, answered) := addsRun link library name (sent + 1) uris
      (found ++ songs, answered)
    | .lose _, some found => (found, false)
    | _, _ => ([], false)

/-- The rows that are left of so many when they are deleted from the last to the
first. -/
def rowsLeft (link : Link) (name : List Char) : Nat → Nat → Nat
  | _, 0 => 0
  | sent, rows + 1 =>
    match link sent (.playlistdelete name rows) with
    | .serve => rowsLeft link name (sent + 1) rows
    | .refuse _ _ => rows + 1
    | .lose _ => rows

/-- MPD adds nothing before an add that fails, or as much as it deletes: the rows
as they were, or the rows of the new list, which then begins with the ones that
are left. -/
def AddsWhatItDeletes (entries new songs : List (List Char)) (answered : Bool) (left : Nat) :
    Prop :=
  if answered then
    songs = entries.drop left ∨ songs = new.drop left ∧ entries.take left = new.take left
  else songs = []

theorem Server.playlistadd_eq_ok {server server' : Server}
    (h : server.playlistadd name uri = .ok ((), server')) :
    ∃ found, server.library.add uri = some found ∧
      server'.stored name = server.stored name ++ found ∧ server'.library = server.library := by
  cases hadd : server.library.add uri with
  | none => cases (Server.playlistadd_error hadd).symm.trans h
  | some found =>
    cases (Server.playlistadd_ok hadd).symm.trans h
    exact ⟨found, rfl, Server.stored_appendToPlaylist, rfl⟩

theorem each_playlistadd (link : Link) (name : List Char) (uris : List (List Char)) (s : Session) :
    Triple (Procedure.each (playlistadd link name) uris) s
      (fun _ s' => (addsRun link s.server.library name s.log.length uris).2 = true ∧
        s'.server.stored name = s.server.stored name ++
          (addsRun link s.server.library name s.log.length uris).1 ∧
        s'.log.length = s.log.length + uris.length)
      (fun _ s' => (addsRun link s.server.library name s.log.length uris).2 = false ∧
        s'.server.stored name = s.server.stored name ++
          (addsRun link s.server.library name s.log.length uris).1) := by
  induction uris generalizing s with
  | nil => exact .pure ⟨rfl, (List.append_nil _).symm, rfl⟩
  | cons uri uris ih =>
    refine .bind ((dispatch_fate link (.playlistadd name uri) _ s).mono (fun _ _ h => h) ?_) ?_
    · rintro _ s' ⟨⟨hserver, ⟨error, heffect⟩ | ⟨executed, error, hlink⟩⟩ |
        ⟨error, a, hlink, heffect⟩, -⟩
      · have hadd : s.server.library.add uri = none := by
          by_contra hsome
          obtain ⟨found, hadd⟩ := Option.ne_none_iff_exists'.mp hsome
          cases (Server.playlistadd_ok hadd).symm.trans heffect
        cases hlink : link s.log.length (.playlistadd name uri) <;>
          simp [addsRun, hlink, hadd, hserver]
      · simp [addsRun, hlink, hserver]
      · obtain ⟨found, hadd, hstored, -⟩ := Server.playlistadd_eq_ok heffect
        simp [addsRun, hlink, hadd, hstored]
    · rintro a s' ⟨hlink, heffect, -, hlog⟩
      obtain ⟨found, hadd, hstored, hlibrary⟩ := Server.playlistadd_eq_ok heffect
      have ih := ih s'
      rw [hlibrary, hlog, hstored, List.length_cons] at ih
      simp only [addsRun, hlink, hadd, ← List.append_assoc]
      refine ih.mono ?_ fun _ _ h => h
      rintro _ s'' ⟨hanswered, hsongs, hsent⟩
      refine ⟨hanswered, hsongs, ?_⟩
      rw [hsent, List.length_cons, Nat.add_right_comm, Nat.add_assoc]

theorem rowsLeft_le (link : Link) (name : List Char) (sent rows : Nat) :
    rowsLeft link name sent rows ≤ rows := by
  induction rows generalizing sent with
  | zero => exact Nat.le_refl 0
  | succ rows ih =>
    unfold rowsLeft
    split
    · exact Nat.le_succ_of_le (ih (sent + 1))
    · exact Nat.le_refl _
    · exact Nat.le_succ rows

theorem each_playlistdelete (link : Link) (name : List Char) (front : List (List Char))
    {back : List (List Char)} {s : Session} (h : s.server.stored name = front ++ back) :
    let left := front.take (rowsLeft link name s.log.length front.length)
    Triple (Procedure.each (playlistdelete link name) (List.range front.length).reverse) s
      (fun _ s' => s'.server.stored name = left ++ back)
      (fun _ s' => s'.server.stored name = left ++ back) := by
  induction front using List.reverseRecOn generalizing s with
  | nil => exact .pure h
  | append_singleton front row ih =>
    obtain ⟨-, server', hdelete, hstored⟩ | ⟨hle, -⟩ :=
      s.server.playlistdelete_cases name front.length
    · have herase : server'.stored name = front ++ back := by
        rw [hstored, h, List.append_assoc, List.eraseIdx_append_of_length_le (Nat.le_refl _),
          Nat.sub_self]
        rfl
      simp only [List.length_append, List.length_singleton, List.range_succ, List.reverse_append,
        List.reverse_singleton, List.singleton_append]
      refine .bind ((dispatch_fate link (.playlistdelete name front.length) _ s).mono
        (fun _ _ h => h) ?_) ?_
      · rintro _ s' ⟨⟨hserver, ⟨error, heffect⟩ | ⟨executed, error, hlink⟩⟩ |
          ⟨error, a, hlink, heffect⟩, -⟩
        · cases hdelete.symm.trans heffect
        · simp [rowsLeft, hlink, hserver, h, List.take_append]
        · cases hdelete.symm.trans heffect
          simp [rowsLeft, hlink, herase]
      · rintro a s' ⟨hlink, heffect, -, hlog⟩
        cases hdelete.symm.trans heffect
        have hle := rowsLeft_le link name (s.log.length + 1) front.length
        have ih := ih herase
        rw [hlog, List.length_cons] at ih
        simp only [rowsLeft, hlink, List.take_append_of_le_length hle]
        exact ih
    · rw [h] at hle
      simp at hle

-- ---------------------------------------------------------------------------
-- One playlist
-- ---------------------------------------------------------------------------

section OnePlaylist

variable (link : Link) (name source target : List Char) (s : Session)

/-- Nothing is written: MPD does not list the playlist, or no entry is under the
path. -/
def Untouched : Prop :=
  link s.log.length (.listplaylistinfo name) ≠ .serve ∨
    ∀ entry ∈ s.server.stored name, rewriteQueuePath entry source target = none

/-- What MPD runs of the rewrite adds as much as it deletes. -/
def RewritesWhole : Prop :=
  let entries := s.server.stored name
  let new := entries.map (rewritten source target)
  let ran := addsRun link s.server.library name (s.log.length + 1) new
  AddsWhatItDeletes entries new ran.1 ran.2
    (rowsLeft link name (s.log.length + 1 + new.length) entries.length)

end OnePlaylist

theorem take_append_eq_iff {entries new songs : List α} (hlength : new.length = entries.length)
    (left : Nat) : entries.take left ++ songs = new ↔
      songs = new.drop left ∧ entries.take left = new.take left := by
  constructor
  · intro h
    have htake : (entries.take left).length = (new.take left).length := by
      simp [List.length_take, hlength]
    obtain ⟨hfront, hback⟩ := List.append_inj (h.trans (List.take_append_drop left new).symm) htake
    exact ⟨hback, hfront⟩
  · rintro ⟨hback, hfront⟩
    rw [hback, hfront, List.take_append_drop]

/-- What has been added stands behind the rows that are left. -/
theorem replaceRows_stored (link : Link) (name : List Char) (new : List (List Char)) (s : Session) :
    let entries := s.server.stored name
    let ran := addsRun link s.server.library name s.log.length new
    (replaceRows link name new entries.length s).2.server.stored name =
      if ran.2 then
        entries.take (rowsLeft link name (s.log.length + new.length) entries.length) ++ ran.1
      else entries ++ ran.1 := by
  intro entries ran
  refine Triple.state (P := fun s' : Session => s'.server.stored name = _) ?_
  refine .bind ((each_playlistadd link name new s).mono (fun _ _ h => h) ?_) ?_
  · rintro _ s' ⟨hfailed, hstored⟩
    rw [if_neg (by simp [ran, hfailed])]
    exact hstored
  · rintro _ s' ⟨hanswered, hstored, hlog⟩
    have hdeletes := each_playlistdelete link name entries hstored
    rw [hlog] at hdeletes
    rw [if_pos hanswered]
    exact hdeletes

theorem replaceRows_whole_iff {entries new songs : List (List Char)}
    (hlength : new.length = entries.length) (answered : Bool) (left : Nat)
    {stored : List (List Char)}
    (hstored : stored = if answered then entries.take left ++ songs else entries ++ songs) :
    stored = entries ∨ stored = new ↔ AddsWhatItDeletes entries new songs answered left := by
  subst hstored
  unfold AddsWhatItDeletes
  cases answered with
  | true =>
    simp only [if_true]
    rw [take_append_eq_iff rfl, take_append_eq_iff hlength]
    simp
  | false =>
    simp only [Bool.false_eq_true, if_false]
    constructor
    · rintro (hsame | hnew)
      · exact List.append_right_eq_self.mp hsame
      · have hlengths := congrArg List.length hnew
        rw [List.length_append, hlength] at hlengths
        simpa using hlengths
    · rintro rfl
      exact .inl (List.append_nil entries)

theorem listplaylistinfo_fate (link : Link) (name : List Char) (s : Session) :
    Triple (listplaylistinfo link name) s
      (fun entries s' => link s.log.length (.listplaylistinfo name) = .serve ∧
        entries = s.server.stored name ∧ s'.server = s.server ∧ s'.log.length = s.log.length + 1)
      (fun _ s' => s'.server = s.server ∧
        (link s.log.length (.listplaylistinfo name) = .serve → s.server.stored name = [])) := by
  have hreads (entries : List (List Char)) (server : Server)
      (h : s.server.listplaylistinfo name = .ok (entries, server)) :
      entries = s.server.stored name ∧ server = s.server := by
    unfold Server.listplaylistinfo at h
    unfold Server.stored
    split at h
    next list hlist =>
      cases h
      exact ⟨by rw [hlist]; rfl, rfl⟩
    next => cases h
  refine (dispatch_fate link (.listplaylistinfo name) _ s).mono ?_ ?_
  · rintro entries s' ⟨hlink, heffect, -, hlog⟩
    obtain ⟨hentries, hserver⟩ := hreads entries s'.server heffect
    exact ⟨hlink, hentries, hserver, congrArg List.length hlog⟩
  · rintro _ s' ⟨⟨hserver, ⟨error, heffect⟩ | ⟨executed, error, hlink⟩⟩ |
      ⟨error, a, hlink, heffect⟩, -⟩
    · refine ⟨hserver, fun _ => ?_⟩
      unfold Server.listplaylistinfo at heffect
      unfold Server.stored
      split at heffect
      next => cases heffect
      next hnone => rw [hnone]; rfl
    · exact ⟨hserver, fun hserve => by cases hserve.symm.trans hlink⟩
    · exact ⟨(hreads a s'.server heffect).2, fun hserve => by cases hserve.symm.trans hlink⟩

/-- The rewrite either touches nothing or replaces the rows. -/
theorem rewriteOneStoredPlaylist_cases (link : Link) (name source target : List Char)
    (s : Session) :
    (Untouched link name source target s ∧
      (rewriteOneStoredPlaylist link name source target s).2.server = s.server) ∨
    (¬ Untouched link name source target s ∧
      ∃ t : Session, t.server = s.server ∧ t.log.length = s.log.length + 1 ∧
        (rewriteOneStoredPlaylist link name source target s).2 =
          (replaceRows link name ((s.server.stored name).map (rewritten source target))
            (s.server.stored name).length t).2) := by
  have hlisting := listplaylistinfo_fate link name s
  unfold rewriteOneStoredPlaylist
  cases hrun : listplaylistinfo link name s with
  | mk r t =>
    rw [Procedure.run_bind_ok (Procedure.run_attempt hrun)]
    cases r with
    | error error =>
      obtain ⟨hserver, hnone⟩ := hlisting.error hrun
      refine .inl ⟨?_, hserver⟩
      unfold Untouched
      by_cases hlink : link s.log.length (.listplaylistinfo name) = .serve
      · simp [hnone hlink]
      · exact .inl hlink
    | ok entries =>
      obtain ⟨hlink, rfl, hserver, hlog⟩ := hlisting.ok hrun
      dsimp only
      have hchanged : (s.server.stored name).countP
          (fun entry => (rewriteQueuePath entry source target).isSome) = 0 ↔
          Untouched link name source target s := by
        simp [Untouched, hlink, List.countP_eq_zero]
      by_cases huntouched : Untouched link name source target s
      · rw [if_pos (hchanged.mpr huntouched)]
        exact .inl ⟨huntouched, hserver⟩
      · rw [if_neg (hchanged.not.mpr huntouched), Procedure.state_bind_pure]
        exact .inr ⟨huntouched, t, hserver, hlog, rfl⟩

theorem rewriteOneStoredPlaylist_whole_iff (link : Link) (name source target : List Char)
    (s : Session) :
    (rewriteOneStoredPlaylist link name source target s).2.server.stored name =
        s.server.stored name ∨
      (rewriteOneStoredPlaylist link name source target s).2.server.stored name =
        (s.server.stored name).map (rewritten source target) ↔
      Untouched link name source target s ∨ RewritesWhole link name source target s := by
  obtain ⟨huntouched, hserver⟩ | ⟨htouched, t, hserver, hlog, hstate⟩ :=
    rewriteOneStoredPlaylist_cases link name source target s
  · rw [hserver]
    exact iff_of_true (.inl rfl) (.inl huntouched)
  · have hstored := replaceRows_stored link name
      ((s.server.stored name).map (rewritten source target)) t
    rw [hserver, hlog] at hstored
    rw [or_iff_right htouched, hstate]
    exact replaceRows_whole_iff (List.length_map _) _ _ hstored

/-- The first file of a stick that is back as `Audio`. -/
def audioStick : Library :=
  .files ["USB/Audio/a.flac".toList] (by decide) (by decide) (by decide)

/-- A playlist of two files of the stick, when it was called `MUSIC`. -/
def stickMix : Session :=
  { emptyQueue audioStick with
    server := (Server.idle audioStick).putPlaylist "mix".toList
      ["USB/MUSIC/a.flac".toList, "USB/MUSIC/b.flac".toList] (by decide) }

/-- MPD does not know the second file, and the first one stays behind the old list. -/
theorem failed_add_leaves_both_lists :
    stickMix.server.stored "mix".toList = ["USB/MUSIC/a.flac".toList, "USB/MUSIC/b.flac".toList] ∧
      (rewriteOneStoredPlaylist serving "mix".toList "USB/MUSIC".toList "USB/Audio".toList
          stickMix).2.server.stored "mix".toList =
        ["USB/MUSIC/a.flac".toList, "USB/MUSIC/b.flac".toList, "USB/Audio/a.flac".toList] ∧
      ¬ ((rewriteOneStoredPlaylist serving "mix".toList "USB/MUSIC".toList "USB/Audio".toList
            stickMix).2.server.stored "mix".toList = stickMix.server.stored "mix".toList ∨
        (rewriteOneStoredPlaylist serving "mix".toList "USB/MUSIC".toList "USB/Audio".toList
            stickMix).2.server.stored "mix".toList =
          (stickMix.server.stored "mix".toList).map
            (rewritten "USB/MUSIC".toList "USB/Audio".toList)) := by
  decide

-- ---------------------------------------------------------------------------
-- Every playlist
-- ---------------------------------------------------------------------------

/-- The playlist still has these entries if it had them before. -/
def Session.Holds (name : List Char) (list : List (List Char)) (s s' : Session) : Prop :=
  s.server.playlists.lookup name = some list → s'.server.playlists.lookup name = some list

instance : IsPreorder Session (Session.Holds name list) where
  refl _ := id
  trans _ _ _ h h' := h' ∘ h

theorem dispatch_holds (link : Link) {command : Command}
    {effect : Server → Except MpdError (α × Server)}
    (heffect : ∀ server a server', effect server = .ok (a, server') →
      server.Carries name Eq server') :
    Along (Session.Holds name list) (dispatch link command effect) := by
  have hholds (s s' : Session) (a : α) (h : effect s.server = .ok (a, s'.server)) :
      s.Holds name list s' := by
    intro hlist
    obtain ⟨list', hlist', rfl⟩ := heffect _ _ _ h list hlist
    exact hlist'
  refine .of_triple fun s => (dispatch_run link command effect s).mono ?_ ?_
  · rintro a s' ⟨hrun, -⟩
    exact hholds s s' a hrun
  · rintro _ s' ⟨hserver | ⟨a, hrun⟩, -⟩
    · exact fun hlist => hserver ▸ hlist
    · exact hholds s s' a hrun

theorem replaceRows_holds (link : Link) (hname : name ≠ other) (new : List (List Char))
    (rows : Nat) : Along (Session.Holds other list) (replaceRows link name new rows) := by
  refine .bind (.each (fun uri => dispatch_holds link fun _ _ _ h => ?_) new) fun _ =>
    .each (fun position => dispatch_holds link fun _ _ _ h => ?_) _
  · exact Server.playlistadd_carries (fun heq => absurd heq hname) h
  · exact Server.playlistdelete_carries (fun heq => absurd heq hname) h

theorem rewriteOneStoredPlaylist_holds (link : Link) (name : List Char)
    (hlist : ∀ entry ∈ list, rewriteQueuePath entry source target = none) :
    Along (Session.Holds other list) (rewriteOneStoredPlaylist link name source target) := by
  intro s hholds
  obtain ⟨-, hserver⟩ | ⟨htouched, t, hserver, -, hstate⟩ :=
    rewriteOneStoredPlaylist_cases link name source target s
  · rwa [hserver]
  · have hname : name ≠ other := by
      rintro rfl
      refine htouched (.inr ?_)
      rwa [Server.stored, hholds]
    rw [hstate]
    exact replaceRows_holds link hname _ _ t (hserver ▸ hholds)

/-- A playlist with nothing under the path is left alone, whatever MPD answers. -/
theorem rewriteStoredUrisUnder_holds (link : Link) (favouritesName : List Char)
    (hlist : ∀ entry ∈ list, rewriteQueuePath entry source target = none) :
    Along (Session.Holds other list)
      (rewriteStoredUrisUnder link source target favouritesName) := by
  refine .bind (dispatch_holds link fun server _ server' h => ?_) fun listed =>
    .fold (fun count name => ?_) 0 _
  · cases h
    exact .of_lookup_eq rfl
  · exact .bind (rewriteOneStoredPlaylist_holds link name hlist) fun _ => .pure _

end EvoAudio.Playback
