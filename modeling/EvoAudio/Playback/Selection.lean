import EvoAudio.Playback.Session
import Mathlib.Data.List.Sort
import Mathlib.Data.List.TakeWhile

/-!
# Enqueueing a selection

`queue.enqueue_selection` over a tag or folder selection: the resolver of
`playback.mpd/src/selection.rs` and the three ways `queue.rs` puts the resolved
selection in the queue. `append` and `replace` leave the songs to MPD's
`findadd`, `searchadd` and `add`; `next` lists them first and adds one by one
behind the current song.
-/

namespace EvoAudio.Playback

open Mpd (MpdError)
open Procedure (Triple)

inductive SelectionDimension where
  | artist
  | album
  | genre
  | year
  | folder
  | playlist
  deriving DecidableEq, Repr

structure SelectionParent where
  tag : List Char
  value : List Char
  deriving DecidableEq, Repr

structure SelectionCriteria where
  dimension : SelectionDimension
  value : List Char
  parent : Option SelectionParent
  deriving DecidableEq, Repr

inductive ResolvedSelection where
  | filter (pairs : List (String × List Char)) (substring : Bool)
  | uriList (uris : List (List Char))
  deriving DecidableEq, Repr

inductive EnqueueSelectionMode where
  | append
  | next
  | replace
  deriving DecidableEq, Repr

inductive MpdSearchField where
  | any
  | artist
  | albumArtist
  | album
  | title
  | genre
  | composer
  | file
  | base
  | date
  deriving DecidableEq, Repr

def MpdSearchField.asProtocolStr : MpdSearchField → String
  | .any => "any"
  | .artist => "artist"
  | .albumArtist => "albumartist"
  | .album => "album"
  | .title => "title"
  | .genre => "genre"
  | .composer => "composer"
  | .file => "file"
  | .base => "base"
  | .date => "date"

structure AlbumTile where
  canonicalFolder : List Char
  displayTitle : List Char
  displayArtist : List Char
  tracks : List (List Char)
  deriving DecidableEq, Repr

/-- The naming rules the resolver consults: the artist folding of
`artist_name.rs` and the album tiles of `library.rs`, which group files of the
database. -/
structure Naming where
  artistFoldKey : List Char → List Char
  splitArtistCredit : List Char → List (List Char)
  resolveAlbumTiles : Library → List AlbumTile
  tracks_mem : ∀ library, ∀ tile ∈ resolveAlbumTiles library, ∀ track ∈ tile.tracks,
    track ∈ library.songs

-- ---------------------------------------------------------------------------
-- Database queries
-- ---------------------------------------------------------------------------

section Queries

variable (link : Link)

def listTag (tag : String) :=
  dispatch link (.listTag tag) (read fun server => server.library.values tag)

def find (field : MpdSearchField) (query : List Char) :=
  dispatch link (.find [(field.asProtocolStr, query)])
    (read fun server => server.library.find [(field.asProtocolStr, query)])

def findMulti (pairs : List (MpdSearchField × List Char)) :=
  let pairs := pairs.map fun pair => (pair.1.asProtocolStr, pair.2)
  dispatch link (.find pairs) (read fun server => server.library.find pairs)

def search (field : MpdSearchField) (query : List Char) :=
  dispatch link (.search [(field.asProtocolStr, query)])
    (read fun server => server.library.search [(field.asProtocolStr, query)])

def listallinfo (path : List Char) :=
  dispatch link (.listallinfo path) fun server =>
    match server.library.listallinfo path with
    | some songs => .ok (songs, server)
    | none => .error noExist

/-- `count` matches exactly, as `find` does. -/
def countMatching (pairs : List (String × List Char)) : Procedure Session MpdError Nat :=
  if pairs.isEmpty then return 0
  else dispatch link (.count pairs) (read fun server => (server.library.find pairs).length)

end Queries

-- ---------------------------------------------------------------------------
-- Resolving
-- ---------------------------------------------------------------------------

/-- The tag a parent context filters by. -/
def parentFilterTag (tag : List Char) : Option String :=
  let tag := (Text.trim tag).map Char.toLower
  if tag = "album".toList then some "album"
  else if tag = "albumartist".toList then some "albumartist"
  else if tag = "artist".toList then some "artist"
  else if tag = "genre".toList then some "genre"
  else none

/-- The pair a parent context adds to a filter. -/
def parentPair (parent : Option SelectionParent) : Option (String × List Char) :=
  match parent with
  | none => none
  | some parent =>
    match parentFilterTag parent.tag, (Text.trim parent.value).isEmpty with
    | some tag, false => some (tag, Text.trim parent.value)
    | _, _ => none

def buildFilter (tag : String) (value : List Char) (parent : Option SelectionParent)
    (substring : Bool) : ResolvedSelection :=
  .filter ((tag, value) :: (parentPair parent).toList) substring

/-- `Vec::dedup`: neighbours that are equal collapse. -/
def dedup : List (List Char) → List (List Char)
  | [] => []
  | uri :: uris =>
    match dedup uris with
    | [] => [uri]
    | next :: rest => if uri = next then next :: rest else uri :: next :: rest

/-- `str::eq_ignore_ascii_case` -/
def eqIgnoreAsciiCase (a b : List Char) : Bool := a.map Char.toLower == b.map Char.toLower

/-- The raw tag values that credit the artist with the given fold key. -/
def creditedValues (naming : Naming) (targetKey : List Char) (values : List (List Char)) :
    List (List Char) :=
  values.filter fun raw =>
    (naming.splitArtistCredit raw).any fun member => naming.artistFoldKey member == targetKey

/-- The paths of all songs whose tag has one of the values. -/
def findEach (link : Link) (field : MpdSearchField) :
    List (List Char) → Procedure Session MpdError (List (List Char))
  | [] => return []
  | value :: values => do
    let songs ← find link field value
    let more ← findEach link field values
    return songs ++ more

def resolveArtist (link : Link) (naming : Naming) (value : List Char) :
    Procedure Session MpdError ResolvedSelection :=
  let targetKey := naming.artistFoldKey value
  if targetKey.isEmpty then return .uriList []
  else do
    let albumArtists ← listTag link "albumartist"
    let artists ← listTag link "artist"
    let byAlbumArtist ← findEach link .albumArtist (creditedValues naming targetKey albumArtists)
    let byArtist ← findEach link .artist (creditedValues naming targetKey artists)
    return .uriList (dedup ((byAlbumArtist ++ byArtist).insertionSort fun a b =>
      Text.encode a ≤ Text.encode b))

def resolveAlbum (link : Link) (naming : Naming) (value : List Char)
    (parent : Option SelectionParent) : Procedure Session MpdError ResolvedSelection := do
  let tiles ← dispatch link (.listallinfo []) (read fun server =>
    naming.resolveAlbumTiles server.library)
  let parentArtistFold := parent.bind fun parent =>
    let tag := (Text.trim parent.tag).map Char.toLower
    if tag = "albumartist".toList ∨ tag = "artist".toList then
      some (naming.artistFoldKey parent.value)
    else none
  let chosen := tiles.filter fun tile =>
    (tile.canonicalFolder == value || eqIgnoreAsciiCase tile.displayTitle value) &&
      match parentArtistFold with
      | some key => key.isEmpty || naming.artistFoldKey tile.displayArtist == key
      | none => true
  return .uriList (chosen.flatMap AlbumTile.tracks)

/-- `MpdSelectionResolver::resolve` -/
def resolve (link : Link) (naming : Naming) (criteria : SelectionCriteria) :
    Procedure Session MpdError ResolvedSelection :=
  let value := Text.trim criteria.value
  if value.isEmpty then return .uriList []
  else
    match criteria.dimension with
    | .artist => resolveArtist link naming value
    | .genre => return buildFilter "genre" value criteria.parent false
    | .year => return buildFilter "date" value criteria.parent true
    | .album => resolveAlbum link naming value criteria.parent
    | .folder => return .uriList [value]
    | .playlist => do
      let entries ← listplaylistinfo link value
      return .uriList entries

-- ---------------------------------------------------------------------------
-- Applying
-- ---------------------------------------------------------------------------

/-- The search field of a filter tag. -/
def searchField (tag : String) : Option MpdSearchField :=
  if tag = "artist" then some .artist
  else if tag = "albumartist" then some .albumArtist
  else if tag = "album" then some .album
  else if tag = "genre" then some .genre
  else if tag = "date" then some .date
  else none

/-- The song paths of each directory, one after the other. -/
def listEach (link : Link) : List (List Char) → Procedure Session MpdError (List (List Char))
  | [] => return []
  | dir :: dirs => do
    let songs ← listallinfo link dir
    let more ← listEach link dirs
    return songs ++ more

def materialiseToUris (link : Link) (resolved : ResolvedSelection)
    (dimension : SelectionDimension) : Procedure Session MpdError (List (List Char)) :=
  match resolved with
  | .uriList list => if dimension ≠ .folder then return list else listEach link list
  | .filter pairs substring =>
    let fields := pairs.filterMap fun pair => (searchField pair.1).map (·, pair.2)
    if substring then
      -- Only the first pair of a substring filter is searched for.
      match fields with
      | (field, value) :: _ => search link field value
      | [] => return []
    else findMulti link fields

def applyAppend (link : Link) (resolved : ResolvedSelection) (uris : List (List Char)) :
    Procedure Session VerbError Unit :=
  match resolved with
  | .filter pairs substring =>
    verbMpd "enqueue_selection" (if substring then searchadd link pairs else findadd link pairs)
  | .uriList _ => Procedure.each (fun uri => verbMpd "enqueue_selection" (add link uri)) uris

/-- The command list of a replace. -/
def replaceBatch (resolved : ResolvedSelection) (uris : List (List Char)) : List Batched :=
  .clear ::
    (match resolved with
    | .filter pairs substring => [if substring then .searchadd pairs else .findadd pairs]
    | .uriList _ => uris.map .add) ++ [.playPosition 0]

def applyReplace (link : Link) (resolved : ResolvedSelection) (uris : List (List Char)) :
    Procedure Session VerbError Unit :=
  verbMpd "enqueue_selection" (commandList link (replaceBatch resolved uris))

/-- Every URI is added behind the one before it, at the end without a position. -/
def addNext (link : Link) (position : Option Nat) (uri : List Char) :
    Procedure Session VerbError (Option Nat) := do
  let _ ← verbMpd "enqueue_selection" (addid link uri position)
  return position.map (· + 1)

def applyNext (link : Link) (uris : List (List Char)) : Procedure Session VerbError Unit := do
  let position ← nextInsertPosition link "enqueue_selection"
  let _ ← Procedure.fold (addNext link) position uris
  return

inductive SelectionResponse where
  | empty
  | ok (added : Option Nat)
  deriving DecidableEq, Repr

/-- The selection matches nothing, as far as the verb can tell beforehand. -/
def matchesNothing (link : Link) (resolved : ResolvedSelection) : Procedure Session VerbError Bool :=
  match resolved with
  | .uriList list => return list.isEmpty
  | .filter pairs _ => do
    let songs ← verbMpd "enqueue_selection" (countMatching link pairs)
    return songs == 0

/-- The URIs the mode works from. A filter is listed only for `next`. -/
def selectionUris (link : Link) (resolved : ResolvedSelection) (dimension : SelectionDimension)
    (mode : EnqueueSelectionMode) : Procedure Session VerbError (List (List Char)) :=
  match mode with
  | .next => verbMpd "enqueue_selection" (materialiseToUris link resolved dimension)
  | _ =>
    match resolved with
    | .uriList list => return list
    | .filter _ _ => return []

def applySelection (link : Link) (resolved : ResolvedSelection) (uris : List (List Char)) :
    EnqueueSelectionMode → Procedure Session VerbError Unit
  | .append => applyAppend link resolved uris
  | .next => applyNext link uris
  | .replace => do
    applyReplace link resolved uris
    publishNowPlayingAfterTransport link

def handleEnqueueSelectionCriteria (link : Link) (naming : Naming) (criteria : SelectionCriteria)
    (mode : EnqueueSelectionMode) : Procedure Session VerbError SelectionResponse := do
  let resolved ← verbMpd "enqueue_selection" (resolve link naming criteria)
  let nothing ← matchesNothing link resolved
  if nothing then return .empty
  let uris ← selectionUris link resolved criteria.dimension mode
  applySelection link resolved uris mode
  publishQueue link
  return .ok (if uris.isEmpty then none else some uris.length)

-- ---------------------------------------------------------------------------
-- What a selection resolves to
-- ---------------------------------------------------------------------------

/-- What the resolver returns for a selection. -/
def Resolves (server : Server) (criteria : SelectionCriteria) (resolved : ResolvedSelection) : Prop :=
  let value := Text.trim criteria.value
  if value.isEmpty then resolved = .uriList []
  else
    match criteria.dimension with
    | .artist | .album => ∃ uris, resolved = .uriList uris ∧ ∀ uri ∈ uris, uri ∈ server.library.songs
    | .genre => resolved = buildFilter "genre" value criteria.parent false
    | .year => resolved = buildFilter "date" value criteria.parent true
    | .folder => resolved = .uriList [value]
    | .playlist => ∃ entries, server.playlists.lookup value = some entries ∧ resolved = .uriList entries

/-- The query left MPD and the mirror alone. -/
def Session.Same (s s' : Session) : Prop := s'.server = s.server ∧ s'.mirror = s.mirror

theorem Session.Same.trans {s s' s'' : Session} (h : s.Same s') (h' : s'.Same s'') : s.Same s'' :=
  ⟨h'.1.trans h.1, h'.2.trans h.2⟩

theorem dispatch_query_run (link : Link) (command : Command) (f : Server → α) (s : Session) :
    Triple (dispatch link command (read f)) s (fun a s' => a = f s.server ∧ s.Same s')
      (fun _ s' => s.Same s') := by
  refine (dispatch_read_run link command f s).mono ?_ ?_
  · rintro a _ ⟨rfl, rfl⟩
    exact ⟨rfl, rfl, rfl⟩
  · rintro e _ rfl
    exact ⟨rfl, rfl⟩

theorem mem_dedup {uri : List Char} {uris : List (List Char)} (h : uri ∈ dedup uris) :
    uri ∈ uris := by
  induction uris with
  | nil => exact h
  | cons first uris ih =>
    unfold dedup at h
    split at h
    next heq =>
      rw [List.mem_singleton] at h
      exact h ▸ List.mem_cons_self ..
    next next rest heq =>
      rw [heq] at ih
      split at h
      · exact List.mem_cons_of_mem _ (ih h)
      · rcases List.mem_cons.mp h with rfl | h
        · exact List.mem_cons_self ..
        · exact List.mem_cons_of_mem _ (ih h)

theorem findEach_run (link : Link) (field : MpdSearchField) (values : List (List Char))
    (s : Session) :
    Triple (findEach link field values) s
      (fun songs s' => (∀ song ∈ songs, song ∈ s.server.library.songs) ∧ s.Same s')
      (fun _ s' => s.Same s') := by
  induction values generalizing s with
  | nil => exact .pure ⟨by simp, rfl, rfl⟩
  | cons value values ih =>
    refine .bind (dispatch_query_run link _ _ s) ?_
    rintro songs s₁ ⟨rfl, hsame⟩
    refine .bind ((ih s₁).mono (fun _ _ h => h) fun _ _ h => hsame.trans h) ?_
    rintro more s₂ ⟨hmore, hsame'⟩
    refine .pure ⟨fun song hsong => ?_, hsame.trans hsame'⟩
    rcases List.mem_append.mp hsong with hsong | hsong
    · exact (List.mem_filter.mp hsong).1
    · exact hsame.1 ▸ hmore song hsong

theorem resolveArtist_run (link : Link) (naming : Naming) (value : List Char) (s : Session) :
    Triple (resolveArtist link naming value) s
      (fun resolved s' => (∃ uris, resolved = .uriList uris ∧
        ∀ uri ∈ uris, uri ∈ s.server.library.songs) ∧ s.Same s')
      (fun _ s' => s.Same s') := by
  unfold resolveArtist
  dsimp only
  split
  · exact .pure ⟨⟨[], rfl, by simp⟩, rfl, rfl⟩
  · refine .bind (dispatch_query_run link _ _ s) ?_
    rintro albumArtists s₁ ⟨-, h₁⟩
    refine .bind ((dispatch_query_run link _ _ s₁).mono (fun _ _ h => h) fun _ _ h => h₁.trans h) ?_
    rintro artists s₂ ⟨-, h₂⟩
    refine .bind ((findEach_run link _ _ s₂).mono (fun _ _ h => h)
      fun _ _ h => (h₁.trans h₂).trans h) ?_
    rintro byAlbumArtist s₃ ⟨hmem, h₃⟩
    refine .bind ((findEach_run link _ _ s₃).mono (fun _ _ h => h)
      fun _ _ h => ((h₁.trans h₂).trans h₃).trans h) ?_
    rintro byArtist s₄ ⟨hmem', h₄⟩
    refine .pure ⟨⟨_, rfl, fun uri huri => ?_⟩, ((h₁.trans h₂).trans h₃).trans h₄⟩
    have hsorted := (List.mem_insertionSort _).mp (mem_dedup huri)
    rcases List.mem_append.mp hsorted with huri | huri
    · exact (h₁.trans h₂).1 ▸ hmem uri huri
    · exact ((h₁.trans h₂).trans h₃).1 ▸ hmem' uri huri

theorem resolve_run (link : Link) (naming : Naming) (criteria : SelectionCriteria) (s : Session) :
    Triple (resolve link naming criteria) s
      (fun resolved s' => Resolves s.server criteria resolved ∧ s.Same s')
      (fun _ s' => s.Same s') := by
  unfold resolve Resolves
  dsimp only
  split
  · exact .pure ⟨rfl, rfl, rfl⟩
  · cases criteria.dimension with
    | artist => exact resolveArtist_run link naming _ s
    | album =>
      refine .bind (dispatch_query_run link _ _ s) ?_
      rintro tiles s' ⟨rfl, hsame⟩
      refine .pure ⟨⟨_, rfl, fun uri huri => ?_⟩, hsame⟩
      obtain ⟨tile, htile, huri⟩ := List.mem_flatMap.mp huri
      exact naming.tracks_mem _ tile (List.mem_filter.mp htile).1 uri huri
    | genre => exact .pure ⟨rfl, rfl, rfl⟩
    | year => exact .pure ⟨rfl, rfl, rfl⟩
    | folder => exact .pure ⟨rfl, rfl, rfl⟩
    | playlist =>
      refine .bind (dispatch_same_run link _ s ?_) ?_
      · intro entries server h
        unfold Server.listplaylistinfo at h
        split at h
        · cases h
          rfl
        · cases h
      · rintro entries s' ⟨hentries, hsame⟩
        refine .pure ⟨⟨entries, ?_, rfl⟩, hsame⟩
        unfold Server.listplaylistinfo at hentries
        split at hentries
        next hlookup =>
          cases hentries
          exact hlookup
        · cases hentries

-- ---------------------------------------------------------------------------
-- What the queue gains
-- ---------------------------------------------------------------------------

/-- The paths of the rows whose song ids were handed out from `base` on. -/
def placed (base : Nat) (queue : Queue) : List (List Char) :=
  (queue.rows.filter fun row => base ≤ row.id).map Row.uri

/-- From one server to the next the queue gained the songs, in some order. -/
structure Gains (base : Nat) (before after : Server) (songs : List (List Char)) : Prop where
  library : after.library = before.library
  base_le : base ≤ after.queue.nextId
  placed : (placed base after.queue).Perm (songs ++ placed base before.queue)

theorem placed_fresh (queue : Queue) : placed queue.nextId queue = [] := by
  have hnone : (queue.rows.filter fun row => queue.nextId ≤ row.id) = [] := by
    rw [List.filter_eq_nil_iff]
    intro row hrow
    simpa using queue.fresh row hrow
  rw [placed, hnone, List.map_nil]

theorem placed_insert {base : Nat} {queue : Queue} (h : base ≤ queue.nextId) (position : Nat)
    (uri : List Char) :
    (placed base (queue.insert position uri)).Perm (uri :: placed base queue) := by
  have hperm := ((Queue.insert_perm queue.rows position ⟨queue.nextId, uri⟩).filter
    fun row => base ≤ row.id).map Row.uri
  rwa [List.filter_cons_of_pos (by simpa using h), List.map_cons] at hperm

theorem placed_append {base : Nat} {queue : Queue} (h : base ≤ queue.nextId)
    (songs : List (List Char)) :
    base ≤ (queue.append songs).nextId ∧
      (placed base (queue.append songs)).Perm (songs ++ placed base queue) := by
  induction songs generalizing queue with
  | nil => exact ⟨h, .refl _⟩
  | cons song songs ih =>
    obtain ⟨hbase, hperm⟩ := @ih (queue.insert queue.rows.length song) (Nat.le_succ_of_le h)
    refine ⟨hbase, hperm.trans ?_⟩
    exact ((placed_insert h _ song).append_left songs).trans List.perm_middle

namespace Gains

variable {base : Nat} {a b c : Server}

theorem refl (h : base ≤ a.queue.nextId) : Gains base a a [] := ⟨rfl, h, .refl _⟩

theorem trans (h : Gains base a b songs) (h' : Gains base b c more) :
    Gains base a c (songs ++ more) := by
  refine ⟨h'.library.trans h.library, h'.base_le, h'.placed.trans ?_⟩
  refine (h.placed.append_left more).trans ?_
  rw [← List.append_assoc]
  exact List.perm_append_comm.append_right _

theorem append (h : base ≤ a.queue.nextId) (songs : List (List Char)) :
    Gains base a { a with queue := a.queue.append songs } songs :=
  ⟨rfl, (placed_append h songs).1, (placed_append h songs).2⟩

theorem insert (h : base ≤ a.queue.nextId) (position : Nat) (uri : List Char) :
    Gains base a { a with queue := a.queue.insert position uri } [uri] :=
  ⟨rfl, Nat.le_succ_of_le h, placed_insert h position uri⟩

/-- Clearing a queue without new rows leaves none. -/
theorem clear (hfresh : Playback.placed base a.queue = []) (h : base ≤ a.queue.nextId) :
    Gains base a { a with queue := a.queue.clear, state := .stopped, current := none } [] :=
  ⟨rfl, h, by rw [hfresh]; exact .refl _⟩

end Gains

-- ---------------------------------------------------------------------------
-- The three modes, when MPD serves every command
-- ---------------------------------------------------------------------------

def serving : Link := fun _ _ => .serve

/-- What `add` puts in the queue, up to the first URI that MPD refuses. -/
def added (library : Library) : List (List Char) → List (List Char)
  | [] => []
  | uri :: uris =>
    match library.add uri with
    | some songs => songs ++ added library uris
    | none => []

theorem each_add_gains {base : Nat} (uris : List (List Char)) (s : Session)
    (h : base ≤ s.server.queue.nextId) :
    Gains base s.server
      (Procedure.each (fun uri => verbMpd "enqueue_selection" (add serving uri)) uris s).2.server
      (added s.server.library uris) := by
  induction uris generalizing s with
  | nil => exact .refl h
  | cons uri uris ih =>
    rw [Procedure.each, added]
    cases hadd : s.server.library.add uri with
    | none =>
      have heffect : Server.add uri s.server = .error noExist := by simp [Server.add, hadd]
      have hrun : add serving uri s = _ := dispatch_acked rfl heffect
      rw [Procedure.run_bind_error (run_verbMpd hrun)]
      exact .refl h
    | some songs =>
      have heffect : Server.add uri s.server =
          .ok ((), { s.server with queue := s.server.queue.append songs }) := by
        simp [Server.add, hadd]
      have hrun : add serving uri s = _ := dispatch_served rfl heffect
      have hgains := Gains.append h songs
      have hmore := ih ⟨_, s.mirror, (.add uri, true) :: s.log⟩ hgains.base_le
      rw [Procedure.run_bind_ok (run_verbMpd hrun)]
      exact hgains.trans hmore

theorem runBatch_play_gains {base : Nat} (server : Server) (h : base ≤ server.queue.nextId) :
    Gains base server (runBatch [.playPosition 0] server).2 [] := by
  simp only [runBatch, Batched.effect, Server.playPosition]
  split
  next heq =>
    split at heq
    · cases heq
      exact ⟨rfl, h, .refl _⟩
    · cases heq
  · exact .refl h

theorem runBatch_adds_gains {base : Nat} (uris : List (List Char)) (server : Server)
    (h : base ≤ server.queue.nextId) :
    Gains base server (runBatch (uris.map .add ++ [.playPosition 0]) server).2
      (added server.library uris) := by
  induction uris generalizing server with
  | nil => exact runBatch_play_gains server h
  | cons uri uris ih =>
    simp only [List.map_cons, List.cons_append, runBatch, Batched.effect, Server.add, added]
    cases hadd : server.library.add uri with
    | none => exact .refl h
    | some songs =>
      have hgains := Gains.append h songs
      exact hgains.trans (ih _ hgains.base_le)

/-- A `next` adds song by song, up to the first that MPD does not play. -/
theorem fold_addNext_gains {base : Nat} (uris : List (List Char)) (position : Option Nat)
    (s : Session) (h : base ≤ s.server.queue.nextId)
    (hpos : ∀ p ∈ position, p ≤ s.server.queue.rows.length) :
    Gains base s.server (Procedure.fold (addNext serving) position uris s).2.server
      (uris.takeWhile s.server.library.playable) := by
  induction uris generalizing s position with
  | nil => exact .refl h
  | cons uri uris ih =>
    rw [Procedure.fold]
    by_cases hplay : s.server.library.playable uri
    · have hroom : ¬position.getD s.server.queue.rows.length > s.server.queue.rows.length := by
        cases position with
        | none => simp
        | some p => simpa using hpos p rfl
      have heffect : Server.addid uri position s.server = .ok (s.server.queue.nextId,
          { s.server with queue :=
            s.server.queue.insert (position.getD s.server.queue.rows.length) uri }) := by
        simp only [Server.addid, hplay, Bool.not_true, Bool.false_eq_true, if_false, if_neg hroom]
      have hrun : addid serving uri position s = _ := dispatch_served rfl heffect
      have hnext : addNext serving position uri s = _ := Procedure.run_bind_ok (run_verbMpd hrun)
      have hgains := Gains.insert h (position.getD s.server.queue.rows.length) uri
      have hmore := ih (position.map (· + 1)) ⟨_, s.mirror, (.addid uri position, true) :: s.log⟩
        hgains.base_le (by
          intro p hp
          obtain ⟨q, hq, rfl⟩ := Option.map_eq_some_iff.mp hp
          have hlen := (Queue.insert_perm s.server.queue.rows
            (position.getD s.server.queue.rows.length) ⟨s.server.queue.nextId, uri⟩).length_eq
          simp only [Queue.insert, hlen, List.length_cons]
          exact Nat.succ_le_succ (hpos q hq))
      rw [Procedure.run_bind_ok hnext, List.takeWhile_cons_of_pos hplay]
      exact hgains.trans hmore
    · have heffect : Server.addid uri position s.server = .error noExist := by
        simp [Server.addid, hplay]
      have hrun : addid serving uri position s = _ := dispatch_acked rfl heffect
      have hnext : addNext serving position uri s = _ := Procedure.run_bind_error (run_verbMpd hrun)
      rw [Procedure.run_bind_error hnext, List.takeWhile_cons_of_neg hplay]
      exact .refl h

theorem applyNext_gains {base : Nat} (uris : List (List Char)) (s : Session)
    (h : base ≤ s.server.queue.nextId) :
    Gains base s.server (applyNext serving uris s).2.server
      (uris.takeWhile s.server.library.playable) := by
  have hstatus : nextInsertPosition serving "enqueue_selection" s =
      (.ok (s.server.status.songPosition.map (· + 1)), s.sent .status true) := rfl
  have hpos : ∀ p ∈ s.server.status.songPosition.map (· + 1), p ≤ s.server.queue.rows.length := by
    intro p hp
    obtain ⟨q, hq, rfl⟩ := Option.map_eq_some_iff.mp hp
    obtain ⟨id, -, hfind⟩ := Option.bind_eq_some_iff.mp hq
    exact (List.findIdx?_eq_some_iff_getElem.mp hfind).1
  have hgains := fold_addNext_gains uris _ (s.sent .status true) h hpos
  unfold applyNext
  rw [Procedure.run_bind_ok hstatus]
  cases hrun : Procedure.fold (addNext serving) (s.server.status.songPosition.map (· + 1)) uris
      (s.sent .status true) with
  | mk r s' =>
    rw [hrun] at hgains
    cases r with
    | ok position =>
      rw [Procedure.run_bind_ok hrun]
      exact hgains
    | error e =>
      rw [Procedure.run_bind_error hrun]
      exact hgains

-- ---------------------------------------------------------------------------
-- What each mode places
-- ---------------------------------------------------------------------------

/-- A filter names tags the search commands know. -/
def ResolvedSelection.Searchable : ResolvedSelection → Prop
  | .uriList _ => True
  | .filter pairs _ =>
    pairs ≠ [] ∧ ∀ pair ∈ pairs, (searchField pair.1).map MpdSearchField.asProtocolStr = some pair.1

/-- The songs `next` works from, unless a directory is not in the database. -/
def materialised (library : Library) (dimension : SelectionDimension) :
    ResolvedSelection → Option (List (List Char))
  | .uriList list =>
    if dimension ≠ .folder then some list else (list.mapM library.listallinfo).map List.flatten
  | .filter pairs substring =>
    some (if substring then library.search (pairs.take 1) else library.find pairs)

/-- The songs a mode adds to the queue for a resolved selection. -/
def selected (library : Library) (dimension : SelectionDimension) (resolved : ResolvedSelection)
    (mode : EnqueueSelectionMode) : List (List Char) :=
  match mode, resolved with
  | .next, _ => ((materialised library dimension resolved).getD []).takeWhile library.playable
  | _, .uriList uris => added library uris
  | _, .filter pairs substring => if substring then library.search pairs else library.find pairs

theorem filterMap_searchField {pairs : List (String × List Char)}
    (h : ∀ pair ∈ pairs, (searchField pair.1).map MpdSearchField.asProtocolStr = some pair.1) :
    (pairs.filterMap fun pair => (searchField pair.1).map (·, pair.2)).map
      (fun pair => (pair.1.asProtocolStr, pair.2)) = pairs := by
  induction pairs with
  | nil => rfl
  | cons pair pairs ih =>
    obtain ⟨field, hfield, hname⟩ := Option.map_eq_some_iff.mp (h pair (List.mem_cons_self ..))
    have hrest := ih fun pair hpair => h pair (List.mem_cons_of_mem _ hpair)
    simp only [List.filterMap_cons, hfield, Option.map_some, List.map_cons, hrest, hname]

theorem listEach_serving (dirs : List (List Char)) (s : Session) :
    ∃ r s', listEach serving dirs s = (r, s') ∧ s'.server = s.server ∧
      r.toOption = (dirs.mapM s.server.library.listallinfo).map List.flatten := by
  induction dirs generalizing s with
  | nil => exact ⟨_, _, rfl, rfl, rfl⟩
  | cons dir dirs ih =>
    rw [listEach]
    cases hlist : s.server.library.listallinfo dir with
    | none =>
      have hrun : listallinfo serving dir s = (.error noExist, s.sent (.listallinfo dir) false) :=
        dispatch_acked rfl (by simp only [hlist])
      refine ⟨_, _, Procedure.run_bind_error hrun, rfl, ?_⟩
      simp [List.mapM_cons, hlist, Except.toOption]
    | some songs =>
      have hrun : listallinfo serving dir s = (.ok songs, s.sent (.listallinfo dir) true) :=
        dispatch_served rfl (by simp only [hlist])
      obtain ⟨r, s', hmore, hserver, hr⟩ := ih (s.sent (.listallinfo dir) true)
      rw [Procedure.run_bind_ok hrun]
      cases r with
      | ok more =>
        refine ⟨_, _, Procedure.run_bind_ok hmore, hserver, ?_⟩
        change some more = (List.mapM s.server.library.listallinfo dirs).map List.flatten at hr
        obtain ⟨lists, hlists, rfl⟩ := Option.map_eq_some_iff.mp hr.symm
        simp [List.mapM_cons, hlist, hlists, Except.toOption]
      | error error =>
        refine ⟨_, _, Procedure.run_bind_error hmore, hserver, ?_⟩
        change none = (List.mapM s.server.library.listallinfo dirs).map List.flatten at hr
        have hnone := Option.map_eq_none_iff.mp hr.symm
        simp [List.mapM_cons, hlist, hnone, Except.toOption]

theorem materialiseToUris_serving (dimension : SelectionDimension) {resolved : ResolvedSelection}
    (h : resolved.Searchable) (s : Session) :
    ∃ r s', materialiseToUris serving resolved dimension s = (r, s') ∧ s'.server = s.server ∧
      r.toOption = materialised s.server.library dimension resolved := by
  cases resolved with
  | uriList list =>
    by_cases hdimension : dimension = .folder
    · cases hdimension
      exact listEach_serving list s
    · refine ⟨.ok list, s, ?_, rfl, ?_⟩
      · simp [materialiseToUris, hdimension]
      · simp [materialised, hdimension, Except.toOption]
  | filter pairs substring =>
    obtain ⟨hne, hpairs⟩ := h
    have hnames := filterMap_searchField hpairs
    cases substring with
    | false =>
      refine ⟨_, _, rfl, rfl, ?_⟩
      exact congrArg (fun pairs => some (s.server.library.find pairs)) hnames
    | true =>
      obtain ⟨first, rest, rfl⟩ := List.exists_cons_of_ne_nil hne
      obtain ⟨field, hfield, hname⟩ :=
        Option.map_eq_some_iff.mp (hpairs first (List.mem_cons_self ..))
      have hsearch : materialiseToUris serving (.filter (first :: rest) true) dimension =
          search serving field first.2 := by
        simp [materialiseToUris, hfield]
      rw [hsearch]
      refine ⟨_, _, rfl, rfl, ?_⟩
      exact congrArg (fun name => some (s.server.library.search [(name, first.2)])) hname

/-- What a selection adds through MPD's own commands, one by one or in a list. -/
theorem applyAppend_gains {base : Nat} {resolved : ResolvedSelection} (hresolved : resolved.Searchable)
    (uris : List (List Char)) (hlist : ∀ list, resolved = .uriList list → uris = list)
    (dimension : SelectionDimension) (s : Session) (h : base ≤ s.server.queue.nextId) :
    Gains base s.server (applyAppend serving resolved uris s).2.server
      (selected s.server.library dimension resolved .append) := by
  cases resolved with
  | uriList list =>
    cases hlist list rfl
    exact each_add_gains uris s h
  | filter pairs substring =>
    have hne : pairs.isEmpty = false := by simpa using hresolved.1
    cases substring with
    | false =>
      simp only [applyAppend, verbMpd, findadd, hne]
      exact Gains.append h _
    | true =>
      simp only [applyAppend, verbMpd, searchadd, hne]
      exact Gains.append h _

theorem commandList_serving (batch : List Batched) (s : Session) :
    (commandList serving batch s).2.server = (runBatch batch s.server).2 := by
  unfold commandList
  split
  next hempty => rw [hempty, runBatch]
  · cases hrun : runBatch batch s.server with
    | mk r server => cases r <;> simp [serving]

theorem applyReplace_gains {base : Nat} {resolved : ResolvedSelection}
    (uris : List (List Char)) (hlist : ∀ list, resolved = .uriList list → uris = list)
    (dimension : SelectionDimension) (s : Session) (h : base ≤ s.server.queue.nextId)
    (hfresh : placed base s.server.queue = []) :
    Gains base s.server (applyReplace serving resolved uris s).2.server
      (selected s.server.library dimension resolved .replace) := by
  have hrun : (applyReplace serving resolved uris s).2.server =
      (runBatch (replaceBatch resolved uris) s.server).2 :=
    commandList_serving (replaceBatch resolved uris) s
  have hclear := Gains.clear hfresh h
  rw [hrun]
  cases resolved with
  | uriList list =>
    cases hlist list rfl
    exact hclear.trans (runBatch_adds_gains uris _ hclear.base_le)
  | filter pairs substring =>
    cases substring with
    | false =>
      have hadd := Gains.append hclear.base_le (s.server.library.find pairs)
      have hgains := hclear.trans (hadd.trans (runBatch_play_gains _ hadd.base_le))
      rwa [List.append_nil, List.nil_append] at hgains
    | true =>
      have hadd := Gains.append hclear.base_le (s.server.library.search pairs)
      have hgains := hclear.trans (hadd.trans (runBatch_play_gains _ hadd.base_le))
      rwa [List.append_nil, List.nil_append] at hgains

/-- Nothing matches, so the verb ends early. -/
def vacant (library : Library) : ResolvedSelection → Bool
  | .uriList list => list.isEmpty
  | .filter pairs _ => (library.find pairs).length == 0

/-- The songs the verb adds to the queue in a mode. -/
def offered (library : Library) (dimension : SelectionDimension) (resolved : ResolvedSelection)
    (mode : EnqueueSelectionMode) : List (List Char) :=
  if vacant library resolved then [] else selected library dimension resolved mode

theorem matchesNothing_serving {resolved : ResolvedSelection} (h : resolved.Searchable)
    (s : Session) :
    ∃ s', matchesNothing serving resolved s = (.ok (vacant s.server.library resolved), s') ∧
      s'.server = s.server := by
  cases resolved with
  | uriList list => exact ⟨s, rfl, rfl⟩
  | filter pairs substring =>
    have hne : pairs.isEmpty = false := by simpa using h.1
    refine ⟨s.sent (.count pairs) true, ?_, rfl⟩
    simp only [matchesNothing, countMatching, hne]
    rfl

theorem publishQueue_server (link : Link) (s : Session) :
    (publishQueue link s).2.server = s.server := by
  have h : Triple (publishQueue link) s (fun _ s' => s'.server = s.server)
      (fun _ s' => s'.server = s.server) :=
    (publishQueue_run link s).mono (fun _ _ h => h.1) (fun _ _ h => h.elim)
  exact h.state

theorem bind_server {ε α β : Type} {act : Procedure Session ε α} {f : α → Procedure Session ε β}
    (h : ∀ a (s' : Session), (f a s').2.server = s'.server) (s : Session) :
    ((act >>= f) s).2.server = (act s).2.server := by
  cases hrun : act s with
  | mk r s' =>
    cases r with
    | ok a => rw [Procedure.run_bind_ok hrun, h]
    | error e => rw [Procedure.run_bind_error hrun]

/-- The mode's listing ends with URIs that the mode then adds, or it fails and
the mode adds nothing. -/
theorem selectionUris_serving {base : Nat} {resolved : ResolvedSelection}
    (hresolved : resolved.Searchable) (dimension : SelectionDimension)
    (mode : EnqueueSelectionMode) (s : Session) (h : base ≤ s.server.queue.nextId)
    (hfresh : placed base s.server.queue = []) :
    Triple (selectionUris serving resolved dimension mode) s
      (fun uris s' => Gains base s.server (applySelection serving resolved uris mode s').2.server
        (selected s.server.library dimension resolved mode))
      (fun _ s' => s'.server = s.server ∧ selected s.server.library dimension resolved mode = []) := by
  cases mode with
  | append =>
    cases resolved with
    | uriList list =>
      exact .pure (applyAppend_gains hresolved list (fun _ h => by cases h; rfl) dimension s h)
    | filter pairs substring =>
      exact .pure (applyAppend_gains hresolved [] (fun _ h => by cases h) dimension s h)
  | next =>
    obtain ⟨r, s', hrun, hserver, hr⟩ := materialiseToUris_serving dimension hresolved s
    have hlist : selectionUris serving resolved dimension .next s = _ := run_verbMpd hrun
    refine .of_run ?_ ?_
    · intro uris s'' hok
      rw [hlist] at hok
      cases r with
      | ok list =>
        cases hok
        have hgains := @applyNext_gains base uris s' (hserver ▸ h)
        change some uris = _ at hr
        rw [hserver] at hgains
        simp only [selected, ← hr]
        exact hgains
      | error e => cases hok
    · intro e s'' herror
      rw [hlist] at herror
      cases r with
      | ok list => cases herror
      | error e =>
        cases herror
        change none = _ at hr
        simp only [selected, ← hr]
        exact ⟨hserver, rfl⟩
  | replace =>
    have hreplace (uris : List (List Char)) :
        (applySelection serving resolved uris .replace s).2.server =
          (applyReplace serving resolved uris s).2.server := by
      refine bind_server (fun _ s' => ?_) s
      exact Triple.state ((publishNowPlaying_run serving s').mono (fun _ _ h => h.1)
        (fun _ _ h => h.elim))
    cases resolved with
    | uriList list =>
      refine .pure ?_
      rw [hreplace]
      exact applyReplace_gains list (fun _ h => by cases h; rfl) dimension s h hfresh
    | filter pairs substring =>
      refine .pure ?_
      rw [hreplace]
      exact applyReplace_gains [] (fun _ h => by cases h) dimension s h hfresh

/-- Once the selection is resolved the verb adds the offered songs. -/
theorem handleEnqueueSelectionCriteria_gains {base : Nat} {naming : Naming}
    {criteria : SelectionCriteria} {s s' : Session} {resolved : ResolvedSelection}
    (hresolve : resolve serving naming criteria s = (.ok resolved, s'))
    (hserver : s'.server = s.server) (hresolved : resolved.Searchable)
    (mode : EnqueueSelectionMode) (h : base ≤ s.server.queue.nextId)
    (hfresh : placed base s.server.queue = []) :
    Gains base s.server
      (handleEnqueueSelectionCriteria serving naming criteria mode s).2.server
      (offered s.server.library criteria.dimension resolved mode) := by
  obtain ⟨s₁, hnothing, hserver₁⟩ := matchesNothing_serving hresolved s'
  unfold handleEnqueueSelectionCriteria offered
  rw [Procedure.run_bind_ok (run_verbMpd hresolve), Procedure.run_bind_ok hnothing, hserver]
  cases vacant s.server.library resolved with
  | true =>
    have hsame : s₁.server = s.server := hserver₁.trans hserver
    rw [if_pos rfl, if_pos rfl, Procedure.run_pure, hsame]
    exact .refl h
  | false =>
    rw [hserver] at hserver₁
    have huris := selectionUris_serving hresolved criteria.dimension mode s₁
      (hserver₁ ▸ h) (hserver₁ ▸ hfresh)
    rw [hserver₁] at huris
    rw [if_neg Bool.false_ne_true, if_neg Bool.false_ne_true]
    cases hlist : selectionUris serving resolved criteria.dimension mode s₁ with
    | mk r s₂ =>
      cases r with
      | ok uris =>
        rw [Procedure.run_bind_ok hlist, bind_server ?_ s₂]
        · exact huris.ok hlist
        · intro _ s₃
          rw [bind_server (fun _ _ => rfl), publishQueue_server]
      | error e =>
        obtain ⟨hsame, hnone⟩ := huris.error hlist
        rw [Procedure.run_bind_error hlist, hsame, hnone]
        exact .refl h

-- ---------------------------------------------------------------------------
-- When the modes place the same songs
-- ---------------------------------------------------------------------------

theorem queuePathIsUnder_self (path : List Char) : queuePathIsUnder path path = true := by
  have hstrip := Text.stripPrefix_append path []
  rw [List.append_nil] at hstrip
  simp [queuePathIsUnder, hstrip]

namespace Library

variable {library : Library}

theorem listallinfo_song (h : song ∈ library.songs) : library.listallinfo song = some [song] := by
  have hname : song ≠ [] := fun hempty => library.named (hempty ▸ h)
  have hfilter : library.songs.filter (queuePathIsUnder · song) = [song] := by
    have hcongr : ∀ other ∈ library.songs, queuePathIsUnder other song = (other == song) := by
      intro other hother
      rw [Bool.eq_iff_iff, beq_iff_eq]
      refine ⟨library.leaf song h other hother, ?_⟩
      rintro rfl
      exact queuePathIsUnder_self _
    rw [List.filter_congr hcongr, List.filter_beq, List.count_eq_one_of_mem library.distinct h]
    rfl
  simp [listallinfo, hname, hfilter]

theorem listallinfo_stream (h : library.streams uri) : library.listallinfo uri = none := by
  obtain ⟨hname, houtside⟩ := library.outside uri h
  have hfilter : library.songs.filter (queuePathIsUnder · uri) = [] := by
    rw [List.filter_eq_nil_iff]
    intro song hsong
    rw [houtside song hsong]
    exact Bool.false_ne_true
  simp [listallinfo, hname, hfilter]

/-- What a directory lists is not empty, and all of it is in the database. -/
theorem listallinfo_some {songs : List (List Char)} (hpath : path ≠ [])
    (h : library.listallinfo path = some songs) :
    songs ≠ [] ∧ ∀ song ∈ songs, song ∈ library.songs := by
  unfold listallinfo at h
  rw [if_neg hpath] at h
  split at h
  · cases h
  next hsongs =>
    cases h
    exact ⟨hsongs, fun song hsong => (List.mem_filter.mp hsong).1⟩

theorem playable_song (h : song ∈ library.songs) : library.playable song = true := by
  simp [playable, h]

theorem add_playable (h : library.playable uri) : library.add uri = some [uri] := by
  unfold add
  rcases Bool.or_eq_true_iff.mp h with hsong | hstream
  · rw [listallinfo_song (by simpa using hsong)]
  · rw [listallinfo_stream hstream]
    exact if_pos hstream

theorem add_ne_nil {songs : List (List Char)} (hpath : uri ≠ [])
    (h : library.add uri = some songs) : songs ≠ [] := by
  unfold add at h
  split at h
  next hlist =>
    cases h
    exact (listallinfo_some hpath hlist).1
  · split at h
    · cases h
      exact List.cons_ne_nil _ _
    · cases h

end Library

theorem takeWhile_songs {library : Library} {songs : List (List Char)}
    (h : ∀ song ∈ songs, song ∈ library.songs) :
    songs.takeWhile library.playable = songs :=
  List.takeWhile_eq_self_iff.mpr fun song hsong => Library.playable_song (h song hsong)

theorem added_playable {uris : List (List Char)} {library : Library}
    (h : ∀ uri ∈ uris, library.playable uri)
    (more : List (List Char)) : added library (uris ++ more) = uris ++ added library more := by
  induction uris with
  | nil => rfl
  | cons uri uris ih =>
    have hrest := ih fun uri huri => h uri (List.mem_cons_of_mem _ huri)
    rw [List.cons_append, added, Library.add_playable (h uri (List.mem_cons_self ..)), hrest]
    rfl

/-- `add` and `addid` part at the first URI that is no song and no stream, when
`add` finds a directory there. -/
theorem added_perm_iff {uris : List (List Char)} {library : Library} (hname : [] ∉ uris) :
    (added library uris).Perm (uris.takeWhile library.playable) ↔
      ∀ uri, uris.find? (!library.playable ·) = some uri → library.add uri = none := by
  have hsplit := @List.takeWhile_append_dropWhile _ library.playable uris
  have hadded : added library uris =
      uris.takeWhile library.playable ++ added library (uris.dropWhile library.playable) := by
    have hplay := @added_playable (uris.takeWhile library.playable) library
      (fun _ h => List.mem_takeWhile_imp h) (uris.dropWhile library.playable)
    rwa [hsplit] at hplay
  have hperm : (added library uris).Perm (uris.takeWhile library.playable) ↔
      added library (uris.dropWhile library.playable) = [] := by
    rw [hadded]
    refine ⟨fun h => ?_, fun h => by rw [h, List.append_nil]⟩
    have hlength := h.length_eq
    rw [List.length_append] at hlength
    exact List.eq_nil_of_length_eq_zero (by omega)
  rw [hperm, List.find?_not_eq_head?_dropWhile]
  cases hdrop : uris.dropWhile library.playable with
  | nil => simp [added]
  | cons uri rest =>
    have huri : uri ≠ [] := by
      rintro rfl
      exact hname (List.dropWhile_subset _ (hdrop ▸ List.mem_cons_self ..))
    rw [added]
    cases hadd : library.add uri with
    | none => simp [hadd]
    | some songs => simp [hadd, Library.add_ne_nil huri hadd]

/-- Searching for one pair more finds the same songs when they all match it. -/
theorem search_perm_iff (library : Library) (first second : String × List Char) :
    (library.search [first, second]).Perm (library.search [first]) ↔
      ∀ song ∈ library.songs, library.searches song first → library.searches song second := by
  have hsub : (library.search [first, second]) =
      (library.search [first]).filter (library.searches · second) := by
    simp [Library.search, List.filter_filter, Bool.and_comm]
  rw [hsub]
  constructor
  · intro hperm song hsong hfirst
    have hmem : song ∈ library.search [first] := List.mem_filter.mpr ⟨hsong, by simpa using hfirst⟩
    exact (List.mem_filter.mp (hperm.mem_iff.mpr hmem)).2
  · intro hall
    rw [List.filter_eq_self.mpr]
    intro song hsong
    obtain ⟨hsong, hfirst⟩ := List.mem_filter.mp hsong
    exact hall song hsong (by simpa using hfirst)

theorem buildFilter_searchable {tag : String} (htag : tag = "genre" ∨ tag = "date")
    (value : List Char) (parent : Option SelectionParent) (substring : Bool) :
    (buildFilter tag value parent substring).Searchable := by
  refine ⟨List.cons_ne_nil _ _, fun pair hpair => ?_⟩
  rcases List.mem_cons.mp hpair with rfl | hpair
  · rcases htag with rfl | rfl <;> rfl
  · have hparent := Option.mem_toList.mp hpair
    unfold parentPair at hparent
    split at hparent
    · cases hparent
    · split at hparent
      next tag htag _ =>
        cases hparent
        unfold parentFilterTag at htag
        dsimp only at htag ⊢
        split_ifs at htag <;> cases htag <;> rfl
      · cases hparent

theorem Resolves.searchable {server : Server} {criteria : SelectionCriteria}
    {resolved : ResolvedSelection} (h : Resolves server criteria resolved) :
    resolved.Searchable := by
  unfold Resolves at h
  dsimp only at h
  split at h
  · rw [h]
    trivial
  · cases hdimension : criteria.dimension <;> rw [hdimension] at h <;> dsimp only at h
    case artist | album =>
      obtain ⟨uris, rfl, -⟩ := h
      trivial
    case genre => exact h ▸ buildFilter_searchable (.inl rfl) ..
    case year => exact h ▸ buildFilter_searchable (.inr rfl) ..
    case folder => exact h ▸ trivial
    case playlist =>
      obtain ⟨entries, -, rfl⟩ := h
      trivial

/-- The criteria and libraries for which the modes place the same songs. A
year has no parent that some song of the year does not match, a folder is no
stream, and the first playlist entry that is neither a song nor a stream is no
directory either. -/
def ModesAgree (server : Server) (criteria : SelectionCriteria) : Prop :=
  let value := Text.trim criteria.value
  value = [] ∨
    match criteria.dimension with
    | .year => ∀ pair, parentPair criteria.parent = some pair →
        server.library.find [("date", value), pair] = [] ∨
          ∀ song ∈ server.library.songs,
            server.library.searches song ("date", value) → server.library.searches song pair
    | .folder => server.library.streams value = false
    | .playlist => ∀ entries, server.playlists.lookup value = some entries →
        ∀ entry, entries.find? (!server.library.playable ·) = some entry →
          server.library.add entry = none
    | _ => True

theorem offered_list (library : Library) (dimension : SelectionDimension)
    (hdimension : dimension ≠ .folder) (uris : List (List Char)) :
    offered library dimension (.uriList uris) .append = added library uris ∧
      offered library dimension (.uriList uris) .next = uris.takeWhile library.playable := by
  cases uris with
  | nil => exact ⟨rfl, rfl⟩
  | cons uri uris => simp [offered, vacant, selected, materialised, hdimension]

theorem offered_filter_find (library : Library) (dimension : SelectionDimension)
    (pairs : List (String × List Char)) :
    offered library dimension (.filter pairs false) .append =
      offered library dimension (.filter pairs false) .next := by
  have hsongs : (library.find pairs).takeWhile library.playable = library.find pairs :=
    takeWhile_songs fun song hsong => (List.mem_filter.mp hsong).1
  simp [offered, selected, materialised, hsongs]

theorem offered_filter_search (library : Library) (dimension : SelectionDimension)
    (pairs : List (String × List Char)) :
    offered library dimension (.filter pairs true) .append =
        (if library.find pairs = [] then [] else library.search pairs) ∧
      offered library dimension (.filter pairs true) .next =
        if library.find pairs = [] then [] else library.search (pairs.take 1) := by
  have hsongs : (library.search (pairs.take 1)).takeWhile library.playable =
      library.search (pairs.take 1) :=
    takeWhile_songs fun song hsong => (List.mem_filter.mp hsong).1
  simp [offered, vacant, selected, materialised, hsongs]

theorem offered_folder_perm_iff {library : Library} {value : List Char} (hvalue : value ≠ []) :
    (offered library .folder (.uriList [value]) .append).Perm
      (offered library .folder (.uriList [value]) .next) ↔ library.streams value = false := by
  have hnone {mode : EnqueueSelectionMode} : offered library .folder (.uriList [value]) mode =
      selected library .folder (.uriList [value]) mode := rfl
  rw [hnone, hnone]
  cases hlist : library.listallinfo value with
  | none =>
    cases hstream : library.streams value <;>
      simp [selected, materialised, added, Library.add, hlist, hstream]
  | some songs =>
    have hsongs := takeWhile_songs (Library.listallinfo_some hvalue hlist).2
    have hstream : library.streams value = false := by
      rw [Bool.eq_false_iff]
      intro hstream
      rw [Library.listallinfo_stream hstream] at hlist
      cases hlist
    simp [selected, materialised, added, Library.add, hlist, hstream, hsongs]

theorem offered_perm_iff {server : Server} {criteria : SelectionCriteria}
    {resolved : ResolvedSelection} (h : Resolves server criteria resolved) :
    (offered server.library criteria.dimension resolved .append).Perm
      (offered server.library criteria.dimension resolved .next) ↔ ModesAgree server criteria := by
  unfold Resolves at h
  unfold ModesAgree
  dsimp only at h ⊢
  split at h
  next hempty =>
    rw [h]
    simp [offered, vacant, List.isEmpty_iff.mp hempty]
  next hvalue =>
    rw [List.isEmpty_iff] at hvalue
    simp only [hvalue, false_or]
    cases hdimension : criteria.dimension <;> rw [hdimension] at h <;> dsimp only at h ⊢
    case artist | album =>
      obtain ⟨uris, rfl, hsongs⟩ := h
      have hadded := @added_playable uris server.library
        (fun uri huri => Library.playable_song (hsongs uri huri)) []
      rw [List.append_nil, added, List.append_nil] at hadded
      rw [(offered_list _ _ (by simp) uris).1, (offered_list _ _ (by simp) uris).2, hadded,
        takeWhile_songs hsongs]
      exact iff_of_true (.refl _) trivial
    case genre =>
      subst h
      rw [buildFilter, offered_filter_find]
      exact iff_of_true (.refl _) trivial
    case year =>
      subst h
      obtain ⟨happend, hnext⟩ := offered_filter_search server.library .year
        (("date", Text.trim criteria.value) :: (parentPair criteria.parent).toList)
      rw [buildFilter, happend, hnext]
      cases parentPair criteria.parent with
      | none => exact iff_of_true (.refl _) (by simp)
      | some pair =>
        by_cases hfind : server.library.find [("date", Text.trim criteria.value), pair] = []
        · simp [hfind]
        · simp [hfind, search_perm_iff]
    case folder =>
      subst h
      exact offered_folder_perm_iff hvalue
    case playlist =>
      obtain ⟨entries, hlookup, rfl⟩ := h
      obtain ⟨happend, hnext⟩ := offered_list server.library .playlist (by simp) entries
      have hentries : [] ∉ entries := by
        obtain ⟨before, after, hsplit, -⟩ := List.lookup_eq_some_iff.mp hlookup
        exact server.entries (Text.trim criteria.value, entries) (by simp [hsplit])
      rw [happend, hnext, added_perm_iff hentries, hlookup]
      simp

/-- A selection that could not be resolved places nothing in any mode. -/
theorem resolve_error_serving {naming : Naming} {criteria : SelectionCriteria} {s s' : Session}
    (h : resolve serving naming criteria s = (.error e, s')) : ModesAgree s.server criteria := by
  unfold resolve at h
  unfold ModesAgree
  dsimp only at h ⊢
  split at h
  · cases h
  · cases hdimension : criteria.dimension <;> rw [hdimension] at h <;> dsimp only at h ⊢
    case artist | album | genre => exact .inr trivial
    case year | folder => cases h
    case playlist =>
      refine .inr fun entries hlookup => ?_
      have hrun : listplaylistinfo serving (Text.trim criteria.value) s =
          (.ok entries, s.sent (.listplaylistinfo (Text.trim criteria.value)) true) :=
        dispatch_served rfl (by simp only [Server.listplaylistinfo, hlookup])
      rw [Procedure.run_bind_ok hrun] at h
      cases h

/-- The songs a selection places in the queue, by mode. -/
def placedBy (naming : Naming) (criteria : SelectionCriteria) (s : Session)
    (mode : EnqueueSelectionMode) : List (List Char) :=
  placed s.server.queue.nextId
    (handleEnqueueSelectionCriteria serving naming criteria mode s).2.server.queue

theorem selection_modes_agree_iff (naming : Naming) (criteria : SelectionCriteria) (s : Session) :
    (∀ mode mode', (placedBy naming criteria s mode).Perm (placedBy naming criteria s mode')) ↔
      ModesAgree s.server criteria := by
  cases hrun : resolve serving naming criteria s with
  | mk r s' =>
    have hresolve := resolve_run serving naming criteria s
    cases r with
    | error e =>
      have hserver : s'.server = s.server := (hresolve.error hrun).1
      have hnone (mode : EnqueueSelectionMode) : placedBy naming criteria s mode = [] := by
        rw [placedBy, handleEnqueueSelectionCriteria, Procedure.run_bind_error (run_verbMpd hrun),
          hserver]
        exact placed_fresh s.server.queue
      refine iff_of_true (fun mode mode' => ?_) (resolve_error_serving hrun)
      rw [hnone, hnone]
    | ok resolved =>
      obtain ⟨hresolves, hserver, -⟩ := hresolve.ok hrun
      have hplaced (mode : EnqueueSelectionMode) : (placedBy naming criteria s mode).Perm
          (offered s.server.library criteria.dimension resolved mode) := by
        have hgains := (handleEnqueueSelectionCriteria_gains hrun hserver hresolves.searchable mode
          (Nat.le_refl s.server.queue.nextId) (placed_fresh s.server.queue)).placed
        rwa [placed_fresh, List.append_nil] at hgains
      rw [← offered_perm_iff hresolves]
      constructor
      · intro h
        exact (hplaced .append).symm.trans ((h .append .next).trans (hplaced .next))
      · intro h mode mode'
        have happend (mode : EnqueueSelectionMode) : (placedBy naming criteria s mode).Perm
            (offered s.server.library criteria.dimension resolved .append) := by
          cases mode with
          | append => exact hplaced .append
          | next => exact (hplaced .next).trans h.symm
          | replace =>
            have hreplace : offered s.server.library criteria.dimension resolved .replace =
                offered s.server.library criteria.dimension resolved .append := by
              cases resolved <;> rfl
            exact hreplace ▸ hplaced .replace
        exact (happend mode).trans (happend mode').symm

/-- Two songs of 1979, by two artists. -/
def twoArtists : Library where
  songs := ["a.flac".toList, "b.flac".toList]
  finds song pair := pair = ("date", "1979".toList) ∨
    song = "a.flac".toList ∧ pair = ("artist", "A".toList) ∨
    song = "b.flac".toList ∧ pair = ("artist", "B".toList)
  searches song pair := pair = ("date", "1979".toList) ∨
    song = "a.flac".toList ∧ pair = ("artist", "A".toList) ∨
    song = "b.flac".toList ∧ pair = ("artist", "B".toList)
  values tag := if tag = "artist" then ["A".toList, "B".toList] else []
  streams _ := false
  distinct := by decide
  leaf := by decide
  named := by decide
  outside := by simp

def emptyQueue (library : Library) : Session where
  server := .idle library
  mirror := none
  log := []

/-- Names stand for themselves and files form no albums. -/
def plainNaming : Naming where
  artistFoldKey name := name
  splitArtistCredit credit := [credit]
  resolveAlbumTiles _ := []
  tracks_mem := by simp

def yearOfArtist : SelectionCriteria where
  dimension := .year
  value := "1979".toList
  parent := some ⟨"artist".toList, "A".toList⟩

/-- The songs of 1979 by A: `append` places the one, `next` every song of 1979. -/
theorem year_of_artist_next_places_all :
    placedBy plainNaming yearOfArtist (emptyQueue twoArtists) .append = ["a.flac".toList] ∧
      placedBy plainNaming yearOfArtist (emptyQueue twoArtists) .next =
        ["a.flac".toList, "b.flac".toList] ∧
      ¬(placedBy plainNaming yearOfArtist (emptyQueue twoArtists) .append).Perm
        (placedBy plainNaming yearOfArtist (emptyQueue twoArtists) .next) := by
  decide

end EvoAudio.Playback
