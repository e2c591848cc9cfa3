import EvoAudio.Playback.Sources
import Mathlib.Data.List.Sort

/-!
# The gone-curation prune

`playback.mpd/src/gone_curation.rs`: a pass reads the songs of MPD's database,
then goes through the queue, the favourites and the other stored playlists. Of
each it lists the entries, classifies them one by one and deletes the ones that
are gone, rows of the queue by song id and entries of a playlist by position.
Every command is a step of its own, and other connections can change MPD and the
source registry between any two of them. A pass called while another one holds
the gate returns at once.
-/

namespace EvoAudio.Playback

-- ---------------------------------------------------------------------------
-- Gone entries
-- ---------------------------------------------------------------------------

def isRemoteStreamUri (path : List Char) : Bool :=
  (path.take 7).map Char.toLower == "http://".toList ||
    (path.take 8).map Char.toLower == "https://".toList

def isLocalMpdFileUri (uri : List Char) : Bool :=
  if uri.isEmpty then false
  else if isRemoteStreamUri uri then false
  else if "dlna:".toList.isPrefixOf uri || "DLNA:".toList.isPrefixOf uri then false
  else if "://".toList <:+: uri then false
  else true

/-- `registry.get` of the source, and whether its state is reachable. -/
def sourceIsReachable (registry : SourceRegistry) (sourceId : List Char) : Bool :=
  match registry.get sourceId with
  | none => false
  | some record => record.state.isReachable

/-- The source of a local URI that is not in the song set. -/
def attributeMissing (musicDirectory : UnixPath) (uri : List Char) (songsInDb : List (List Char))
    (registry : SourceRegistry) : Option (List Char) :=
  if !isLocalMpdFileUri uri then none
  else if songsInDb.contains uri then none
  else resolveSource musicDirectory uri registry.snapshot

def classifyLocalUriGone (musicDirectory : UnixPath) (uri : List Char)
    (songsInDb : List (List Char)) (registry : SourceRegistry) : Bool :=
  match attributeMissing musicDirectory uri songsInDb registry with
  | none => false
  | some sourceId => sourceIsReachable registry sourceId

/-- MPD and the registry, as all connections share them. -/
structure World where
  server : Server
  registry : SourceRegistry

/-- A local URI that MPD's database does not have though its source is there. -/
def World.Gone (musicDirectory : UnixPath) (world : World) (uri : List Char) : Prop :=
  isLocalMpdFileUri uri ∧ uri ∉ world.server.library.songs ∧
    ∃ sourceId ∈ resolveSource musicDirectory uri world.registry.snapshot,
      ∃ record ∈ world.registry.get sourceId, record.state.isReachable

-- ---------------------------------------------------------------------------
-- The lists a pass goes through
-- ---------------------------------------------------------------------------

inductive Place where
  | queue
  | playlist (name : List Char)
  deriving DecidableEq, Repr

/-- An entry by the key that deletes it: the song id of a queue row, the
position of a playlist entry. -/
structure Entry where
  key : Nat
  uri : List Char
  deriving DecidableEq, Repr

namespace Place

/-- `playlistinfo` or `listplaylistinfo` -/
def list (server : Server) : Place → Except Mpd.MpdError (List Entry)
  | .queue => .ok (server.playlistinfo.map fun item => ⟨item.id, item.filePath⟩)
  | .playlist name =>
    match server.listplaylistinfo name with
    | .ok (entries, _) => .ok (entries.mapIdx fun position uri => ⟨position, uri⟩)
    | .error e => .error e

/-- The entries, none when there is no such playlist. -/
def items (server : Server) (place : Place) : List Entry :=
  match place.list server with
  | .ok items => items
  | .error _ => []

/-- `deleteid` or `playlistdelete` -/
def delete (key : Nat) (server : Server) : Place → Except Mpd.MpdError (Unit × Server)
  | .queue => server.deleteid key
  | .playlist name => server.playlistdelete name key

/-- Positions are deleted from the highest to the lowest. -/
def order (keys : List Nat) : Place → List Nat
  | .queue => keys
  | .playlist _ => keys.insertionSort (· ≥ ·)

end Place

/-- All lists that hold curated entries. -/
def Server.places (server : Server) : List Place :=
  .queue :: server.listplaylists.map .playlist

-- ---------------------------------------------------------------------------
-- A pass
-- ---------------------------------------------------------------------------

/-- The list a pass is at, with the names of the playlists to come. -/
inductive Shelf where
  | queue
  | favourites
  | stored (name : List Char) (rest : List (List Char))
  deriving DecidableEq, Repr

structure PruneStats where
  queueRemoved : Nat
  favouritesRemoved : Nat
  playlistEntriesRemoved : Nat
  playlistsTouched : Nat
  deriving DecidableEq, Repr

def PruneStats.default : PruneStats := ⟨0, 0, 0, 0⟩

def PruneStats.count (stats : PruneStats) (removed : Nat) : Shelf → PruneStats
  | .queue => { stats with queueRemoved := removed }
  | .favourites => { stats with favouritesRemoved := removed }
  | .stored _ _ =>
    if removed > 0 then
      { stats with
        playlistsTouched := stats.playlistsTouched + 1
        playlistEntriesRemoved := stats.playlistEntriesRemoved + removed }
    else stats

/-- The next command of a pass that has read the songs. -/
inductive Point where
  | list (shelf : Shelf)
  /-- `resolve_source` of the next item. -/
  | classify (shelf : Shelf) (items : List Entry) (gone : List Nat)
  /-- `registry.get` of the source found for the item. -/
  | attributed (shelf : Shelf) (item : Entry) (sourceId : List Char) (items : List Entry)
      (gone : List Nat)
  | delete (shelf : Shelf) (gone : List Nat) (removed : Nat)
  | listplaylists
  /-- Republishing, still under the gate. -/
  | publish
  deriving DecidableEq, Repr

inductive Pass where
  | loadSongDbPaths
  | running (songsInDb : List (List Char)) (stats : PruneStats) (point : Point)
  deriving DecidableEq, Repr

/-- What the contexts are built with: both shelves are given one favourites
name. -/
structure Curator where
  musicDirectory : UnixPath
  favouritesName : List Char

/-- The device with its internal source only. -/
def Curator.internal : Curator := ⟨UnixPath.components "/music".toList, "__favourites__".toList⟩

/-- A database with one of the two favourites below. -/
def Library.kept : Library := .files ["kept.flac".toList] (by decide) (by decide) (by decide)

/-- Two favourites on the internal source. -/
def World.twoFavourites (library : Library) : World where
  server := { Server.idle library with
    playlists := [("__favourites__".toList, ["ghost.flac".toList, "kept.flac".toList])]
    entries := by decide }
  registry := SourceRegistry.empty.upsert
    ⟨"local-internal".toList, UnixPath.components "/music".toList, .online, none⟩

def Curator.place (curator : Curator) : Shelf → Place
  | .queue => .queue
  | .favourites => .playlist curator.favouritesName
  | .stored name _ => .playlist name

def Point.nextStored : List (List Char) → Point
  | [] => .publish
  | name :: rest => .list (.stored name rest)

def Point.next : Shelf → Point
  | .queue => .list .favourites
  | .favourites => .listplaylists
  | .stored _ rest => nextStored rest

/-- The playlists next to the favourites. -/
def Curator.others (curator : Curator) (server : Server) : List (List Char) :=
  server.listplaylists.filter (· ≠ curator.favouritesName)

/-- An entry deleted by a pass, in the world it was deleted from. -/
structure Deletion where
  uri : List Char
  world : World

structure Prunes where
  world : World
  /-- The pass that holds the gate. -/
  pass : Option Pass
  deleted : List Deletion
  /-- What the passes that are over returned. -/
  returned : List PruneStats

namespace Prunes

inductive Act where
  /-- `prune_gone_from_curation` is called. -/
  | trigger
  /-- The pass under the gate takes its next step. -/
  | advance
  /-- A command of another connection leaves the server like this. -/
  | command (server : Server)
  /-- MPD's database is updated. -/
  | update (library : Library)
  /-- The sources change. -/
  | sources (registry : SourceRegistry)

def start (world : World) : Prunes := ⟨world, none, [], []⟩

def advanceTo (s : Prunes) (songsInDb : List (List Char)) (stats : PruneStats) (point : Point) :
    Prunes := { s with pass := some (.running songsInDb stats point) }

def advance (curator : Curator) (s : Prunes) : Pass → Prunes
  | .loadSongDbPaths => s.advanceTo s.world.server.library.songs .default (.list .queue)
  | .running songsInDb stats point =>
    let goto := s.advanceTo songsInDb stats
    match point with
    | .list shelf =>
      match (curator.place shelf).list s.world.server with
      | .error _ => goto (.next shelf)
      | .ok items => goto (.classify shelf items [])
    | .classify shelf [] gone => goto (.delete shelf ((curator.place shelf).order gone) 0)
    | .classify shelf (item :: items) gone =>
      match attributeMissing curator.musicDirectory item.uri songsInDb s.world.registry with
      | none => goto (.classify shelf items gone)
      | some sourceId => goto (.attributed shelf item sourceId items gone)
    | .attributed shelf item sourceId items gone =>
      if sourceIsReachable s.world.registry sourceId then
        goto (.classify shelf items (gone ++ [item.key]))
      else goto (.classify shelf items gone)
    | .delete shelf [] removed => s.advanceTo songsInDb (stats.count removed shelf) (.next shelf)
    | .delete shelf (key :: gone) removed =>
      match (curator.place shelf).delete key s.world.server with
      | .error _ => goto (.delete shelf gone removed)
      | .ok (_, server) =>
        { world := { s.world with server }
          pass := some (.running songsInDb stats (.delete shelf gone (removed + 1)))
          deleted := s.deleted ++
            (((curator.place shelf).items s.world.server).filter (·.key == key)).map fun item =>
              ⟨item.uri, s.world⟩
          returned := s.returned }
    | .listplaylists => goto (.nextStored (curator.others s.world.server))
    | .publish => { s with pass := none, returned := s.returned ++ [stats] }

def step (curator : Curator) (s : Prunes) : Act → Option Prunes
  | .trigger =>
    match s.pass with
    | some _ => some { s with returned := s.returned ++ [.default] }
    | none => some { s with pass := some .loadSongDbPaths }
  | .advance => s.pass.map (s.advance curator)
  | .command server => some { s with world := { s.world with server } }
  | .update library =>
    some { s with world := { s.world with server := { s.world.server with library } } }
  | .sources registry => some { s with world := { s.world with registry } }

end Prunes

-- ---------------------------------------------------------------------------
-- Classification
-- ---------------------------------------------------------------------------

theorem sourceIsReachable_iff : sourceIsReachable registry sourceId ↔
    ∃ record ∈ registry.get sourceId, record.state.isReachable := by
  cases h : registry.get sourceId <;> simp [sourceIsReachable, h]

theorem attributeMissing_eq_some :
    attributeMissing musicDirectory uri songsInDb registry = some sourceId ↔
      isLocalMpdFileUri uri ∧ uri ∉ songsInDb ∧
        resolveSource musicDirectory uri registry.snapshot = some sourceId := by
  cases hlocal : isLocalMpdFileUri uri
  · simp [attributeMissing, hlocal]
  · by_cases hmem : uri ∈ songsInDb <;> simp [attributeMissing, hlocal, hmem]

theorem classifyLocalUriGone_iff : classifyLocalUriGone musicDirectory uri songsInDb registry ↔
    ∃ sourceId, attributeMissing musicDirectory uri songsInDb registry = some sourceId ∧
      sourceIsReachable registry sourceId := by
  cases h : attributeMissing musicDirectory uri songsInDb registry <;>
    simp [classifyLocalUriGone, h]

/-- The classifier is right about the songs it is given. -/
theorem gone_iff : World.Gone musicDirectory world uri ↔
    classifyLocalUriGone musicDirectory uri world.server.library.songs world.registry := by
  rw [classifyLocalUriGone_iff]
  constructor
  · rintro ⟨hlocal, hmissing, sourceId, hsource, hrecord⟩
    exact ⟨sourceId, attributeMissing_eq_some.mpr ⟨hlocal, hmissing, hsource⟩,
      sourceIsReachable_iff.mpr hrecord⟩
  · rintro ⟨sourceId, hattributed, hreachable⟩
    obtain ⟨hlocal, hmissing, hsource⟩ := attributeMissing_eq_some.mp hattributed
    exact ⟨hlocal, hmissing, sourceId, hsource, sourceIsReachable_iff.mp hreachable⟩

instance (musicDirectory : UnixPath) (world : World) (uri : List Char) :
    Decidable (world.Gone musicDirectory uri) := decidable_of_iff _ gone_iff.symm

/-- Other connections' lists do not matter. -/
theorem gone_congr {world : World} {server : Server} (h : server.library = world.server.library) :
    World.Gone musicDirectory { world with server } uri ↔ world.Gone musicDirectory uri := by
  simp only [World.Gone, h]

theorem classify_of_gone (h : World.Gone musicDirectory world uri) (hmissing : uri ∉ songsInDb) :
    classifyLocalUriGone musicDirectory uri songsInDb world.registry := by
  obtain ⟨hlocal, -, sourceId, hsource, hrecord⟩ := h
  exact classifyLocalUriGone_iff.mpr ⟨sourceId,
    attributeMissing_eq_some.mpr ⟨hlocal, hmissing, hsource⟩, sourceIsReachable_iff.mpr hrecord⟩

-- ---------------------------------------------------------------------------
-- Listing and deleting
-- ---------------------------------------------------------------------------

namespace Place

theorem items_queue (server : Server) :
    Place.queue.items server = server.queue.rows.map fun row => ⟨row.id, row.uri⟩ := by
  refine List.ext_getElem ?_ ?_ <;> simp [items, list, Server.playlistinfo]

theorem items_playlist (server : Server) (name : List Char) :
    (Place.playlist name).items server =
      ((server.playlists.lookup name).getD []).mapIdx Entry.mk := by
  cases h : server.playlists.lookup name <;> simp [items, list, Server.listplaylistinfo, h]

theorem mem_mapIdx_entry {entries : List (List Char)} {item : Entry} :
    item ∈ entries.mapIdx Entry.mk ↔ entries[item.key]? = some item.uri := by
  simp only [List.mem_mapIdx, List.getElem?_eq_some_iff]
  constructor
  · rintro ⟨position, h, rfl⟩
    exact ⟨h, rfl⟩
  · rintro ⟨h, huri⟩
    exact ⟨item.key, h, by rw [huri]⟩

theorem mem_items_playlist {item : Entry} : item ∈ (Place.playlist name).items server ↔
    ∃ entries, server.playlists.lookup name = some entries ∧
      entries[item.key]? = some item.uri := by
  rw [items_playlist, mem_mapIdx_entry]
  cases server.playlists.lookup name <;> simp

theorem items_of_list {place : Place} {listed : List Entry} (h : place.list server = .ok listed) :
    place.items server = listed := by
  rw [Place.items, h]

theorem items_of_missing {place : Place} (h : place.list server = .error e) :
    place.items server = [] := by
  rw [Place.items, h]

/-- A key stands for one entry. -/
theorem keys_nodup (server : Server) (place : Place) :
    ((place.items server).map Entry.key).Nodup := by
  cases place with
  | queue =>
    rw [items_queue, List.map_map]
    exact server.queue.distinct
  | playlist name =>
    have hkeys (entries : List (List Char)) :
        (entries.mapIdx Entry.mk).map Entry.key = List.range entries.length := by
      refine List.ext_getElem ?_ ?_ <;> simp
    rw [items_playlist, hkeys]
    exact List.nodup_range

/-- The keys in the order they are deleted. -/
def Descending (keys : List Nat) : Place → Prop
  | .queue => True
  | .playlist _ => keys.Pairwise (· > ·)

theorem mem_order {place : Place} : key ∈ place.order keys ↔ key ∈ keys := by
  cases place with
  | queue => exact Iff.rfl
  | playlist name => exact List.mem_insertionSort _

theorem length_order (place : Place) : (place.order keys).length = keys.length := by
  cases place with
  | queue => rfl
  | playlist name => exact List.length_insertionSort _ _

theorem order_descending (place : Place) (h : keys.Nodup) :
    place.Descending (place.order keys) := by
  cases place with
  | queue => exact trivial
  | playlist name =>
    have hsorted := List.pairwise_insertionSort (· ≥ ·) keys
    have hnodup := (List.perm_insertionSort (· ≥ ·) keys).nodup_iff.mpr h
    exact (hsorted.and hnodup).imp fun ⟨hge, hne⟩ => lt_of_le_of_ne hge hne.symm

theorem Descending.tail {place : Place} (h : place.Descending (key :: keys)) :
    place.Descending keys := by
  cases place with
  | queue => exact trivial
  | playlist name => exact h.of_cons

/-- The key of an entry after the deletion of another one. -/
def moved (key old : Nat) : Place → Nat
  | .queue => old
  | .playlist _ => if old < key then old else old - 1

theorem moved_below (name : List Char) (h : old < key) :
    (Place.playlist name).moved key old = old := if_pos h

theorem moved_above (name : List Char) (h : ¬old < key) :
    (Place.playlist name).moved key old = old - 1 := if_neg h

/-- The keys still to be deleted stay where they are. -/
theorem moved_eq {place : Place} (hkeys : place.Descending (key :: keys)) (hne : old ≠ key)
    (hmem : old ∈ keys ∨ place.moved key old ∈ keys) : place.moved key old = old := by
  cases place with
  | queue => rfl
  | playlist name =>
    by_cases hbelow : old < key
    · exact moved_below name hbelow
    · rw [moved_above name hbelow] at hmem
      rcases hmem with hmem | hmem
      · exact absurd (List.rel_of_pairwise_cons hkeys hmem) hbelow
      · have hlt : key > old - 1 := List.rel_of_pairwise_cons hkeys hmem
        omega

/-- One entry is gone and the ones behind it have moved up. -/
structure Deleted (place : Place) (key : Nat) (server server' : Server) : Prop where
  library : server'.library = server.library
  playlists : server'.listplaylists = server.listplaylists
  others : ∀ other, other ≠ place → other.items server' = other.items server
  here : ∀ item, item ∈ place.items server' ↔
    ∃ old ∈ place.items server, old.key ≠ key ∧ item = ⟨place.moved key old.key, old.uri⟩
  length : (place.items server').length ≤ (place.items server).length

theorem deleted_queue (h : server.deleteid key = .ok ((), server')) :
    Deleted .queue key server server' := by
  unfold Server.deleteid at h
  split at h
  · cases h
    refine ⟨rfl, rfl, fun other hother => ?_, fun item => ?_, ?_⟩
    · cases other with
      | queue => exact absurd rfl hother
      | playlist name => rw [items_playlist, items_playlist]
    · simp only [items_queue, Queue.remove, List.mem_map, List.mem_filter, moved]
      constructor
      · rintro ⟨row, ⟨hrow, hid⟩, rfl⟩
        exact ⟨_, ⟨row, hrow, rfl⟩, by simpa using hid, rfl⟩
      · rintro ⟨_, ⟨row, hrow, rfl⟩, hid, rfl⟩
        exact ⟨row, ⟨hrow, by simpa using hid⟩, rfl⟩
    · rw [items_queue, items_queue, List.length_map, List.length_map]
      exact List.length_filter_le ..
  · cases h

theorem mem_eraseIdx_entry (name : List Char) {entries : List (List Char)} {item : Entry} :
    (entries.eraseIdx key)[item.key]? = some item.uri ↔
      ∃ old : Entry, entries[old.key]? = some old.uri ∧ old.key ≠ key ∧
        item = ⟨(Place.playlist name).moved key old.key, old.uri⟩ := by
  constructor
  · intro h
    rw [List.getElem?_eraseIdx] at h
    split at h
    next hbelow => exact ⟨item, h, Nat.ne_of_lt hbelow, by rw [moved_below name hbelow]⟩
    next habove =>
      refine ⟨⟨item.key + 1, item.uri⟩, h, fun heq => habove (heq ▸ Nat.lt_succ_self _), ?_⟩
      rw [moved_above name fun hlt => habove (Nat.lt_of_succ_lt hlt)]
      rfl
  · rintro ⟨old, hold, hne, rfl⟩
    by_cases hbelow : old.key < key
    · rw [moved_below name hbelow, List.getElem?_eraseIdx, if_pos hbelow]
      exact hold
    · have hpred : old.key - 1 + 1 = old.key := by omega
      have habove : ¬old.key - 1 < key := by omega
      rw [moved_above name hbelow, List.getElem?_eraseIdx, if_neg habove, hpred]
      exact hold

theorem deleted_playlist (h : server.playlistdelete name key = .ok ((), server')) :
    Deleted (.playlist name) key server server' := by
  unfold Server.playlistdelete at h
  split at h
  · cases h
  next entries hentries =>
    split at h
    · cases h
    · cases h
      have hlookup (other : List Char) := Table.lookup_edit server.playlists name other (·.eraseIdx key)
      refine ⟨rfl, ?_, fun other hother => ?_, fun item => ?_, ?_⟩
      · simp only [Server.listplaylists, List.map_map]
        refine List.map_congr_left fun playlist _ => ?_
        by_cases hname : playlist.1 = name <;> simp [hname]
      · cases other with
        | queue => rw [items_queue, items_queue]
        | playlist other =>
          rw [items_playlist, items_playlist]
          dsimp only
          rw [hlookup, if_neg fun heq => hother (congrArg Place.playlist heq)]
      · simp only [mem_items_playlist, hlookup, if_true, hentries, Option.map_some,
          Option.some.injEq, exists_eq_left']
        exact mem_eraseIdx_entry name
      · simp only [items_playlist, hlookup, if_true, hentries, Option.map_some, Option.getD_some,
          List.length_mapIdx]
        exact List.length_eraseIdx_le ..

/-- Every entry that is left was there before. -/
theorem Deleted.left {place : Place} (h : Deleted place key server server') (other : Place)
    (hitem : item ∈ other.items server') : ∃ old ∈ other.items server,
      old.uri = item.uri ∧ (other = place → old.key ≠ key ∧ ∀ keys,
        place.Descending (key :: keys) → old.key ∈ keys ∨ item.key ∈ keys → old = item) := by
  by_cases hother : other = place
  · subst hother
    obtain ⟨old, hold, hne, rfl⟩ := (h.here item).mp hitem
    refine ⟨old, hold, rfl, fun _ => ⟨hne, fun keys hkeys hmem => ?_⟩⟩
    rw [moved_eq hkeys hne hmem]
  · rw [h.others other hother] at hitem
    exact ⟨item, hitem, rfl, fun heq => absurd heq hother⟩

/-- Every other entry is left. -/
theorem Deleted.kept {place : Place} {old : Entry} (h : Deleted place key server server')
    (other : Place) (hold : old ∈ other.items server) (hne : other = place → old.key ≠ key) :
    ∃ item ∈ other.items server', item.uri = old.uri ∧ (other = place → ∀ keys,
      place.Descending (key :: keys) → old.key ∈ keys → item = old) := by
  by_cases hother : other = place
  · subst hother
    refine ⟨_, (h.here _).mpr ⟨old, hold, hne rfl, rfl⟩, rfl, fun _ keys hkeys hmem => ?_⟩
    rw [moved_eq hkeys (hne rfl) (.inl hmem)]
  · rw [← h.others other hother] at hold
    exact ⟨old, hold, rfl, fun heq => absurd heq hother⟩

theorem Deleted.length_le {place : Place} (h : Deleted place key server server') (other : Place) :
    (other.items server').length ≤ (other.items server).length := by
  by_cases hother : other = place
  · exact hother ▸ h.length
  · rw [h.others other hother]

theorem deleted {place : Place} (h : place.delete key server = .ok ((), server')) :
    Deleted place key server server' := by
  cases place with
  | queue => exact deleted_queue h
  | playlist name => exact deleted_playlist h

/-- A deletion is refused when there is no such entry. -/
theorem not_deleted {place : Place} (h : place.delete key server = .error e) :
    ∀ item ∈ place.items server, item.key ≠ key := by
  rintro item hitem rfl
  cases place with
  | queue =>
    rw [items_queue] at hitem
    obtain ⟨row, hrow, rfl⟩ := List.mem_map.mp hitem
    have hany : server.queue.rows.any (·.id == row.id) := List.any_eq_true.mpr ⟨row, hrow, by simp⟩
    simp only [delete, Server.deleteid, hany] at h
    cases h
  | playlist name =>
    obtain ⟨entries, hentries, huri⟩ := mem_items_playlist.mp hitem
    have hlt := (List.getElem?_eq_some_iff.mp huri).1
    simp only [delete, Server.playlistdelete, hentries, if_neg (Nat.not_le.mpr hlt)] at h
    cases h

end Place

-- ---------------------------------------------------------------------------
-- The steps of a pass
-- ---------------------------------------------------------------------------

/-- The places a pass is still to list after a shelf. -/
def Curator.after (curator : Curator) (server : Server) : Shelf → List Place
  | .queue => .playlist curator.favouritesName :: (curator.others server).map .playlist
  | .favourites => (curator.others server).map .playlist
  | .stored _ rest => rest.map .playlist

/-- The places a pass is still to list. -/
def Point.ahead (curator : Curator) (server : Server) : Point → List Place
  | .list shelf => curator.place shelf :: curator.after server shelf
  | .classify shelf _ _ | .attributed shelf _ _ _ _ | .delete shelf _ _ =>
    curator.after server shelf
  | .listplaylists => (curator.others server).map .playlist
  | .publish => []

theorem Point.ahead_nextStored (curator : Curator) (server : Server) (names : List (List Char)) :
    (Point.nextStored names).ahead curator server = names.map .playlist := by
  cases names <;> rfl

theorem Point.ahead_next (curator : Curator) (server : Server) (shelf : Shelf) :
    (Point.next shelf).ahead curator server = curator.after server shelf := by
  cases shelf with
  | queue | favourites => rfl
  | stored name rest => exact ahead_nextStored curator server rest

/-- After a shelf the pass has nothing at hand. -/
@[elab_as_elim]
theorem Point.nextStored_empty {motive : Point → Prop} (names : List (List Char))
    (hlist : ∀ shelf, motive (.list shelf)) (hpublish : motive .publish) :
    motive (Point.nextStored names) := by
  cases names with
  | nil => exact hpublish
  | cons name rest => exact hlist _

@[elab_as_elim]
theorem Point.next_empty {motive : Point → Prop} (shelf : Shelf)
    (hlist : ∀ shelf, motive (.list shelf)) (hindex : motive .listplaylists)
    (hpublish : motive .publish) : motive (Point.next shelf) := by
  cases shelf with
  | queue => exact hlist _
  | favourites => exact hindex
  | stored name rest =>
    change motive (Point.nextStored rest)
    exact nextStored_empty rest hlist hpublish

theorem Curator.after_deleted {place : Place} (h : place.Deleted key server server')
    (curator : Curator) (shelf : Shelf) :
    curator.after server' shelf = curator.after server shelf := by
  have hothers : curator.others server' = curator.others server := by
    rw [Curator.others, h.playlists, Curator.others]
  cases shelf <;> simp only [Curator.after, hothers]

namespace Prunes

@[simp] theorem advanceTo_world (s : Prunes) (songsInDb : List (List Char)) (stats : PruneStats)
    (point : Point) : (s.advanceTo songsInDb stats point).world = s.world := rfl

/-- The ways a pass can go on. -/
inductive Advanced (curator : Curator) (s : Prunes) : Pass → Prunes → Prop where
  | load : Advanced curator s .loadSongDbPaths
      (s.advanceTo s.world.server.library.songs .default (.list .queue))
  | missing (h : (curator.place shelf).items s.world.server = []) :
      Advanced curator s (.running songsInDb stats (.list shelf))
        (s.advanceTo songsInDb stats (.next shelf))
  | listed : Advanced curator s (.running songsInDb stats (.list shelf))
      (s.advanceTo songsInDb stats
        (.classify shelf ((curator.place shelf).items s.world.server) []))
  | ordered : Advanced curator s (.running songsInDb stats (.classify shelf [] gone))
      (s.advanceTo songsInDb stats (.delete shelf ((curator.place shelf).order gone) 0))
  | kept (h : attributeMissing curator.musicDirectory item.uri songsInDb s.world.registry = none) :
      Advanced curator s (.running songsInDb stats (.classify shelf (item :: items) gone))
        (s.advanceTo songsInDb stats (.classify shelf items gone))
  | attributed
      (h : attributeMissing curator.musicDirectory item.uri songsInDb s.world.registry =
        some sourceId) :
      Advanced curator s (.running songsInDb stats (.classify shelf (item :: items) gone))
        (s.advanceTo songsInDb stats (.attributed shelf item sourceId items gone))
  | marked (h : sourceIsReachable s.world.registry sourceId) :
      Advanced curator s (.running songsInDb stats (.attributed shelf item sourceId items gone))
        (s.advanceTo songsInDb stats (.classify shelf items (gone ++ [item.key])))
  | unreachable (h : ¬sourceIsReachable s.world.registry sourceId) :
      Advanced curator s (.running songsInDb stats (.attributed shelf item sourceId items gone))
        (s.advanceTo songsInDb stats (.classify shelf items gone))
  | pruned : Advanced curator s (.running songsInDb stats (.delete shelf [] removed))
      (s.advanceTo songsInDb (stats.count removed shelf) (.next shelf))
  | refused (h : ∀ item ∈ (curator.place shelf).items s.world.server, item.key ≠ key) :
      Advanced curator s (.running songsInDb stats (.delete shelf (key :: gone) removed))
        (s.advanceTo songsInDb stats (.delete shelf gone removed))
  | deleted (h : Place.Deleted (curator.place shelf) key s.world.server server) :
      Advanced curator s (.running songsInDb stats (.delete shelf (key :: gone) removed))
        { world := { s.world with server }
          pass := some (.running songsInDb stats (.delete shelf gone (removed + 1)))
          deleted := s.deleted ++
            (((curator.place shelf).items s.world.server).filter (·.key == key)).map fun item =>
              ⟨item.uri, s.world⟩
          returned := s.returned }
  | named : Advanced curator s (.running songsInDb stats .listplaylists)
      (s.advanceTo songsInDb stats (.nextStored (curator.others s.world.server)))
  | returned : Advanced curator s (.running songsInDb stats .publish)
      { s with pass := none, returned := s.returned ++ [stats] }

theorem advanced (curator : Curator) (s : Prunes) (pass : Pass) :
    Advanced curator s pass (s.advance curator pass) := by
  cases pass with
  | loadSongDbPaths => exact .load
  | running songsInDb stats point =>
    cases point with
    | list shelf =>
      cases hlist : (curator.place shelf).list s.world.server with
      | error e =>
        simp only [advance, hlist]
        exact .missing (Place.items_of_missing hlist)
      | ok items =>
        simp only [advance, hlist]
        exact Place.items_of_list hlist ▸ .listed
    | classify shelf items gone =>
      cases items with
      | nil => exact .ordered
      | cons item items =>
        cases h : attributeMissing curator.musicDirectory item.uri songsInDb s.world.registry with
        | none =>
          simp only [advance, h]
          exact .kept h
        | some sourceId =>
          simp only [advance, h]
          exact .attributed h
    | attributed shelf item sourceId items gone =>
      simp only [advance]
      split
      next h => exact .marked h
      next h => exact .unreachable h
    | delete shelf gone removed =>
      cases gone with
      | nil => exact .pruned
      | cons key gone =>
        cases h : (curator.place shelf).delete key s.world.server with
        | error e =>
          simp only [advance, h]
          exact .refused (Place.not_deleted h)
        | ok result =>
          simp only [advance, h]
          exact .deleted (Place.deleted h)
    | listplaylists => exact .named
    | publish => exact .returned

/-- A call finds the gate taken, or takes it. -/
theorem step_trigger (h : step curator s .trigger = some s') :
    (∃ pass, s.pass = some pass ∧ s' = { s with returned := s.returned ++ [.default] }) ∨
      (s.pass = none ∧ s' = { s with pass := some .loadSongDbPaths }) := by
  cases hpass : s.pass with
  | some pass =>
    simp only [step, hpass, Option.some.injEq] at h
    exact .inl ⟨pass, rfl, h.symm⟩
  | none =>
    simp only [step, hpass, Option.some.injEq] at h
    exact .inr ⟨rfl, h.symm⟩

theorem step_advance (h : step curator s .advance = some s') :
    ∃ pass, s.pass = some pass ∧ Advanced curator s pass s' := by
  obtain ⟨pass, hpass, rfl⟩ := Option.map_eq_some_iff.mp h
  exact ⟨pass, hpass, advanced curator s pass⟩

end Prunes

/-- No key is at hand twice, and the keys to delete are in order. -/
def Point.Distinct (curator : Curator) : Point → Prop
  | .classify _ items gone => (gone ++ items.map Entry.key).Nodup
  | .attributed _ item _ items gone => (gone ++ item.key :: items.map Entry.key).Nodup
  | .delete shelf gone _ => (curator.place shelf).Descending gone
  | _ => True

def Pass.Distinct (curator : Curator) : Pass → Prop
  | .loadSongDbPaths => True
  | .running _ _ point => point.Distinct curator

theorem Prunes.Advanced.distinct {pass : Pass} (h : Prunes.Advanced curator s pass s')
    (hpass : pass.Distinct curator) : ∀ pass' ∈ s'.pass, pass'.Distinct curator := by
  intro pass' hpass'
  cases h with
  | load =>
    cases hpass'
    exact trivial
  | missing | pruned =>
    cases hpass'
    exact Point.next_empty _ (fun _ => trivial) trivial trivial
  | listed =>
    cases hpass'
    exact Place.keys_nodup _ _
  | ordered =>
    cases hpass'
    refine Place.order_descending _ ?_
    simpa [Pass.Distinct, Point.Distinct] using hpass
  | kept | unreachable =>
    cases hpass'
    exact hpass.sublist (List.Sublist.append_left (List.sublist_cons_self _ _) _)
  | attributed =>
    cases hpass'
    exact hpass
  | marked =>
    cases hpass'
    simpa [Pass.Distinct, Point.Distinct] using hpass
  | refused | deleted =>
    cases hpass'
    exact Place.Descending.tail hpass
  | named =>
    cases hpass'
    exact Point.nextStored_empty _ (fun _ => trivial) trivial
  | returned => cases hpass'

end EvoAudio.Playback
