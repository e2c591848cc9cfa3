import EvoAudio.Lib.Grouping
import EvoAudio.Lib.Paging
import EvoAudio.Lib.Table
import EvoAudio.Names.Album
import EvoAudio.Playback.Selection
import Mathlib.Data.List.Lex
import Mathlib.Data.Prod.Lex

/-!
# Albums as folders

`resolve_album_tiles` of `playback.mpd/src/library.rs`: the files MPD lists,
grouped by their canonical album folder, with a title and an artist voted by
their tags, and the album part of `drill_by_tag`, which looks a tile up again.
A slice at no character boundary panics, which is `none` here.
-/

namespace EvoAudio.Playback

open Grouping (HashOrder)
open Names (Unicode canonicalAlbumFolder cleanAlbumTitle canonicalFolderBasename artistDisplayForm
  artistFoldKey)

variable (u : Unicode)

structure MpdFile where
  path : List Char
  album : Option (List Char)
  albumartist : Option (List Char)
  artist : Option (List Char)
  deriving DecidableEq, Repr

inductive MpdLibraryEntry where
  | file (file : MpdFile)
  | directory (path : List Char)
  | playlist (path : List Char)
  deriving DecidableEq, Repr

-- ---------------------------------------------------------------------------
-- Votes
-- ---------------------------------------------------------------------------

/-- How many files of a folder have each value of a tag. -/
abbrev Votes := AList fun _ : List Char => Nat

def vote (votes : Votes) (value : List Char) : Votes := Grouping.update votes value 0 (· + 1)

/-- The candidates are compared by their votes, then by their text. -/
def voteKey (candidate : List Char × Nat) : Nat ×ₗ List Nat :=
  toLex (candidate.2, Text.ord candidate.1)

/-- `votes` are the entries as the map is visited. -/
def pickMajority (votes : List (List Char × Nat)) : Option (List Char) :=
  let total := (votes.map Prod.snd).sum
  if votes.isEmpty || total == 0 then none
  else
    match Table.maxBy (fun a b => voteKey a ≤ voteKey b) votes with
    | some (best, count) => if count * 2 > total then some best else none
    | none => none

def deriveAlbumTitle (albumTagVotes : List (List Char × Nat)) (folderBasename : List Char) :
    Option (List Char) :=
  match pickMajority albumTagVotes with
  | some majority => some majority
  | none => cleanAlbumTitle u folderBasename

def deriveAlbumArtist (albumartistTagVotes artistTagVotes : List (List Char × Nat)) : List Char :=
  match pickMajority albumartistTagVotes, pickMajority artistTagVotes with
  | some majority, _ => artistDisplayForm u majority
  | none, some majority => artistDisplayForm u majority
  | none, none => "Various Artists".toList

-- ---------------------------------------------------------------------------
-- Tiles
-- ---------------------------------------------------------------------------

structure FolderAgg where
  tracks : List MpdFile
  albumTagVotes : Votes
  albumartistTagVotes : Votes
  artistTagVotes : Votes

namespace FolderAgg

def empty : FolderAgg := ⟨[], ∅, ∅, ∅⟩

/-- An artist counts as it is tagged, when that is not blank. -/
def voteArtist (votes : Votes) (raw : Option (List Char)) : Votes :=
  if (Text.trim (raw.getD [])).isEmpty then votes else vote votes (raw.getD [])

def ingest (agg : FolderAgg) (file : MpdFile) (cleanedAlbum : Option (List Char)) : FolderAgg where
  tracks := agg.tracks ++ [file]
  albumTagVotes :=
    match cleanedAlbum with
    | some clean => if clean.isEmpty then agg.albumTagVotes else vote agg.albumTagVotes clean
    | none => agg.albumTagVotes
  albumartistTagVotes := voteArtist agg.albumartistTagVotes file.albumartist
  artistTagVotes := voteArtist agg.artistTagVotes file.artist

end FolderAgg

abbrev Folders := AList fun _ : List Char => FolderAgg

def cleanedAlbum (file : MpdFile) : Option (Option (List Char)) :=
  match file.album with
  | some raw => (cleanAlbumTitle u raw).map some
  | none => some none

/-- A file of no album folder is left out. -/
def ingestEntry (folders : Folders) : MpdLibraryEntry → Option Folders
  | .file file => do
    let canonical ← canonicalAlbumFolder file.path
    if canonical.isEmpty then return folders
    else
      let cleanedAlbum ← cleanedAlbum u file
      return Grouping.update folders canonical .empty (·.ingest file cleanedAlbum)
  | _ => return folders

def albumTile (order : HashOrder (List Char)) (canonical : List Char) (agg : FolderAgg) :
    Option AlbumTile := do
  let votes (tag : String) (map : Votes) := order.entries [tag.toList, canonical] map
  let title ← deriveAlbumTitle u (votes "album" agg.albumTagVotes) (canonicalFolderBasename canonical)
  return {
    canonicalFolder := canonical
    displayTitle := title
    displayArtist := deriveAlbumArtist u (votes "albumartist" agg.albumartistTagVotes)
      (votes "artist" agg.artistTagVotes)
    tracks := (agg.tracks.map MpdFile.path).insertionSort fun a b => Text.ord a ≤ Text.ord b }

/-- Tiles are sorted by their title, first without regard to case. -/
def titleKey (tile : AlbumTile) : List Nat ×ₗ List Nat :=
  toLex (Text.ord (u.lowercase tile.displayTitle), Text.ord tile.displayTitle)

def resolveAlbumTiles (order : HashOrder (List Char)) (entries : List MpdLibraryEntry) :
    Option (List AlbumTile) := do
  let folders ← entries.foldlM (ingestEntry u) ∅
  let tiles ← (order.entries [] folders).mapM fun entry => albumTile u order entry.1 entry.2
  return tiles.insertionSort fun a b => titleKey u a ≤ titleKey u b

-- ---------------------------------------------------------------------------
-- Drilling into an album
-- ---------------------------------------------------------------------------

structure BrowseSelector where
  value : List Char
  parent : Option SelectionParent
  deriving DecidableEq, Repr

def selectorValue (verb : String) (selector : BrowseSelector) : Except VerbError (List Char) :=
  if (Text.trim selector.value).isEmpty then
    .error (.mpd verb (.text "browse selector value must be non-empty"))
  else .ok (Text.trim selector.value)

def parentField (tag : List Char) : Option MpdSearchField :=
  let tag := (Text.trim tag).map Char.toLower
  if tag = "album".toList then some .album
  else if tag = "albumartist".toList then some .albumArtist
  else if tag = "artist".toList then some .artist
  else if tag = "genre".toList then some .genre
  else none

def buildParentField (verb : String) (selector : BrowseSelector) :
    Except VerbError (Option (MpdSearchField × List Char)) :=
  match selector.parent with
  | none => .ok none
  | some parent =>
    if (Text.trim parent.value).isEmpty then
      .error (.mpd verb (.text "parent context value must be non-empty"))
    else
      match parentField parent.tag with
      | some field => .ok (some (field, Text.trim parent.value))
      | none => .error (.mpd verb (.source "parent tag is not supported"
          (Text.asciiLower (Text.trim parent.tag))))

/-- The value names a tile by its folder or by its title. -/
def matchesTile (value : List Char) (tile : AlbumTile) : Bool :=
  tile.canonicalFolder == value || eqIgnoreAsciiCase tile.displayTitle value

/-- The key of the artist the matching tiles are narrowed to, if any. -/
def parentArtistKey : Option (MpdSearchField × List Char) → List Char
  | some (.albumArtist, value) | some (.artist, value) => artistFoldKey u value
  | _ => []

def albumTracks (verb : String) (tiles : List AlbumTile) (selector : BrowseSelector)
    (value : List Char) : Except VerbError (List (List Char)) :=
  let found := tiles.filter (matchesTile value)
  if found.isEmpty then .error (.mpd verb (.source "no album matched selector value" value))
  else do
    let parent ← buildParentField verb selector
    let targetKey := parentArtistKey u parent
    let filtered :=
      if targetKey.isEmpty then found
      else found.filter fun tile => artistFoldKey u tile.displayArtist == targetKey
    return (filtered.flatMap AlbumTile.tracks).eraseDups

def drillAlbum (verb : String) (tiles : List AlbumTile) (selector : BrowseSelector) :
    Except VerbError (List (List Char)) := do
  let value ← selectorValue verb selector
  albumTracks u verb tiles selector value

-- ---------------------------------------------------------------------------
-- The order of the maps
-- ---------------------------------------------------------------------------

theorem voteKey_injective : Function.Injective voteKey := by
  rintro ⟨a, m⟩ ⟨b, n⟩ h
  simp only [voteKey, EmbeddingLike.apply_eq_iff_eq, Prod.mk.injEq] at h
  rw [Text.ord_injective h.2, h.1]

/-- The text breaks every tie, so the order of the votes is nothing to it. -/
theorem pickMajority_perm {votes votes' : List (List Char × Nat)} (h : votes.Perm votes') :
    pickMajority votes = pickMajority votes' := by
  have hmax : Table.maxBy (fun a b => decide (voteKey a ≤ voteKey b)) votes =
      Table.maxBy (fun a b => decide (voteKey a ≤ voteKey b)) votes' := by
    refine Table.maxBy_perm ?_ ?_ h ?_
    · intro a b
      simpa using le_total (voteKey a) (voteKey b)
    · intro a b c hab hbc
      simp only [decide_eq_true_eq] at hab hbc ⊢
      exact hab.trans hbc
    · intro a _ b _ hab hba
      exact voteKey_injective (le_antisymm (of_decide_eq_true hab) (of_decide_eq_true hba))
  have hempty : votes.isEmpty = votes'.isEmpty := by
    rw [Bool.eq_iff_iff, List.isEmpty_iff, List.isEmpty_iff]
    exact ⟨fun he => (he ▸ h).nil_eq.symm, fun he => (he ▸ h).eq_nil⟩
  simp only [pickMajority, hmax, hempty, (h.map Prod.snd).sum_nat]

variable {u}

theorem albumTile_order (order order' : HashOrder (List Char)) (canonical : List Char)
    (agg : FolderAgg) : albumTile u order canonical agg = albumTile u order' canonical agg := by
  have hvotes (tag : String) (map : Votes) :
      pickMajority (order.entries [tag.toList, canonical] map) =
        pickMajority (order'.entries [tag.toList, canonical] map) :=
    pickMajority_perm (HashOrder.entries_perm _ _ _ _)
  simp only [albumTile, deriveAlbumTitle, deriveAlbumArtist, hvotes]

-- ---------------------------------------------------------------------------
-- What the files are grouped to
-- ---------------------------------------------------------------------------

def files (entries : List MpdLibraryEntry) : List MpdFile :=
  entries.filterMap fun
    | .file file => some file
    | _ => none

/-- The folder whose album the file is in, empty for none. -/
def folderOf (file : MpdFile) : List Char := (canonicalAlbumFolder file.path).getD []

variable (u) in
/-- No slice of the file's folder or of its album's title panics. -/
def Readable (file : MpdFile) : Prop :=
  (canonicalAlbumFolder file.path).isSome ∧
    (folderOf file ≠ [] → ∀ raw ∈ file.album, (cleanAlbumTitle u raw).isSome)

def foldered (entries : List MpdLibraryEntry) : List MpdFile :=
  (files entries).filter (folderOf · ≠ [])

variable (u) in
def ingestFile (agg : FolderAgg) (file : MpdFile) : FolderAgg :=
  agg.ingest file (file.album.bind (cleanAlbumTitle u))

variable (u) in
def grouped (entries : List MpdLibraryEntry) : Folders :=
  Grouping.collect folderOf .empty (ingestFile u) (foldered entries)

theorem cleanedAlbum_eq_some {file : MpdFile} :
    cleanedAlbum u file = some clean ↔ (∀ raw ∈ file.album, (cleanAlbumTitle u raw).isSome) ∧
      file.album.bind (cleanAlbumTitle u) = clean := by
  unfold cleanedAlbum
  cases file.album with
  | none => simp
  | some raw => cases h : cleanAlbumTitle u raw <;> simp [h]

theorem ingestEntry_file {folders folders' : Folders} {file : MpdFile} :
    ingestEntry u folders (.file file) = some folders' ↔ Readable u file ∧
      (if folderOf file = [] then folders
        else Grouping.update folders (folderOf file) .empty (ingestFile u · file)) = folders' := by
  cases hfolder : canonicalAlbumFolder file.path with
  | none => simp [ingestEntry, Readable, hfolder]
  | some canonical =>
    have hof : folderOf file = canonical := by simp [folderOf, hfolder]
    by_cases hempty : canonical = []
    · simp [ingestEntry, Readable, hfolder, hof, hempty]
    · simp only [ingestEntry, Readable, hfolder, hof, hempty, ingestFile, Option.bind_eq_bind,
        Option.bind_some, Option.isSome_some, List.isEmpty_iff, if_false, Option.bind_eq_some_iff,
        cleanedAlbum_eq_some, ne_eq, not_false_eq_true, true_and, forall_true_left, Option.pure_def,
        Option.some.injEq]
      constructor
      · rintro ⟨clean, ⟨hread, rfl⟩, rfl⟩
        exact ⟨hread, rfl⟩
      · rintro ⟨hread, rfl⟩
        exact ⟨_, ⟨hread, rfl⟩, rfl⟩

theorem files_concat (entries : List MpdLibraryEntry) (entry : MpdLibraryEntry) :
    files (entries ++ [entry]) = files entries ++ files [entry] :=
  List.filterMap_append

theorem foldlM_ingestEntry {entries : List MpdLibraryEntry} {folders : Folders} :
    entries.foldlM (ingestEntry u) ∅ = some folders ↔
      (∀ file ∈ files entries, Readable u file) ∧ grouped u entries = folders := by
  induction entries using List.reverseRecOn generalizing folders with
  | nil =>
    have hempty : grouped u [] = ∅ := rfl
    simp [hempty, files]
  | append_singleton entries entry ih =>
    have hstep : (entries ++ [entry]).foldlM (ingestEntry u) ∅ = some folders ↔
        (∀ file ∈ files entries, Readable u file) ∧
          ingestEntry u (grouped u entries) entry = some folders := by
      simp only [List.foldlM_append, List.foldlM_cons, List.foldlM_nil, Option.bind_eq_bind,
        Option.bind_eq_some_iff, ih]
      constructor
      · rintro ⟨before, ⟨hread, rfl⟩, after, hingest, hpure⟩
        cases hpure
        exact ⟨hread, hingest⟩
      · rintro ⟨hread, hingest⟩
        exact ⟨_, ⟨hread, rfl⟩, folders, hingest, rfl⟩
    have hskip (hnone : files [entry] = [])
        (hsame : ∀ folders, ingestEntry u folders entry = some folders) :
        (entries ++ [entry]).foldlM (ingestEntry u) ∅ = some folders ↔
          (∀ file ∈ files (entries ++ [entry]), Readable u file) ∧
            grouped u (entries ++ [entry]) = folders := by
      rw [hstep, hsame]
      simp only [grouped, foldered, files_concat, hnone, List.append_nil, Option.some.injEq]
    cases entry with
    | directory path => exact hskip rfl fun _ => rfl
    | playlist path => exact hskip rfl fun _ => rfl
    | file file =>
      have hfiles : files (entries ++ [.file file]) = files entries ++ [file] := files_concat ..
      have hgrouped : grouped u (entries ++ [.file file]) = if folderOf file = [] then grouped u entries
          else Grouping.update (grouped u entries) (folderOf file) .empty (ingestFile u · file) := by
        rw [grouped, foldered, hfiles, List.filter_append]
        split
        next hfolder => simp [hfolder, grouped, foldered]
        next hfolder =>
          have hsingle : [file].filter (folderOf · ≠ []) = [file] := by simp [hfolder]
          rw [hsingle, Grouping.collect_concat]
          rfl
      rw [hstep, ingestEntry_file, hgrouped, hfiles]
      simp only [List.mem_append, List.mem_singleton, or_imp, forall_and, forall_eq, and_assoc]

-- ---------------------------------------------------------------------------
-- The albums of a listing
-- ---------------------------------------------------------------------------

def albumFiles (entries : List MpdLibraryEntry) (canonical : List Char) : List MpdFile :=
  (foldered entries).filter (folderOf · = canonical)

variable (u) in
/-- The album of a folder, the same in every order of the maps. -/
def album (entries : List MpdLibraryEntry) (canonical : List Char) : Option AlbumTile :=
  albumTile u .stored canonical ((albumFiles entries canonical).foldl (ingestFile u) .empty)

variable (u) in
/-- No slice panics while the tiles are made. -/
structure Sliceable (entries : List MpdLibraryEntry) : Prop where
  readable : ∀ file ∈ files entries, Readable u file
  titled : ∀ file ∈ foldered entries, (album u entries (folderOf file)).isSome

variable (u) in
def folderKeys (entries : List MpdLibraryEntry) : List (List Char) := (grouped u entries).keys

variable {entries : List MpdLibraryEntry}

theorem mem_folderKeys : k ∈ folderKeys u entries ↔ ∃ file ∈ foldered entries, folderOf file = k :=
  Grouping.mem_keys_collect

theorem folderKeys_nodup : (folderKeys u entries).Nodup := (grouped u entries).keys_nodup

theorem lookup_grouped (h : k ∈ folderKeys u entries) :
    (grouped u entries).lookup k = some ((albumFiles entries k).foldl (ingestFile u) .empty) :=
  Grouping.lookup_collect_of_mem h

variable (u) in
/-- The albums of a listing, in no particular order. -/
def albums (entries : List MpdLibraryEntry) : List AlbumTile :=
  (folderKeys u entries).filterMap (album u entries)

variable (u) in
/-- The albums sorted by title from the order in which the map is visited. -/
def arranged (order : HashOrder (List Char)) (entries : List MpdLibraryEntry) : List AlbumTile :=
  ((order.visit [] (folderKeys u entries)).filterMap (album u entries)).insertionSort
    fun a b => titleKey u a ≤ titleKey u b

theorem arranged_perm (order : HashOrder (List Char)) :
    (arranged u order entries).Perm (albums u entries) :=
  (List.perm_insertionSort _ _).trans ((order.perm [] _).filterMap _)

theorem resolveAlbumTiles_eq_some {order : HashOrder (List Char)} :
    resolveAlbumTiles u order entries = some tiles ↔
      Sliceable u entries ∧ arranged u order entries = tiles := by
  have hentries : order.entries [] (grouped u entries) = (order.visit [] (folderKeys u entries)).map
      fun k => (k, (albumFiles entries k).foldl (ingestFile u) .empty) :=
    HashOrder.entries_eq_map (fun _ => lookup_grouped) order []
  have htile : ∀ k, albumTile u order k ((albumFiles entries k).foldl (ingestFile u) .empty) =
      album u entries k := fun k => albumTile_order order .stored k _
  have hvisit : ∀ k, k ∈ order.visit [] (folderKeys u entries) ↔ k ∈ folderKeys u entries :=
    fun k => (order.perm [] (folderKeys u entries)).mem_iff
  simp only [resolveAlbumTiles, Option.bind_eq_bind, Option.bind_eq_some_iff, foldlM_ingestEntry,
    Grouping.mapM_eq_some, Option.pure_def, Option.some.injEq]
  constructor
  · rintro ⟨_, ⟨hread, rfl⟩, _, ⟨hsome, rfl⟩, rfl⟩
    rw [hentries] at hsome ⊢
    refine ⟨⟨hread, fun file hfile => ?_⟩, ?_⟩
    · have hmem : folderOf file ∈ order.visit [] (folderKeys u entries) :=
        (hvisit _).mpr (mem_folderKeys.mpr ⟨file, hfile, rfl⟩)
      simpa [htile] using hsome _ (List.mem_map_of_mem hmem)
    · simp only [List.filterMap_map, Function.comp_def, htile, arranged]
  · rintro ⟨hslice, rfl⟩
    refine ⟨_, ⟨hslice.readable, rfl⟩, _, ⟨?_, rfl⟩, ?_⟩
    · rw [hentries]
      intro entry hentry
      obtain ⟨k, hk, rfl⟩ := List.mem_map.mp hentry
      obtain ⟨file, hfile, rfl⟩ := mem_folderKeys.mp ((hvisit k).mp hk)
      simpa [htile] using hslice.titled file hfile
    · simp only [hentries, List.filterMap_map, Function.comp_def, htile, arranged]

theorem tracks_foldl_ingestFile (files : List MpdFile) (agg : FolderAgg) :
    (files.foldl (ingestFile u) agg).tracks = agg.tracks ++ files := by
  induction files generalizing agg with
  | nil => simp
  | cons file files ih =>
    rw [List.foldl_cons, ih]
    simp [ingestFile, FolderAgg.ingest]

theorem album_eq_some (h : album u entries k = some tile) :
    tile.canonicalFolder = k ∧ tile.tracks =
      ((albumFiles entries k).map MpdFile.path).insertionSort fun a b => Text.ord a ≤ Text.ord b := by
  simp only [album, albumTile, Option.bind_eq_bind, Option.bind_eq_some_iff, Option.pure_def,
    Option.some.injEq] at h
  obtain ⟨title, -, rfl⟩ := h
  simp [tracks_foldl_ingestFile, FolderAgg.empty]

-- ---------------------------------------------------------------------------
-- The tiles as a partition
-- ---------------------------------------------------------------------------

/-- What MPD lists, with each file once. -/
structure Listing where
  entries : List MpdLibraryEntry
  distinct : ((files entries).map MpdFile.path).Nodup

/-- The file is in a directory of the music directory. -/
def InDirectory (path : List Char) : Prop :=
  ∃ dir name, dir ≠ [] ∧ name ≠ [] ∧ path = dir ++ '/' :: name

variable (u) in
/-- Every file in a directory is in one tile, once, tiles have folders of their
own and sorted tracks, and a tile's id leads back to its tracks. -/
def TilesPartition (verb : String) (entries : List MpdLibraryEntry) : Prop :=
  ∀ order : HashOrder (List Char), ∃ tiles, resolveAlbumTiles u order entries = some tiles ∧
    (∀ file ∈ files entries, InDirectory file.path →
      (tiles.flatMap AlbumTile.tracks).count file.path = 1) ∧
    (∀ tile ∈ tiles, tile.tracks.Pairwise fun a b => Text.ord a ≤ Text.ord b) ∧
    (tiles.map AlbumTile.canonicalFolder).Nodup ∧
    ∀ tile ∈ tiles, ∀ order' : HashOrder (List Char), ∃ again,
      resolveAlbumTiles u order' entries = some again ∧
        drillAlbum u verb again ⟨tile.canonicalFolder, none⟩ = .ok tile.tracks

variable (u) in
/-- The value is the folder or the title of the album in this folder. -/
def Addresses (entries : List MpdLibraryEntry) (value canonical : List Char) : Prop :=
  value ≠ [] ∧ ∃ tile, album u entries canonical = some tile ∧ matchesTile value tile

theorem mem_tracks (h : album u entries k = some tile) :
    path ∈ tile.tracks ↔ ∃ file ∈ foldered entries, folderOf file = k ∧ file.path = path := by
  rw [(album_eq_some h).2, List.mem_insertionSort]
  simp [albumFiles, and_assoc]

theorem mem_resolveAlbumTiles {order : HashOrder (List Char)}
    (h : resolveAlbumTiles u order entries = some tiles) :
    tile ∈ tiles ↔ ∃ file ∈ foldered entries, album u entries (folderOf file) = some tile := by
  obtain ⟨-, rfl⟩ := resolveAlbumTiles_eq_some.mp h
  rw [(arranged_perm order).mem_iff, albums, List.mem_filterMap]
  constructor
  · rintro ⟨k, hk, htile⟩
    obtain ⟨file, hfile, rfl⟩ := mem_folderKeys.mp hk
    exact ⟨file, hfile, htile⟩
  · rintro ⟨file, hfile, htile⟩
    exact ⟨_, mem_folderKeys.mpr ⟨file, hfile, rfl⟩, htile⟩

/-- The tracks of all tiles are the files with an album folder. -/
theorem tracks_perm {order : HashOrder (List Char)}
    (h : resolveAlbumTiles u order entries = some tiles) :
    (tiles.flatMap AlbumTile.tracks).Perm ((foldered entries).map MpdFile.path) := by
  obtain ⟨hslice, rfl⟩ := resolveAlbumTiles_eq_some.mp h
  have halbum : ∀ k ∈ folderKeys u entries,
      (((album u entries k).map AlbumTile.tracks).getD []).Perm
        ((albumFiles entries k).map MpdFile.path) := by
    intro k hk
    obtain ⟨file, hfile, rfl⟩ := mem_folderKeys.mp hk
    obtain ⟨tile, htile⟩ := Option.isSome_iff_exists.mp (hslice.titled file hfile)
    rw [htile, Option.map_some, Option.getD_some, (album_eq_some htile).2]
    exact List.perm_insertionSort _ _
  have hgroups : ((folderKeys u entries).flatMap (albumFiles entries)).Perm (foldered entries) :=
    Grouping.flatMap_groups_perm folderKeys_nodup fun file hfile =>
      mem_folderKeys.mpr ⟨file, hfile, rfl⟩
  calc (arranged u order entries).flatMap AlbumTile.tracks
    _ |>.Perm ((albums u entries).flatMap AlbumTile.tracks) := (arranged_perm order).flatMap_right _
    _ = (folderKeys u entries).flatMap fun k => ((album u entries k).map AlbumTile.tracks).getD [] :=
      Grouping.flatMap_filterMap ..
    _ |>.Perm ((folderKeys u entries).flatMap fun k => (albumFiles entries k).map MpdFile.path) :=
      .flatMap_left _ halbum
    _ = ((folderKeys u entries).flatMap (albumFiles entries)).map MpdFile.path :=
      List.map_flatMap.symm
    _ |>.Perm ((foldered entries).map MpdFile.path) := hgroups.map _

theorem map_folder_albums (hslice : Sliceable u entries) :
    (albums u entries).map AlbumTile.canonicalFolder = folderKeys u entries := by
  rw [albums, List.map_filterMap]
  refine (List.filterMap_congr fun k hk => ?_).trans List.filterMap_some
  obtain ⟨file, hfile, rfl⟩ := mem_folderKeys.mp hk
  obtain ⟨tile, htile⟩ := Option.isSome_iff_exists.mp (hslice.titled file hfile)
  rw [htile, Option.map_some, (album_eq_some htile).1]

theorem folders_nodup {order : HashOrder (List Char)}
    (h : resolveAlbumTiles u order entries = some tiles) :
    (tiles.map AlbumTile.canonicalFolder).Nodup := by
  obtain ⟨hslice, rfl⟩ := resolveAlbumTiles_eq_some.mp h
  rw [((arranged_perm order).map _).nodup_iff, map_folder_albums hslice]
  exact folderKeys_nodup

/-- An id without a parent context selects the tiles it names. -/
theorem drillAlbum_eq_ok {verb : String} {tiles : List AlbumTile} {value : List Char} :
    drillAlbum u verb tiles ⟨value, none⟩ = .ok tracks ↔
      Text.trim value ≠ [] ∧ tiles.filter (matchesTile (Text.trim value)) ≠ [] ∧
        ((tiles.filter (matchesTile (Text.trim value))).flatMap AlbumTile.tracks).eraseDups = tracks := by
  by_cases hvalue : Text.trim value = []
  · have hselector : selectorValue verb ⟨value, none⟩ =
        .error (.mpd verb (.text "browse selector value must be non-empty")) := by
      simp [selectorValue, hvalue]
    rw [drillAlbum, hselector]
    exact ⟨nofun, fun h => absurd hvalue h.1⟩
  · have hselector : selectorValue verb ⟨value, none⟩ = .ok (Text.trim value) := by
      simp [selectorValue, hvalue]
    rw [drillAlbum, hselector]
    change albumTracks u verb tiles ⟨value, none⟩ (Text.trim value) = .ok tracks ↔ _
    by_cases hfound : tiles.filter (matchesTile (Text.trim value)) = []
    · simp only [albumTracks, hfound]
      exact ⟨nofun, fun h => absurd rfl h.2.1⟩
    · simp only [albumTracks, List.isEmpty_iff, hfound, if_false]
      exact ⟨fun h => ⟨hvalue, hfound, Except.ok.inj h⟩, fun h => congrArg Except.ok h.2.2⟩

/-- Files with one path are one file, so they are in one folder. -/
theorem Listing.folder_eq (listing : Listing) (hfile : file ∈ foldered listing.entries)
    (hother : other ∈ foldered listing.entries) (hpath : file.path = other.path) : file = other :=
  List.inj_on_of_nodup_map listing.distinct (List.mem_filter.mp hfile).1
    (List.mem_filter.mp hother).1 hpath

theorem album_tracks_nodup (listing : Listing) (h : album u listing.entries k = some tile) :
    tile.tracks.Nodup := by
  rw [(album_eq_some h).2, (List.perm_insertionSort _ _).nodup_iff]
  refine listing.distinct.sublist (List.Sublist.map _ ?_)
  exact List.filter_sublist.trans List.filter_sublist

/-- A tile's id leads to its tracks exactly when it names that tile alone. -/
theorem drillAlbum_id_iff (listing : Listing) {order : HashOrder (List Char)} {verb : String}
    (h : resolveAlbumTiles u order listing.entries = some tiles)
    (hfile : file ∈ foldered listing.entries)
    (htile : album u listing.entries (folderOf file) = some tile) :
    drillAlbum u verb tiles ⟨folderOf file, none⟩ = .ok tile.tracks ↔
      ∀ other ∈ foldered listing.entries,
        Addresses u listing.entries (Text.trim (folderOf file)) (folderOf other) ↔
          folderOf other = folderOf file := by
  have hmem := fun tile => @mem_resolveAlbumTiles u _ _ tile _ h
  rw [drillAlbum_eq_ok]
  constructor
  · rintro ⟨hvalue, -, htracks⟩ other hother
    have hpath : ∀ path, path ∈ tile.tracks ↔
        ∃ found ∈ tiles, matchesTile (Text.trim (folderOf file)) found ∧ path ∈ found.tracks := by
      intro path
      rw [← htracks, List.mem_eraseDups, List.mem_flatMap]
      simp only [List.mem_filter, and_assoc]
    constructor
    · rintro ⟨-, found, hfound, hmatches⟩
      have hin := (hpath other.path).mpr ⟨found, (hmem found).mpr ⟨other, hother, hfound⟩, hmatches,
        (mem_tracks hfound).mpr ⟨other, hother, rfl, rfl⟩⟩
      obtain ⟨same, hsame, hfolder, heq⟩ := (mem_tracks htile).mp hin
      rw [← listing.folder_eq hsame hother heq, hfolder]
    · intro hfolder
      have hin := (mem_tracks htile).mpr ⟨file, hfile, rfl, rfl⟩
      obtain ⟨found, hfound, hmatches, htrack⟩ := (hpath file.path).mp hin
      obtain ⟨another, -, halbum⟩ := (hmem found).mp hfound
      obtain ⟨same, hsame, hfolder', heq⟩ := (mem_tracks halbum).mp htrack
      rw [listing.folder_eq hsame hfile heq] at hfolder'
      refine ⟨hvalue, found, ?_, hmatches⟩
      rw [hfolder, hfolder']
      exact halbum
  · intro haddress
    obtain ⟨hvalue, own, hown, hmatches⟩ := (haddress file hfile).mpr rfl
    obtain rfl : tile = own := Option.some.inj (htile.symm.trans hown)
    have hfound : tiles.filter (matchesTile (Text.trim (folderOf file))) = [tile] := by
      refine Grouping.filter_eq_singleton (List.Nodup.of_map _ (folders_nodup h))
        ((hmem tile).mpr ⟨file, hfile, htile⟩) fun other hother => ⟨fun hmatch => ?_, ?_⟩
      · obtain ⟨another, hanother, halbum⟩ := (hmem other).mp hother
        have hfolder := (haddress another hanother).mp ⟨hvalue, other, halbum, hmatch⟩
        rw [hfolder] at halbum
        exact Option.some.inj (halbum.symm.trans htile)
      · rintro rfl
        exact hmatches
    refine ⟨hvalue, ?_, ?_⟩
    · rw [hfound]
      exact List.cons_ne_nil _ _
    · rw [hfound, List.flatMap_singleton, Grouping.eraseDups_of_nodup (album_tracks_nodup listing htile)]

/-- The tiles are a partition that the ids lead back to exactly when no slice
panics, no file in a directory is left without a folder, and the id of each
album names that album alone, as a folder or as a title. -/
theorem tilesPartition_iff (verb : String) (listing : Listing) :
    TilesPartition u verb listing.entries ↔ Sliceable u listing.entries ∧
      (∀ file ∈ files listing.entries, InDirectory file.path → folderOf file ≠ []) ∧
      ∀ file ∈ foldered listing.entries, ∀ other ∈ foldered listing.entries,
        Addresses u listing.entries (Text.trim (folderOf file)) (folderOf other) ↔
          folderOf other = folderOf file := by
  constructor
  · intro h
    obtain ⟨tiles, htiles, honce, -, -, hdrill⟩ := h .stored
    have hslice := (resolveAlbumTiles_eq_some.mp htiles).1
    refine ⟨hslice, fun file hfile hdir => ?_, fun file hfile => ?_⟩
    · have hmem := List.count_pos_iff.mp (Nat.lt_of_lt_of_eq Nat.zero_lt_one (honce file hfile hdir).symm)
      obtain ⟨other, hother, hpath⟩ := List.mem_map.mp ((tracks_perm htiles).mem_iff.mp hmem)
      obtain ⟨hother, hfolder⟩ := List.mem_filter.mp hother
      rw [← List.inj_on_of_nodup_map listing.distinct hother hfile hpath]
      exact of_decide_eq_true hfolder
    · obtain ⟨tile, htile⟩ := Option.isSome_iff_exists.mp (hslice.titled file hfile)
      obtain ⟨again, hagain, hok⟩ := hdrill tile
        ((mem_resolveAlbumTiles htiles).mpr ⟨file, hfile, htile⟩) .stored
      rw [(album_eq_some htile).1] at hok
      exact (drillAlbum_id_iff listing hagain hfile htile).mp hok
  · rintro ⟨hslice, hfolder, haddress⟩ order
    have htiles := (@resolveAlbumTiles_eq_some u _ _ order).mpr ⟨hslice, rfl⟩
    refine ⟨_, htiles, fun file hfile hdir => ?_, fun tile htile => ?_, folders_nodup htiles,
      fun tile htile order' => ?_⟩
    · rw [(tracks_perm htiles).count_eq]
      refine List.count_eq_one_of_mem (listing.distinct.sublist (List.filter_sublist.map _)) ?_
      refine List.mem_map_of_mem (List.mem_filter.mpr ⟨hfile, ?_⟩)
      simpa using hfolder file hfile hdir
    · obtain ⟨file, hfile, halbum⟩ := (mem_resolveAlbumTiles htiles).mp htile
      rw [(album_eq_some halbum).2]
      exact Paging.pairwise_insertionSort_key Text.ord _
    · obtain ⟨file, hfile, halbum⟩ := (mem_resolveAlbumTiles htiles).mp htile
      have hagain := (@resolveAlbumTiles_eq_some u _ _ order').mpr ⟨hslice, rfl⟩
      refine ⟨_, hagain, ?_⟩
      rw [(album_eq_some halbum).1]
      exact (drillAlbum_id_iff listing hagain hfile halbum).mpr (haddress file hfile)

/-- Two albums, the title of one of them the folder of the other. -/
def hitsListing : Listing where
  entries :=
    [.file ⟨"Hits/a.mp3".toList, some "First".toList, none, none⟩,
      .file ⟨"Queen/b.mp3".toList, some "Hits".toList, none, none⟩]
  distinct := by decide

theorem folder_id_matches_a_title :
    ¬TilesPartition .ascii "library.browse_by_album" hitsListing.entries := by
  intro h
  obtain ⟨tiles, htiles, -, -, -, hdrill⟩ := h .stored
  have hresolve : resolveAlbumTiles .ascii .stored hitsListing.entries =
      some [⟨"Hits".toList, "First".toList, "Various Artists".toList, ["Hits/a.mp3".toList]⟩,
        ⟨"Queen".toList, "Hits".toList, "Various Artists".toList, ["Queen/b.mp3".toList]⟩] := by
    decide
  obtain rfl := Option.some.inj (hresolve.symm.trans htiles)
  obtain ⟨again, hagain, hok⟩ := hdrill _ (List.mem_cons_self ..) .stored
  obtain rfl := Option.some.inj (hresolve.symm.trans hagain)
  exact absurd (drillAlbum_eq_ok.mp hok).2.2 (by decide)

end EvoAudio.Playback
