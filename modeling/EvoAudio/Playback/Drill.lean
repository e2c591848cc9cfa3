import EvoAudio.Playback.Facets

/-!
# Enqueueing what a drill lists

A selection names a facet value, with an optional parent context. The browse
drill lists its tracks, and `enqueue_selection` adds them to the queue through
the resolver of `selection.rs`, which matches credits, parents and years on its
own. The two are compared facet by facet.
-/

namespace EvoAudio.Playback

open Grouping (HashOrder)
open Names (Unicode artistFoldKey splitArtistCredit)

variable {u : Unicode} {order order' : HashOrder (List Char)} {tagging : Tagging} {s : Session}

theorem path_mem_of_foldered {songs : List (List Char)}
    (h : file ∈ foldered (tagging.entries songs)) : file.path ∈ songs := by
  have hfile := (List.mem_filter.mp h).1
  simp only [files, Tagging.entries, List.filterMap_map, List.mem_filterMap, Function.comp_apply,
    Option.some.injEq] at hfile
  obtain ⟨song, hsong, rfl⟩ := hfile
  exact hsong

/-- The naming rules of the plugin. A panic leaves the resolver without tiles. -/
def audioNaming (u : Unicode) (order : HashOrder (List Char)) (tagging : Tagging) : Naming where
  artistFoldKey := artistFoldKey u
  splitArtistCredit := splitArtistCredit u
  resolveAlbumTiles library := (resolveAlbumTiles u order (tagging.entries library.songs)).getD []
  tracks_mem := by
    intro library tile htile track htrack
    cases hresolve : resolveAlbumTiles u order (tagging.entries library.songs) with
    | none => simp [hresolve] at htile
    | some tiles =>
      rw [hresolve, Option.getD_some, mem_resolveAlbumTiles hresolve] at htile
      obtain ⟨file, -, halbum⟩ := htile
      obtain ⟨file', hfile', -, rfl⟩ := (mem_tracks halbum).mp htrack
      exact path_mem_of_foldered hfile'

def Facet.dimension : Facet → SelectionDimension
  | .artist => .artist
  | .album => .album
  | .genre => .genre
  | .year => .year

/-- What a drill lists, nothing when it is refused. -/
def listed : Except ε (List (List Char)) → List (List Char)
  | .ok tracks => tracks
  | .error _ => []

theorem listed_mapError (r : Except ε (List (List Char))) (f : ε → δ) :
    listed (r.mapError f) = listed r := by
  cases r <;> rfl

/-- The songs that an append adds to the queue are those the drill lists. -/
def DrillAgrees (u : Unicode) (order order' : HashOrder (List Char)) (tagging : Tagging)
    (facet : Facet) (selector : BrowseSelector) (s : Session) : Prop :=
  ∀ song,
    song ∈ placed s.server.queue.nextId
      (handleEnqueueSelectionCriteria serving (audioNaming u order tagging)
        ⟨facet.dimension, selector.value, selector.parent⟩ .append s).2.server.queue ↔
    song ∈ listed (drillTracks u order' tagging serving facet selector s).1

/-- The drill takes the parent context. Only a year takes any. -/
def ParentAccepted (facet : Facet) (selector : BrowseSelector) : Prop :=
  facet = .year ∨ ∀ parent ∈ selector.parent,
    Text.trim parent.value ≠ [] ∧ (parentField parent.tag).isSome

/-- The selections and libraries for which the two agree: an artist has no song
outside the parent context, and a year that no song has as its date, within the
context, is no part of any date, while otherwise all songs with the year in the
date are in the context. -/
def DrillMeets (u : Unicode) (facet : Facet) (selector : BrowseSelector) (library : Library) : Prop :=
  let value := Text.trim selector.value
  value = [] ∨
    match facet with
    | .artist => artistFoldKey u value = [] ∨
        ∀ song ∈ creditedSongs u library none (artistFoldKey u value),
          ∀ pair ∈ parentPair selector.parent, library.finds song pair
    | .album | .genre => True
    | .year =>
      if library.find (("date", value) :: (parentPair selector.parent).toList) = [] then
        library.search [("date", value)] = []
      else
        ∀ song ∈ library.search [("date", value)],
          ∀ pair ∈ parentPair selector.parent, library.searches song pair

-- ---------------------------------------------------------------------------
-- What the append adds
-- ---------------------------------------------------------------------------

theorem mem_dedup_iff {uri : List Char} {uris : List (List Char)} : uri ∈ dedup uris ↔ uri ∈ uris := by
  refine ⟨mem_dedup, fun h => ?_⟩
  induction uris with
  | nil => exact h
  | cons first uris ih =>
    unfold dedup
    rcases List.mem_cons.mp h with rfl | h
    · split
      · simp
      next next rest hrest =>
        by_cases heq : uri = next
        · simp [heq]
        · simp [heq]
    · have hmem := ih h
      split
      next hrest =>
        rw [hrest] at hmem
        cases hmem
      next next rest hrest =>
        rw [hrest] at hmem
        split
        · exact hmem
        · exact List.mem_cons_of_mem _ hmem

theorem findEach_answers (field : MpdSearchField) (values : List (List Char)) :
    Answers (findEach serving field values) s
      (.ok (values.flatMap fun value => s.server.library.find (withinPairs field none value))) := by
  induction values generalizing s with
  | nil => exact .pure _
  | cons value values ih =>
    have hfind : Answers (find serving field value) s
        (.ok (s.server.library.find (withinPairs field none value))) :=
      ⟨s.sent (.find (withinPairs field none value)) true, rfl, rfl⟩
    refine .bind hfind fun s₁ h₁ => ?_
    refine .bind ih fun s₂ h₂ => ?_
    rw [h₁]
    exact .pure _

/-- The songs of an artist in the resolver's order, whatever the parent context. -/
def artistUris (u : Unicode) (library : Library) (key : List Char) : List (List Char) :=
  dedup ((creditedSongs u library none key).insertionSort fun a b => Text.encode a ≤ Text.encode b)

theorem mem_artistUris {library : Library} :
    song ∈ artistUris u library key ↔ song ∈ creditedSongs u library none key := by
  rw [artistUris, mem_dedup_iff, List.mem_insertionSort]

theorem resolveArtist_answers {value : List Char} (hkey : artistFoldKey u value ≠ []) :
    Answers (resolveArtist serving (audioNaming u order tagging) value) s
      (.ok (.uriList (artistUris u s.server.library (artistFoldKey u value)))) := by
  have hlist (tag : String) (s : Session) :
      Answers (listTag serving tag) s (.ok (s.server.library.values tag)) :=
    ⟨s.sent (.listTag tag) true, rfl, rfl⟩
  have hkey' : ((audioNaming u order tagging).artistFoldKey value).isEmpty = false := by
    simpa [audioNaming] using hkey
  unfold resolveArtist
  dsimp only
  rw [hkey', if_neg Bool.false_ne_true]
  refine .bind (hlist "albumartist" s) fun s₁ h₁ => ?_
  refine .bind (hlist "artist" s₁) fun s₂ h₂ => ?_
  refine .bind (findEach_answers .albumArtist _) fun s₃ h₃ => ?_
  refine .bind (findEach_answers .artist _) fun s₄ h₄ => ?_
  rw [h₃, h₂, h₁]
  exact .pure _

/-- The key of the parent artist that an album selection is narrowed to. -/
def parentFold (u : Unicode) (parent : Option SelectionParent) : Option (List Char) :=
  parent.bind fun parent =>
    let tag := (Text.trim parent.tag).map Char.toLower
    if tag = "albumartist".toList ∨ tag = "artist".toList then some (artistFoldKey u parent.value)
    else none

/-- The tiles a value names, of one artist when there is a key. -/
def chosenTiles (u : Unicode) (tiles : List AlbumTile) (value key : List Char) : List AlbumTile :=
  tiles.filter fun tile =>
    matchesTile value tile && (key.isEmpty || artistFoldKey u tile.displayArtist == key)

theorem chosenTiles_parent (tiles : List AlbumTile) (value : List Char)
    (parent : Option SelectionParent) :
    chosenTiles u tiles value ((parentFold u parent).getD []) =
      tiles.filter fun tile => matchesTile value tile &&
        match parentFold u parent with
        | some key => key.isEmpty || artistFoldKey u tile.displayArtist == key
        | none => true := by
  unfold chosenTiles
  cases parentFold u parent <;> rfl

theorem resolveAlbum_answers (value : List Char) (parent : Option SelectionParent) :
    Answers (resolveAlbum serving (audioNaming u order tagging) value parent) s
      (.ok (.uriList ((chosenTiles u
        ((resolveAlbumTiles u order (tagging.entries s.server.library.songs)).getD []) value
        ((parentFold u parent).getD [])).flatMap AlbumTile.tracks))) := by
  rw [chosenTiles_parent]
  exact ⟨s.sent (.listallinfo []) true, rfl, rfl⟩

/-- The songs that are added are those the resolved selection offers. -/
theorem mem_placed_iff {naming : Naming} {criteria : SelectionCriteria}
    (h : Answers (resolve serving naming criteria) s (.ok resolved)) (song : List Char) :
    song ∈ placed s.server.queue.nextId
        (handleEnqueueSelectionCriteria serving naming criteria .append s).2.server.queue ↔
      song ∈ offered s.server.library criteria.dimension resolved .append := by
  obtain ⟨s', hrun, hserver⟩ := h
  have hresolves := ((resolve_run serving naming criteria s).ok hrun).1
  have hgains := handleEnqueueSelectionCriteria_gains hrun hserver hresolves.searchable .append
    (Nat.le_refl _) (placed_fresh _)
  rw [hgains.placed.mem_iff, placed_fresh, List.append_nil]

theorem mem_offered_uriList {library : Library} {dimension : SelectionDimension}
    (hdimension : dimension ≠ .folder) {uris : List (List Char)}
    (h : ∀ uri ∈ uris, uri ∈ library.songs) (song : List Char) :
    song ∈ offered library dimension (.uriList uris) .append ↔ song ∈ uris := by
  have hadded := @added_playable uris library (fun uri huri => Library.playable_song (h uri huri)) []
  rw [List.append_nil] at hadded
  rw [(offered_list library dimension hdimension uris).1, hadded]
  simp [added]

-- ---------------------------------------------------------------------------
-- Facet by facet
-- ---------------------------------------------------------------------------

theorem parentField_name {tag : List Char} :
    (parentField tag).map MpdSearchField.asProtocolStr = parentFilterTag tag := by
  simp only [parentField, parentFilterTag]
  split_ifs <;> rfl

/-- An accepted parent is the same pair for the drill and for the resolver. -/
theorem buildParentField_of_accepted {verb : String} {selector : BrowseSelector}
    (h : ∀ parent ∈ selector.parent, Text.trim parent.value ≠ [] ∧ (parentField parent.tag).isSome) :
    ∃ parent, buildParentField verb selector = .ok parent ∧
      parentPair selector.parent = parent.map fun pair => (pair.1.asProtocolStr, pair.2) := by
  cases hparent : selector.parent with
  | none => exact ⟨none, by rw [buildParentField, hparent], rfl⟩
  | some parent =>
    obtain ⟨hvalue, hfield⟩ := h parent hparent
    obtain ⟨field, hfield⟩ := Option.isSome_iff_exists.mp hfield
    have htag : parentFilterTag parent.tag = some field.asProtocolStr := by
      rw [← parentField_name, hfield]
      rfl
    refine ⟨some (field, Text.trim parent.value), ?_, ?_⟩
    · simp [buildParentField, hparent, hvalue, hfield]
    · have hblank : (Text.trim parent.value).isEmpty = false := by simpa using hvalue
      simp only [parentPair, htag, hblank]
      rfl

theorem drillTracks_blank {facet : Facet} {selector : BrowseSelector}
    (h : Text.trim selector.value = []) :
    listed (drillTracks u order tagging serving facet selector s).1 = [] := by
  have hvalue : selectorValue facet.verb selector =
      .error (.mpd facet.verb (.text "browse selector value must be non-empty")) := by
    simp [selectorValue, h]
  obtain ⟨s', hrun, -⟩ : Answers (drillTracks u order tagging serving facet selector) s _ :=
    .bind_error (orRefuse_error hvalue)
  rw [hrun]
  rfl

section Agreement

variable {selector : BrowseSelector}

theorem selectorValue_ok (hvalue : Text.trim selector.value ≠ []) (verb : String) :
    selectorValue verb selector = .ok (Text.trim selector.value) := by
  simp [selectorValue, hvalue]

theorem resolve_of_ne {naming : Naming} {dimension : SelectionDimension}
    (hvalue : Text.trim selector.value ≠ []) :
    resolve serving naming ⟨dimension, selector.value, selector.parent⟩ =
      match dimension with
      | .artist => resolveArtist serving naming (Text.trim selector.value)
      | .genre => return buildFilter "genre" (Text.trim selector.value) selector.parent false
      | .year => return buildFilter "date" (Text.trim selector.value) selector.parent true
      | .album => resolveAlbum serving naming (Text.trim selector.value) selector.parent
      | .folder => return .uriList [Text.trim selector.value]
      | .playlist => do
        let entries ← listplaylistinfo serving (Text.trim selector.value)
        return .uriList entries := by
  unfold resolve
  dsimp only
  refine (if_neg (by simpa using hvalue)).trans ?_
  cases dimension <;> rfl

theorem agrees_blank {facet : Facet} (h : Text.trim selector.value = []) :
    DrillAgrees u order order' tagging facet selector s := by
  have hresolve : Answers (resolve serving (audioNaming u order tagging)
      ⟨facet.dimension, selector.value, selector.parent⟩) s (.ok (.uriList [])) := by
    unfold resolve
    dsimp only
    rw [h]
    exact .pure _
  intro song
  rw [mem_placed_iff hresolve, drillTracks_blank h]
  simp [offered, vacant]

variable (hvalue : Text.trim selector.value ≠ [])
include hvalue

theorem agrees_artist (hparent : ParentAccepted .artist selector) :
    DrillAgrees u order order' tagging .artist selector s ↔
      artistFoldKey u (Text.trim selector.value) = [] ∨
        ∀ song ∈ creditedSongs u s.server.library none (artistFoldKey u (Text.trim selector.value)),
          ∀ pair ∈ parentPair selector.parent, s.server.library.finds song pair := by
  obtain ⟨parent, hbuild, hpair⟩ := @buildParentField_of_accepted Facet.artist.verb selector
    (hparent.resolve_left (by decide))
  by_cases hkey : artistFoldKey u (Text.trim selector.value) = []
  · refine iff_of_true (fun song => ?_) (.inl hkey)
    have hresolve : Answers (resolve serving (audioNaming u order tagging)
        ⟨.artist, selector.value, selector.parent⟩) s (.ok (.uriList [])) := by
      rw [resolve_of_ne hvalue]
      exact ⟨s, by simp [resolveArtist, audioNaming, hkey], rfl⟩
    obtain ⟨s', hdrill, -⟩ : Answers (drillTracks u order' tagging serving .artist selector) s
        (.error (.verb (.mpd Facet.artist.verb
          (.text "browse selector value did not fold to a match key")))) := by
      refine .bind (orRefuse_ok (selectorValue_ok hvalue _)) fun s' h' => ?_
      exact ⟨s', by simp [drillArtist, hkey], rfl⟩
    rw [hdrill]
    refine (mem_placed_iff hresolve song).trans ?_
    simp [offered, vacant, listed]
  · have hresolve : Answers (resolve serving (audioNaming u order tagging)
        ⟨.artist, selector.value, selector.parent⟩) s (.ok (.uriList
          (artistUris u s.server.library (artistFoldKey u (Text.trim selector.value))))) := by
      rw [resolve_of_ne hvalue]
      exact resolveArtist_answers hkey
    obtain ⟨s', hdrill, -⟩ : Answers (drillTracks u order' tagging serving .artist selector) s
        (.ok (creditedSongs u s.server.library parent
          (artistFoldKey u (Text.trim selector.value))).eraseDups) := by
      refine .bind (orRefuse_ok (selectorValue_ok hvalue _)) fun s' h' => ?_
      rw [← h']
      exact drillArtist_answers hkey hbuild
    have hsongs : ∀ song, song ∈ placed s.server.queue.nextId
        (handleEnqueueSelectionCriteria serving (audioNaming u order tagging)
          ⟨.artist, selector.value, selector.parent⟩ .append s).2.server.queue ↔
        song ∈ creditedSongs u s.server.library none
          (artistFoldKey u (Text.trim selector.value)) := by
      intro song
      refine (mem_placed_iff hresolve song).trans ((mem_offered_uriList
        (show SelectionDimension.artist ≠ .folder by decide) ?_ song).trans
        mem_artistUris)
      exact fun uri huri => (mem_creditedSongs.mp (mem_artistUris.mp huri)).1
    have hdrilled : ∀ song, song ∈ listed
        (drillTracks u order' tagging serving .artist selector s).1 ↔
        song ∈ creditedSongs u s.server.library none (artistFoldKey u (Text.trim selector.value)) ∧
          ∀ pair ∈ parentPair selector.parent, s.server.library.finds song pair := by
      intro song
      rw [hdrill, listed, List.mem_eraseDups, mem_creditedSongs, mem_creditedSongs, hpair]
      constructor
      · rintro ⟨hsong, hin, hcredit⟩
        refine ⟨⟨hsong, by simp, hcredit⟩, fun _ hmem => ?_⟩
        obtain ⟨pair, hparent, rfl⟩ := Option.map_eq_some_iff.mp hmem
        exact hin pair hparent
      · rintro ⟨⟨hsong, -, hcredit⟩, hin⟩
        exact ⟨hsong, fun pair hmem => hin _ (Option.map_eq_some_iff.mpr ⟨pair, hmem, rfl⟩), hcredit⟩
    simp only [hkey, false_or]
    constructor
    · intro h song hsong
      exact ((hdrilled song).mp ((h song).mp ((hsongs song).mpr hsong))).2
    · intro h song
      exact ((hsongs song).trans ⟨fun hsong => ⟨hsong, h song hsong⟩, And.left⟩).trans
        (hdrilled song).symm

theorem agrees_genre (hparent : ParentAccepted .genre selector) :
    DrillAgrees u order order' tagging .genre selector s := by
  obtain ⟨parent, hbuild, hpair⟩ := @buildParentField_of_accepted Facet.genre.verb selector
    (hparent.resolve_left nofun)
  have hresolve : Answers (resolve serving (audioNaming u order tagging)
      ⟨.genre, selector.value, selector.parent⟩) s
      (.ok (buildFilter "genre" (Text.trim selector.value) selector.parent false)) := by
    rw [resolve_of_ne hvalue]
    exact .pure _
  obtain ⟨s', hdrill, -⟩ : Answers (drillTracks u order' tagging serving .genre selector) s
      (.ok (s.server.library.find (withinPairs .genre parent (Text.trim selector.value)))) := by
    refine .bind (orRefuse_ok (selectorValue_ok hvalue _)) fun s₁ h₁ => ?_
    refine .bind (orRefuse_ok hbuild) fun s₂ h₂ => ?_
    rw [← h₁, ← h₂]
    exact findWithin_answers ..
  intro song
  have hpairs : ("genre", Text.trim selector.value) :: (parentPair selector.parent).toList =
      withinPairs .genre parent (Text.trim selector.value) := by
    rw [hpair]
    rfl
  rw [hdrill]
  refine (mem_placed_iff hresolve song).trans ?_
  rw [buildFilter, hpairs, listed, offered, vacant]
  split
  next hnone =>
    rw [beq_iff_eq, List.length_eq_zero_iff] at hnone
    rw [hnone]
  · rfl

theorem agrees_year :
    DrillAgrees u order order' tagging .year selector s ↔
      if s.server.library.find (("date", Text.trim selector.value) ::
          (parentPair selector.parent).toList) = [] then
        s.server.library.search [("date", Text.trim selector.value)] = []
      else
        ∀ song ∈ s.server.library.search [("date", Text.trim selector.value)],
          ∀ pair ∈ parentPair selector.parent, s.server.library.searches song pair := by
  have hresolve : Answers (resolve serving (audioNaming u order tagging)
      ⟨.year, selector.value, selector.parent⟩) s
      (.ok (buildFilter "date" (Text.trim selector.value) selector.parent true)) := by
    rw [resolve_of_ne hvalue]
    exact .pure _
  obtain ⟨s', hdrill, -⟩ : Answers (drillTracks u order' tagging serving .year selector) s
      (.ok (s.server.library.search [("date", Text.trim selector.value)])) := by
    refine .bind (orRefuse_ok (selectorValue_ok hvalue _)) fun s₁ h₁ => ?_
    rw [← h₁]
    exact ⟨s₁.sent (.search [("date", Text.trim selector.value)]) true, rfl, rfl⟩
  have hagrees : DrillAgrees u order order' tagging .year selector s ↔ ∀ song,
      song ∈ offered s.server.library .year
        (buildFilter "date" (Text.trim selector.value) selector.parent true) .append ↔
      song ∈ s.server.library.search [("date", Text.trim selector.value)] := by
    refine forall_congr' fun song => ?_
    rw [hdrill]
    exact iff_congr (mem_placed_iff hresolve song) .rfl
  rw [hagrees, buildFilter, (offered_filter_search ..).1]
  split
  · simp only [List.not_mem_nil, false_iff]
    exact List.eq_nil_iff_forall_not_mem.symm
  · have hsearch : ∀ song, song ∈ s.server.library.search
        (("date", Text.trim selector.value) :: (parentPair selector.parent).toList) ↔
        song ∈ s.server.library.search [("date", Text.trim selector.value)] ∧
          ∀ pair ∈ parentPair selector.parent, s.server.library.searches song pair := by
      intro song
      cases parentPair selector.parent <;> simp [Library.search, and_assoc]
    refine forall_congr' fun song => ?_
    rw [hsearch]
    exact and_iff_left_iff_imp

omit hvalue in
theorem parentArtistKey_of_build {verb : String} (h : buildParentField verb selector = .ok parent) :
    parentArtistKey u parent = (parentFold u selector.parent).getD [] := by
  unfold buildParentField at h
  split at h
  next hnone =>
    cases h
    rw [hnone]
    rfl
  next given hsome =>
    rw [hsome]
    split at h
    · cases h
    · split at h
      next field hfield =>
        cases h
        simp only [parentField] at hfield
        simp only [parentFold, Option.bind_some]
        split_ifs at hfield <;> cases hfield <;> simp [*, parentArtistKey]
      · cases h

omit hvalue in
/-- The album part of a drill lists the tracks of the chosen tiles. -/
theorem mem_albumTracks {verb : String} {tiles : List AlbumTile} {value : List Char}
    (hbuild : buildParentField verb selector = .ok parent) (song : List Char) :
    song ∈ listed (albumTracks u verb tiles selector value) ↔
      song ∈ (chosenTiles u tiles value ((parentFold u selector.parent).getD [])).flatMap
        AlbumTile.tracks := by
  rw [← parentArtistKey_of_build hbuild]
  by_cases hfound : tiles.filter (matchesTile value) = []
  · have hchosen : chosenTiles u tiles value (parentArtistKey u parent) = [] := by
      rw [List.filter_eq_nil_iff] at hfound
      rw [chosenTiles, List.filter_eq_nil_iff]
      intro tile htile hmatch
      exact hfound tile htile (Bool.and_eq_true_iff.mp hmatch).1
    rw [albumTracks, hfound, hchosen]
    rfl
  · have hchosen : (if parentArtistKey u parent = [] then tiles.filter (matchesTile value)
        else (tiles.filter (matchesTile value)).filter fun tile =>
          artistFoldKey u tile.displayArtist == parentArtistKey u parent) =
        chosenTiles u tiles value (parentArtistKey u parent) := by
      unfold chosenTiles
      split
      next hempty => simp [hempty]
      next hkey =>
        have hkey' : (parentArtistKey u parent).isEmpty = false := by simpa using hkey
        simp [hkey', List.filter_filter, Bool.and_comm]
    have htracks : albumTracks u verb tiles selector value =
        .ok ((chosenTiles u tiles value (parentArtistKey u parent)).flatMap
          AlbumTile.tracks).eraseDups := by
      simp only [albumTracks, List.isEmpty_iff, hfound, if_false, hbuild]
      rw [← hchosen]
      rfl
    rw [htracks, listed, List.mem_eraseDups]

theorem agrees_album (hparent : ParentAccepted .album selector) :
    DrillAgrees u order order' tagging .album selector s := by
  obtain ⟨parent, hbuild, -⟩ := @buildParentField_of_accepted Facet.album.verb selector
    (hparent.resolve_left nofun)
  have hresolve : Answers (resolve serving (audioNaming u order tagging)
      ⟨.album, selector.value, selector.parent⟩) s (.ok (.uriList ((chosenTiles u
        ((resolveAlbumTiles u order (tagging.entries s.server.library.songs)).getD [])
        (Text.trim selector.value)
        ((parentFold u selector.parent).getD [])).flatMap AlbumTile.tracks))) := by
    rw [resolve_of_ne hvalue]
    exact resolveAlbum_answers ..
  intro song
  refine (mem_placed_iff hresolve song).trans ?_
  cases htiles : resolveAlbumTiles u order' (tagging.entries s.server.library.songs) with
  | none =>
    have hnone : resolveAlbumTiles u order (tagging.entries s.server.library.songs) = none := by
      rw [Option.eq_none_iff_forall_ne_some] at htiles ⊢
      intro tiles h
      exact htiles _ (resolveAlbumTiles_eq_some.mpr ⟨(resolveAlbumTiles_eq_some.mp h).1, rfl⟩)
    obtain ⟨s', hdrill, -⟩ : Answers (drillTracks u order' tagging serving .album selector) s
        (.error .panic) := by
      refine .bind (orRefuse_ok (selectorValue_ok hvalue _)) fun s' h' => ?_
      exact .bind_error (albumTiles_panic (h' ▸ htiles))
    rw [hdrill, hnone]
    simp [offered, vacant, chosenTiles, listed]
  | some tiles =>
    have hslice := (resolveAlbumTiles_eq_some.mp htiles).1
    have htiles' := (@resolveAlbumTiles_eq_some u _ _ order).mpr ⟨hslice, rfl⟩
    have hsame : ∀ tile, tile ∈ arranged u order (tagging.entries s.server.library.songs) ↔
        tile ∈ tiles := fun tile => (mem_resolveAlbumTiles htiles').trans
      (mem_resolveAlbumTiles htiles).symm
    obtain ⟨s', hdrill, -⟩ : Answers (drillTracks u order' tagging serving .album selector) s
        ((albumTracks u Facet.album.verb tiles selector (Text.trim selector.value)).mapError
          .verb) := by
      refine .bind (orRefuse_ok (selectorValue_ok hvalue _)) fun s' h' => ?_
      exact .bind (albumTiles_answers (h' ▸ htiles)) fun s'' h'' => orRefuse_answers _
    rw [hdrill, listed_mapError, mem_albumTracks hbuild, htiles', Option.getD_some]
    refine (mem_offered_uriList (show SelectionDimension.album ≠ .folder by decide) ?_ song).trans ?_
    · intro uri huri
      obtain ⟨tile, htile, htrack⟩ := List.mem_flatMap.mp huri
      obtain ⟨file, -, halbum⟩ := (mem_resolveAlbumTiles htiles').mp (List.mem_filter.mp htile).1
      obtain ⟨file', hfile', -, rfl⟩ := (mem_tracks halbum).mp htrack
      exact path_mem_of_foldered hfile'
    · simp only [List.mem_flatMap, chosenTiles, List.mem_filter, hsame]

end Agreement

/-- For every selection with a parent context that both take, the append adds
what the drill lists exactly when the condition of its facet is met. -/
theorem drill_agrees_iff (u : Unicode) (order order' : HashOrder (List Char)) (tagging : Tagging)
    (facet : Facet) (selector : BrowseSelector) (s : Session)
    (hparent : ParentAccepted facet selector) :
    DrillAgrees u order order' tagging facet selector s ↔
      DrillMeets u facet selector s.server.library := by
  unfold DrillMeets
  by_cases hvalue : Text.trim selector.value = []
  · exact iff_of_true (agrees_blank hvalue) (.inl hvalue)
  · simp only [hvalue, false_or]
    cases facet with
    | artist => exact agrees_artist hvalue hparent
    | album => exact iff_of_true (agrees_album hvalue hparent) trivial
    | genre => exact iff_of_true (agrees_genre hvalue hparent) trivial
    | year => exact agrees_year hvalue

/-- A song that is dated by the day, not by the year alone. -/
def datedTags (_ : List Char) (tag : String) : List (List Char) :=
  if tag = "date" then ["1996-05-13".toList] else []

def datedSession : Session :=
  ⟨.idle (.tagged ["a.mp3".toList] datedTags (by decide) (by decide) (by decide)), none, []⟩

theorem year_is_listed_but_not_enqueued :
    ¬DrillAgrees .ascii .stored .stored untagged .year ⟨"1996".toList, none⟩ datedSession := by
  intro h
  exact absurd ((h "a.mp3".toList).mpr (by decide)) (by decide)

theorem drill_agrees_iff_day :
    ParentAccepted .year ⟨"1996-05-13".toList, none⟩ ∧
      (DrillAgrees .ascii .stored .stored untagged .year ⟨"1996-05-13".toList, none⟩ datedSession ↔
        DrillMeets .ascii .year ⟨"1996-05-13".toList, none⟩ datedSession.server.library) :=
  ⟨.inl rfl, drill_agrees_iff .ascii .stored .stored untagged .year ⟨"1996-05-13".toList, none⟩
    datedSession (.inl rfl)⟩

end EvoAudio.Playback
