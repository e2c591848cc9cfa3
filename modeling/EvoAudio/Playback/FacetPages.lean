import EvoAudio.Playback.Facets

/-!
# Following the pages of a facet

A client asks for page 0 and then for every `next_page`. Each request sorts a
listing of its own, from hash maps of its own, by a key that several tiles can
share: what is on which page can change from request to request.
-/

namespace EvoAudio.Playback

open Grouping (HashOrder)
open Names (Unicode artistFoldKey)
open Paging (Arranges Separated collected pageCount)

/-- The entries of all pages from one on, `none` if they did not end within so
many requests. `request i` is the request made after `i` others. -/
def follow (request : Nat → Nat → Procedure Session Fault BrowsePage) :
    Nat → Nat → Nat → Procedure Session Fault (Option (List BrowseEntry))
  | 0, _, _ => return none
  | fuel + 1, i, page => do
    let envelope ← request i page
    match envelope.nextPage with
    | none => return some envelope.entries
    | some next => do
      let rest ← follow request fuel (i + 1) next
      return rest.map (envelope.entries ++ ·)

/-- The pages of a facet, with the maps of each request in an order of its own. -/
def followFacet (u : Unicode) (tagging : Tagging) (orders : Nat → HashOrder (List Char))
    (pageSize : Option Nat) (facet : Facet) (fuel : Nat) :=
  follow (fun i page => handleBrowseByTag u (orders i) tagging serving facet
    ⟨libraryPayloadVersion, some page, pageSize, none⟩) fuel 0 0

theorem clampedSize_pos (pageSize : Option Nat) : 0 < clampedSize pageSize := by
  unfold clampedSize browseHardCap
  omega

-- ---------------------------------------------------------------------------
-- Pages of listings of one length
-- ---------------------------------------------------------------------------

theorem paginate_eq (full : List α) (i : Nat) (hsize : 0 < size) :
    paginate full (i * size) size = (Paging.page size full i,
      if (i + 1) * size < full.length then some (i + 1) else none,
      decide ((i + 1) * size < full.length)) := by
  have hend : (i + 1) * size = i * size + size := Nat.succ_mul i size
  unfold paginate
  split
  next hpast =>
    have hpage : Paging.page size full i = [] := by
      rw [Paging.page, List.drop_of_length_le hpast, List.take_nil]
    have hlast : ¬(i + 1) * size < full.length := by omega
    simp [hpage, hlast]
  next hin =>
    have hmore : min (i * size + size) full.length < full.length ↔
        (i + 1) * size < full.length := by omega
    have hslice : (full.drop (i * size)).take (min (i * size + size) full.length - i * size) =
        Paging.page size full i := by
      rw [Paging.page, List.take_eq_take_iff, List.length_drop]
      omega
    simp only [hmore, hslice, Nat.mul_div_cancel i hsize, decide_eq_true_eq]

section Follow

variable {request : Nat → Nat → Procedure Session Fault BrowsePage} {s : Session}
  {rendered : Nat → List BrowseEntry} {pageSize : Option Nat} {total : Nat}

/-- Listings of one length are followed to their last page, and what is read is
what the pages of the listings hold. -/
theorem follow_answers (hrequest : ∀ i page s', s'.server = s.server → Answers (request i page) s'
      (.ok (renderPage ⟨libraryPayloadVersion, some page, pageSize, none⟩ (rendered i))))
    (htotal : ∀ i, (rendered i).length = total) (fuel i : Nat)
    (hi : i < pageCount (clampedSize pageSize) total) {s' : Session} (hs' : s'.server = s.server) :
    ∃ r, Answers (follow request fuel i i) s' (.ok r) ∧
      (r.isSome ↔ pageCount (clampedSize pageSize) total ≤ i + fuel) ∧
      ∀ entries, r = some entries → collected (clampedSize pageSize) rendered i ++ entries =
        collected (clampedSize pageSize) rendered (pageCount (clampedSize pageSize) total) := by
  have hsize := clampedSize_pos pageSize
  have hall := Paging.le_pageCount_mul hsize total
  induction fuel generalizing i s' with
  | zero =>
    refine ⟨none, .pure none, ?_, nofun⟩
    simpa using hi
  | succ fuel ih =>
    have hpage : renderPage ⟨libraryPayloadVersion, some i, pageSize, none⟩ (rendered i) =
        { entries := Paging.page (clampedSize pageSize) (rendered i) i, page := i
          pageSize := clampedSize pageSize, total
          truncated := decide ((i + 1) * clampedSize pageSize < total)
          nextPage := if (i + 1) * clampedSize pageSize < total then some (i + 1) else none } := by
      have h := paginate_eq (rendered i) i hsize
      rw [htotal] at h
      simp only [renderPage, Option.getD_some, htotal, h]
    have hfirst := hrequest i i s' hs'
    rw [hpage] at hfirst
    by_cases hmore : (i + 1) * clampedSize pageSize < total
    · have hnext : i + 1 < pageCount (clampedSize pageSize) total := by
        by_contra hlast
        have := Nat.mul_le_mul_right (clampedSize pageSize) (Nat.not_lt.mp hlast)
        omega
      rw [if_pos hmore] at hfirst
      -- The rest is read in the session the first page leaves.
      obtain ⟨s₁, hrun, hs₁⟩ := hfirst
      obtain ⟨r, ⟨s₂, hrest, hs₂⟩, hsome, hentries⟩ := ih (i + 1) hnext (hs₁.trans hs')
      refine ⟨r.map (Paging.page (clampedSize pageSize) (rendered i) i ++ ·),
        ⟨s₂, ?_, hs₂.trans hs₁⟩, ?_, ?_⟩
      · rw [follow, Procedure.run_bind_ok hrun]
        dsimp only
        rw [Procedure.run_bind_ok hrest]
        rfl
      · rw [Option.isSome_map, hsome]
        omega
      · intro entries hr
        obtain ⟨rest, rfl, rfl⟩ := Option.map_eq_some_iff.mp hr
        rw [← List.append_assoc]
        exact hentries rest rfl
    · have hlast : pageCount (clampedSize pageSize) total = i + 1 := by
        rcases Nat.lt_or_ge (i + 1) (pageCount (clampedSize pageSize) total) with h | h
        · exact absurd (Paging.mul_lt_of_lt_pageCount hsize h) hmore
        · omega
      rw [if_neg hmore] at hfirst
      refine ⟨some _, .bind hfirst fun _ _ => .pure _, ?_, ?_⟩
      · simp only [Option.isSome_some, hlast, true_iff]
        omega
      · rintro _ ⟨⟩
        rw [hlast]
        rfl

/-- Following the pages ends, and the entries read are these, exactly when the
pages of the listings hold them. -/
theorem exists_follow_iff {P : List BrowseEntry → Prop}
    (hrequest : ∀ i page s', s'.server = s.server → Answers (request i page) s'
      (.ok (renderPage ⟨libraryPayloadVersion, some page, pageSize, none⟩ (rendered i))))
    (htotal : ∀ i, (rendered i).length = total) :
    (∃ fuel entries, Answers (follow request fuel 0 0) s (.ok (some entries)) ∧ P entries) ↔
      P (collected (clampedSize pageSize) rendered (pageCount (clampedSize pageSize) total)) := by
  have hpages : 0 < pageCount (clampedSize pageSize) total := Nat.succ_pos _
  constructor
  · rintro ⟨fuel, entries, hfollow, hentries⟩
    obtain ⟨r, hr, -, hcollected⟩ := follow_answers hrequest htotal fuel 0 hpages rfl
    obtain rfl := Except.ok.inj (hr.unique hfollow)
    rw [← hcollected entries rfl]
    exact hentries
  · intro h
    obtain ⟨r, hr, hsome, hcollected⟩ := follow_answers hrequest htotal
      (pageCount (clampedSize pageSize) total) 0 hpages rfl
    obtain ⟨entries, rfl⟩ := Option.isSome_iff_exists.mp (hsome.mpr (by simp))
    refine ⟨_, entries, hr, ?_⟩
    rw [← hcollected entries rfl] at h
    exact h

end Follow

section Complete

variable {u : Unicode} {tagging : Tagging} {s : Session} {facet : Facet} {pageSize : Option Nat}

/-- Tiles are compared by what tells them apart. -/
theorem follow_complete_iff {α ι : Type} {entry : α → BrowseEntry}
    (hentry : Function.Injective entry) (key : α → ι) {items : List ι}
    {made : HashOrder (List Char) → List α} (hmade : ∀ order, ((made order).map key).Perm items)
    (hrequest : ∀ order payload s', s'.server = s.server → payload.v = libraryPayloadVersion →
      payload.select = none → Answers (handleBrowseByTag u order tagging serving facet payload) s'
        (.ok (renderPage payload ((made order).map entry)))) :
    (∀ orders, ∃ fuel, ∃ tiles : List α, Answers (followFacet u tagging orders pageSize facet fuel) s
        (.ok (some (tiles.map entry))) ∧ (tiles.map key).Perm items) ↔
      ∀ orders : Nat → HashOrder (List Char),
        (collected (clampedSize pageSize) (fun i => (made (orders i)).map key)
          (pageCount (clampedSize pageSize) items.length)).Perm items := by
  refine forall_congr' fun orders => ?_
  have hlength : ∀ i, ((made (orders i)).map entry).length = items.length := by
    intro i
    have h := (hmade (orders i)).length_eq
    rwa [List.length_map] at h ⊢
  have hfollow := exists_follow_iff (P := fun out => ∃ tiles : List α, out = tiles.map entry ∧
      (tiles.map key).Perm items)
    (fun i page s' hs' => hrequest (orders i) ⟨libraryPayloadVersion, some page, pageSize, none⟩ s'
      hs' rfl rfl) hlength
  rw [Paging.collected_map] at hfollow
  rw [Paging.collected_map]
  constructor
  · rintro ⟨fuel, tiles, hrun, hperm⟩
    obtain ⟨tiles', heq, hperm'⟩ := hfollow.mp ⟨fuel, _, hrun, tiles, rfl, hperm⟩
    rw [List.map_injective_iff.mpr hentry heq]
    exact hperm'
  · intro hperm
    obtain ⟨fuel, _, hrun, tiles, rfl, hperm'⟩ := hfollow.mpr ⟨_, rfl, hperm⟩
    exact ⟨fuel, tiles, hrun, hperm'⟩

end Complete

-- ---------------------------------------------------------------------------
-- Albums
-- ---------------------------------------------------------------------------

section Albums

variable {u : Unicode} {entries : List MpdLibraryEntry}

variable (u) in
/-- Every album has one key to be sorted by. -/
def TitleCandidate (tile : AlbumTile) (key : List Nat ×ₗ List Nat) : Prop := key = titleKey u tile

/-- The requests can come out in every order that sorts the titles, and in no
other. -/
theorem arranges_albums_iff (hslice : Sliceable u entries) :
    Arranges (TitleCandidate u) (albums u entries) l ↔ ∃ order, arranged u order entries = l := by
  constructor
  · rintro ⟨key, hkey, hperm, hsorted⟩
    have hfolders : (l.map AlbumTile.canonicalFolder).Perm (folderKeys u entries) := by
      rw [← map_folder_albums hslice]
      exact hperm.map _
    have halbum : ∀ tile ∈ l, album u entries tile.canonicalFolder = some tile := by
      intro tile htile
      obtain ⟨k, -, hk⟩ := List.mem_filterMap.mp (hperm.mem_iff.mp htile)
      rw [(album_eq_some hk).1, hk]
    have hvisit : ((l.map AlbumTile.canonicalFolder).filterMap (album u entries)) = l := by
      rw [List.filterMap_map]
      exact (List.filterMap_congr halbum).trans List.filterMap_some
    refine ⟨.placing fun _ => l.map AlbumTile.canonicalFolder, ?_⟩
    rw [arranged, HashOrder.visit_placing hfolders, hvisit]
    refine List.Pairwise.insertionSort_eq (hsorted.imp_of_mem fun {a b} ha hb hle => ?_)
    rwa [hkey a (hperm.mem_iff.mp ha), hkey b (hperm.mem_iff.mp hb)] at hle
  · rintro ⟨order, rfl⟩
    exact ⟨titleKey u, fun _ _ => rfl, arranged_perm order, Paging.pairwise_insertionSort_key _ _⟩

theorem albums_nodup (hslice : Sliceable u entries) : (albums u entries).Nodup := by
  refine List.Nodup.of_map AlbumTile.canonicalFolder ?_
  rw [map_folder_albums hslice]
  exact folderKeys_nodup

variable (u) in
/-- Following the pages of the albums ends and yields every album once, whatever
the order of the maps in each request. -/
def AlbumPagesComplete (tagging : Tagging) (pageSize : Option Nat) (s : Session) : Prop :=
  ∀ orders, ∃ fuel, ∃ tiles : List AlbumTile,
    Answers (followFacet u tagging orders pageSize .album fuel) s (.ok (some (tiles.map .album))) ∧
      tiles.Perm (albums u (tagging.entries s.server.library.songs))

variable {tagging : Tagging} {s : Session} {pageSize : Option Nat}

theorem albumPage_answers {order : HashOrder (List Char)} {payload : BrowseByTagPayload}
    (hslice : Sliceable u (tagging.entries s.server.library.songs))
    (hv : payload.v = libraryPayloadVersion) (hselect : payload.select = none) :
    Answers (handleBrowseByTag u order tagging serving .album payload) s
      (.ok (renderPage payload
        ((arranged u order (tagging.entries s.server.library.songs)).map .album))) := by
  have hresolve := (@resolveAlbumTiles_eq_some u _ _ order).mpr ⟨hslice, rfl⟩
  unfold handleBrowseByTag
  rw [if_neg (not_not.mpr hv), hselect]
  refine .bind ?_ fun _ _ => .pure _
  exact .bind (albumTiles_answers hresolve) fun _ _ => .pure _

theorem albumPage_panics {order : HashOrder (List Char)} {payload : BrowseByTagPayload}
    (hslice : ¬Sliceable u (tagging.entries s.server.library.songs))
    (hv : payload.v = libraryPayloadVersion) (hselect : payload.select = none) :
    Answers (handleBrowseByTag u order tagging serving .album payload) s (.error .panic) := by
  have hnone : resolveAlbumTiles u order (tagging.entries s.server.library.songs) = none := by
    rw [Option.eq_none_iff_forall_ne_some]
    intro tiles htiles
    exact hslice (resolveAlbumTiles_eq_some.mp htiles).1
  unfold handleBrowseByTag
  rw [if_neg (not_not.mpr hv), hselect]
  exact .bind_error (.bind_error (albumTiles_panic hnone))

theorem albumPagesComplete_iff :
    AlbumPagesComplete u tagging pageSize s ↔
      Sliceable u (tagging.entries s.server.library.songs) ∧
      ∀ i, Separated (TitleCandidate u) (albums u (tagging.entries s.server.library.songs))
        (i * clampedSize pageSize) := by
  by_cases hslice : Sliceable u (tagging.entries s.server.library.songs)
  · have hpages := Paging.le_pageCount_mul (clampedSize_pos pageSize)
      (albums u (tagging.entries s.server.library.songs)).length
    rw [and_iff_right hslice, ← Paging.collected_made_iff (fun l => arranges_albums_iff hslice)
      (albums_nodup hslice) (fun tile _ => ⟨_, rfl⟩) hpages]
    have hrequest : ∀ order payload s', s'.server = s.server → payload.v = libraryPayloadVersion →
        payload.select = none → Answers (handleBrowseByTag u order tagging serving .album payload) s'
          (.ok (renderPage payload
            ((arranged u order (tagging.entries s.server.library.songs)).map .album))) := by
      intro order payload s' hs' hv hselect
      rw [← hs'] at hslice ⊢
      exact albumPage_answers hslice hv hselect
    have hcomplete := @follow_complete_iff u tagging s .album pageSize _ _ _
      (fun _ _ => BrowseEntry.album.inj) id _ _ (fun order => by
        rw [List.map_id]
        exact arranged_perm order) hrequest
    simp only [List.map_id] at hcomplete
    exact hcomplete
  · refine iff_of_false (fun h => ?_) fun h => hslice h.1
    obtain ⟨fuel, tiles, hrun, -⟩ := h fun _ => .stored
    cases fuel with
    | zero => exact absurd (hrun.unique (.pure none)) nofun
    | succ fuel =>
      exact absurd (hrun.unique (.bind_error (albumPage_panics hslice rfl rfl))) nofun

end Albums

-- ---------------------------------------------------------------------------
-- Artists
-- ---------------------------------------------------------------------------

section Artists

variable {u : Unicode} {raws : List (List Char)}

variable (u) in
/-- An artist can be sorted by each of the favoured forms. -/
def DisplayCandidate (raws : List (List Char)) (key : List Char) (k : List Nat) : Prop :=
  ∃ display, Favoured u raws key display ∧ k = displayKey u display

theorem mem_shown {order : HashOrder (List Char)} : display ∈ shown u order raws ↔
    artistFoldKey u display ∈ artistKeys u raws ∧
      displayOf order (artistFoldKey u display) (forms u raws (artistFoldKey u display)) =
        some display := by
  rw [shown, List.mem_filterMap]
  constructor
  · rintro ⟨key, hkey, hdisplay⟩
    rw [(order.perm [] _).mem_iff] at hkey
    obtain ⟨display', hdisplay', hfavoured⟩ := displayOf_favoured order hkey
    obtain rfl := Option.some.inj (hdisplay.symm.trans hdisplay')
    rw [hfavoured.foldKey]
    exact ⟨hkey, hdisplay⟩
  · rintro ⟨hkey, hdisplay⟩
    exact ⟨_, (order.perm [] _).mem_iff.mpr hkey, hdisplay⟩

/-- A form that is visited last, of those that are favoured, is the one shown. -/
theorem displayOf_of_last {order : HashOrder (List Char)} (hfavoured : Favoured u raws key display)
    (hvisit : order.visit [key] (forms u raws key).keys = init ++ [display]) :
    displayOf order key (forms u raws key) = some display := by
  obtain ⟨count, hlookup, hgreatest⟩ := hfavoured
  have hentries : order.entries [key] (forms u raws key) =
      (init.filterMap fun form => ((forms u raws key).lookup form).map (form, ·)) ++
        [(display, count)] := by
    rw [HashOrder.entries, hvisit, List.filterMap_append]
    simp [hlookup]
  rw [displayOf, hentries, Table.maxBy_concat formKey_total formKey_trans]
  · rfl
  · rintro ⟨form, n⟩ hform
    obtain ⟨form', -, hform'⟩ := List.mem_filterMap.mp hform
    obtain ⟨n', hlookup', heq⟩ := Option.map_eq_some_iff.mp hform'
    cases heq
    exact decide_eq_true (hgreatest form n hlookup')

variable (u) in
/-- The keys are visited in the order of `l`, and the forms of a key with the
given one last. -/
def lastOrder (raws l : List (List Char)) (form : List Char → List Char) : HashOrder (List Char) :=
  .placing fun
    | [] => l
    | [k] => (forms u raws k).keys.erase (form k) ++ [form k]
    | _ => []

/-- The requests can come out in every order that sorts favoured forms, and in
no other. -/
theorem arranges_artists_iff :
    Arranges (DisplayCandidate u raws) (artistKeys u raws) l ↔
      ∃ order, (artistDisplays u order raws).map (artistFoldKey u) = l := by
  constructor
  · rintro ⟨key, hkey, hperm, hsorted⟩
    choose! form hform using hkey
    have hmem : ∀ k ∈ l, k ∈ artistKeys u raws := fun k hk => hperm.mem_iff.mp hk
    have hvisit : (lastOrder u raws l form).visit [] (artistKeys u raws) = l :=
      HashOrder.visit_placing hperm
    have hdisplay : ∀ k ∈ l,
        displayOf (lastOrder u raws l form) k (forms u raws k) = some (form k) := by
      intro k hk
      obtain ⟨hfavoured, -⟩ := hform k (hmem k hk)
      have hin : form k ∈ (forms u raws k).keys := by
        obtain ⟨count, hlookup, -⟩ := hfavoured
        rw [← AList.mem_keys, ← AList.lookup_isSome, hlookup]
        rfl
      refine displayOf_of_last hfavoured (HashOrder.visit_placing ?_)
      exact List.perm_append_comm.trans (List.perm_cons_erase hin).symm
    have hshown : shown u (lastOrder u raws l form) raws = l.map form := by
      rw [shown, hvisit, ← List.filterMap_eq_map]
      exact List.filterMap_congr hdisplay
    refine ⟨lastOrder u raws l form, ?_⟩
    rw [artistDisplays_eq, hshown, List.Pairwise.insertionSort_eq, List.map_map]
    · refine (List.map_congr_left fun k hk => ?_).trans (List.map_id l)
      exact (hform k (hmem k hk)).1.foldKey
    · rw [List.pairwise_map]
      refine hsorted.imp_of_mem fun {a b} ha hb hle => ?_
      rwa [(hform a (hmem a ha)).2, (hform b (hmem b hb)).2] at hle
  · rintro ⟨order, rfl⟩
    refine ⟨fun k => displayKey u ((displayOf order k (forms u raws k)).getD []), ?_,
      artistDisplays_keys order, ?_⟩
    · intro k hk
      obtain ⟨display, hdisplay, hfavoured⟩ := displayOf_favoured order hk
      exact ⟨display, hfavoured, by simp only [hdisplay, Option.getD_some]⟩
    · rw [artistDisplays_eq, List.pairwise_map]
      refine (Paging.pairwise_insertionSort_key _ _).imp_of_mem fun {a b} ha hb hle => ?_
      rw [List.mem_insertionSort, mem_shown] at ha hb
      simpa only [ha.2, hb.2, Option.getD_some] using hle

variable (u) in
/-- Following the pages of the artists ends and yields every artist once,
whatever the order of the maps in each request. -/
def ArtistPagesComplete (tagging : Tagging) (pageSize : Option Nat) (s : Session) : Prop :=
  ∀ orders, ∃ fuel, ∃ displays : List (List Char),
    Answers (followFacet u tagging orders pageSize .artist fuel) s
        (.ok (some (displays.map .artist))) ∧
      (displays.map (artistFoldKey u)).Perm (artistKeys u
        (s.server.library.values "albumartist" ++ s.server.library.values "artist"))

theorem artistPagesComplete_iff {tagging : Tagging} {s : Session} {pageSize : Option Nat} :
    ArtistPagesComplete u tagging pageSize s ↔
      ∀ i, Separated
        (DisplayCandidate u (s.server.library.values "albumartist" ++ s.server.library.values "artist"))
        (artistKeys u (s.server.library.values "albumartist" ++ s.server.library.values "artist"))
        (i * clampedSize pageSize) := by
  have hpages := Paging.le_pageCount_mul (clampedSize_pos pageSize) (artistKeys u
    (s.server.library.values "albumartist" ++ s.server.library.values "artist")).length
  rw [← Paging.collected_made_iff (fun l => arranges_artists_iff) artistKeys_nodup ?_ hpages]
  · refine follow_complete_iff (fun _ _ => BrowseEntry.artist.inj) (artistFoldKey u)
      (fun order => artistDisplays_keys order) ?_
    intro order payload s' hs' hv hselect
    have hdisplays := @enumerateArtists_answers u order s'
    unfold handleBrowseByTag
    rw [if_neg (not_not.mpr hv), hselect]
    rw [hs'] at hdisplays
    exact .bind (.bind hdisplays fun _ _ => .pure _) fun _ _ => .pure _
  · intro key hkey
    obtain ⟨display, -, hfavoured⟩ := displayOf_favoured .stored hkey
    exact ⟨_, display, hfavoured, rfl⟩

end Artists

/-- Following `next_page` loses and repeats no tile exactly when each page
boundary separates the tiles by every key they can be sorted by, and, for the
albums, no slice panics. -/
theorem pages_complete_iff (u : Unicode) (tagging : Tagging) (pageSize : Option Nat) (s : Session) :
    (AlbumPagesComplete u tagging pageSize s ↔
      Sliceable u (tagging.entries s.server.library.songs) ∧
      ∀ i, Separated (TitleCandidate u) (albums u (tagging.entries s.server.library.songs))
        (i * clampedSize pageSize)) ∧
    (ArtistPagesComplete u tagging pageSize s ↔
      ∀ i, Separated
        (DisplayCandidate u (s.server.library.values "albumartist" ++ s.server.library.values "artist"))
        (artistKeys u (s.server.library.values "albumartist" ++ s.server.library.values "artist"))
        (i * clampedSize pageSize)) :=
  ⟨albumPagesComplete_iff, artistPagesComplete_iff⟩

/-- Two albums of one title, in folders of their own. -/
def twinTagging : Tagging := ⟨fun _ => some "Hits".toList, fun _ => none, fun _ => none⟩

def twinSession : Session :=
  ⟨.idle (.files ["A/x.mp3".toList, "B/y.mp3".toList] (by decide) (by decide) (by decide)), none, []⟩

theorem equal_titles_lose_a_tile : ¬AlbumPagesComplete .ascii twinTagging (some 1) twinSession := by
  intro h
  have halbums : albums .ascii (twinTagging.entries twinSession.server.library.songs) =
      [⟨"B".toList, "Hits".toList, "Various Artists".toList, ["B/y.mp3".toList]⟩,
        ⟨"A".toList, "Hits".toList, "Various Artists".toList, ["A/x.mp3".toList]⟩] := by decide
  obtain ⟨first, rest, hperm, hlength, hkeys⟩ := (albumPagesComplete_iff.mp h).2 1
  rw [halbums] at hperm hlength
  obtain ⟨a, rfl⟩ := List.length_eq_one_iff.mp hlength
  have hrest : rest.length = 1 := by simpa using hperm.length_eq.symm
  obtain ⟨b, rfl⟩ := List.length_eq_one_iff.mp hrest
  have htitle : ∀ tile ∈ [a, b], tile.displayTitle = "Hits".toList := by
    intro tile htile
    have hmem := hperm.mem_iff.mpr htile
    simp only [List.mem_cons, List.not_mem_nil, or_false] at hmem
    rcases hmem with rfl | rfl <;> rfl
  have hlt := hkeys a (by simp) b (by simp) _ _ rfl rfl
  rw [titleKey, titleKey, htitle a (by simp), htitle b (by simp)] at hlt
  exact lt_irrefl _ hlt

end EvoAudio.Playback
