import EvoAudio.Playback.AlbumTiles

/-!
# Browsing by facet

`handle_browse_by_tag` of `playback.mpd/src/library.rs`: the tiles of a facet
page by page, and `drill_by_tag`, the tracks behind one tile. Artists are listed
by fanning out the credits of the `albumartist` and `artist` tags. Every request
asks MPD again and fills hash maps of its own.
-/

namespace EvoAudio.Playback

open Mpd (MpdError)
open Grouping (HashOrder)
open Names (Unicode artistFoldKey splitArtistCredit)

inductive Facet where
  | artist
  | album
  | genre
  | year
  deriving DecidableEq, Repr

def Facet.verb : Facet → String
  | .artist => "library.browse_by_artist"
  | .album => "library.browse_by_album"
  | .genre => "library.browse_by_genre"
  | .year => "library.browse_by_year"

/-- A request is refused, or it dies in a panic. -/
inductive Fault where
  | verb (error : VerbError)
  | panic
  deriving DecidableEq, Repr

def facetMpd (facet : Facet) (act : Procedure Session MpdError α) : Procedure Session Fault α :=
  act.mapError fun error => .verb (.mpd facet.verb (.mpd error))

def orRefuse (r : Except VerbError α) : Procedure Session Fault α := fun s => (r.mapError .verb, s)

def orPanic : Option α → Procedure Session Fault α
  | some a => return a
  | none => .throw .panic

/-- The tags of each song that the albums are made from. -/
structure Tagging where
  album : List Char → Option (List Char)
  albumartist : List Char → Option (List Char)
  artist : List Char → Option (List Char)

def untagged : Tagging := ⟨fun _ => none, fun _ => none, fun _ => none⟩

def Tagging.entries (tagging : Tagging) (songs : List (List Char)) : List MpdLibraryEntry :=
  songs.map fun song =>
    .file ⟨song, tagging.album song, tagging.albumartist song, tagging.artist song⟩

-- ---------------------------------------------------------------------------
-- Artists
-- ---------------------------------------------------------------------------

section Artists

variable (u : Unicode)

/-- The forms of each artist, with how often each of them is credited. -/
abbrev Credits := AList fun _ : List Char => Votes

def ingestMember (groups : Credits) (member : List Char) : Credits :=
  if (artistFoldKey u member).isEmpty then groups
  else Grouping.update groups (artistFoldKey u member) ∅ (vote · member)

def ingestCredit (groups : Credits) (raw : List Char) : Credits :=
  (splitArtistCredit u raw).foldl (ingestMember u) groups

/-- The most common form is shown, of several the longest. -/
def formKey (form : List Char × Nat) : Nat ×ₗ Nat := toLex (form.2, form.1.length)

def displayOf (order : HashOrder (List Char)) (key : List Char) (forms : Votes) :
    Option (List Char) :=
  (Table.maxBy (fun a b => formKey a ≤ formKey b) (order.entries [key] forms)).map Prod.fst

def displayKey (display : List Char) : List Nat := Text.ord (u.lowercase display)

def artistDisplays (order : HashOrder (List Char)) (raws : List (List Char)) : List (List Char) :=
  let groups := raws.foldl (ingestCredit u) ∅
  let displays := (order.entries [] groups).filterMap fun group => displayOf order group.1 group.2
  displays.insertionSort fun a b => displayKey u a ≤ displayKey u b

end Artists

-- ---------------------------------------------------------------------------
-- Requests
-- ---------------------------------------------------------------------------

section Requests

variable (u : Unicode) (order : HashOrder (List Char)) (tagging : Tagging) (link : Link)

def albumTiles : Procedure Session Fault (List AlbumTile) := do
  let songs ← facetMpd .album (listallinfo link [])
  orPanic (resolveAlbumTiles u order (tagging.entries songs))

def enumerateArtistsViaFanout : Procedure Session Fault (List (List Char)) := do
  let primary ← facetMpd .artist (listTag link "albumartist")
  let secondary ← facetMpd .artist (listTag link "artist")
  return artistDisplays u order (primary ++ secondary)

/-- Distinct values after the post-processing, sorted without regard to case. -/
def enumerateGenericFacet (facet : Facet) (tag : String)
    (postProcess : List Char → Option (List Char)) : Procedure Session Fault (List (List Char)) := do
  let raw ← facetMpd facet (listTag link tag)
  return (raw.filterMap postProcess).eraseDups.insertionSort fun a b =>
    displayKey u a ≤ displayKey u b

/-- The year is the first four characters of a date, when these are digits. -/
def yearFromMpdDate (raw : List Char) : Option (List Char) :=
  if (Text.encode raw).length < 4 then none
  else if (raw.take 4).all Char.isDigit then some (raw.take 4)
  else none

inductive BrowseEntry where
  | album (tile : AlbumTile)
  | artist (display : List Char)
  | value (value : List Char)
  | track (path : List Char)
  deriving DecidableEq, Repr

def enumerate : Facet → Procedure Session Fault (List BrowseEntry)
  | .album => do
    let tiles ← albumTiles u order tagging link
    return tiles.map .album
  | .artist => do
    let displays ← enumerateArtistsViaFanout u order link
    return displays.map .artist
  | .genre => do
    let values ← enumerateGenericFacet u link .genre "genre" some
    return values.map .value
  | .year => do
    let values ← enumerateGenericFacet u link .year "date" yearFromMpdDate
    return values.map .value

-- Drilling

/-- The tag value has a contributor with this key. -/
def credits (key raw : List Char) : Bool :=
  (splitArtistCredit u raw).any fun member => artistFoldKey u member == key

def findWithin (facet : Facet) (field : MpdSearchField) (parent : Option (MpdSearchField × List Char))
    (value : List Char) : Procedure Session Fault (List (List Char)) :=
  facetMpd facet <|
    match parent with
    | none => find link field value
    | some pair => findMulti link [(field, value), pair]

def findEachWithin (field : MpdSearchField) (parent : Option (MpdSearchField × List Char)) :
    List (List Char) → Procedure Session Fault (List (List Char))
  | [] => return []
  | value :: values => do
    let batch ← findWithin link .artist field parent value
    let more ← findEachWithin field parent values
    return batch ++ more

def drillArtist (selector : BrowseSelector) (value : List Char) :
    Procedure Session Fault (List (List Char)) :=
  let targetKey := artistFoldKey u value
  if targetKey.isEmpty then
    .throw (.verb (.mpd Facet.artist.verb
      (.text "browse selector value did not fold to a match key")))
  else do
    let rawAlbumartists ← facetMpd .artist (listTag link "albumartist")
    let rawArtists ← facetMpd .artist (listTag link "artist")
    let parent ← orRefuse (buildParentField Facet.artist.verb selector)
    let byAlbumartist ← findEachWithin link .albumArtist parent
      (rawAlbumartists.filter (credits u targetKey))
    let byArtist ← findEachWithin link .artist parent (rawArtists.filter (credits u targetKey))
    return (byAlbumartist ++ byArtist).eraseDups

/-- The tracks a drill renders, before they are paged. A year is looked for as
part of the date, whatever the parent context. -/
def drillTracks (facet : Facet) (selector : BrowseSelector) :
    Procedure Session Fault (List (List Char)) := do
  let value ← orRefuse (selectorValue facet.verb selector)
  match facet with
  | .year => facetMpd .year (search link .date value)
  | .artist => drillArtist u link selector value
  | .album =>
    let tiles ← albumTiles u order tagging link
    orRefuse (albumTracks u Facet.album.verb tiles selector value)
  | .genre =>
    let parent ← orRefuse (buildParentField Facet.genre.verb selector)
    findWithin link .genre .genre parent value

-- Paging

def browseHardCap : Nat := 2000

def libraryPayloadVersion : Nat := 1

structure BrowseByTagPayload where
  v : Nat
  page : Option Nat
  pageSize : Option Nat
  select : Option BrowseSelector
  deriving DecidableEq, Repr

/-- `requested_size.clamp(1, BROWSE_HARD_CAP)` -/
def clampedSize (pageSize : Option Nat) : Nat := min (max (pageSize.getD browseHardCap) 1) browseHardCap

structure BrowsePage where
  entries : List BrowseEntry
  page : Nat
  pageSize : Nat
  total : Nat
  truncated : Bool
  nextPage : Option Nat
  deriving DecidableEq, Repr

/-- The slice of a page, the number of the next one, and whether there is one. -/
def paginate (full : List α) (rangeStart pageSize : Nat) : List α × Option Nat × Bool :=
  if rangeStart ≥ full.length then ([], none, false)
  else
    let rangeEnd := min (rangeStart + pageSize) full.length
    let more := decide (rangeEnd < full.length)
    ((full.drop rangeStart).take (rangeEnd - rangeStart),
      if more then some (rangeStart / pageSize + 1) else none, more)

def renderPage (payload : BrowseByTagPayload) (rendered : List BrowseEntry) : BrowsePage :=
  let page := payload.page.getD 0
  let pageSize := clampedSize payload.pageSize
  let (entries, nextPage, truncated) := paginate rendered (page * pageSize) pageSize
  { entries, page, pageSize, total := rendered.length, truncated, nextPage }

def handleBrowseByTag (facet : Facet) (payload : BrowseByTagPayload) :
    Procedure Session Fault BrowsePage :=
  if payload.v ≠ libraryPayloadVersion then
    .throw (.verb (.payloadVersion facet.verb payload.v libraryPayloadVersion))
  else
    match payload.select with
    | some selector => do
      let tracks ← drillTracks u order tagging link facet selector
      return renderPage payload (tracks.map .track)
    | none => do
      let rendered ← enumerate u order tagging link facet
      return renderPage payload rendered

end Requests

-- ---------------------------------------------------------------------------
-- Requests that MPD serves
-- ---------------------------------------------------------------------------

/-- The request ends so, with MPD as it was. -/
def Answers (act : Procedure Session ε α) (s : Session) (r : Except ε α) : Prop :=
  ∃ s', act s = (r, s') ∧ s'.server = s.server

namespace Answers

variable {ε δ α β : Type} {s : Session}

theorem pure (a : α) : Answers (Pure.pure a : Procedure Session ε α) s (.ok a) := ⟨s, rfl, rfl⟩

theorem bind {act : Procedure Session ε α} {f : α → Procedure Session ε β}
    {r : Except ε β} (h : Answers act s (.ok a))
    (hf : ∀ s', s'.server = s.server → Answers (f a) s' r) : Answers (act >>= f) s r := by
  obtain ⟨s', hrun, hserver⟩ := h
  obtain ⟨s'', hrun', hserver'⟩ := hf s' hserver
  exact ⟨s'', (Procedure.run_bind_ok hrun).trans hrun', hserver'.trans hserver⟩

theorem bind_error {act : Procedure Session ε α} {f : α → Procedure Session ε β} {e : ε}
    (h : Answers act s (.error e)) : Answers (act >>= f) s (.error e) := by
  obtain ⟨s', hrun, hserver⟩ := h
  exact ⟨s', Procedure.run_bind_error hrun, hserver⟩

theorem unique {act : Procedure Session ε α} {r r' : Except ε α} (h : Answers act s r)
    (h' : Answers act s r') : r = r' := by
  obtain ⟨_, hrun, -⟩ := h
  obtain ⟨_, hrun', -⟩ := h'
  exact congrArg Prod.fst (hrun.symm.trans hrun')

end Answers

section Served

variable {u : Unicode} {order : HashOrder (List Char)} {tagging : Tagging} {s : Session}

theorem listTag_answers (facet : Facet) (tag : String) :
    Answers (facetMpd facet (listTag serving tag)) s (.ok (s.server.library.values tag)) :=
  ⟨s.sent (.listTag tag) true, rfl, rfl⟩

theorem orRefuse_answers (r : Except VerbError α) : Answers (orRefuse r) s (r.mapError .verb) :=
  ⟨s, rfl, rfl⟩

theorem orRefuse_ok {r : Except VerbError α} (h : r = .ok a) : Answers (orRefuse r) s (.ok a) :=
  h ▸ orRefuse_answers (.ok a)

theorem orRefuse_error {r : Except VerbError α} (h : r = .error e) :
    Answers (orRefuse r) s (.error (.verb e)) :=
  h ▸ orRefuse_answers (.error e : Except VerbError α)

theorem listallinfo_answers :
    Answers (facetMpd .album (listallinfo serving [])) s (.ok s.server.library.songs) :=
  ⟨s.sent (.listallinfo []) true, rfl, rfl⟩

theorem albumTiles_answers
    (h : resolveAlbumTiles u order (tagging.entries s.server.library.songs) = some tiles) :
    Answers (albumTiles u order tagging serving) s (.ok tiles) := by
  refine .bind listallinfo_answers fun s' _ => ?_
  rw [h]
  exact .pure tiles

theorem albumTiles_panic
    (h : resolveAlbumTiles u order (tagging.entries s.server.library.songs) = none) :
    Answers (albumTiles u order tagging serving) s (.error .panic) := by
  refine .bind listallinfo_answers fun s' _ => ?_
  rw [h]
  exact ⟨s', rfl, rfl⟩

theorem enumerateArtists_answers :
    Answers (enumerateArtistsViaFanout u order serving) s
      (.ok (artistDisplays u order
        (s.server.library.values "albumartist" ++ s.server.library.values "artist"))) := by
  refine .bind (listTag_answers .artist "albumartist") fun s₁ h₁ => ?_
  refine .bind (listTag_answers .artist "artist") fun s₂ h₂ => ?_
  rw [h₁]
  exact .pure _

/-- The pairs of a `find` within a parent context. -/
def withinPairs (field : MpdSearchField) (parent : Option (MpdSearchField × List Char))
    (value : List Char) : List (String × List Char) :=
  (field.asProtocolStr, value) :: (parent.map fun pair => (pair.1.asProtocolStr, pair.2)).toList

theorem findWithin_answers (facet : Facet) (field : MpdSearchField)
    (parent : Option (MpdSearchField × List Char)) (value : List Char) :
    Answers (findWithin serving facet field parent value) s
      (.ok (s.server.library.find (withinPairs field parent value))) := by
  cases parent with
  | none => exact ⟨s.sent (.find (withinPairs field none value)) true, rfl, rfl⟩
  | some pair => exact ⟨s.sent (.find (withinPairs field (some pair) value)) true, rfl, rfl⟩

theorem findEachWithin_answers (field : MpdSearchField)
    (parent : Option (MpdSearchField × List Char)) (values : List (List Char)) :
    Answers (findEachWithin serving field parent values) s
      (.ok (values.flatMap fun value => s.server.library.find (withinPairs field parent value))) := by
  induction values generalizing s with
  | nil => exact .pure _
  | cons value values ih =>
    refine .bind (findWithin_answers .artist field parent value) fun s₁ h₁ => ?_
    refine .bind ih fun s₂ h₂ => ?_
    rw [h₁]
    exact .pure _

variable (u) in
/-- The songs that have a contributor with this key, within a parent context. -/
def creditedSongs (library : Library) (parent : Option (MpdSearchField × List Char))
    (key : List Char) : List (List Char) :=
  ((library.values "albumartist").filter (credits u key)).flatMap
    (fun value => library.find (withinPairs .albumArtist parent value)) ++
  ((library.values "artist").filter (credits u key)).flatMap
    fun value => library.find (withinPairs .artist parent value)

theorem drillArtist_answers {selector : BrowseSelector} {value : List Char}
    (hkey : artistFoldKey u value ≠ [])
    (hparent : buildParentField Facet.artist.verb selector = .ok parent) :
    Answers (drillArtist u serving selector value) s
      (.ok (creditedSongs u s.server.library parent (artistFoldKey u value)).eraseDups) := by
  unfold drillArtist
  rw [if_neg (by simpa using hkey)]
  refine .bind (listTag_answers .artist "albumartist") fun s₁ h₁ => ?_
  refine .bind (listTag_answers .artist "artist") fun s₂ h₂ => ?_
  refine .bind (orRefuse_ok hparent) fun s₃ h₃ => ?_
  refine .bind (findEachWithin_answers .albumArtist parent _) fun s₄ h₄ => ?_
  refine .bind (findEachWithin_answers .artist parent _) fun s₅ h₅ => ?_
  rw [h₄, h₃, h₂, h₁]
  exact .pure _

theorem mem_creditedSongs {library : Library} {parent : Option (MpdSearchField × List Char)} :
    song ∈ creditedSongs u library parent key ↔ song ∈ library.songs ∧
      (∀ pair ∈ parent, library.finds song (pair.1.asProtocolStr, pair.2)) ∧
      ∃ tag, (tag = "albumartist" ∨ tag = "artist") ∧
        ∃ value ∈ library.values tag, credits u key value ∧ library.finds song (tag, value) := by
  have hfind (field : MpdSearchField) (value : List Char) :
      song ∈ library.find (withinPairs field parent value) ↔ song ∈ library.songs ∧
        (∀ pair ∈ parent, library.finds song (pair.1.asProtocolStr, pair.2)) ∧
        library.finds song (field.asProtocolStr, value) := by
    cases parent with
    | none => simp [Library.find, withinPairs]
    | some pair => simp [Library.find, withinPairs, and_comm]
  simp only [creditedSongs, List.mem_append, List.mem_flatMap, List.mem_filter, hfind]
  constructor
  · rintro (⟨value, ⟨hvalue, hcredits⟩, hsong, hpair, hfinds⟩ |
      ⟨value, ⟨hvalue, hcredits⟩, hsong, hpair, hfinds⟩)
    · exact ⟨hsong, hpair, "albumartist", .inl rfl, value, hvalue, hcredits, hfinds⟩
    · exact ⟨hsong, hpair, "artist", .inr rfl, value, hvalue, hcredits, hfinds⟩
  · rintro ⟨hsong, hpair, tag, rfl | rfl, value, hvalue, hcredits, hfinds⟩
    · exact .inl ⟨value, ⟨hvalue, hcredits⟩, hsong, hpair, hfinds⟩
    · exact .inr ⟨value, ⟨hvalue, hcredits⟩, hsong, hpair, hfinds⟩

end Served

-- ---------------------------------------------------------------------------
-- The artists of a library
-- ---------------------------------------------------------------------------

section ArtistGroups

variable (u : Unicode)

/-- The contributors of all credits that have a key. -/
def members (raws : List (List Char)) : List (List Char) :=
  (raws.flatMap (splitArtistCredit u)).filter (artistFoldKey u · ≠ [])

def artistGroups (raws : List (List Char)) : Credits :=
  Grouping.collect (artistFoldKey u) ∅ vote (members u raws)

def artistKeys (raws : List (List Char)) : List (List Char) := (artistGroups u raws).keys

def forms (raws : List (List Char)) (key : List Char) : Votes :=
  ((members u raws).filter (artistFoldKey u · = key)).foldl vote ∅

/-- A form that is credited at least as often as any other form of its artist,
and is no shorter than those credited as often. -/
def Favoured (raws : List (List Char)) (key display : List Char) : Prop :=
  ∃ count, (forms u raws key).lookup display = some count ∧
    ∀ form n, (forms u raws key).lookup form = some n →
      formKey (form, n) ≤ formKey (display, count)

variable {u} {raws : List (List Char)}

theorem foldl_ingestCredit : raws.foldl (ingestCredit u) ∅ = artistGroups u raws := by
  have hmember : ∀ groups member, ingestMember u groups member =
      if decide (artistFoldKey u member ≠ []) then
        Grouping.update groups (artistFoldKey u member) ∅ (vote · member) else groups := by
    intro groups member
    unfold ingestMember
    by_cases hempty : artistFoldKey u member = [] <;> simp [hempty]
  have hcredit : ingestCredit u = fun groups raw =>
      (splitArtistCredit u raw).foldl (ingestMember u) groups := rfl
  rw [artistGroups, Grouping.collect, members, List.foldl_filter, List.foldl_flatMap, hcredit]
  simp only [← hmember]

theorem mem_artistKeys : key ∈ artistKeys u raws ↔ key ≠ [] ∧ ∃ raw ∈ raws, credits u key raw := by
  rw [artistKeys, artistGroups, Grouping.mem_keys_collect]
  simp only [members, List.mem_filter, List.mem_flatMap, credits, List.any_eq_true, beq_iff_eq]
  constructor
  · rintro ⟨member, ⟨⟨raw, hraw, hmember⟩, hkey⟩, rfl⟩
    exact ⟨of_decide_eq_true hkey, raw, hraw, member, hmember, rfl⟩
  · rintro ⟨hkey, raw, hraw, member, hmember, rfl⟩
    exact ⟨member, ⟨⟨raw, hraw, hmember⟩, by simpa using hkey⟩, rfl⟩

theorem lookup_artistGroups (h : key ∈ artistKeys u raws) :
    (artistGroups u raws).lookup key = some (forms u raws key) :=
  Grouping.lookup_collect_of_mem h

theorem mem_forms : form ∈ (forms u raws key).keys ↔
    form ∈ members u raws ∧ artistFoldKey u form = key := by
  have hvotes : forms u raws key = Grouping.collect (fun form => form) 0 (fun n _ => n + 1)
      ((members u raws).filter (artistFoldKey u · = key)) := rfl
  rw [hvotes, Grouping.mem_keys_collect]
  simp

theorem formKey_total (a b : List Char × Nat) :
    decide (formKey a ≤ formKey b) = true ∨ decide (formKey b ≤ formKey a) = true := by
  simpa using le_total (formKey a) (formKey b)

theorem formKey_trans (a b c : List Char × Nat) (hab : decide (formKey a ≤ formKey b) = true)
    (hbc : decide (formKey b ≤ formKey c) = true) : decide (formKey a ≤ formKey c) = true := by
  rw [decide_eq_true_eq] at hab hbc ⊢
  exact hab.trans hbc

theorem Favoured.foldKey (h : Favoured u raws key display) : artistFoldKey u display = key := by
  obtain ⟨count, hlookup, -⟩ := h
  have hmem : display ∈ (forms u raws key).keys := by
    rw [← AList.mem_keys, ← AList.lookup_isSome, hlookup]
    rfl
  exact (mem_forms.mp hmem).2

/-- Whatever the order of the map, a favoured form is shown. -/
theorem displayOf_favoured (order : HashOrder (List Char)) (h : key ∈ artistKeys u raws) :
    ∃ display, displayOf order key (forms u raws key) = some display ∧ Favoured u raws key display := by
  obtain ⟨hkey, raw, hraw, hcredits⟩ := mem_artistKeys.mp h
  obtain ⟨member, hmember, hfold⟩ := List.any_eq_true.mp hcredits
  have hform : member ∈ (forms u raws key).keys := by
    rw [mem_forms, members, List.mem_filter, List.mem_flatMap]
    rw [beq_iff_eq] at hfold
    exact ⟨⟨⟨raw, hraw, hmember⟩, by simpa [hfold] using hkey⟩, hfold⟩
  obtain ⟨count, hcount⟩ : ∃ count, (forms u raws key).lookup member = some count := by
    rwa [← AList.mem_keys, ← AList.lookup_isSome, Option.isSome_iff_exists] at hform
  have hne : order.entries [key] (forms u raws key) ≠ [] :=
    List.ne_nil_of_mem (HashOrder.mem_entries.mpr hcount)
  obtain ⟨⟨display, n⟩, hmax⟩ := Table.maxBy_isSome hne
  obtain ⟨hmem, hgreatest⟩ := Table.maxBy_spec formKey_total formKey_trans hmax
  refine ⟨display, by rw [displayOf, hmax]; rfl, n, HashOrder.mem_entries.mp hmem, ?_⟩
  intro form m hform
  exact of_decide_eq_true (hgreatest (form, m) (HashOrder.mem_entries.mpr hform))

/-- The displays before they are sorted, one for each artist. -/
def shown (u : Unicode) (order : HashOrder (List Char)) (raws : List (List Char)) :
    List (List Char) :=
  (order.visit [] (artistKeys u raws)).filterMap fun key => displayOf order key (forms u raws key)

theorem artistDisplays_eq (order : HashOrder (List Char)) : artistDisplays u order raws =
    (shown u order raws).insertionSort fun a b => displayKey u a ≤ displayKey u b := by
  have hentries : order.entries [] (artistGroups u raws) =
      (order.visit [] (artistKeys u raws)).map fun key => (key, forms u raws key) :=
    HashOrder.entries_eq_map (fun _ => lookup_artistGroups) order []
  simp only [artistDisplays, foldl_ingestCredit, hentries, List.filterMap_map, Function.comp_def,
    shown]

theorem map_foldKey_shown (order : HashOrder (List Char)) :
    (shown u order raws).map (artistFoldKey u) = order.visit [] (artistKeys u raws) := by
  rw [shown, List.map_filterMap]
  refine (List.filterMap_congr fun key hkey => ?_).trans List.filterMap_some
  rw [(order.perm [] _).mem_iff] at hkey
  obtain ⟨display, hdisplay, hfavoured⟩ := displayOf_favoured order hkey
  rw [hdisplay, Option.map_some, hfavoured.foldKey]

theorem artistDisplays_keys (order : HashOrder (List Char)) :
    ((artistDisplays u order raws).map (artistFoldKey u)).Perm (artistKeys u raws) := by
  rw [artistDisplays_eq]
  refine ((List.perm_insertionSort _ _).map _).trans ?_
  rw [map_foldKey_shown]
  exact order.perm [] _

theorem artistKeys_nodup : (artistKeys u raws).Nodup := (artistGroups u raws).keys_nodup

end ArtistGroups

-- ---------------------------------------------------------------------------
-- Artist tiles and their tracks
-- ---------------------------------------------------------------------------

/-- MPD's index of the artist tags: `find` matches a value a song has, and a
value is listed when some song has it. -/
structure ArtistIndex (library : Library) (tags : List Char → String → List (List Char)) : Prop where
  finds : ∀ song ∈ library.songs, ∀ tag, (tag = "albumartist" ∨ tag = "artist") →
    ∀ value, library.finds song (tag, value) = true ↔ value ∈ tags song tag
  values : ∀ tag, (tag = "albumartist" ∨ tag = "artist") →
    ∀ value, value ∈ library.values tag ↔ ∃ song ∈ library.songs, value ∈ tags song tag

/-- A database of files with these tags. `search` looks for a part of a value,
without regard to case. -/
def Library.tagged (songs : List (List Char)) (tags : List Char → String → List (List Char))
    (distinct : songs.Nodup)
    (leaf : ∀ song ∈ songs, ∀ other ∈ songs, queuePathIsUnder other song → other = song)
    (named : [] ∉ songs) : Library :=
  { files songs distinct leaf named with
    finds := fun song pair => (tags song pair.1).contains pair.2
    searches := fun song pair => (tags song pair.1).any fun value =>
      (Text.splitOnce (Text.asciiLower pair.2) (Text.asciiLower value)).isSome
    values := fun tag => (songs.flatMap (tags · tag)).eraseDups }

theorem Library.tagged_index {songs : List (List Char)} {tags : List Char → String → List (List Char)}
    {distinct : songs.Nodup}
    {leaf : ∀ song ∈ songs, ∀ other ∈ songs, queuePathIsUnder other song → other = song}
    {named : [] ∉ songs} : ArtistIndex (tagged songs tags distinct leaf named) tags where
  finds song _ tag _ value := by simp [tagged]
  values tag _ value := by simp [tagged, files]

/-- The song has a credit with a contributor of this key. -/
def Credited (u : Unicode) (tags : List Char → String → List (List Char)) (key song : List Char) :
    Prop :=
  ∃ tag, (tag = "albumartist" ∨ tag = "artist") ∧ ∃ value ∈ tags song tag, credits u key value

theorem mem_creditedSongs_iff (hindex : ArtistIndex library tags) :
    song ∈ creditedSongs u library none key ↔ song ∈ library.songs ∧ Credited u tags key song := by
  rw [mem_creditedSongs]
  constructor
  · rintro ⟨hsong, -, tag, htag, value, -, hcredits, hfinds⟩
    exact ⟨hsong, tag, htag, value, (hindex.finds song hsong tag htag value).mp hfinds, hcredits⟩
  · rintro ⟨hsong, tag, htag, value, hvalue, hcredits⟩
    refine ⟨hsong, by simp, tag, htag, value, ?_, hcredits,
      (hindex.finds song hsong tag htag value).mpr hvalue⟩
    exact (hindex.values tag htag value).mpr ⟨song, hsong, hvalue⟩

/-- Some song is credited to every artist that is listed. -/
theorem mem_artistKeys_iff (hindex : ArtistIndex library tags) :
    key ∈ artistKeys u (library.values "albumartist" ++ library.values "artist") ↔
      key ≠ [] ∧ ∃ song ∈ library.songs, Credited u tags key song := by
  rw [mem_artistKeys]
  refine and_congr_right fun _ => ?_
  constructor
  · rintro ⟨raw, hraw, hcredits⟩
    obtain ⟨tag, htag, hvalue⟩ : ∃ tag, (tag = "albumartist" ∨ tag = "artist") ∧
        raw ∈ library.values tag := by
      rcases List.mem_append.mp hraw with h | h
      · exact ⟨_, .inl rfl, h⟩
      · exact ⟨_, .inr rfl, h⟩
    obtain ⟨song, hsong, hhas⟩ := (hindex.values tag htag raw).mp hvalue
    exact ⟨song, hsong, tag, htag, raw, hhas, hcredits⟩
  · rintro ⟨song, hsong, tag, htag, value, hvalue, hcredits⟩
    have hlisted := (hindex.values tag htag value).mpr ⟨song, hsong, hvalue⟩
    refine ⟨value, List.mem_append.mpr ?_, hcredits⟩
    rcases htag with rfl | rfl
    · exact .inl hlisted
    · exact .inr hlisted

/-- Drilling into a displayed name, which the selector trims, finds the songs of
its key. -/
theorem drill_display_answers {s : Session} {u : Unicode} {order : HashOrder (List Char)}
    {tagging : Tagging} {display : List Char} (hkey : artistFoldKey u display ≠ []) :
    Answers (drillTracks u order tagging serving .artist ⟨display, none⟩) s
      (.ok (creditedSongs u s.server.library none (artistFoldKey u display)).eraseDups) := by
  have htrim : Text.trim display ≠ [] := Names.trim_ne_nil_of_artistFoldKey u hkey
  have hvalue : selectorValue Facet.artist.verb ⟨display, none⟩ = .ok (Text.trim display) := by
    simp [selectorValue, htrim]
  refine .bind (orRefuse_ok hvalue) fun s' h' => ?_
  rw [← Names.artistFoldKey_trim] at hkey ⊢
  rw [← h']
  exact drillArtist_answers hkey rfl

/-- Every artist tile has a key of its own, its drill lists exactly the songs
credited to that key, of which there are some, and every song credited to an
artist with a key is listed by the drill of a tile. -/
def TilesCover (u : Unicode) (order order' : HashOrder (List Char)) (tagging : Tagging)
    (tags : List Char → String → List (List Char)) (s s' : Session) : Prop :=
  ∃ tiles, Answers (enumerateArtistsViaFanout u order serving) s (.ok tiles) ∧
    (tiles.map (artistFoldKey u)).Nodup ∧ (∀ tile ∈ tiles, artistFoldKey u tile ≠ []) ∧
    ∃ drill : List Char → List (List Char),
      (∀ tile ∈ tiles,
        Answers (drillTracks u order' tagging serving .artist ⟨tile, none⟩) s' (.ok (drill tile)) ∧
        drill tile ≠ [] ∧ ∀ song, song ∈ drill tile ↔
          song ∈ s.server.library.songs ∧ Credited u tags (artistFoldKey u tile) song) ∧
      ∀ song ∈ s.server.library.songs, ∀ key, key ≠ [] → Credited u tags key song →
        ∃ tile ∈ tiles, song ∈ drill tile

/-- The tiles and their drills may be requested in different sessions, as long
as the library stays. -/
theorem artist_tiles_cover (u : Unicode) (order order' : HashOrder (List Char)) (tagging : Tagging)
    (tags : List Char → String → List (List Char)) (s s' : Session)
    (hlibrary : s'.server.library = s.server.library)
    (hindex : ArtistIndex s.server.library tags) : TilesCover u order order' tagging tags s s' := by
  have hkeys := @artistDisplays_keys u
    (s.server.library.values "albumartist" ++ s.server.library.values "artist") order
  have hlisted : ∀ tile ∈ artistDisplays u order _, artistFoldKey u tile ∈ artistKeys u _ :=
    fun tile htile => hkeys.mem_iff.mp (List.mem_map_of_mem htile)
  have hdrill : ∀ song tile, song ∈ (creditedSongs u s.server.library none
      (artistFoldKey u tile)).eraseDups ↔
        song ∈ s.server.library.songs ∧ Credited u tags (artistFoldKey u tile) song := by
    intro song tile
    rw [List.mem_eraseDups, mem_creditedSongs_iff hindex]
  refine ⟨_, enumerateArtists_answers, hkeys.nodup_iff.mpr artistKeys_nodup, ?_,
    fun tile => (creditedSongs u s.server.library none (artistFoldKey u tile)).eraseDups, ?_, ?_⟩
  · exact fun tile htile => ((mem_artistKeys_iff hindex).mp (hlisted tile htile)).1
  · intro tile htile
    obtain ⟨hkey, song, hsong, hcredited⟩ := (mem_artistKeys_iff hindex).mp (hlisted tile htile)
    refine ⟨?_, ?_, fun song => hdrill song tile⟩
    · rw [← hlibrary]
      exact drill_display_answers hkey
    · exact List.ne_nil_of_mem ((hdrill song tile).mpr ⟨hsong, hcredited⟩)
  · intro song hsong key hkey hcredited
    have hmem := hkeys.mem_iff.mpr ((mem_artistKeys_iff hindex).mpr ⟨hkey, song, hsong, hcredited⟩)
    obtain ⟨tile, htile, rfl⟩ := List.mem_map.mp hmem
    exact ⟨tile, htile, (hdrill song tile).mpr ⟨hsong, hcredited⟩⟩

/-- One song, credited to two artists. -/
def duetTags (_ : List Char) (tag : String) : List (List Char) :=
  if tag = "artist" then ["Ella & Louis".toList] else []

def duetLibrary : Library :=
  .tagged ["duet.mp3".toList] duetTags (by decide) (by decide) (by decide)

theorem artist_tiles_cover_duet :
    ArtistIndex duetLibrary duetTags ∧
      TilesCover .ascii .stored .stored untagged duetTags
        ⟨.idle duetLibrary, none, []⟩ ⟨.idle duetLibrary, none, []⟩ :=
  ⟨Library.tagged_index .., artist_tiles_cover .ascii .stored .stored untagged duetTags
    ⟨.idle duetLibrary, none, []⟩ ⟨.idle duetLibrary, none, []⟩ rfl (Library.tagged_index ..)⟩

end EvoAudio.Playback
