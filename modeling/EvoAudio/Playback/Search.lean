import EvoAudio.Playback.Browse

/-!
# Searching the library

`library.search_library` of `playback.mpd/src/library.rs`. The handler goes
through the registered sources, asks MPD for the query once for each source it
searches and shows every hit under the id of that source. MPD is asked for the
whole database each time, so a hit need not be a song of the source it is shown
under.
-/

namespace EvoAudio.Playback.Search

inductive SourceKind where
  | localInternal
  | localUsb
  | networkNasSmb
  | networkNasNfs
  | cloudGdrive
  | cloudOnedrive
  | networkDlna
  deriving DecidableEq, Repr

structure SearchLibraryPayload where
  v : Nat
  query : List Char
  sourceIds : Option (List (List Char))
  includeOffline : Bool
  maxResults : Nat
  deriving DecidableEq, Repr

/-- What the handler reads of the library. -/
structure Context where
  musicDirectory : UnixPath
  registry : SourceRegistry
  kind : List Char → SourceKind

/-- A hit with the source it is shown under. -/
structure Row where
  entry : LibraryEntry
  sourceId : List Char
  deriving DecidableEq, Repr

structure SearchResponse where
  results : List Row
  truncated : Bool
  staleSources : List (List Char)
  deriving DecidableEq, Repr

def searchMaxResultsCap : Nat := 1000

-- ---------------------------------------------------------------------------
-- The handler
-- ---------------------------------------------------------------------------

def excluded (payload : SearchLibraryPayload) (sourceId : List Char) : Bool :=
  match payload.sourceIds with
  | some ids => !ids.contains sourceId
  | none => false

/-- The cloud and DLNA sources are not searched. -/
def unsearchable : SourceKind → Bool
  | .cloudGdrive | .cloudOnedrive | .networkDlna => true
  | _ => false

/-- The hits of one source, and whether the limit was reached. It is tested
after a row is pushed. -/
def pushHits (sourceId : List Char) (maxResults : Nat) :
    List Row → List DirEntry → List Row × Bool
  | results, [] => (results, false)
  | results, entry :: entries =>
    let results := results ++ [⟨renderLibraryEntry entry, sourceId⟩]
    if results.length ≥ maxResults then (results, true)
    else pushHits sourceId maxResults results entries

/-- The loop over the sources. `answer` is what MPD replies to `search any`. -/
def searchSources (ctx : Context) (answer : List Char → Except Reason (List DirEntry))
    (payload : SearchLibraryPayload) (maxResults : Nat) :
    SearchResponse → List SourceRecord → Except LibraryVerbError SearchResponse
  | response, [] => .ok response
  | response, record :: records =>
    if excluded payload record.id then searchSources ctx answer payload maxResults response records
    else if record.state.outOfReach then
      let staleSources :=
        if payload.includeOffline then response.staleSources ++ [record.id]
        else response.staleSources
      searchSources ctx answer payload maxResults { response with staleSources } records
    else if unsearchable (ctx.kind record.id) then
      searchSources ctx answer payload maxResults response records
    else
      match answer payload.query with
      | .error reason => .error (.mpd "search_library" reason)
      | .ok entries =>
        match pushHits record.id maxResults response.results entries with
        | (results, true) => .ok { response with results, truncated := true }
        | (results, false) =>
          searchSources ctx answer payload maxResults { response with results } records

def handleSearchLibrary (ctx : Context) (answer : List Char → Except Reason (List DirEntry))
    (payload : SearchLibraryPayload) : Except LibraryVerbError SearchResponse :=
  if payload.v ≠ libraryPayloadVersion then
    .error (.payloadVersion "library.search_library" payload.v libraryPayloadVersion)
  else
    searchSources ctx answer payload (min payload.maxResults searchMaxResultsCap) ⟨[], false, []⟩
      ctx.registry.snapshot

-- ---------------------------------------------------------------------------
-- The rows of a response
-- ---------------------------------------------------------------------------

/-- The source is not skipped. -/
def searched (ctx : Context) (payload : SearchLibraryPayload) (record : SourceRecord) : Bool :=
  !excluded payload record.id && !record.state.outOfReach && !unsearchable (ctx.kind record.id)

def row (sourceId : List Char) (entry : DirEntry) : Row := ⟨renderLibraryEntry entry, sourceId⟩

/-- Every hit under every source that is searched. -/
def rows (ctx : Context) (payload : SearchLibraryPayload) (hits : List DirEntry)
    (records : List SourceRecord) : List Row :=
  (records.filter (searched ctx payload)).flatMap fun record => hits.map (row record.id)

/-- As many rows as a response can hold: one, when none is asked for. -/
def limit (payload : SearchLibraryPayload) : Nat :=
  max 1 (min payload.maxResults searchMaxResultsCap)

theorem pushHits_eq {results : List Row} (hroom : results.length < max 1 maxResults)
    (sourceId : List Char) (hits : List DirEntry) :
    pushHits sourceId maxResults results hits =
      ((results ++ hits.map (row sourceId)).take (max 1 maxResults),
        decide (max 1 maxResults ≤ results.length + hits.length)) := by
  induction hits generalizing results with
  | nil =>
    have hmore : ¬max 1 maxResults ≤ results.length := Nat.not_le.mpr hroom
    simp only [pushHits, List.map_nil, List.append_nil, List.length_nil, Nat.add_zero, hmore,
      List.take_of_length_le (Nat.le_of_lt hroom), decide_false]
  | cons hit hits ih =>
    simp only [pushHits, List.length_append, List.length_singleton]
    split
    next hfull =>
      have hlast : results.length + 1 = max 1 maxResults := by omega
      have htake : (results ++ row sourceId hit :: hits.map (row sourceId)).take
          (results.length + 1) = results ++ [row sourceId hit] := by
        rw [List.take_append]
        simp
      simp only [← hlast, List.map_cons, htake]
      simp [row]
    next hmore =>
      rw [ih (by simp; omega)]
      simp [row, Nat.add_assoc, Nat.add_comm 1]

theorem rows_cons (ctx : Context) (payload : SearchLibraryPayload) (hits : List DirEntry)
    (record : SourceRecord) (records : List SourceRecord) :
    rows ctx payload hits (record :: records) =
      (if searched ctx payload record then hits.map (row record.id) else []) ++
        rows ctx payload hits records := by
  unfold rows
  rw [List.filter_cons]
  split <;> simp

/-- A response shows the first rows of all that there are. -/
theorem searchSources_results {ctx : Context} {payload : SearchLibraryPayload}
    {answer : List Char → Except Reason (List DirEntry)}
    (hanswer : answer payload.query = .ok hits) {response : SearchResponse}
    (hroom : response.results.length < max 1 maxResults) (records : List SourceRecord) :
    ∃ shown, searchSources ctx answer payload maxResults response records = .ok shown ∧
      shown.results =
        (response.results ++ rows ctx payload hits records).take (max 1 maxResults) := by
  induction records generalizing response with
  | nil =>
    refine ⟨response, rfl, ?_⟩
    simp [rows, List.take_of_length_le (Nat.le_of_lt hroom)]
  | cons record records ih =>
    rw [rows_cons]
    unfold searchSources
    split
    next hexcluded => simpa [searched, hexcluded] using ih hroom
    next hincluded =>
      split
      next hoffline =>
        have hskip : searched ctx payload record = false := by simp [searched, hoffline]
        obtain ⟨shown, hshown, hresults⟩ := @ih
          ⟨response.results, response.truncated, if payload.includeOffline then
            response.staleSources ++ [record.id] else response.staleSources⟩ hroom
        exact ⟨shown, hshown, by simpa [hskip] using hresults⟩
      next honline =>
        split
        next hkind => simpa [searched, hkind] using ih hroom
        next hkind =>
          have hsearched : searched ctx payload record := by
            simp [searched, hincluded, honline, hkind]
          simp only [hanswer, pushHits_eq hroom, if_pos hsearched]
          split
          next results hpair =>
            obtain ⟨rfl, hfull⟩ := Prod.mk.inj hpair
            have hlength := of_decide_eq_true hfull
            refine ⟨_, rfl, ?_⟩
            rw [← List.append_assoc]
            exact (List.take_append_of_le_length (by simpa using hlength)).symm
          next results hpair =>
            obtain ⟨rfl, hmore⟩ := Prod.mk.inj hpair
            have hlength := of_decide_eq_false hmore
            have hall : (response.results ++ hits.map (row record.id)).take (max 1 maxResults) =
                response.results ++ hits.map (row record.id) :=
              List.take_of_length_le (by simp; omega)
            rw [hall]
            obtain ⟨shown, hshown, hresults⟩ := @ih
              ⟨response.results ++ hits.map (row record.id), response.truncated,
                response.staleSources⟩
              (by simpa using Nat.not_le.mp hlength)
            exact ⟨shown, hshown, by simpa using hresults⟩

/-- A response to a query MPD answered. -/
theorem handleSearchLibrary_results (ctx : Context) {payload : SearchLibraryPayload}
    {answer : List Char → Except Reason (List DirEntry)}
    (hv : payload.v = libraryPayloadVersion) (hanswer : answer payload.query = .ok hits) :
    ∃ shown, handleSearchLibrary ctx answer payload = .ok shown ∧
      shown.results = (rows ctx payload hits ctx.registry.snapshot).take (limit payload) := by
  rw [handleSearchLibrary, if_neg (not_not.mpr hv)]
  exact searchSources_results hanswer (by simp) ctx.registry.snapshot

/-- A query MPD did not answer shows nothing. -/
theorem searchSources_error {ctx : Context} {payload : SearchLibraryPayload}
    {answer : List Char → Except Reason (List DirEntry)}
    (hanswer : answer payload.query = .error reason) {response shown : SearchResponse}
    {records : List SourceRecord}
    (h : searchSources ctx answer payload maxResults response records = .ok shown) :
    shown.results = response.results := by
  induction records generalizing response with
  | nil =>
    cases h
    rfl
  | cons record records ih =>
    unfold searchSources at h
    split at h
    next hexcluded => exact ih h
    next hincluded =>
      split at h
      next hoffline =>
        have hsame := ih h
        exact hsame
      next honline =>
        split at h
        next hkind => exact ih h
        next hkind => simp [hanswer] at h

-- ---------------------------------------------------------------------------
-- Whose song a row shows
-- ---------------------------------------------------------------------------

/-- Each song is shown once, under the source that owns it, and that source is
neither left out by the request nor out of reach. -/
structure Attributed (ctx : Context) (payload : SearchLibraryPayload) (results : List Row) :
    Prop where
  once : (results.map (·.entry.uri)).Nodup
  owner : ∀ row ∈ results,
    resolveSource ctx.musicDirectory row.entry.uri ctx.registry.snapshot = some row.sourceId
  reachable : ∀ row ∈ results, ∀ record ∈ ctx.registry.snapshot,
    resolveSource ctx.musicDirectory row.entry.uri ctx.registry.snapshot = some record.id →
      excluded payload record.id = false ∧ record.state.outOfReach = false

/-- The hits that fit in a response are songs of the first source that is
searched, and no other source is searched after it. -/
def Scoped (ctx : Context) (payload : SearchLibraryPayload) (hits : List DirEntry) : Prop :=
  match ctx.registry.snapshot.filter (searched ctx payload) with
  | [] => True
  | first :: others =>
    ((hits.take (limit payload)).map fun hit => (renderLibraryEntry hit).uri).Nodup ∧
      (∀ hit ∈ hits.take (limit payload),
        resolveSource ctx.musicDirectory (renderLibraryEntry hit).uri ctx.registry.snapshot =
          some first.id) ∧
      (others = [] ∨ hits = [] ∨ limit payload ≤ hits.length)

theorem limit_pos (payload : SearchLibraryPayload) : 0 < limit payload := by simp [limit]

theorem reachable_of_owner {ctx : Context} {payload : SearchLibraryPayload} {results : List Row}
    (howner : ∀ row ∈ results,
      resolveSource ctx.musicDirectory row.entry.uri ctx.registry.snapshot = some row.sourceId)
    (hsearched : ∀ row ∈ results, ∃ record ∈ ctx.registry.snapshot,
      searched ctx payload record ∧ record.id = row.sourceId) :
    ∀ row ∈ results, ∀ record ∈ ctx.registry.snapshot,
      resolveSource ctx.musicDirectory row.entry.uri ctx.registry.snapshot = some record.id →
        excluded payload record.id = false ∧ record.state.outOfReach = false := by
  intro row hrow record hrecord hresolve
  obtain ⟨source, hsource, hpass, hid⟩ := hsearched row hrow
  have hsame : source.id = record.id := by
    rw [hid, ← Option.some.injEq, ← howner row hrow, hresolve]
  -- The registry holds one record under an id.
  have heq : source = record := by
    have hget := SourceRegistry.mem_snapshot.mp hsource
    rw [hsame, SourceRegistry.mem_snapshot.mp hrecord] at hget
    exact (Option.some.inj hget).symm
  subst heq
  simp only [searched, Bool.and_eq_true, Bool.not_eq_true'] at hpass
  exact hpass.1

/-- The rows of a response begin with the hits under the first source. -/
theorem take_rows {ctx : Context} {payload : SearchLibraryPayload} {records : List SourceRecord}
    (hfilter : records.filter (searched ctx payload) = first :: others) (hits : List DirEntry)
    (n : Nat) :
    (rows ctx payload hits records).take n =
      (hits.take n).map (row first.id) ++
        (others.flatMap fun record => hits.map (row record.id)).take (n - hits.length) := by
  simp [rows, hfilter, List.take_append, List.map_take]

theorem mem_take_rows {ctx : Context} {payload : SearchLibraryPayload} {records : List SourceRecord}
    {shown : Row} (h : shown ∈ (rows ctx payload hits records).take n) :
    ∃ record ∈ records, searched ctx payload record ∧ record.id = shown.sourceId := by
  obtain ⟨record, hrecord, hshown⟩ := List.mem_flatMap.mp (List.mem_of_mem_take h)
  obtain ⟨hmem, hsearched⟩ := List.mem_filter.mp hrecord
  obtain ⟨hit, -, rfl⟩ := List.mem_map.mp hshown
  exact ⟨record, hmem, hsearched, rfl⟩

theorem attributed_of_scoped {ctx : Context} {payload : SearchLibraryPayload}
    (h : Scoped ctx payload hits) :
    Attributed ctx payload
      ((rows ctx payload hits ctx.registry.snapshot).take (limit payload)) := by
  cases hfilter : ctx.registry.snapshot.filter (searched ctx payload) with
  | nil => constructor <;> simp [rows, hfilter]
  | cons first others =>
    simp only [Scoped, hfilter] at h
    obtain ⟨honce, howner, halone⟩ := h
    have hrest : (others.flatMap fun record => hits.map (row record.id)).take
        (limit payload - hits.length) = [] := by
      rcases halone with rfl | rfl | hfull
      · simp
      · simp
      · simp [Nat.sub_eq_zero_of_le hfull]
    have hrows := take_rows hfilter hits (limit payload)
    rw [hrest, List.append_nil] at hrows
    have howner' : ∀ shown ∈ (rows ctx payload hits ctx.registry.snapshot).take (limit payload),
        resolveSource ctx.musicDirectory shown.entry.uri ctx.registry.snapshot =
          some shown.sourceId := by
      rw [hrows]
      intro shown hshown
      obtain ⟨hit, hhit, rfl⟩ := List.mem_map.mp hshown
      exact howner hit hhit
    refine ⟨?_, howner', reachable_of_owner howner' fun shown hshown => mem_take_rows hshown⟩
    rw [hrows, List.map_map]
    exact honce

theorem scoped_of_attributed {ctx : Context} {payload : SearchLibraryPayload}
    (h : Attributed ctx payload
      ((rows ctx payload hits ctx.registry.snapshot).take (limit payload))) :
    Scoped ctx payload hits := by
  cases hfilter : ctx.registry.snapshot.filter (searched ctx payload) with
  | nil => simp [Scoped, hfilter]
  | cons first others =>
    obtain ⟨honce, howner, -⟩ := h
    rw [take_rows hfilter] at honce howner
    rw [List.map_append, List.nodup_append] at honce
    obtain ⟨hfirst, -, hapart⟩ := honce
    simp only [Scoped, hfilter]
    rw [List.map_map] at hfirst
    refine ⟨hfirst, ?_, ?_⟩
    · intro hit hhit
      exact howner _ (List.mem_append_left _ (List.mem_map_of_mem hhit))
    · -- A second source shows the first hit once more.
      by_contra hmore
      simp only [not_or, Nat.not_le] at hmore
      obtain ⟨hothers, hhits, hroom⟩ := hmore
      obtain ⟨second, others, rfl⟩ := List.exists_cons_of_ne_nil hothers
      obtain ⟨hit, hits, rfl⟩ := List.exists_cons_of_ne_nil hhits
      obtain ⟨n, hn⟩ := Nat.exists_eq_succ_of_ne_zero (Nat.sub_ne_zero_of_lt hroom)
      obtain ⟨m, hm⟩ := Nat.exists_eq_succ_of_ne_zero (Nat.ne_of_gt (limit_pos payload))
      refine hapart (renderLibraryEntry hit).uri ?_ (renderLibraryEntry hit).uri ?_ rfl
      · simp [hm, row]
      · rw [hn]
        simp [row]

/-- When the results of a search are attributed once and correctly. -/
theorem handleSearchLibrary_attributed_iff (ctx : Context)
    (answer : List Char → Except Reason (List DirEntry)) (payload : SearchLibraryPayload) :
    (∀ response, handleSearchLibrary ctx answer payload = .ok response →
        Attributed ctx payload response.results) ↔
      (payload.v = libraryPayloadVersion → ∀ hits, answer payload.query = .ok hits →
        Scoped ctx payload hits) := by
  constructor
  · intro h hv hits hanswer
    obtain ⟨shown, hshown, hresults⟩ := handleSearchLibrary_results ctx hv hanswer
    exact scoped_of_attributed (hresults ▸ h shown hshown)
  · intro h response hresponse
    by_cases hv : payload.v = libraryPayloadVersion
    · cases hanswer : answer payload.query with
      | error reason =>
        rw [handleSearchLibrary, if_neg (not_not.mpr hv)] at hresponse
        have hnone := searchSources_error hanswer hresponse
        constructor <;> simp [hnone]
      | ok hits =>
        obtain ⟨shown, hshown, hresults⟩ := handleSearchLibrary_results ctx hv hanswer
        rw [hshown] at hresponse
        cases hresponse
        exact hresults ▸ attributed_of_scoped (h hv hits hanswer)
    · simp [handleSearchLibrary, hv] at hresponse

/-- The internal library, with a stick beneath it. -/
def stickLibrary : Context where
  musicDirectory := UnixPath.components "/music".toList
  registry := nestedSources
  kind sourceId := if sourceId = "usb".toList then .localUsb else .localInternal

/-- The one hit of a search is a song of the stick, and it is shown once more as
a song of the internal library. -/
theorem song_shown_under_both_sources :
    let payload : SearchLibraryPayload :=
      ⟨libraryPayloadVersion, "a".toList, none, false, searchMaxResultsCap⟩
    let song := "USB/stick/album/a.flac".toList
    ∃ response,
      handleSearchLibrary stickLibrary (fun _ => .ok [.file song]) payload = .ok response ∧
        response.results.map (fun row => (row.entry.uri, row.sourceId)) =
          [(song, "usb".toList), (song, "local-internal".toList)] ∧
        resolveSource stickLibrary.musicDirectory song stickLibrary.registry.snapshot =
          some "usb".toList ∧
        ¬Attributed stickLibrary payload response.results := by
  refine ⟨_, rfl, by decide, by decide, ?_⟩
  intro h
  exact absurd h.once (by decide)

end EvoAudio.Playback.Search
