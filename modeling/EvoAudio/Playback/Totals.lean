import EvoAudio.Playback.ScanProgress
import EvoAudio.Playback.Works

/-!
# The totals of the library

`render_state_envelope` of `playback.mpd/src/library.rs` publishes the sum of
the track counts of all sources. The counts are settled source by source from
what MPD's database holds under the mount, by `settle_local_internal_counts`
for the internal source and by a scan's terminal for the others. Mounts nest,
and a song under two of them is in the counts of both.
-/

namespace EvoAudio.Playback.Totals

open ScanProgress (TrackCounts)
open Works (ClassicalCounters u32Max)

/-- What the record of a source holds of its last scan. -/
structure Scanned where
  counts : TrackCounts
  lastScanAtMs : Option Nat
  deriving DecidableEq, Repr

structure Library where
  registry : SourceRegistry
  scanned : List Char → Scanned

structure StateEnvelope where
  totalTracks : Nat
  totalTracksAvailable : Nat
  lastFullScanAtMs : Option Nat
  counters : ClassicalCounters
  deriving DecidableEq, Repr

def localInternalSourceId : List Char := "local-internal".toList

-- ---------------------------------------------------------------------------
-- Settling
-- ---------------------------------------------------------------------------

/-- An unknown source is an error, which is logged. -/
def Library.updateTrackCounts (library : Library) (sourceId : List Char) (counts : TrackCounts)
    (nowMs : Nat) : Library :=
  match library.registry.get sourceId with
  | none => library
  | some _ =>
    { library with scanned := Function.update library.scanned sourceId ⟨counts, some nowMs⟩ }

/-- What MPD answers to a `find base`, when it answers. -/
structure Answer where
  found : Bool
  nowMs : Nat
  deriving DecidableEq, Repr

def settleLocalInternalCounts (musicDirectory : UnixPath) (songs : List UnixPath) (answer : Answer)
    (library : Library) : Library :=
  match library.registry.get localInternalSourceId with
  | none => library
  | some record =>
    match mpdDatabaseRelativePath musicDirectory record.mountPath [] with
    | .error _ => library
    | .ok base =>
      if !answer.found then library
      else
        let total := min (enumerateSongsUnderMount songs base).length u32Max
        let available := if record.state.isReachable then total else 0
        library.updateTrackCounts localInternalSourceId ⟨total, available⟩ answer.nowMs

/-- `apply_settled_counts`, in the words of the sticker of the source. -/
def applySettledCounts (sourceId : List Char) (songCount nowMs : Nat) (library : Library) :
    Library :=
  match library.registry.get sourceId with
  | none => library
  | some record =>
    let total := min songCount u32Max
    let available := if stickerValueFor record.state = "1" then total else 0
    library.updateTrackCounts sourceId ⟨total, available⟩ nowMs

def settleSourceCounts (musicDirectory : UnixPath) (songs : List UnixPath) (sourceId : List Char)
    (answer : Answer) (library : Library) : Library :=
  match library.registry.get sourceId with
  | none => library
  | some record =>
    match mpdDatabaseRelativePath musicDirectory record.mountPath [] with
    | .error _ => library
    | .ok base =>
      if !answer.found then library
      else
        applySettledCounts sourceId (enumerateSongsUnderMount songs base).length answer.nowMs library

inductive Call where
  | localInternal (answer : Answer)
  | source (sourceId : List Char) (answer : Answer)
  deriving DecidableEq, Repr

def Call.sourceId : Call → List Char
  | .localInternal _ => localInternalSourceId
  | .source sourceId _ => sourceId

def Call.answer : Call → Answer
  | .localInternal answer | .source _ answer => answer

def settle (musicDirectory : UnixPath) (songs : List UnixPath) (library : Library) :
    Call → Library
  | .localInternal answer => settleLocalInternalCounts musicDirectory songs answer library
  | .source sourceId answer => settleSourceCounts musicDirectory songs sourceId answer library

def settleAll (musicDirectory : UnixPath) (songs : List UnixPath) (library : Library)
    (calls : List Call) : Library :=
  calls.foldl (settle musicDirectory songs) library

-- ---------------------------------------------------------------------------
-- The envelope
-- ---------------------------------------------------------------------------

def Library.trackCount (library : Library) (record : SourceRecord) : Nat :=
  (library.scanned record.id).counts.trackCount

def Library.trackCountAvailable (library : Library) (record : SourceRecord) : Nat :=
  (library.scanned record.id).counts.trackCountAvailable

/-- The sums are of 32 bits. The counters of the works are null until there is an
aggregate. -/
def renderStateEnvelope (library : Library) (worksAggregate : Option Works.WorksAggregate) :
    StateEnvelope where
  totalTracks := (library.registry.snapshot.map library.trackCount).sum % 2 ^ 32
  totalTracksAvailable := (library.registry.snapshot.map library.trackCountAvailable).sum % 2 ^ 32
  lastFullScanAtMs :=
    (library.registry.snapshot.filterMap fun record => (library.scanned record.id).lastScanAtMs).max?
  counters := (worksAggregate.map (·.counters)).getD ⟨none, none, none⟩

-- ---------------------------------------------------------------------------
-- Settled counts
-- ---------------------------------------------------------------------------

/-- The song lies below the mount. -/
def isUnder (musicDirectory : UnixPath) (record : SourceRecord) (song : UnixPath) : Bool :=
  record.mountPath.isPrefixOf (musicDirectory ++ song)

/-- The counts of a source that holds so many songs. -/
def settledCounts (state : SourceState) (songCount : Nat) : TrackCounts :=
  ⟨min songCount u32Max, if state.isReachable then min songCount u32Max else 0⟩

/-- The source has the counts of the database. -/
def Settled (musicDirectory : UnixPath) (songs : List UnixPath) (library : Library)
    (record : SourceRecord) : Prop :=
  (library.scanned record.id).counts =
    settledCounts record.state (songs.countP (isUnder musicDirectory record))

/-- The call settles the counts of the source: MPD answers it, and the source
is mounted below the music directory. -/
def Call.Settles (musicDirectory : UnixPath) (record : SourceRecord) (call : Call) : Prop :=
  call.sourceId = record.id ∧ call.answer.found ∧ musicDirectory <+: record.mountPath

theorem length_enumerateSongsUnderMount {record : SourceRecord}
    (h : mpdDatabaseRelativePath musicDirectory record.mountPath [] = .ok base)
    (songs : List UnixPath) :
    (enumerateSongsUnderMount songs base).length =
      songs.countP (isUnder musicDirectory record) := by
  obtain ⟨relative, hmount, rfl⟩ := mpdDatabaseRelativePath_mount h
  rw [enumerateSongsUnderMount, ← List.countP_eq_length_filter, List.countP_map]
  refine List.countP_congr fun song _ => ?_
  rw [Function.comp_apply, isUnderBase_join, isUnder, List.isPrefixOf_iff_prefix, hmount,
    List.prefix_append_right_inj]

theorem stickerValueFor_eq_one (state : SourceState) :
    stickerValueFor state = "1" ↔ state.isReachable = true := by
  cases h : state.isReachable <;> simp [stickerValueFor, h]

/-- The watcher of a scan writes the same counts. -/
theorem lookup_counts_applySettledCounts {s : ScanProgress.Scans} {watcher : ScanProgress.Watcher}
    (hget : s.registry.get watcher.sourceId = some record) (i songCount : Nat) :
    (s.applySettledCounts i watcher songCount).counts.lookup watcher.sourceId =
      some (settledCounts record.state songCount) := by
  rw [ScanProgress.Scans.applySettledCounts, hget]
  simp [ScanProgress.Scans.setState, ScanProgress.Scans.record,
    ScanProgress.Scans.updateTrackCounts, settledCounts, stickerValueFor_eq_one, u32Max]

/-- The two ways of settling differ in their words only. -/
theorem settle_eq (musicDirectory : UnixPath) (songs : List UnixPath) (library : Library)
    (call : Call) : settle musicDirectory songs library call =
      settleSourceCounts musicDirectory songs call.sourceId call.answer library := by
  cases call with
  | source sourceId answer => rfl
  | localInternal answer =>
    simp only [settle, Call.sourceId, Call.answer, settleLocalInternalCounts, settleSourceCounts]
    cases hget : library.registry.get localInternalSourceId with
    | none => rfl
    | some record => simp [applySettledCounts, hget, stickerValueFor_eq_one]

/-- The library after the counts of the source were settled. -/
def Library.settled (library : Library) (musicDirectory : UnixPath) (songs : List UnixPath)
    (record : SourceRecord) (nowMs : Nat) : Library :=
  { library with
    scanned := Function.update library.scanned record.id
      ⟨settledCounts record.state (songs.countP (isUnder musicDirectory record)), some nowMs⟩ }

theorem scanned_settled (library : Library) (record : SourceRecord) (sourceId : List Char) :
    (library.settled musicDirectory songs record nowMs).scanned sourceId =
      if sourceId = record.id then
        ⟨settledCounts record.state (songs.countP (isUnder musicDirectory record)), some nowMs⟩
      else library.scanned sourceId :=
  Function.update_apply ..

theorem settleSourceCounts_ok {library : Library} {record : SourceRecord} {answer : Answer}
    (hget : library.registry.get sourceId = some record)
    (hpath : mpdDatabaseRelativePath musicDirectory record.mountPath [] = .ok base)
    (hfound : answer.found) (songs : List UnixPath) :
    settleSourceCounts musicDirectory songs sourceId answer library =
      library.settled musicDirectory songs record answer.nowMs := by
  rw [settleSourceCounts, hget]
  dsimp only
  rw [hpath]
  simp only [hfound, Bool.not_true, Bool.false_eq_true, if_false, applySettledCounts, hget,
    Library.updateTrackCounts, Library.settled, settledCounts, SourceRegistry.get_id hget,
    length_enumerateSongsUnderMount hpath, stickerValueFor_eq_one]

/-- A call leaves the library or settles the counts of its source. -/
theorem settle_cases (musicDirectory : UnixPath) (songs : List UnixPath) (library : Library)
    (call : Call) :
    settle musicDirectory songs library call = library ∨
      ∃ record, library.registry.get call.sourceId = some record ∧
        settle musicDirectory songs library call =
          library.settled musicDirectory songs record call.answer.nowMs := by
  rw [settle_eq]
  cases hget : library.registry.get call.sourceId with
  | none => simp [settleSourceCounts, hget]
  | some record =>
    cases hpath : mpdDatabaseRelativePath musicDirectory record.mountPath [] with
    | error error =>
      left
      rw [settleSourceCounts, hget]
      dsimp only
      rw [hpath]
    | ok base =>
      cases hfound : call.answer.found with
      | false =>
        left
        rw [settleSourceCounts, hget]
        dsimp only
        rw [hpath]
        simp [hfound]
      | true => exact .inr ⟨record, rfl, settleSourceCounts_ok hget hpath hfound songs⟩

theorem registry_settle (musicDirectory : UnixPath) (songs : List UnixPath) (library : Library)
    (call : Call) : (settle musicDirectory songs library call).registry = library.registry := by
  obtain h | ⟨record, -, h⟩ := settle_cases musicDirectory songs library call
  · rw [h]
  · rw [h, Library.settled]

theorem registry_settleAll (musicDirectory : UnixPath) (songs : List UnixPath) (library : Library)
    (calls : List Call) :
    (settleAll musicDirectory songs library calls).registry = library.registry := by
  induction calls generalizing library with
  | nil => rfl
  | cons call calls ih =>
    rw [settleAll, List.foldl_cons, ← settleAll, ih, registry_settle]

/-- Settling another source, or this one again, keeps its counts. -/
theorem Settled.settle {library : Library} (hget : library.registry.get record.id = some record)
    (h : Settled musicDirectory songs library record) (call : Call) :
    Settled musicDirectory songs (settle musicDirectory songs library call) record := by
  obtain hsame | ⟨other, hother, hsettled⟩ := settle_cases musicDirectory songs library call
  · rwa [hsame]
  · rw [hsettled, Settled, scanned_settled]
    split
    next hid =>
      have heq : other = record := by
        rw [← SourceRegistry.get_id hother, ← hid, hget] at hother
        exact (Option.some.inj hother).symm
      rw [heq]
    next => exact h

theorem settled_of_settles {library : Library} {call : Call}
    (hget : library.registry.get record.id = some record)
    (h : call.Settles musicDirectory record) (songs : List UnixPath) :
    Settled musicDirectory songs (settle musicDirectory songs library call) record := by
  obtain ⟨hid, hfound, relative, hmount⟩ := h
  have hpath : ∃ base, mpdDatabaseRelativePath musicDirectory record.mountPath [] = .ok base := by
    rw [mpdDatabaseRelativePath, ← hmount, Text.stripPrefix_append]
    exact ⟨_, rfl⟩
  obtain ⟨base, hbase⟩ := hpath
  rw [settle_eq, hid, settleSourceCounts_ok hget hbase hfound]
  rw [Settled, scanned_settled, if_pos rfl]

/-- After a run that settles a source its counts are those of the database. -/
theorem settled_settleAll {library : Library} {calls : List Call}
    (hget : library.registry.get record.id = some record)
    (h : ∃ call ∈ calls, call.Settles musicDirectory record) (songs : List UnixPath) :
    Settled musicDirectory songs (settleAll musicDirectory songs library calls) record := by
  have hkeep (library : Library) (calls : List Call)
      (hget : library.registry.get record.id = some record)
      (hsettled : Settled musicDirectory songs library record) :
      Settled musicDirectory songs (settleAll musicDirectory songs library calls) record := by
    induction calls generalizing library with
    | nil => exact hsettled
    | cons call calls ih =>
      exact ih _ (by rwa [registry_settle]) (hsettled.settle hget call)
  induction calls generalizing library with
  | nil => simp at h
  | cons call calls ih =>
    rw [settleAll, List.foldl_cons, ← settleAll]
    obtain ⟨settling, hmem, hsettles⟩ := h
    rcases List.mem_cons.mp hmem with rfl | hmem
    · exact hkeep _ calls (by rwa [registry_settle]) (settled_of_settles hget hsettles songs)
    · exact ih (by rwa [registry_settle]) ⟨settling, hmem, hsettles⟩

-- ---------------------------------------------------------------------------
-- Songs counted once
-- ---------------------------------------------------------------------------

/-- The source that owns the song can be reached. -/
def ownerReachable (musicDirectory : UnixPath) (registry : SourceRegistry) (song : UnixPath) :
    Bool :=
  match resolveSource musicDirectory (UnixPath.join song) registry.snapshot with
  | some sourceId => (registry.get sourceId).any (·.state.isReachable)
  | none => false

/-- The totals are the numbers of songs under some source and of songs whose
owner can be reached. -/
def CountsSongs (musicDirectory : UnixPath) (songs : List UnixPath) (registry : SourceRegistry)
    (envelope : StateEnvelope) : Prop :=
  envelope.totalTracks =
      songs.countP (fun song => registry.snapshot.any (isUnder musicDirectory · song)) ∧
    envelope.totalTracksAvailable = songs.countP (ownerReachable musicDirectory registry)

/-- No song is under two mounts, a reachable source at the music directory itself
holds none of the `USB` and `NAS` trees, and the songs of each source fit in 32
bits. -/
structure CountedOnce (musicDirectory : UnixPath) (songs : List UnixPath)
    (registry : SourceRegistry) : Prop where
  apart : ∀ song ∈ songs, registry.snapshot.countP (isUnder musicDirectory · song) ≤ 1
  siblings : ∀ song ∈ songs, firstSegmentIsSiblingTree (UnixPath.join song) →
    ∀ record ∈ registry.snapshot, record.mountPath = musicDirectory →
      record.state.isReachable = false
  fits : ∀ record ∈ registry.snapshot, songs.countP (isUnder musicDirectory record) ≤ u32Max

section Counting

variable {musicDirectory : UnixPath} {songs : List UnixPath} {registry : SourceRegistry}
  {song : UnixPath}

/-- The sources above the song that can be reached. -/
def reachableAbove (musicDirectory : UnixPath) (registry : SourceRegistry) (song : UnixPath) :
    Nat :=
  registry.snapshot.countP fun record => isUnder musicDirectory record song && record.state.isReachable

theorem filter_isUnder (musicDirectory : UnixPath) (snapshot : List SourceRecord)
    (song : UnixPath) : snapshot.filter (isUnder musicDirectory · song) =
      containing musicDirectory (UnixPath.join song) snapshot := by
  simp only [containing, absolutePath_join, isUnder]

theorem reachableAbove_eq (musicDirectory : UnixPath) (registry : SourceRegistry)
    (song : UnixPath) : reachableAbove musicDirectory registry song =
      (containing musicDirectory (UnixPath.join song) registry.snapshot).countP
        (·.state.isReachable) := by
  rw [← filter_isUnder, List.countP_filter, reachableAbove]
  refine List.countP_congr fun record _ => ?_
  rw [Bool.and_comm]

theorem reachableAbove_pos (h : ownerReachable musicDirectory registry song) :
    0 < reachableAbove musicDirectory registry song := by
  unfold ownerReachable at h
  split at h
  next sourceId hresolve =>
    obtain ⟨owner, rfl, hmem, hcontains, -⟩ := resolveSource_longest hresolve
    rw [SourceRegistry.mem_snapshot.mp hmem] at h
    rw [absolutePath_join] at hcontains
    refine List.countP_pos_iff.mpr ⟨owner, hmem, ?_⟩
    rw [Bool.and_eq_true, isUnder, List.isPrefixOf_iff_prefix]
    exact ⟨hcontains, h⟩
  · cases h

/-- A song under at most one mount is counted as available when its owner can be
reached, unless the tree it is in is kept from the music directory's source. -/
theorem reachableAbove_eq_iff
    (happart : registry.snapshot.countP (isUnder musicDirectory · song) ≤ 1) :
    reachableAbove musicDirectory registry song =
        (if ownerReachable musicDirectory registry song then 1 else 0) ↔
      (firstSegmentIsSiblingTree (UnixPath.join song) → ∀ record ∈ registry.snapshot,
        record.mountPath = musicDirectory → record.state.isReachable = false) := by
  have hroot : ∀ record ∈ registry.snapshot, record.mountPath = musicDirectory →
      record ∈ containing musicDirectory (UnixPath.join song) registry.snapshot := by
    intro record hrecord hmount
    rw [← filter_isUnder, List.mem_filter, isUnder, List.isPrefixOf_iff_prefix, hmount]
    exact ⟨hrecord, List.prefix_append ..⟩
  rw [List.countP_eq_length_filter, filter_isUnder] at happart
  rw [reachableAbove_eq, ownerReachable]
  cases hcontaining : containing musicDirectory (UnixPath.join song) registry.snapshot with
  | nil =>
    have hnone : resolveSource musicDirectory (UnixPath.join song) registry.snapshot = none := by
      rw [resolveSource, foldl_longerMount_containing, hcontaining]
      simp
    rw [hcontaining] at hroot
    simp only [hnone, List.countP_nil, Bool.false_eq_true, if_false, true_iff]
    exact fun _ record hrecord hmount => absurd (hroot record hrecord hmount) List.not_mem_nil
  | cons only others =>
    rw [hcontaining] at happart hroot
    obtain rfl : others = [] := List.length_eq_zero_iff.mp (by simpa using happart)
    obtain ⟨record, hmem, -, -, hresolve⟩ :=
      resolveSource_containing (not_url_join song) hcontaining
    obtain rfl := List.mem_singleton.mp hmem
    have hget : registry.get record.id = some record := by
      have hlisted : record ∈ containing musicDirectory (UnixPath.join song) registry.snapshot := by
        simp [hcontaining]
      exact SourceRegistry.mem_snapshot.mp (List.mem_filter.mp hlisted).1
    have hmount : (∀ other ∈ registry.snapshot, other.mountPath = musicDirectory →
        other.state.isReachable = false) ↔
          (record.mountPath = musicDirectory → record.state.isReachable = false) := by
      constructor
      · exact fun h => h record (SourceRegistry.mem_snapshot.mpr hget)
      · intro h other hother hmount
        obtain rfl := List.mem_singleton.mp (hroot other hother hmount)
        exact h hmount
    rw [hresolve, hmount]
    cases hsibling : firstSegmentIsSiblingTree (UnixPath.join song) with
    | false => simp [hget, List.countP_cons]
    | true =>
      by_cases hat : record.mountPath = musicDirectory
      · simp [hat, List.countP_cons]
      · simp [hat, hget, List.countP_cons]

theorem any_iff_countP_pos (snapshot : List SourceRecord) (song : UnixPath) :
    snapshot.any (isUnder musicDirectory · song) ↔
      0 < snapshot.countP (isUnder musicDirectory · song) := by
  simp [List.countP_pos_iff]

/-- The songs under all mounts, each as often as it is under one. -/
theorem sum_countP_eq_iff (musicDirectory : UnixPath) (songs : List UnixPath)
    (snapshot : List SourceRecord) :
    (snapshot.map fun record => songs.countP (isUnder musicDirectory record)).sum =
        songs.countP (fun song => snapshot.any (isUnder musicDirectory · song)) ↔
      ∀ song ∈ songs, snapshot.countP (isUnder musicDirectory · song) ≤ 1 := by
  rw [Table.sum_countP_comm, Table.countP_eq_sum, Table.sum_map_eq_iff]
  · refine forall₂_congr fun song _ => ?_
    simp only [any_iff_countP_pos]
    split <;> omega
  · intro song _
    simp only [any_iff_countP_pos]
    split <;> omega

theorem sum_reachable_eq_iff (happart : ∀ song ∈ songs,
      registry.snapshot.countP (isUnder musicDirectory · song) ≤ 1) :
    (registry.snapshot.map fun record =>
          if record.state.isReachable then songs.countP (isUnder musicDirectory record) else 0).sum =
        songs.countP (ownerReachable musicDirectory registry) ↔
      ∀ song ∈ songs, firstSegmentIsSiblingTree (UnixPath.join song) →
        ∀ record ∈ registry.snapshot, record.mountPath = musicDirectory →
          record.state.isReachable = false := by
  have hterm : ∀ record : SourceRecord,
      (if record.state.isReachable then songs.countP (isUnder musicDirectory record) else 0) =
        songs.countP fun song => isUnder musicDirectory record song && record.state.isReachable := by
    intro record
    cases record.state.isReachable <;> simp
  have hsum : (registry.snapshot.map fun record =>
      if record.state.isReachable then songs.countP (isUnder musicDirectory record) else 0).sum =
        (songs.map (reachableAbove musicDirectory registry)).sum := by
    simp only [hterm]
    exact Table.sum_countP_comm
      (fun record song => isUnder musicDirectory record song && record.state.isReachable) _ _
  rw [hsum, Table.countP_eq_sum, Table.sum_map_eq_iff]
  · exact forall₂_congr fun song hsong => reachableAbove_eq_iff (happart song hsong)
  · intro song _
    split
    next howner => exact reachableAbove_pos howner
    next => exact Nat.zero_le _

end Counting

section Envelope

variable {musicDirectory : UnixPath} {songs : List UnixPath} {library : Library}

theorem trackCount_settled (h : Settled musicDirectory songs library record) :
    library.trackCount record = min (songs.countP (isUnder musicDirectory record)) u32Max := by
  rw [Library.trackCount, h, settledCounts]

theorem trackCountAvailable_settled (h : Settled musicDirectory songs library record) :
    library.trackCountAvailable record =
      if record.state.isReachable then
        min (songs.countP (isUnder musicDirectory record)) u32Max else 0 := by
  rw [Library.trackCountAvailable, h, settledCounts]

/-- The totals of settled counts that do not overflow. -/
theorem renderStateEnvelope_settled (worksAggregate : Option Works.WorksAggregate)
    (hsettled : ∀ record ∈ library.registry.snapshot, Settled musicDirectory songs library record)
    (hfits : (library.registry.snapshot.map library.trackCount).sum ≤ u32Max) :
    (renderStateEnvelope library worksAggregate).totalTracks =
        (library.registry.snapshot.map fun record =>
          min (songs.countP (isUnder musicDirectory record)) u32Max).sum ∧
      (renderStateEnvelope library worksAggregate).totalTracksAvailable =
        (library.registry.snapshot.map fun record =>
          if record.state.isReachable then
            min (songs.countP (isUnder musicDirectory record)) u32Max else 0).sum := by
  have htotal := List.map_congr_left fun record hrecord =>
    trackCount_settled (hsettled record hrecord)
  have havailable := List.map_congr_left fun record hrecord =>
    trackCountAvailable_settled (hsettled record hrecord)
  have hle : (library.registry.snapshot.map library.trackCountAvailable).sum ≤
      (library.registry.snapshot.map library.trackCount).sum := by
    refine List.sum_le_sum fun record hrecord => ?_
    rw [trackCount_settled (hsettled record hrecord),
      trackCountAvailable_settled (hsettled record hrecord)]
    split <;> omega
  simp only [u32Max] at hfits
  constructor
  · rw [← htotal]
    exact Nat.mod_eq_of_lt (by omega)
  · rw [← havailable]
    exact Nat.mod_eq_of_lt (by omega)

end Envelope

/-- When the totals count each song once, after every source was settled. -/
theorem renderStateEnvelope_countsSongs_iff (musicDirectory : UnixPath) (songs : List UnixPath)
    (library : Library) (calls : List Call) (worksAggregate : Option Works.WorksAggregate)
    (hsettled : ∀ record ∈ library.registry.snapshot, ∃ call ∈ calls,
      call.Settles musicDirectory record)
    (hfits : (library.registry.snapshot.map
      (settleAll musicDirectory songs library calls).trackCount).sum ≤ u32Max) :
    CountsSongs musicDirectory songs library.registry
        (renderStateEnvelope (settleAll musicDirectory songs library calls) worksAggregate) ↔
      CountedOnce musicDirectory songs library.registry := by
  have hcounts : ∀ record ∈ library.registry.snapshot,
      Settled musicDirectory songs (settleAll musicDirectory songs library calls) record :=
    fun record hrecord => settled_settleAll (SourceRegistry.mem_snapshot.mp hrecord)
      (hsettled record hrecord) songs
  have hregistry := registry_settleAll musicDirectory songs library calls
  rw [← hregistry] at hcounts hfits ⊢
  obtain ⟨htotal, havailable⟩ := renderStateEnvelope_settled worksAggregate hcounts hfits
  rw [CountsSongs, htotal, havailable]
  have hsum : ((settleAll musicDirectory songs library calls).registry.snapshot.map fun record =>
      min (songs.countP (isUnder musicDirectory record)) u32Max).sum ≤ u32Max := by
    rwa [List.map_congr_left fun record hrecord => trackCount_settled (hcounts record hrecord)]
      at hfits
  generalize (settleAll musicDirectory songs library calls).registry = registry at hsum ⊢
  have huncapped (hfit : ∀ record ∈ registry.snapshot,
      songs.countP (isUnder musicDirectory record) ≤ u32Max) :
      (registry.snapshot.map fun record =>
          min (songs.countP (isUnder musicDirectory record)) u32Max) =
        registry.snapshot.map fun record => songs.countP (isUnder musicDirectory record) :=
    List.map_congr_left fun record hrecord => Nat.min_eq_left (hfit record hrecord)
  have huncapped' (hfit : ∀ record ∈ registry.snapshot,
      songs.countP (isUnder musicDirectory record) ≤ u32Max) :
      (registry.snapshot.map fun record => if record.state.isReachable then
          min (songs.countP (isUnder musicDirectory record)) u32Max else 0) =
        registry.snapshot.map fun record => if record.state.isReachable then
          songs.countP (isUnder musicDirectory record) else 0 :=
    List.map_congr_left fun record hrecord => by rw [Nat.min_eq_left (hfit record hrecord)]
  constructor
  · rintro ⟨hall, hreachable⟩
    -- A source with more songs than that is below the number of songs on its own.
    have hfit : ∀ record ∈ registry.snapshot,
        songs.countP (isUnder musicDirectory record) ≤ u32Max := by
      intro record hrecord
      rw [hall] at hsum
      refine Nat.le_trans (List.countP_mono_left fun song _ hunder => ?_) hsum
      exact List.any_eq_true.mpr ⟨record, hrecord, hunder⟩
    rw [huncapped hfit, sum_countP_eq_iff] at hall
    rw [huncapped' hfit, sum_reachable_eq_iff hall] at hreachable
    exact ⟨hall, hreachable, hfit⟩
  · rintro ⟨happart, hsiblings, hfit⟩
    rw [huncapped hfit, huncapped' hfit, sum_countP_eq_iff, sum_reachable_eq_iff happart]
    exact ⟨happart, hsiblings⟩

-- ---------------------------------------------------------------------------
-- A stick and the internal library
-- ---------------------------------------------------------------------------

/-- An internal library at the path, and a stick. -/
def stickAnd (internal : String) : Library where
  registry := (SourceRegistry.empty.upsert
    ⟨localInternalSourceId, UnixPath.components internal.toList, .online, none⟩).upsert
    ⟨"usb".toList, UnixPath.components "/music/USB/stick".toList, .online, none⟩
  scanned _ := ⟨⟨0, 0⟩, none⟩

def stickSongs : List UnixPath :=
  [UnixPath.components "INTERNAL/a.flac".toList, UnixPath.components "USB/stick/b.flac".toList]

def settleBoth : List Call := [.source "usb".toList ⟨true, 1⟩, .localInternal ⟨true, 2⟩]

instance decidableSettles (musicDirectory : UnixPath) (record : SourceRecord) (call : Call) :
    Decidable (call.Settles musicDirectory record) :=
  inferInstanceAs (Decidable (_ ∧ _ ∧ _))

/-- With the internal library in a directory of its own the totals are right. -/
theorem renderStateEnvelope_countsSongs_apart :
    let music := UnixPath.components "/music".toList
    let library := stickAnd "/music/INTERNAL"
    (∀ record ∈ library.registry.snapshot, ∃ call ∈ settleBoth, call.Settles music record) ∧
      (library.registry.snapshot.map
        (settleAll music stickSongs library settleBoth).trackCount).sum ≤ u32Max ∧
      CountsSongs music stickSongs library.registry
        (renderStateEnvelope (settleAll music stickSongs library settleBoth) none) := by
  refine ⟨by decide, by decide, ?_⟩
  refine (renderStateEnvelope_countsSongs_iff _ _ _ _ _ (by decide) (by decide)).mpr ?_
  exact ⟨by decide, by decide, by decide⟩

/-- The songs of a stick beneath the internal library count twice. -/
theorem stick_songs_counted_twice :
    let music := UnixPath.components "/music".toList
    let library := stickAnd "/music"
    let envelope := renderStateEnvelope (settleAll music stickSongs library settleBoth) none
    (∀ record ∈ library.registry.snapshot, ∃ call ∈ settleBoth, call.Settles music record) ∧
      (library.registry.snapshot.map
        (settleAll music stickSongs library settleBoth).trackCount).sum ≤ u32Max ∧
      envelope.totalTracks = 3 ∧ envelope.totalTracksAvailable = 3 ∧ stickSongs.length = 2 ∧
      ¬CountsSongs music stickSongs library.registry envelope := by
  refine ⟨by decide, by decide, by decide, by decide, by decide, ?_⟩
  rintro ⟨htotal, -⟩
  exact absurd htotal (by decide)

end EvoAudio.Playback.Totals
