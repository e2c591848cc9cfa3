import EvoAudio.Lib.Grouping
import EvoAudio.Names.Artist
import EvoAudio.Playback.Sources
import Mathlib.Data.List.Lex
import Mathlib.Data.Prod.Lex

/-!
# Works and their recordings

`playback.mpd/src/works.rs`: one walk of MPD's `listallinfo` groups the files
with a `Work` tag into works and these into recordings, each under an id that is
the start of a SHA-256 digest. The walk counts as it goes; the works and the
recordings of a work are sorted when it is over.
-/

namespace EvoAudio.Playback.Works

open Grouping (HashOrder)
open Names (Unicode)

structure ClassicalTags where
  composer : Option (List Char)
  conductor : Option (List Char)
  ensemble : Option (List Char)
  performer : Option (List Char)
  work : Option (List Char)
  originalDate : Option (List Char)
  recordingDate : Option (List Char)
  label : Option (List Char)
  medium : Option (List Char)
  deriving DecidableEq, Repr

structure File where
  path : List Char
  album : Option (List Char)
  /-- `Duration::as_millis`, which is wider than the counts kept of it. -/
  durationMillis : Option Nat
  classical : ClassicalTags
  deriving DecidableEq, Repr

inductive MpdLibraryEntry where
  | file (file : File)
  | directory (path : List Char)
  | playlist (path : List Char)
  deriving DecidableEq, Repr

structure WorkSummary where
  workId : List Char
  name : List Char
  composer : Option (List Char)
  recordingCount : Nat
  sources : List (List Char)
  deriving DecidableEq, Repr

structure WorkRecording where
  recordingId : List Char
  conductor : Option (List Char)
  ensemble : Option (List Char)
  performer : Option (List Char)
  originalDate : Option (List Char)
  recordingDate : Option (List Char)
  label : Option (List Char)
  medium : Option (List Char)
  albumUri : List Char
  trackUris : List (List Char)
  totalDurationMs : Option Nat
  deriving DecidableEq, Repr

structure ClassicalCounters where
  totalTracksWithComposer : Option Nat
  distinctWorks : Option Nat
  worksWithMultipleRecordings : Option Nat
  deriving DecidableEq, Repr

structure WorksAggregate where
  works : List WorkSummary
  /-- The entries of the map in the order of its keys. -/
  recordingsByWork : List (List Char × List WorkRecording)
  counters : ClassicalCounters
  deriving DecidableEq, Repr

def u32Max : Nat := 2 ^ 32 - 1

def u64Max : Nat := 2 ^ 64 - 1

/-- A `BTreeMap` is visited in the order of its keys. -/
def keyOrder : HashOrder (List Char) where
  visit _ keys := keys.insertionSort fun a b => Text.ord a ≤ Text.ord b
  perm _ keys := List.perm_insertionSort _ keys

-- ---------------------------------------------------------------------------
-- Identifiers
-- ---------------------------------------------------------------------------

section Ids

variable (u : Unicode) (sha256 : List UInt8 → List UInt8)

/-- A character of the collapse loop; `s.2` is `prev_space`. -/
def collapseStep (s : List Char × Bool) (c : Char) : List Char × Bool :=
  if Text.isWhitespace c then (if !s.2 && !s.1.isEmpty then s.1 ++ [' '] else s.1, true)
  else (s.1 ++ [c], false)

def normalise (s : List Char) : List Char :=
  Text.trimEnd ((u.lowercase (Text.trim s)).foldl collapseStep ([], false)).1

/-- `hex::encode` -/
def hexEncode (bytes : List UInt8) : List Char :=
  bytes.flatMap fun b => [Nat.digitChar (b.toNat / 16), Nat.digitChar (b.toNat % 16)]

def unitSeparator : UInt8 := 0x1F

/-- The bytes hashed for the id of a work. -/
def workBytes (composer : Option (List Char)) (work : List Char) : List UInt8 :=
  Text.encode (normalise u (composer.getD [])) ++ unitSeparator :: Text.encode (normalise u work)

def workIdFor (composer : Option (List Char)) (work : List Char) : List Char :=
  hexEncode ((sha256 (workBytes u composer work)).take 8)

def recordingIdFor (album conductor originalDate : Option (List Char)) : List Char :=
  hexEncode ((sha256 (Text.encode (normalise u (album.getD [])) ++
    unitSeparator :: Text.encode (normalise u (conductor.getD [])) ++
    unitSeparator :: Text.encode (normalise u (originalDate.getD [])))).take 8)

end Ids

-- ---------------------------------------------------------------------------
-- Staging
-- ---------------------------------------------------------------------------

/-- The directory of a track. -/
def albumUriFromPath (path : List Char) : List Char :=
  match Text.splitLast ['/'] path with
  | some (parent, _) => parent
  | none => path

/-- The cast to 64 bits cuts a longer duration off. -/
def durationFrom (file : File) : Option Nat := file.durationMillis.map (· % 2 ^ 64)

structure RecordingStaging where
  recordingId : List Char
  conductor : Option (List Char)
  ensemble : Option (List Char)
  performer : Option (List Char)
  originalDate : Option (List Char)
  recordingDate : Option (List Char)
  label : Option (List Char)
  medium : Option (List Char)
  albumUri : List Char
  trackUris : List (List Char)
  totalDurationMs : Option Nat
  deriving DecidableEq, Repr

namespace RecordingStaging

def new (recordingId : List Char) (classical : ClassicalTags) (albumUri : List Char) :
    RecordingStaging where
  recordingId
  conductor := classical.conductor
  ensemble := classical.ensemble
  performer := classical.performer
  originalDate := classical.originalDate
  recordingDate := classical.recordingDate
  label := classical.label
  medium := classical.medium
  albumUri
  trackUris := []
  totalDurationMs := none

def noteTrack (staging : RecordingStaging) (path : List Char) (durationMs : Option Nat) :
    RecordingStaging :=
  { staging with
    trackUris := staging.trackUris ++ [path]
    totalDurationMs :=
      match durationMs with
      | some d => some (min (staging.totalDurationMs.getD 0 + d) u64Max)
      | none => staging.totalDurationMs }

def finalise (staging : RecordingStaging) : WorkRecording where
  recordingId := staging.recordingId
  conductor := staging.conductor
  ensemble := staging.ensemble
  performer := staging.performer
  originalDate := staging.originalDate
  recordingDate := staging.recordingDate
  label := staging.label
  medium := staging.medium
  albumUri := staging.albumUri
  trackUris := staging.trackUris
  totalDurationMs := staging.totalDurationMs

end RecordingStaging

structure WorkStaging where
  name : List Char
  composer : Option (List Char)
  recordings : AList fun _ : List Char => RecordingStaging
  sources : List (List Char)

/-- The recordings of a work are compared by date, label and conductor. -/
def recordingKey (recording : WorkRecording) : List Nat ×ₗ List Nat ×ₗ List Nat :=
  toLex (Text.ord (recording.originalDate.getD []),
    toLex (Text.ord (recording.label.getD []), Text.ord (recording.conductor.getD [])))

/-- The works are compared by composer, name and id. -/
def workKey (work : WorkSummary) : List Nat ×ₗ List Nat ×ₗ List Nat :=
  toLex (Text.ord (work.composer.getD []), toLex (Text.ord work.name, Text.ord work.workId))

namespace WorkStaging

def new (name : List Char) (composer : Option (List Char)) : WorkStaging := ⟨name, composer, ∅, []⟩

def insertSource (sources : List (List Char)) : Option (List Char) → List (List Char)
  | some sourceId => if sources.contains sourceId then sources else sources ++ [sourceId]
  | none => sources

def noteTrack (staging : WorkStaging) (path recordingId : List Char) (classical : ClassicalTags)
    (albumUri : List Char) (durationMs : Option Nat) (sourceId : Option (List Char)) :
    WorkStaging :=
  { staging with
    sources := insertSource staging.sources sourceId
    recordings := Grouping.update staging.recordings recordingId
      (.new recordingId classical albumUri) (·.noteTrack path durationMs) }

def finalise (staging : WorkStaging) (workId : List Char) : WorkSummary × List WorkRecording :=
  let recordingCount := min staging.recordings.keys.length u32Max
  let recordings := (keyOrder.entries [] staging.recordings).map fun entry => entry.2.finalise
  let sources := staging.sources.insertionSort fun a b => Text.ord a ≤ Text.ord b
  (⟨workId, staging.name, staging.composer, recordingCount, sources⟩,
    recordings.insertionSort fun a b => recordingKey a ≤ recordingKey b)

end WorkStaging

-- ---------------------------------------------------------------------------
-- The walk
-- ---------------------------------------------------------------------------

section Walk

variable (u : Unicode) (sha256 : List UInt8 → List UInt8)
  (sourceIdForPath : List Char → Option (List Char))

structure Walk where
  workTracks : AList fun _ : List Char => WorkStaging
  totalTracksWithComposer : Nat
  tracksWithWork : Nat

def saturatingSucc (n : Nat) : Nat := min (n + 1) u32Max

def recordingIdOf (file : File) : List Char :=
  recordingIdFor u sha256 file.album file.classical.conductor file.classical.originalDate

def noteEntry (walk : Walk) : MpdLibraryEntry → Walk
  | .file file =>
    let totalTracksWithComposer :=
      if file.classical.composer.isSome then saturatingSucc walk.totalTracksWithComposer
      else walk.totalTracksWithComposer
    match file.classical.work with
    | none => { walk with totalTracksWithComposer }
    | some work =>
      { workTracks := Grouping.update walk.workTracks
          (workIdFor u sha256 file.classical.composer work)
          (.new work file.classical.composer)
          (·.noteTrack file.path (recordingIdOf u sha256 file) file.classical
            (albumUriFromPath file.path) (durationFrom file) (sourceIdForPath file.path))
        totalTracksWithComposer
        tracksWithWork := saturatingSucc walk.tracksWithWork }
  | _ => walk

def aggregate (entries : List MpdLibraryEntry) : WorksAggregate :=
  let walk := entries.foldl (noteEntry u sha256 sourceIdForPath) ⟨∅, 0, 0⟩
  let finalised := (keyOrder.entries [] walk.workTracks).map fun entry =>
    (entry.1, entry.2.finalise entry.1)
  let worksWithMultipleRecordings := finalised.foldl (fun count entry =>
    if entry.2.2.length > 1 then saturatingSucc count else count) 0
  let works := (finalised.map fun entry => entry.2.1).insertionSort
    fun a b => workKey a ≤ workKey b
  { works
    recordingsByWork := finalised.map fun entry => (entry.1, entry.2.2)
    counters := ⟨some walk.totalTracksWithComposer, some (min works.length u32Max),
      some worksWithMultipleRecordings⟩ }

end Walk

-- ---------------------------------------------------------------------------
-- The files of a listing
-- ---------------------------------------------------------------------------

def file? : MpdLibraryEntry → Option File
  | .file file => some file
  | _ => none

/-- The files with a `Work` tag, as they are listed. -/
def tagged (entries : List MpdLibraryEntry) : List File :=
  (entries.filterMap file?).filter (·.classical.work.isSome)

section Groups

variable (u : Unicode) (sha256 : List UInt8 → List UInt8)
  (sourceIdForPath : List Char → Option (List Char))

def workIdOf (file : File) : List Char :=
  workIdFor u sha256 file.classical.composer (file.classical.work.getD [])

def newWork (file : File) : WorkStaging :=
  .new (file.classical.work.getD []) file.classical.composer

def noteFile (staging : WorkStaging) (file : File) : WorkStaging :=
  staging.noteTrack file.path (recordingIdOf u sha256 file) file.classical
    (albumUriFromPath file.path) (durationFrom file) (sourceIdForPath file.path)

def newRecording (file : File) : RecordingStaging :=
  .new (recordingIdOf u sha256 file) file.classical (albumUriFromPath file.path)

def noteRecorded (staging : RecordingStaging) (file : File) : RecordingStaging :=
  staging.noteTrack file.path (durationFrom file)

/-- The recordings of some files of one work. -/
def recordingsOf (files : List File) : AList fun _ : List Char => RecordingStaging :=
  Grouping.collectFrom (recordingIdOf u sha256) (newRecording u sha256) noteRecorded files

theorem tagged_concat (entries : List MpdLibraryEntry) (entry : MpdLibraryEntry) :
    tagged (entries ++ [entry]) = tagged entries ++ tagged [entry] := by
  simp [tagged]

/-- The walk puts every file with a `Work` tag into the group of its work. -/
theorem workTracks_foldl (entries : List MpdLibraryEntry) :
    (entries.foldl (noteEntry u sha256 sourceIdForPath) ⟨∅, 0, 0⟩).workTracks =
      Grouping.collectFrom (workIdOf u sha256) newWork (noteFile u sha256 sourceIdForPath)
        (tagged entries) := by
  induction entries using List.reverseRecOn with
  | nil => rfl
  | append_singleton entries entry ih =>
    rw [List.foldl_concat, tagged_concat]
    cases entry with
    | directory path =>
      have hnone : tagged [.directory path] = [] := rfl
      rw [hnone, List.append_nil]
      exact ih
    | playlist path =>
      have hnone : tagged [.playlist path] = [] := rfl
      rw [hnone, List.append_nil]
      exact ih
    | file file =>
      cases hwork : file.classical.work with
      | none => simpa [noteEntry, hwork, tagged, file?] using ih
      | some work =>
        have hone : tagged [.file file] = [file] := by simp [tagged, file?, hwork]
        have hkey : workIdOf u sha256 file =
            workIdFor u sha256 file.classical.composer work := by simp [workIdOf, hwork]
        have hnew : newWork file = .new work file.classical.composer := by simp [newWork, hwork]
        rw [hone, Grouping.collectFrom, List.foldl_concat, ← Grouping.collectFrom, ← ih, hkey, hnew]
        simp [noteEntry, hwork, noteFile]

theorem recordings_foldl (files : List File) (staging : WorkStaging) :
    (files.foldl (noteFile u sha256 sourceIdForPath) staging).recordings =
      files.foldl (fun t file => Grouping.update t (recordingIdOf u sha256 file)
        (newRecording u sha256 file) (noteRecorded · file)) staging.recordings := by
  induction files generalizing staging with
  | nil => rfl
  | cons file files ih =>
    rw [List.foldl_cons, List.foldl_cons, ih]
    rfl

-- ---------------------------------------------------------------------------
-- The recordings of a work
-- ---------------------------------------------------------------------------

/-- The saturating sum of the durations there are. -/
def totalDuration (files : List File) : Option Nat :=
  match files.filterMap durationFrom with
  | [] => none
  | durations => some (min durations.sum u64Max)

theorem trackUris_foldl (files : List File) (staging : RecordingStaging) :
    (files.foldl noteRecorded staging).trackUris = staging.trackUris ++ files.map File.path := by
  induction files generalizing staging with
  | nil => simp
  | cons file files ih => simp [ih, noteRecorded, RecordingStaging.noteTrack]

theorem recordingId_foldl (files : List File) (staging : RecordingStaging) :
    (files.foldl noteRecorded staging).recordingId = staging.recordingId := by
  induction files generalizing staging with
  | nil => rfl
  | cons file files ih =>
    rw [List.foldl_cons, ih]
    rfl

theorem totalDurationMs_foldl (files : List File) (staging : RecordingStaging) :
    (files.foldl noteRecorded staging).totalDurationMs =
      match files.filterMap durationFrom with
      | [] => staging.totalDurationMs
      | durations => some (min (staging.totalDurationMs.getD 0 + durations.sum) u64Max) := by
  induction files generalizing staging with
  | nil => rfl
  | cons file files ih =>
    rw [List.foldl_cons, ih]
    cases hduration : durationFrom file with
    | none => simp [hduration, noteRecorded, RecordingStaging.noteTrack]
    | some d =>
      have hnote : (noteRecorded staging file).totalDurationMs =
          some (min (staging.totalDurationMs.getD 0 + d) u64Max) := by
        simp [noteRecorded, RecordingStaging.noteTrack, hduration]
      rw [List.filterMap_cons_some hduration, hnote]
      cases files.filterMap durationFrom with
      | nil => simp
      | cons first rest =>
        simp only [Option.getD_some, List.sum_cons]
        congr 1
        omega

/-- What a recording holds of the files it is made of. -/
structure RecordingOf (files : List File) (recording : WorkRecording) : Prop where
  trackUris : recording.trackUris = files.map File.path
  totalDurationMs : recording.totalDurationMs = totalDuration files

theorem recordingOf_finalise (files : List File) (first : File) :
    RecordingOf files (files.foldl noteRecorded (newRecording u sha256 first)).finalise := by
  constructor
  · simp [RecordingStaging.finalise, trackUris_foldl, newRecording, RecordingStaging.new]
  · simp only [RecordingStaging.finalise, totalDurationMs_foldl, newRecording, RecordingStaging.new,
      Option.getD_none, Nat.zero_add, totalDuration]

/-- The recordings of a work as they are shown. -/
def recordingList (files : List File) : List WorkRecording :=
  ((keyOrder.entries [] (recordingsOf u sha256 files)).map fun entry => entry.2.finalise).insertionSort
    fun a b => recordingKey a ≤ recordingKey b

variable {u sha256} {files : List File}

/-- The files of one recording. -/
def recorded (u : Unicode) (sha256 : List UInt8 → List UInt8) (files : List File)
    (recordingId : List Char) : List File :=
  files.filter (recordingIdOf u sha256 · = recordingId)

theorem lookup_recordingsOf (h : (recordingsOf u sha256 files).lookup k = some staging) :
    staging.recordingId = k ∧ RecordingOf (recorded u sha256 files k) staging.finalise ∧
      ∃ file ∈ files, recordingIdOf u sha256 file = k := by
  rw [recordingsOf, Grouping.lookup_collectFrom] at h
  obtain ⟨first, hfirst, rfl⟩ := Option.map_eq_some_iff.mp h
  obtain ⟨hmem, hkey⟩ := List.mem_filter.mp (List.mem_of_mem_head? hfirst)
  have hkey : recordingIdOf u sha256 first = k := by simpa using hkey
  refine ⟨?_, recordingOf_finalise u sha256 _ first, first, hmem, hkey⟩
  rw [recordingId_foldl, ← hkey]
  rfl

theorem mem_recordingList (h : recording ∈ recordingList u sha256 files) :
    RecordingOf (recorded u sha256 files recording.recordingId) recording := by
  obtain ⟨⟨k, staging⟩, hentry, rfl⟩ := List.mem_map.mp ((List.mem_insertionSort _).mp h)
  obtain ⟨rfl, hof, -⟩ := lookup_recordingsOf (HashOrder.mem_entries.mp hentry)
  exact hof

theorem recordingList_perm (files : List File) : (recordingList u sha256 files).Perm
    ((keyOrder.entries [] (recordingsOf u sha256 files)).map fun entry => entry.2.finalise) :=
  List.perm_insertionSort ..

theorem map_recordingId_perm (files : List File) :
    ((recordingList u sha256 files).map WorkRecording.recordingId).Perm
      (recordingsOf u sha256 files).keys := by
  have hids : (keyOrder.entries [] (recordingsOf u sha256 files)).map
      (fun entry => entry.2.finalise.recordingId) =
        (keyOrder.entries [] (recordingsOf u sha256 files)).map Prod.fst := by
    refine List.map_congr_left fun entry hentry => ?_
    exact (lookup_recordingsOf (HashOrder.mem_entries.mp hentry)).1
  refine ((recordingList_perm files).map _).trans ?_
  rw [List.map_map, Function.comp_def, hids, HashOrder.map_fst_entries]
  exact keyOrder.perm [] _

theorem recordingIds_nodup (files : List File) :
    ((recordingList u sha256 files).map WorkRecording.recordingId).Nodup :=
  (map_recordingId_perm files).nodup_iff.mpr (AList.keys_nodup _)

theorem exists_recording (h : file ∈ files) :
    ∃ recording ∈ recordingList u sha256 files,
      recording.recordingId = recordingIdOf u sha256 file := by
  have hkey : recordingIdOf u sha256 file ∈ (recordingsOf u sha256 files).keys :=
    Grouping.mem_keys_collectFrom.mpr ⟨file, h, rfl⟩
  exact List.mem_map.mp ((map_recordingId_perm files).mem_iff.mpr hkey)

theorem length_recordingList (files : List File) :
    (recordingList u sha256 files).length = (recordingsOf u sha256 files).keys.length := by
  rw [← (map_recordingId_perm files).length_eq, List.length_map]

/-- No track of a work is lost or repeated among its recordings. -/
theorem trackUris_recordingList_perm (files : List File) :
    ((recordingList u sha256 files).flatMap WorkRecording.trackUris).Perm
      (files.map File.path) := by
  have hgroups : (recordingList u sha256 files).flatMap WorkRecording.trackUris =
      ((recordingList u sha256 files).map WorkRecording.recordingId).flatMap fun k =>
        (recorded u sha256 files k).map File.path := by
    rw [List.flatMap_map]
    exact List.flatMap_congr fun recording hmem => (mem_recordingList hmem).trackUris
  rw [hgroups, ← List.map_flatMap]
  refine (Grouping.flatMap_groups_perm (recordingIds_nodup files) fun file hfile => ?_).map _
  rw [(map_recordingId_perm files).mem_iff]
  exact Grouping.mem_keys_collectFrom.mpr ⟨file, hfile, rfl⟩

-- ---------------------------------------------------------------------------
-- The works of a listing
-- ---------------------------------------------------------------------------

variable {sourceIdForPath : List Char → Option (List Char)} {entries : List MpdLibraryEntry}

/-- The files of one work. -/
def worked (u : Unicode) (sha256 : List UInt8 → List UInt8) (entries : List MpdLibraryEntry)
    (workId : List Char) : List File :=
  (tagged entries).filter (workIdOf u sha256 · = workId)

def workIds (u : Unicode) (sha256 : List UInt8 → List UInt8)
    (sourceIdForPath : List Char → Option (List Char)) (entries : List MpdLibraryEntry) :
    List (List Char) :=
  keyOrder.visit [] (entries.foldl (noteEntry u sha256 sourceIdForPath) ⟨∅, 0, 0⟩).workTracks.keys

theorem workIds_nodup : (workIds u sha256 sourceIdForPath entries).Nodup :=
  HashOrder.nodup_visit_keys ..

theorem mem_workIds : k ∈ workIds u sha256 sourceIdForPath entries ↔
    ∃ file ∈ tagged entries, workIdOf u sha256 file = k := by
  rw [workIds, (keyOrder.perm [] _).mem_iff, workTracks_foldl]
  exact Grouping.mem_keys_collectFrom

/-- What a work is finalised to. -/
theorem finalise_worked
    (h : (entries.foldl (noteEntry u sha256 sourceIdForPath) ⟨∅, 0, 0⟩).workTracks.lookup k =
      some staging) :
    (staging.finalise k).1.workId = k ∧
      (staging.finalise k).1.recordingCount =
        min (recordingList u sha256 (worked u sha256 entries k)).length u32Max ∧
      (staging.finalise k).2 = recordingList u sha256 (worked u sha256 entries k) := by
  rw [workTracks_foldl, Grouping.lookup_collectFrom] at h
  obtain ⟨first, -, rfl⟩ := Option.map_eq_some_iff.mp h
  have hrecordings : ((worked u sha256 entries k).foldl (noteFile u sha256 sourceIdForPath)
      (newWork first)).recordings = recordingsOf u sha256 (worked u sha256 entries k) :=
    recordings_foldl ..
  refine ⟨rfl, ?_, ?_⟩
  · rw [length_recordingList, ← hrecordings]
    rfl
  · rw [recordingList, ← hrecordings]
    rfl

theorem recordingsByWork_eq :
    (aggregate u sha256 sourceIdForPath entries).recordingsByWork =
      (workIds u sha256 sourceIdForPath entries).map fun k =>
        (k, recordingList u sha256 (worked u sha256 entries k)) := by
  simp only [aggregate, List.map_map, Function.comp_def]
  rw [workIds, ← HashOrder.map_fst_entries, List.map_map]
  refine List.map_congr_left fun entry hentry => ?_
  simp [(finalise_worked (HashOrder.mem_entries.mp hentry)).2.2]

theorem mem_recordingsByWork
    (h : entry ∈ (aggregate u sha256 sourceIdForPath entries).recordingsByWork) :
    entry.2 = recordingList u sha256 (worked u sha256 entries entry.1) := by
  rw [recordingsByWork_eq] at h
  obtain ⟨k, -, rfl⟩ := List.mem_map.mp h
  rfl

theorem workId_perm :
    ((aggregate u sha256 sourceIdForPath entries).works.map WorkSummary.workId).Perm
      (workIds u sha256 sourceIdForPath entries) := by
  refine ((List.perm_insertionSort _ _).map _).trans ?_
  rw [workIds, ← HashOrder.map_fst_entries]
  refine List.Perm.of_eq ?_
  simp only [List.map_map]
  refine List.map_congr_left fun entry hentry => ?_
  exact (finalise_worked (HashOrder.mem_entries.mp hentry)).1

theorem recordingCount_eq {work : WorkSummary}
    (h : work ∈ (aggregate u sha256 sourceIdForPath entries).works) :
    work.recordingCount =
      min (recordingList u sha256 (worked u sha256 entries work.workId)).length u32Max := by
  obtain ⟨finalised, hfinalised, rfl⟩ := List.mem_map.mp ((List.mem_insertionSort _).mp h)
  obtain ⟨entry, hentry, rfl⟩ := List.mem_map.mp hfinalised
  exact (finalise_worked (HashOrder.mem_entries.mp hentry)).2.1

theorem countP_foldl {α : Type} (p : α → Bool) (l : List α) {n : Nat} (hn : n ≤ u32Max) :
    l.foldl (fun count a => if p a then saturatingSucc count else count) n =
      min (n + l.countP p) u32Max := by
  induction l generalizing n with
  | nil => simp [hn]
  | cons a l ih =>
    rw [List.foldl_cons, List.countP_cons]
    cases p a with
    | true =>
      have hsucc : saturatingSucc n ≤ u32Max := Nat.min_le_right ..
      simp only [if_true, ih hsucc]
      rw [saturatingSucc]
      omega
    | false => simp [ih hn]

theorem worksWithMultipleRecordings_eq :
    (aggregate u sha256 sourceIdForPath entries).counters.worksWithMultipleRecordings =
      some (min ((aggregate u sha256 sourceIdForPath entries).recordingsByWork.countP
        fun entry => 1 < entry.2.length) u32Max) := by
  have hcount := countP_foldl (fun entry : List Char × WorkSummary × List WorkRecording =>
    decide (1 < entry.2.2.length))
    ((keyOrder.entries [] (entries.foldl (noteEntry u sha256 sourceIdForPath) ⟨∅, 0, 0⟩).workTracks).map
      fun entry => (entry.1, entry.2.finalise entry.1)) (Nat.zero_le u32Max)
  simp only [decide_eq_true_eq, Nat.zero_add] at hcount
  simp only [aggregate, hcount, List.countP_map, Function.comp_def]

-- ---------------------------------------------------------------------------
-- Shared works
-- ---------------------------------------------------------------------------

theorem hexEncode_injective : Function.Injective hexEncode := by
  have hdigit : ∀ m < 16, ∀ n < 16, Nat.digitChar m = Nat.digitChar n → m = n := by decide
  intro bytes bytes' h
  induction bytes generalizing bytes' with
  | nil =>
    cases bytes' with
    | nil => rfl
    | cons b' bytes' => simp [hexEncode] at h
  | cons b bytes ih =>
    cases bytes' with
    | nil => simp [hexEncode] at h
    | cons b' bytes' =>
      simp only [hexEncode, List.flatMap_cons, List.cons_append, List.nil_append,
        List.cons.injEq] at h
      obtain ⟨hhigh, hlow, hrest⟩ := h
      have hb := b.toNat_lt
      have hb' := b'.toNat_lt
      have hhigh := hdigit _ (by omega) _ (by omega) hhigh
      have hlow := hdigit _ (by omega) _ (by omega) hlow
      have hbyte : b = b' := UInt8.toNat_inj.mp (by omega)
      rw [hbyte, ih hrest]

/-- The unit separator as a character. -/
def separator : Char := Char.ofNat 0x1F

theorem workBytes_eq (composer : Option (List Char)) (work : List Char) :
    workBytes u composer work =
      Text.encode (normalise u (composer.getD []) ++ separator :: normalise u work) := by
  rw [workBytes, Text.encode_append, Text.encode_cons, Text.utf8EncodeChar_ascii (by decide)]
  rfl

/-- The text before the first separator is told from the text behind it. -/
theorem append_separator_inj {before before' after after' : List Char} (h : separator ∉ before)
    (h' : separator ∉ before') :
    before ++ separator :: after = before' ++ separator :: after' ↔
      before = before' ∧ after = after' := by
  constructor
  · intro heq
    have htake := congrArg (List.takeWhile (· != separator)) heq
    have hdrop := congrArg (List.dropWhile (· != separator)) heq
    have hpass {l : List Char} (hl : separator ∉ l) : ∀ c ∈ l, (c != separator) = true := by
      intro c hc
      have hne : c ≠ separator := fun heq => hl (heq ▸ hc)
      simpa using hne
    rw [List.takeWhile_append_of_pos (hpass h), List.takeWhile_append_of_pos (hpass h')] at htake
    rw [List.dropWhile_append_of_pos (hpass h), List.dropWhile_append_of_pos (hpass h')] at hdrop
    simp at htake hdrop
    exact ⟨htake, hdrop⟩
  · rintro ⟨rfl, rfl⟩
    rfl

def hashedBytes (u : Unicode) (file : File) : List UInt8 :=
  workBytes u file.classical.composer (file.classical.work.getD [])

/-- The digests cut to their first 64 bits tell the works of a listing apart. -/
def Distinguishes (u : Unicode) (sha256 : List UInt8 → List UInt8)
    (entries : List MpdLibraryEntry) : Prop :=
  ∀ first ∈ tagged entries, ∀ second ∈ tagged entries,
    (sha256 (hashedBytes u first)).take 8 = (sha256 (hashedBytes u second)).take 8 →
      hashedBytes u first = hashedBytes u second

theorem workIdOf_eq_iff (hsha : Distinguishes u sha256 entries) (hfirst : first ∈ tagged entries)
    (hsecond : second ∈ tagged entries)
    (hplain : separator ∉ normalise u (first.classical.composer.getD []))
    (hplain' : separator ∉ normalise u (second.classical.composer.getD [])) :
    workIdOf u sha256 first = workIdOf u sha256 second ↔
      normalise u (first.classical.composer.getD []) =
          normalise u (second.classical.composer.getD []) ∧
        normalise u (first.classical.work.getD []) =
          normalise u (second.classical.work.getD []) := by
  rw [← append_separator_inj hplain hplain']
  constructor
  · intro hid
    have hbytes := hsha first hfirst second hsecond (hexEncode_injective hid)
    rw [hashedBytes, hashedBytes, workBytes_eq, workBytes_eq] at hbytes
    exact Text.encode_injective hbytes
  · intro heq
    rw [workIdOf, workIdOf, workIdFor, workIdFor, workBytes_eq, workBytes_eq, heq]

-- ---------------------------------------------------------------------------
-- Conservation
-- ---------------------------------------------------------------------------

/-- What the works of a listing keep of it. A file is placed in the recording of
its recording id in the work of its work id. -/
structure Conserves (u : Unicode) (sha256 : List UInt8 → List UInt8)
    (entries : List MpdLibraryEntry) (agg : WorksAggregate) : Prop where
  workIds_nodup : (agg.recordingsByWork.map Prod.fst).Nodup
  workIds_perm : (agg.works.map WorkSummary.workId).Perm (agg.recordingsByWork.map Prod.fst)
  recordingIds_nodup : ∀ entry ∈ agg.recordingsByWork,
    (entry.2.map WorkRecording.recordingId).Nodup
  placed : ∀ file ∈ tagged entries, ∃ recordings,
    (workIdOf u sha256 file, recordings) ∈ agg.recordingsByWork ∧
      ∃ recording ∈ recordings, recording.recordingId = recordingIdOf u sha256 file
  /-- A recording holds the files placed in it, in the order of the listing. -/
  recordings : ∀ entry ∈ agg.recordingsByWork, ∀ recording ∈ entry.2,
    RecordingOf ((tagged entries).filter fun file => workIdOf u sha256 file = entry.1 ∧
      recordingIdOf u sha256 file = recording.recordingId) recording
  once : (agg.recordingsByWork.flatMap fun entry => entry.2.flatMap WorkRecording.trackUris).Perm
    ((tagged entries).map File.path)
  recordingCount : ∀ work ∈ agg.works, ∀ recordings,
    (work.workId, recordings) ∈ agg.recordingsByWork →
      work.recordingCount = min recordings.length u32Max
  distinctWorks : agg.counters.distinctWorks = some (min agg.works.length u32Max)
  worksWithMultipleRecordings : agg.counters.worksWithMultipleRecordings =
    some (min (agg.recordingsByWork.countP fun entry => 1 < entry.2.length) u32Max)
  /-- Two files whose composers hold no separator share a work when composer and
  work agree. -/
  shared : ∀ first ∈ tagged entries, ∀ second ∈ tagged entries,
    separator ∉ normalise u (first.classical.composer.getD []) →
    separator ∉ normalise u (second.classical.composer.getD []) →
      (workIdOf u sha256 first = workIdOf u sha256 second ↔
        normalise u (first.classical.composer.getD []) =
            normalise u (second.classical.composer.getD []) ∧
          normalise u (first.classical.work.getD []) =
            normalise u (second.classical.work.getD []))

/-- Every track with a `Work` tag is kept, once, where its tags place it. -/
theorem aggregate_conserves (u : Unicode) (sha256 : List UInt8 → List UInt8)
    (sourceIdForPath : List Char → Option (List Char)) (entries : List MpdLibraryEntry)
    (hsha : Distinguishes u sha256 entries) :
    Conserves u sha256 entries (aggregate u sha256 sourceIdForPath entries) := by
  have hids : (aggregate u sha256 sourceIdForPath entries).recordingsByWork.map Prod.fst =
      workIds u sha256 sourceIdForPath entries := by
    simp [recordingsByWork_eq, Function.comp_def]
  refine ⟨?_, ?_, ?_, ?_, ?_, ?_, ?_, rfl, worksWithMultipleRecordings_eq, ?_⟩
  · rw [hids]
    exact workIds_nodup
  · rw [hids]
    exact workId_perm
  · intro entry hentry
    rw [mem_recordingsByWork hentry]
    exact recordingIds_nodup _
  · intro file hfile
    refine ⟨recordingList u sha256 (worked u sha256 entries (workIdOf u sha256 file)), ?_,
      exists_recording (by simpa [worked] using hfile)⟩
    rw [recordingsByWork_eq]
    exact List.mem_map.mpr ⟨_, mem_workIds.mpr ⟨file, hfile, rfl⟩, rfl⟩
  · intro entry hentry recording hrecording
    rw [mem_recordingsByWork hentry] at hrecording
    have hof := mem_recordingList hrecording
    rw [recorded, worked, List.filter_filter] at hof
    simpa [Bool.and_comm] using hof
  · rw [recordingsByWork_eq, List.flatMap_map]
    have hworks : (workIds u sha256 sourceIdForPath entries).flatMap (fun k =>
        (recordingList u sha256 (worked u sha256 entries k)).flatMap WorkRecording.trackUris)
          |>.Perm ((workIds u sha256 sourceIdForPath entries).flatMap fun k =>
            (worked u sha256 entries k).map File.path) :=
      List.Perm.flatMap_left _ fun k _ => trackUris_recordingList_perm _
    refine hworks.trans ?_
    rw [← List.map_flatMap]
    refine (Grouping.flatMap_groups_perm workIds_nodup fun file hfile => ?_).map _
    exact mem_workIds.mpr ⟨file, hfile, rfl⟩
  · intro work hwork recordings hrecordings
    have hlist : recordings = recordingList u sha256 (worked u sha256 entries work.workId) :=
      mem_recordingsByWork hrecordings
    rw [recordingCount_eq hwork, hlist]
  · intro first hfirst second hsecond hplain hplain'
    exact workIdOf_eq_iff hsha hfirst hsecond hplain hplain'

end Groups

-- ---------------------------------------------------------------------------
-- Listings
-- ---------------------------------------------------------------------------

/-- The 32 bytes of a digest. -/
def digestBytes (digest : Nat) : List UInt8 :=
  (List.range 32).map fun i => UInt8.ofNat (digest / 256 ^ (31 - i))

/-- SHA-256 on the texts hashed for the listings below. -/
def digestOf (bytes : List UInt8) : List UInt8 :=
  let digests : List (List Char × Nat) :=
    [("beethoven\x1Fsymphony no. 5".toList,
        0x46c40d658e4881f674cce3bf6a659327360f394d46b8a2ed39dd727d472fb887),
      ("bach\x1Fcello suite no. 1".toList,
        0x36fdd7e15d6c402573b62a881bc5d29042209e1125817ee847dbbcd7c643f475),
      ("karajan beethoven\x1Fkarajan\x1F1962".toList,
        0xafb93e603377e10688fd8610967666ffd5eefbe9ed8eced17bf525c52cfafaf8),
      ("bernstein beethoven\x1Fbernstein\x1F1979".toList,
        0x20e4f399ed6dc2abc25d18da3583c9cf591c0df8ec646b311f43a0153abea268),
      ("a\x1Fb\x1Fc".toList,
        0xe0dee694aed26d323b0d8b861c343f2554c1aefceef539ae3dae5159f0b5bb28),
      ("\x1F\x1F".toList,
        0xb8c9e440ead3ddaccf7cc7e879d512a263272270df2d5504c0c3d1f85d16f9d9)]
  match digests.find? (Text.encode ·.1 == bytes) with
  | some (_, digest) => digestBytes digest
  | none => []

def track (path : String) (composer work conductor originalDate album : Option String)
    (durationMillis : Option Nat) : MpdLibraryEntry :=
  .file ⟨path.toList, album.map String.toList, durationMillis,
    ⟨composer.map String.toList, conductor.map String.toList, none, none, work.map String.toList,
      originalDate.map String.toList, none, none, none⟩⟩

def twoRecordings : List MpdLibraryEntry :=
  [.directory "Karajan_Beethoven_5".toList,
    track "Karajan_Beethoven_5/i.flac" "Beethoven" "Symphony No. 5" "Karajan" "1962"
      "Karajan Beethoven" (some 420000),
    track "Karajan_Beethoven_5/ii.flac" "Beethoven" "Symphony  No. 5 " "Karajan" "1962"
      "Karajan Beethoven" (some 540000),
    track "Bernstein_Beethoven_5/i.flac" "beethoven" "Symphony No. 5" "Bernstein" "1979"
      "Bernstein Beethoven" (some 440000),
    track "Bach/01.flac" "Bach" "Cello Suite No. 1" none none none none,
    track "Pop/01.flac" none none none none "Pop" (some 180000)]

/-- Two recordings of a symphony and one of a suite; a file without a work stays
out. -/
theorem aggregate_conserves_twoRecordings :
    let agg := aggregate .ascii digestOf (fun _ => none) twoRecordings
    Distinguishes .ascii digestOf twoRecordings ∧ Conserves .ascii digestOf twoRecordings agg ∧
      agg.works.map WorkSummary.recordingCount = [1, 2] ∧
      agg.counters.worksWithMultipleRecordings = some 1 := by
  have hsha : Distinguishes .ascii digestOf twoRecordings := by
    unfold Distinguishes
    decide +kernel
  exact ⟨hsha, aggregate_conserves _ _ _ _ hsha, by decide +kernel, by decide +kernel⟩

/-- A separator in a tag puts two works under one id. The durations of the two
tracks are cut to 64 bits before they are summed. -/
def separatorInComposer : List MpdLibraryEntry :=
  [track "1.flac" "a\x1Fb" "c" none none none (some (2 ^ 64)),
    track "2.flac" "a" "b\x1Fc" none none none (some 1000)]

theorem works_merged_by_separator :
    let agg := aggregate .ascii digestOf (fun _ => none) separatorInComposer
    Distinguishes .ascii digestOf separatorInComposer ∧
      (tagged separatorInComposer).map (fun file =>
        (normalise .ascii (file.classical.composer.getD []),
          normalise .ascii (file.classical.work.getD []))) =
        [("a\x1Fb".toList, "c".toList), ("a".toList, "b\x1Fc".toList)] ∧
      agg.works.length = 1 ∧
      (agg.recordingsByWork.flatMap fun entry => entry.2.map fun recording =>
        (recording.trackUris, recording.totalDurationMs)) =
        [(["1.flac".toList, "2.flac".toList], some 1000)] := by
  have hsha : Distinguishes .ascii digestOf separatorInComposer := by
    unfold Distinguishes
    decide +kernel
  exact ⟨hsha, by decide +kernel, by decide +kernel, by decide +kernel⟩

-- ---------------------------------------------------------------------------
-- The sources of a work
-- ---------------------------------------------------------------------------

/-- The resolver the walk is given: the first source listed whose mount contains
the path. -/
def sourceIdForPath (musicDirectory : UnixPath) (snapshot : List SourceRecord) (rel : List Char) :
    Option (List Char) :=
  (snapshot.find? (·.mountPath.isPrefixOf (absolutePath musicDirectory rel))).map SourceRecord.id

/-- A listing MPD does not give keeps the works there were. -/
def recomputeWorksAggregate (u : Unicode) (sha256 : List UInt8 → List UInt8)
    (musicDirectory : UnixPath) (registry : SourceRegistry)
    (listallinfo : Except Mpd.MpdError (List MpdLibraryEntry)) (cache : Option WorksAggregate) :
    Option WorksAggregate :=
  match listallinfo with
  | .error _ => cache
  | .ok entries =>
    some (aggregate u sha256 (sourceIdForPath musicDirectory registry.snapshot) entries)

section Resolvers

variable {musicDirectory : UnixPath} {filePath : List Char} {snapshot : List SourceRecord}

/-- No source contains the path, or the path is a plain one, the first source
listed that contains it has the longest mount of those that do, and that is not
the music directory for a path of a tree next to the internal one. -/
def FirstOwns (musicDirectory : UnixPath) (filePath : List Char) (snapshot : List SourceRecord) :
    Prop :=
  match containing musicDirectory filePath snapshot with
  | [] => True
  | first :: others =>
    ¬"://".toList <:+: filePath ∧
      (∀ other ∈ others, UnixPath.len other.mountPath ≤ UnixPath.len first.mountPath) ∧
      ¬(firstSegmentIsSiblingTree filePath ∧ first.mountPath = musicDirectory)

theorem sourceIdForPath_eq : sourceIdForPath musicDirectory snapshot filePath =
    (containing musicDirectory filePath snapshot).head?.map SourceRecord.id := by
  rw [sourceIdForPath, containing, List.head?_filter]

/-- When the two resolvers give a path the same source. -/
theorem sourceIdForPath_eq_resolveSource_iff (musicDirectory : UnixPath) (filePath : List Char)
    (registry : SourceRegistry) :
    sourceIdForPath musicDirectory registry.snapshot filePath =
        resolveSource musicDirectory filePath registry.snapshot ↔
      FirstOwns musicDirectory filePath registry.snapshot := by
  rw [sourceIdForPath_eq]
  cases hcontaining : containing musicDirectory filePath registry.snapshot with
  | nil =>
    have hnone : resolveSource musicDirectory filePath registry.snapshot = none := by
      rw [resolveSource, foldl_longerMount_containing, hcontaining]
      simp
    simp [FirstOwns, hcontaining, hnone]
  | cons first others =>
    simp only [FirstOwns, hcontaining, List.head?_cons, Option.map_some]
    by_cases hplain : "://".toList <:+: filePath
    · rw [resolveSource, if_pos hplain]
      simp only [reduceCtorEq, hplain, not_true, false_and]
    · obtain ⟨record, hmem, hlongest, hsame, hresolve⟩ :=
        resolveSource_containing hplain hcontaining
      rw [hresolve]
      have hlisted : ∀ source ∈ first :: others, source ∈ registry.snapshot := by
        rw [← hcontaining]
        exact fun source hsource => (List.mem_filter.mp hsource).1
      constructor
      · intro heq
        split at heq
        · cases heq
        next hown =>
          -- The registry holds one record under an id.
          have hrecord : record = first := by
            have hget := SourceRegistry.mem_snapshot.mp (hlisted record hmem)
            rw [← Option.some.inj heq,
              SourceRegistry.mem_snapshot.mp (hlisted first (List.mem_cons_self ..))] at hget
            exact (Option.some.inj hget).symm
          subst hrecord
          refine ⟨hplain, fun other hother => hlongest other (List.mem_cons_of_mem _ hother), ?_⟩
          simpa using hown
      · rintro ⟨-, hle, hown⟩
        rw [hsame hle, if_neg (by simpa using hown)]

end Resolvers

/-- The internal library is listed before the stick beneath it. -/
def floorListedFirst : SourceRegistry :=
  (SourceRegistry.empty.upsert
    ⟨"usb".toList, UnixPath.components "/music/USB/stick".toList, .online, none⟩).upsert
    ⟨"local-internal".toList, UnixPath.components "/music".toList, .online, none⟩

/-- A track of the stick counts as a work of the internal library. -/
theorem stick_track_attributed_to_floor :
    let music := UnixPath.components "/music".toList
    let track := "USB/stick/a.flac".toList
    sourceIdForPath music floorListedFirst.snapshot track = some "local-internal".toList ∧
      resolveSource music track floorListedFirst.snapshot = some "usb".toList := by
  decide

end EvoAudio.Playback.Works
