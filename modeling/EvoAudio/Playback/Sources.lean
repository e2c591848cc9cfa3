import EvoAudio.Playback.Registry
import EvoAudio.Playback.Server

/-!
# Whose song it is

`resolve_source` of `playback.mpd/src/queue.rs` attributes a path of MPD's
database to the registered source with the longest mount that contains it, and
`mpd_database_relative_path` of `library.rs` gives the path by which MPD's
database knows a mount.
-/

namespace EvoAudio.Playback

/-- The trees next to the internal one under the music directory. -/
def firstSegmentIsSiblingTree (filePath : List Char) : Bool :=
  let first := filePath.takeWhile (· != '/')
  first == "USB".toList || first == "NAS".toList

/-- `music_directory.join(file_path)` -/
def absolutePath (musicDirectory : UnixPath) (filePath : List Char) : UnixPath :=
  if filePath.head? = some '/' then UnixPath.components filePath
  else musicDirectory ++ UnixPath.components filePath

/-- The source with the longest mount so far. -/
def longerMount (absolute : UnixPath) (best : Option SourceRecord) (source : SourceRecord) :
    Option SourceRecord :=
  if source.mountPath.isPrefixOf absolute then
    match best with
    | none => some source
    | some record =>
      if UnixPath.len source.mountPath > UnixPath.len record.mountPath then some source else best
  else best

/-- The snapshot lists the registry in any order. -/
def resolveSource (musicDirectory : UnixPath) (filePath : List Char) (snapshot : List SourceRecord) :
    Option (List Char) :=
  if "://".toList <:+: filePath then none
  else
    match snapshot.foldl (longerMount (absolutePath musicDirectory filePath)) none with
    | none => none
    | some record =>
      if firstSegmentIsSiblingTree filePath && record.mountPath == musicDirectory then none
      else some record.id

inductive LibraryError where
  | sourceOutsideMusicDirectory (sourceId : List Char) (mountPath musicDirectory : UnixPath)
  deriving DecidableEq, Repr

def mpdDatabaseRelativePath (musicDirectory mountPath : UnixPath) (userPath : List Char) :
    Except LibraryError (List Char) :=
  match Text.stripPrefix musicDirectory mountPath with
  | none => .error (.sourceOutsideMusicDirectory [] mountPath musicDirectory)
  | some sourceRelative =>
    let sourceRelative := UnixPath.join sourceRelative
    let trimmedUser := userPath.dropWhile (· == '/')
    .ok (match sourceRelative.isEmpty, trimmedUser.isEmpty with
      | true, true => []
      | true, false => trimmedUser
      | false, true => sourceRelative
      | false, false => sourceRelative ++ '/' :: trimmedUser)

-- ---------------------------------------------------------------------------
-- The longest mount
-- ---------------------------------------------------------------------------

/-- The record is one of the sources whose mount contains the path, with the
longest mount of them. -/
def Longest (absolute : UnixPath) (sources : List SourceRecord) (record : SourceRecord) : Prop :=
  record ∈ sources ∧ record.mountPath <+: absolute ∧
    ∀ source ∈ sources, source.mountPath <+: absolute →
      UnixPath.len source.mountPath ≤ UnixPath.len record.mountPath

/-- What the loop has found after some of the sources. -/
def Found (absolute : UnixPath) (sources : List SourceRecord) : Option SourceRecord → Prop
  | none => ∀ source ∈ sources, ¬source.mountPath <+: absolute
  | some record => Longest absolute sources record

theorem found_step (h : Found absolute seen best) (source : SourceRecord) :
    Found absolute (seen ++ [source]) (longerMount absolute best source) := by
  unfold longerMount
  split
  next hpre =>
    rw [List.isPrefixOf_iff_prefix] at hpre
    cases best with
    | none =>
      refine ⟨by simp, hpre, List.forall_mem_append.mpr ⟨fun other hseen hother => ?_, by simp⟩⟩
      exact absurd hother (h other hseen)
    | some record =>
      obtain ⟨hmem, hrecord, hlongest⟩ := h
      dsimp only
      split
      next hlonger =>
        refine ⟨by simp, hpre, List.forall_mem_append.mpr ⟨fun other hseen hother => ?_, by simp⟩⟩
        exact Nat.le_trans (hlongest other hseen hother) (Nat.le_of_lt hlonger)
      next hshorter =>
        refine ⟨List.mem_append_left _ hmem, hrecord, List.forall_mem_append.mpr ⟨hlongest, ?_⟩⟩
        exact List.forall_mem_singleton.mpr fun _ => Nat.not_lt.mp hshorter
  next hpre =>
    rw [List.isPrefixOf_iff_prefix] at hpre
    cases best with
    | none => exact List.forall_mem_append.mpr ⟨h, List.forall_mem_singleton.mpr hpre⟩
    | some record =>
      obtain ⟨hmem, hrecord, hlongest⟩ := h
      refine ⟨List.mem_append_left _ hmem, hrecord, List.forall_mem_append.mpr ⟨hlongest, ?_⟩⟩
      exact List.forall_mem_singleton.mpr fun hsource => absurd hsource hpre

theorem found_foldl (absolute : UnixPath) (snapshot : List SourceRecord) :
    Found absolute snapshot (snapshot.foldl (longerMount absolute) none) := by
  have hfold (seen rest : List SourceRecord) (best : Option SourceRecord)
      (h : Found absolute seen best) :
      Found absolute (seen ++ rest) (rest.foldl (longerMount absolute) best) := by
    induction rest generalizing seen best with
    | nil => simpa using h
    | cons source rest ih => simpa using ih _ _ (found_step h source)
  simpa using hfold [] snapshot none (by simp [Found])

/-- The owner of a path has the longest mount that contains it. -/
theorem resolveSource_longest (h : resolveSource musicDirectory filePath snapshot = some sourceId) :
    ∃ record, record.id = sourceId ∧
      Longest (absolutePath musicDirectory filePath) snapshot record := by
  have hfound := found_foldl (absolutePath musicDirectory filePath) snapshot
  unfold resolveSource at h
  split at h
  · cases h
  · split at h
    · cases h
    next record hrecord =>
      rw [hrecord] at hfound
      split at h
      · cases h
      · cases h
        exact ⟨record, rfl, hfound⟩

-- ---------------------------------------------------------------------------
-- The sources that contain a path
-- ---------------------------------------------------------------------------

section Containing

variable {musicDirectory : UnixPath} {filePath : List Char} {snapshot : List SourceRecord}

/-- The sources whose mount contains the path, as they are listed. -/
def containing (musicDirectory : UnixPath) (filePath : List Char) (snapshot : List SourceRecord) :
    List SourceRecord :=
  snapshot.filter (·.mountPath.isPrefixOf (absolutePath musicDirectory filePath))

/-- A source that does not contain the path is passed over. -/
theorem foldl_longerMount_containing (best : Option SourceRecord) :
    snapshot.foldl (longerMount (absolutePath musicDirectory filePath)) best =
      (containing musicDirectory filePath snapshot).foldl
        (longerMount (absolutePath musicDirectory filePath)) best := by
  rw [containing, List.foldl_filter]
  congr 1
  funext best source
  by_cases hcontains : source.mountPath.isPrefixOf (absolutePath musicDirectory filePath)
  · rw [if_pos hcontains]
  · simp [longerMount, hcontains]

theorem foldl_longerMount_of_le {absolute : UnixPath} {others : List SourceRecord}
    (h : ∀ other ∈ others, UnixPath.len other.mountPath ≤ UnixPath.len first.mountPath) :
    others.foldl (longerMount absolute) (some first) = some first := by
  induction others with
  | nil => rfl
  | cons other others ih =>
    have hstep : longerMount absolute (some first) other = some first := by
      have hle := h other (List.mem_cons_self ..)
      simp [longerMount, Nat.not_lt.mpr hle]
    rw [List.foldl_cons, hstep, ih fun source hsource => h source (List.mem_cons_of_mem _ hsource)]

/-- What `resolve_source` finds among the sources that contain the path. -/
theorem resolveSource_containing (hplain : ¬"://".toList <:+: filePath)
    (hcontaining : containing musicDirectory filePath snapshot = first :: others) :
    ∃ record ∈ first :: others,
      (∀ other ∈ first :: others,
        UnixPath.len other.mountPath ≤ UnixPath.len record.mountPath) ∧
      ((∀ other ∈ others, UnixPath.len other.mountPath ≤ UnixPath.len first.mountPath) →
        record = first) ∧
      resolveSource musicDirectory filePath snapshot =
        if firstSegmentIsSiblingTree filePath && record.mountPath == musicDirectory then none
        else some record.id := by
  have hfirst : first.mountPath.isPrefixOf (absolutePath musicDirectory filePath) := by
    have hmem : first ∈ containing musicDirectory filePath snapshot := by simp [hcontaining]
    exact (List.mem_filter.mp hmem).2
  have hstart : longerMount (absolutePath musicDirectory filePath) none first = some first := by
    simp [longerMount, hfirst]
  have hfound := found_foldl (absolutePath musicDirectory filePath) (first :: others)
  rw [resolveSource, if_neg hplain, foldl_longerMount_containing, hcontaining]
  cases hbest : (first :: others).foldl (longerMount (absolutePath musicDirectory filePath)) none with
  | none =>
    rw [hbest] at hfound
    exact absurd (List.isPrefixOf_iff_prefix.mp hfirst) (hfound first (List.mem_cons_self ..))
  | some record =>
    rw [hbest] at hfound
    obtain ⟨hmem, -, hlongest⟩ := hfound
    refine ⟨record, hmem, fun other hother => ?_, fun hle => ?_, rfl⟩
    · have hcontains : other ∈ containing musicDirectory filePath snapshot := by
        rw [hcontaining]
        exact hother
      exact hlongest other hother (List.isPrefixOf_iff_prefix.mp (List.mem_filter.mp hcontains).2)
    · rw [List.foldl_cons, hstart, foldl_longerMount_of_le hle] at hbest
      exact (Option.some.inj hbest).symm

/-- A path of the database is no URL. -/
theorem not_url_join (song : UnixPath) : ¬"://".toList <:+: UnixPath.join song := by
  rintro ⟨before, after, h⟩
  exact UnixPath.join_ne_double_slash song (before ++ [':']) after (by simpa using h.symm)

end Containing

theorem absolutePath_join (musicDirectory song : UnixPath) :
    absolutePath musicDirectory (UnixPath.join song) = musicDirectory ++ song := by
  have hslash : (UnixPath.join song).head? ≠ some '/' := by
    cases song with
    | nil => simp [UnixPath.join]
    | cons segment rest =>
      obtain ⟨c, text, htext⟩ := List.exists_cons_of_ne_nil segment.isName.1
      have hc : c ≠ '/' := by
        rintro rfl
        exact segment.isName.2.2 (htext ▸ List.mem_cons_self ..)
      cases rest <;> simpa [UnixPath.join, htext] using hc
  rw [absolutePath, if_neg hslash, UnixPath.components_join]

/-- The path of a mount in MPD's database is what follows the music directory. -/
theorem mpdDatabaseRelativePath_mount
    (h : mpdDatabaseRelativePath musicDirectory mountPath [] = .ok databasePath) :
    ∃ relative, mountPath = musicDirectory ++ relative ∧ databasePath = UnixPath.join relative := by
  unfold mpdDatabaseRelativePath at h
  split at h
  · cases h
  next relative hstrip =>
    refine ⟨relative, Text.stripPrefix_eq_some hstrip, ?_⟩
    cases h
    cases UnixPath.join relative <;> rfl

end EvoAudio.Playback
