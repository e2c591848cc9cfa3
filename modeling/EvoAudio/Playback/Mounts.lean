import EvoAudio.Lib.RunningBest
import EvoAudio.Playback.Sources

/-!
# Mounts as they are written

`resolve_source` of `playback.mpd/src/queue.rs` on the texts of the mounts, which
are registered as they come. It compares paths by their components, where
repeated slashes and a `.` do not count, but the mount it prefers is the one with
the longest text, where they do.
-/

namespace EvoAudio.Playback.Mounts

/-- `std::path::Component`. A `..` is a segment like any other. -/
inductive Component where
  | rootDir
  | curDir
  | segment (segment : Segment)
  deriving DecidableEq, Repr

/-- A `.` counts only at the start of a relative path. -/
def leading : List Char → List Component
  | '/' :: _ => [.rootDir]
  | ['.'] => [.curDir]
  | '.' :: '/' :: _ => [.curDir]
  | _ => []

/-- `Path::components` -/
def components (text : List Char) : List Component :=
  leading text ++ (UnixPath.components text).map .segment

/-- `Path::join` -/
def join (base file : List Char) : List Char :=
  if file.head? = some '/' then file
  else if base = [] ∨ base.getLast? = some '/' then base ++ file
  else base ++ '/' :: file

structure Source where
  id : List Char
  mountPath : List Char
  deriving DecidableEq, Repr

namespace Source

def components (source : Source) : List Component := Mounts.components source.mountPath

/-- `mount_path.as_os_str().len()` -/
def len (source : Source) : Nat := (Text.encode source.mountPath).length

end Source

/-- The source with the longest mount so far. -/
def longerMount (absolute : List Component) (best : Option Source) (source : Source) :
    Option Source :=
  if source.components.isPrefixOf absolute then
    match best with
    | none => some source
    | some record => if source.len > record.len then some source else best
  else best

/-- The snapshot lists the registry in any order. -/
def resolveSource (musicDirectory filePath : List Char) (snapshot : List Source) :
    Option (List Char) :=
  if "://".toList <:+: filePath then none
  else
    match snapshot.foldl (longerMount (components (join musicDirectory filePath))) none with
    | none => none
    | some record =>
      if firstSegmentIsSiblingTree filePath && record.components == components musicDirectory then
        none
      else some record.id

/-- Sources with their own ids, and no two at one place. -/
structure Registry where
  sources : List Source
  ids : (sources.map Source.id).Nodup
  mounts : (sources.map Source.components).Nodup

-- ---------------------------------------------------------------------------
-- What a path is attributed to
-- ---------------------------------------------------------------------------

/-- The roots of the trees next to the internal one. -/
def siblingTrees : List Segment := [⟨"USB".toList, by decide⟩, ⟨"NAS".toList, by decide⟩]

/-- The path lies in one of these trees. -/
def InSiblingTree (music absolute : List Component) : Prop :=
  ∃ tree ∈ siblingTrees, music ++ [.segment tree] <+: absolute

/-- What follows the music directory in the mount of the source begins what
follows it in the path. -/
def Within (music absolute : List Component) (source : Source) : Prop :=
  music <+: source.components ∧ source.components <+: absolute

/-- The source with the longest mount that contains the path, or none for the
internal source and a path of a tree next to it. -/
structure ResolvesLongest (musicDirectory filePath : List Char) (sources : List Source)
    (result : Option (List Char)) : Prop where
  url : "://".toList <:+: filePath → result = none
  longest : ∀ id ∈ result, ∃ record ∈ sources, record.id = id ∧
    Within (components musicDirectory) (components (join musicDirectory filePath)) record ∧
    ∀ other ∈ sources,
      Within (components musicDirectory) (components (join musicDirectory filePath)) other →
        other.components.length ≤ record.components.length
  found : ¬"://".toList <:+: filePath → result = none → ∀ source ∈ sources,
    Within (components musicDirectory) (components (join musicDirectory filePath)) source →
      source.components = components musicDirectory ∧
        InSiblingTree (components musicDirectory) (components (join musicDirectory filePath))
  floor : InSiblingTree (components musicDirectory) (components (join musicDirectory filePath)) →
    ∀ record ∈ sources, record.components = components musicDirectory → result ≠ some record.id

/-- Of the sources whose mount contains the path, the one with all others above it. -/
def Deepest (absolute : List Component) (sources : List Source) (record : Source) : Prop :=
  record ∈ sources ∧ record.components <+: absolute ∧
    ∀ other ∈ sources, other.components <+: absolute → other.components <+: record.components

/-- The deepest mount has the longest text of those that contain the path, it is
not above the music directory, and when it is the music directory itself a path
of a tree next to the internal one is written with that tree first. -/
def TextsDecide (musicDirectory filePath : List Char) (sources : List Source) : Prop :=
  let music := components musicDirectory
  let absolute := components (join musicDirectory filePath)
  ∀ record, Deepest absolute sources record →
    (∀ other ∈ sources, other.components <+: absolute → other ≠ record →
      other.len < record.len) ∧
    music <+: record.components ∧
    (record.components = music → InSiblingTree music absolute → firstSegmentIsSiblingTree filePath)

-- ---------------------------------------------------------------------------
-- Components of a joined path
-- ---------------------------------------------------------------------------

theorem leading_slash (file : List Char) (hbase : base ≠ []) :
    leading (base ++ '/' :: file) = leading base := by
  match base with
  | [] => exact absurd rfl hbase
  | [c] => by_cases hslash : c = '/' <;> by_cases hdot : c = '.' <;> simp_all [leading]
  | c :: d :: base =>
    by_cases hslash : c = '/'
    · simp [hslash, leading]
    · by_cases hdot : c = '.' ∧ d = '/'
      · simp [hdot, leading]
      · simp only [List.cons_append]
        rw [leading, leading] <;> simp_all

theorem components_slash (file : List Char) (hbase : base ≠ []) :
    components (base ++ '/' :: file) =
      components base ++ (UnixPath.components file).map .segment := by
  rw [components, components, leading_slash file hbase, UnixPath.components_append, List.map_append,
    List.append_assoc]

theorem components_root (file : List Char) :
    components ('/' :: file) = .rootDir :: (UnixPath.components file).map .segment := by
  have happend := UnixPath.components_append [] file
  have hnil : UnixPath.components [] = [] := by decide
  rw [hnil, List.nil_append, List.nil_append] at happend
  rw [components, happend]
  rfl

/-- What follows a music directory that is written. -/
theorem components_join (hbase : base ≠ []) (hfile : file.head? ≠ some '/') :
    components (join base file) = components base ++ (UnixPath.components file).map .segment := by
  unfold join
  rw [if_neg hfile]
  split
  next hlast =>
    obtain ⟨front, rfl⟩ : ∃ front, base = front ++ ['/'] :=
      List.getLast?_eq_some_iff.mp (hlast.resolve_left hbase)
    have hnil : UnixPath.components [] = [] := by decide
    rw [List.append_assoc, List.singleton_append]
    cases front with
    | nil => rw [List.nil_append, List.nil_append, components_root, components_root, hnil]; rfl
    | cons c front =>
      have hfront : c :: front ≠ [] := List.cons_ne_nil _ _
      rw [components_slash _ hfront, components_slash _ hfront, hnil, List.map_nil, List.append_nil]
  next => exact components_slash file hbase

-- ---------------------------------------------------------------------------
-- Mounts that are written plainly
-- ---------------------------------------------------------------------------

section Plain

/-- An absolute path with single slashes and no `.`. -/
def plainText (path : UnixPath) : List Char := '/' :: UnixPath.join path

def Source.ofRecord (record : SourceRecord) : Source := ⟨record.id, plainText record.mountPath⟩

theorem components_plainText (path : UnixPath) :
    components (plainText path) = .rootDir :: path.map .segment := by
  rw [plainText, components_root, UnixPath.components_join]

theorem len_plainText (path : UnixPath) :
    (Text.encode (plainText path)).length = UnixPath.len path := by
  have hslash : (String.utf8EncodeChar '/').length = 1 := by decide
  induction path with
  | nil => simp [plainText, UnixPath.join, UnixPath.len, hslash]
  | cons segment path ih =>
    cases path with
    | nil => simp [plainText, UnixPath.join, UnixPath.len, hslash]
    | cons next path =>
      have hjoin := UnixPath.join_append (List.cons_ne_nil segment []) next path
      simp only [List.singleton_append] at hjoin
      rw [plainText, hjoin]
      rw [plainText] at ih
      simp only [UnixPath.join, UnixPath.len, List.map_cons, List.map_nil, List.sum_cons,
        Text.encode_cons, Text.encode_append, List.length_append, hslash,
        List.intercalate_singleton] at ih ⊢
      omega

theorem components_join_plainText (musicDirectory : UnixPath) (filePath : List Char) :
    components (join (plainText musicDirectory) filePath) =
      .rootDir :: (absolutePath musicDirectory filePath).map .segment := by
  unfold absolutePath
  split
  next hslash =>
    obtain ⟨file, rfl⟩ : ∃ file, filePath = '/' :: file := by
      cases filePath with
      | nil => cases hslash
      | cons c file => exact ⟨file, by simpa using hslash⟩
    rw [join, if_pos hslash]
    rfl
  next hslash =>
    have hmusic : plainText musicDirectory ≠ [] := List.cons_ne_nil _ _
    rw [components_join hmusic hslash, components_plainText, List.map_append, List.cons_append]

theorem segments_prefix_iff {path absolute : UnixPath} :
    Component.rootDir :: path.map .segment <+: .rootDir :: absolute.map .segment ↔
      path <+: absolute := by
  rw [List.cons_prefix_cons, List.prefix_map_iff_of_injective fun _ _ => Component.segment.inj]
  simp

/-- Mounts that are written plainly are attributed as their components are. -/
theorem resolveSource_ofRecord (musicDirectory : UnixPath) (filePath : List Char)
    (snapshot : List SourceRecord) :
    resolveSource (plainText musicDirectory) filePath (snapshot.map Source.ofRecord) =
      Playback.resolveSource musicDirectory filePath snapshot := by
  have hstep (best : Option SourceRecord) (record : SourceRecord) :
      longerMount (components (join (plainText musicDirectory) filePath)) (best.map Source.ofRecord)
          (Source.ofRecord record) =
        (Playback.longerMount (absolutePath musicDirectory filePath) best record).map
          Source.ofRecord := by
    have hpre : (Source.ofRecord record).components.isPrefixOf
        (components (join (plainText musicDirectory) filePath)) =
          record.mountPath.isPrefixOf (absolutePath musicDirectory filePath) := by
      rw [Bool.eq_iff_iff, List.isPrefixOf_iff_prefix, List.isPrefixOf_iff_prefix,
        Source.components, Source.ofRecord, components_plainText, components_join_plainText,
        segments_prefix_iff]
    unfold longerMount Playback.longerMount
    rw [hpre]
    split
    · cases best with
      | none => rfl
      | some other =>
        simp only [Option.map_some, Source.len, Source.ofRecord, len_plainText]
        split <;> rfl
    · rfl
  have hfold (best : Option SourceRecord) : (snapshot.map Source.ofRecord).foldl
      (longerMount (components (join (plainText musicDirectory) filePath)))
        (best.map Source.ofRecord) =
      (snapshot.foldl (Playback.longerMount (absolutePath musicDirectory filePath)) best).map
        Source.ofRecord := by
    induction snapshot generalizing best with
    | nil => rfl
    | cons record snapshot ih => rw [List.map_cons, List.foldl_cons, List.foldl_cons, hstep, ih]
  have hbest := hfold none
  rw [Option.map_none] at hbest
  unfold resolveSource Playback.resolveSource
  rw [hbest]
  split
  · rfl
  · cases snapshot.foldl (Playback.longerMount (absolutePath musicDirectory filePath)) none with
    | none => rfl
    | some record =>
      have hmount : ((Source.ofRecord record).components == components (plainText musicDirectory)) =
          (record.mountPath == musicDirectory) := by
        rw [Bool.eq_iff_iff, beq_iff_eq, beq_iff_eq, Source.components, Source.ofRecord,
          components_plainText, components_plainText, List.cons.injEq,
          List.map_inj_right fun _ _ => Component.segment.inj]
        simp
      simp only [Option.map_some, hmount]
      rfl

end Plain

-- ---------------------------------------------------------------------------
-- The tree a path is written with first
-- ---------------------------------------------------------------------------

theorem components_of_first {filePath : List Char} {tree : Segment}
    (h : filePath.takeWhile (· != '/') = tree.text) :
    ∃ rest, UnixPath.components filePath = tree :: rest := by
  have hsplit : tree.text ++ filePath.dropWhile (· != '/') = filePath := by
    rw [← h, List.takeWhile_append_dropWhile]
  have htree : UnixPath.components tree.text = [tree] := by
    simpa [UnixPath.join] using UnixPath.components_join [tree]
  cases hdrop : filePath.dropWhile (· != '/') with
  | nil =>
    rw [hdrop, List.append_nil] at hsplit
    exact ⟨[], hsplit ▸ htree⟩
  | cons c rest =>
    have hc : c = '/' := by
      have := List.head_dropWhile_not (· != '/') (l := filePath) (by simp [hdrop])
      simpa [hdrop] using this
    subst hc
    refine ⟨UnixPath.components rest, ?_⟩
    rw [← hsplit, hdrop, UnixPath.components_append, htree, List.singleton_append]

theorem inSiblingTree_of_first (musicDirectory : List Char)
    (h : firstSegmentIsSiblingTree filePath) :
    InSiblingTree (components musicDirectory) (components (join musicDirectory filePath)) := by
  obtain ⟨tree, htree, hfirst⟩ :
      ∃ tree ∈ siblingTrees, filePath.takeWhile (· != '/') = tree.text := by
    simpa [firstSegmentIsSiblingTree, siblingTrees] using h
  obtain ⟨rest, hcomponents⟩ := components_of_first hfirst
  have hplain : leading filePath = [] ∧ filePath.head? ≠ some '/' := by
    have htext : tree.text = "USB".toList ∨ tree.text = "NAS".toList := by
      simp only [siblingTrees, List.mem_cons, List.not_mem_nil, or_false] at htree
      rcases htree with rfl | rfl
      · exact .inl rfl
      · exact .inr rfl
    cases filePath with
    | nil => simp [← hfirst] at htext
    | cons c file =>
      have hc : c = 'U' ∨ c = 'N' := by
        by_cases hslash : c = '/'
        · simp [← hfirst, hslash] at htext
        · rw [← hfirst, List.takeWhile_cons_of_pos (by simpa using hslash)] at htext
          exact htext.imp (fun h => (List.cons.inj h).1) fun h => (List.cons.inj h).1
      rcases hc with rfl | rfl <;> exact ⟨rfl, by simp⟩
  refine ⟨tree, htree, rest.map .segment, ?_⟩
  by_cases hmusic : musicDirectory = []
  · have hempty : components [] = [] := by decide
    rw [hmusic, join, if_neg hplain.2, if_pos (.inl rfl), hempty, List.nil_append, List.nil_append,
      components, hplain.1, hcomponents]
    rfl
  · rw [components_join hmusic hplain.2, hcomponents]
    simp

-- ---------------------------------------------------------------------------
-- The deepest mount
-- ---------------------------------------------------------------------------

theorem longerMount_eq_better (absolute : List Component) :
    longerMount absolute =
      better (fun source => source.components.isPrefixOf absolute) Source.len := by
  funext best source
  unfold longerMount better
  cases best <;> rfl

theorem exists_deepest {absolute : List Component} {sources : List Source} (hmem : source ∈ sources)
    (hcontains : source.components <+: absolute) : ∃ record, Deepest absolute sources record := by
  cases hfold : sources.foldl (better (fun source => source.components.isPrefixOf absolute)
      fun source => source.components.length) none with
  | none =>
    have hnone := foldl_better_eq_none.mp hfold source hmem
    rw [List.isPrefixOf_iff_prefix.mpr hcontains] at hnone
    cases hnone
  | some record =>
    obtain ⟨hrecord, hpre, hlongest⟩ := foldl_better_eq_some hfold
    rw [List.isPrefixOf_iff_prefix] at hpre
    refine ⟨record, hrecord, hpre, fun other hother hcontains => ?_⟩
    exact List.prefix_of_prefix_length_le hcontains hpre
      (hlongest other hother (List.isPrefixOf_iff_prefix.mpr hcontains))

theorem Registry.eq_of_id (registry : Registry) (h : source ∈ registry.sources)
    (h' : other ∈ registry.sources) (hid : source.id = other.id) : source = other :=
  List.inj_on_of_nodup_map registry.ids h h' hid

theorem Registry.eq_of_components (registry : Registry) (h : source ∈ registry.sources)
    (h' : other ∈ registry.sources) (hmount : source.components = other.components) :
    source = other :=
  List.inj_on_of_nodup_map registry.mounts h h' hmount

section Attribution

variable {registry : Registry} {musicDirectory filePath : List Char} {snapshot : List Source}

/-- What `resolve_source` makes of the mount it has found. -/
def attributed (musicDirectory filePath : List Char) (record : Source) : Option (List Char) :=
  if firstSegmentIsSiblingTree filePath && record.components == components musicDirectory then none
  else some record.id

theorem resolveSource_of_best (hurl : ¬"://".toList <:+: filePath)
    (h : snapshot.foldl (longerMount (components (join musicDirectory filePath))) none =
      some record) :
    resolveSource musicDirectory filePath snapshot = attributed musicDirectory filePath record := by
  rw [resolveSource, if_neg hurl, h]
  rfl

/-- Nothing is attributed where nothing but the internal source could be. -/
theorem resolvesLongest_none (h : ¬"://".toList <:+: filePath → ∀ source ∈ registry.sources,
    Within (components musicDirectory) (components (join musicDirectory filePath)) source →
      source.components = components musicDirectory ∧
        InSiblingTree (components musicDirectory) (components (join musicDirectory filePath))) :
    ResolvesLongest musicDirectory filePath registry.sources none where
  url _ := rfl
  longest := nofun
  found hurl _ := h hurl
  floor _ _ _ _ := nofun

/-- The mount that the texts decide for. -/
theorem resolvesLongest_of_deepest (hurl : ¬"://".toList <:+: filePath)
    (hdeepest : Deepest (components (join musicDirectory filePath)) registry.sources record)
    (hmusic : components musicDirectory <+: record.components)
    (hsibling : record.components = components musicDirectory →
      InSiblingTree (components musicDirectory) (components (join musicDirectory filePath)) →
        firstSegmentIsSiblingTree filePath) :
    ResolvesLongest musicDirectory filePath registry.sources
      (attributed musicDirectory filePath record) := by
  obtain ⟨hmem, hcontains, habove⟩ := hdeepest
  refine ⟨fun h => absurd h hurl, fun id hid => ?_, fun _ hnone source hsource hwithin => ?_,
    fun htree source hsource hfloor hsome => ?_⟩
  · unfold attributed at hid
    split at hid
    · cases hid
    · cases hid
      exact ⟨record, hmem, rfl, ⟨hmusic, hcontains⟩,
        fun other hother hwithin => (habove other hother hwithin.2).length_le⟩
  · unfold attributed at hnone
    split at hnone
    next hfloor =>
      rw [Bool.and_eq_true, beq_iff_eq] at hfloor
      refine ⟨?_, inSiblingTree_of_first musicDirectory hfloor.1⟩
      have hrecord := habove source hsource hwithin.2
      exact (hwithin.1.eq_of_length_le (hfloor.2 ▸ hrecord.length_le)).symm
    · cases hnone
  · unfold attributed at hsome
    split at hsome
    · cases hsome
    next hother =>
      cases registry.eq_of_id hmem hsource (Option.some.inj hsome)
      exact hother (by simp [hfloor, hsibling hfloor htree])

/-- When the attribution is right for every order of the snapshot. -/
theorem textsDecide_of_resolvesLongest (hurl : ¬"://".toList <:+: filePath)
    (h : ∀ snapshot : List Source, snapshot.Perm registry.sources →
      ResolvesLongest musicDirectory filePath registry.sources
        (resolveSource musicDirectory filePath snapshot)) :
    TextsDecide musicDirectory filePath registry.sources := by
  rintro record ⟨hmem, hcontains, habove⟩
  have heligible := List.isPrefixOf_iff_prefix.mpr hcontains
  have hmusic : components musicDirectory <+: record.components := by
    by_contra hnot
    have hres := h _ (List.Perm.refl _)
    cases hbest : registry.sources.foldl
        (longerMount (components (join musicDirectory filePath))) none with
    | none =>
      rw [longerMount_eq_better] at hbest
      rw [foldl_better_eq_none.mp hbest record hmem] at heligible
      cases heligible
    | some best =>
      rw [resolveSource_of_best hurl hbest] at hres
      rw [longerMount_eq_better] at hbest
      obtain ⟨hbestMem, hbestPrefix, -⟩ := foldl_better_eq_some hbest
      cases hresult : attributed musicDirectory filePath best with
      | none =>
        unfold attributed at hresult
        split at hresult
        next hfloor =>
          rw [Bool.and_eq_true, beq_iff_eq] at hfloor
          exact hnot (hfloor.2 ▸ habove best hbestMem (List.isPrefixOf_iff_prefix.mp hbestPrefix))
        · cases hresult
      | some id =>
        obtain ⟨owner, howner, -, hwithin, -⟩ := hres.longest id hresult
        exact hnot (hwithin.1.trans (habove owner howner hwithin.2))
  have hlonger : ∀ other ∈ registry.sources,
      other.components <+: components (join musicDirectory filePath) → other ≠ record →
        other.len < record.len := by
    intro other hother hothers hne
    by_contra hle
    -- The deepest mount comes last, and then another one has been found.
    have hperm : (registry.sources.erase record ++ [record]).Perm registry.sources :=
      (List.perm_append_singleton ..).trans (List.perm_cons_erase hmem).symm
    have hres := h _ hperm
    obtain ⟨best, hbestMem, hbestPrefix, hbest⟩ : ∃ best ∈ registry.sources.erase record,
        best.components.isPrefixOf (components (join musicDirectory filePath)) ∧
          (registry.sources.erase record ++ [record]).foldl
            (longerMount (components (join musicDirectory filePath))) none = some best := by
      rw [longerMount_eq_better]
      exact foldl_better_last ((List.mem_erase_of_ne hne).mpr hother)
        (List.isPrefixOf_iff_prefix.mpr hothers) (Nat.not_lt.mp hle)
    rw [resolveSource_of_best hurl hbest] at hres
    have hbestNe : best ≠ record := by
      rintro rfl
      exact (List.Nodup.not_mem_erase registry.ids.of_map) hbestMem
    have hbestSource := List.mem_of_mem_erase hbestMem
    have hbestAbove := habove best hbestSource (List.isPrefixOf_iff_prefix.mp hbestPrefix)
    cases hresult : attributed musicDirectory filePath best with
    | none =>
      have hrecord := (hres.found hurl hresult record hmem ⟨hmusic, hcontains⟩).1
      unfold attributed at hresult
      split at hresult
      next hfloor =>
        rw [Bool.and_eq_true, beq_iff_eq] at hfloor
        exact hbestNe (registry.eq_of_components hbestSource hmem (hfloor.2.trans hrecord.symm))
      · cases hresult
    | some id =>
      obtain ⟨owner, howner, hid, -, hlongest⟩ := hres.longest id hresult
      unfold attributed at hresult
      split at hresult
      · cases hresult
      · cases hresult
        cases registry.eq_of_id howner hbestSource hid
        have hlength := hlongest record hmem ⟨hmusic, hcontains⟩
        exact hbestNe (registry.eq_of_components hbestSource hmem
          (hbestAbove.eq_of_length_le hlength))
  refine ⟨hlonger, hmusic, fun hfloor htree => ?_⟩
  have hres := h _ (List.Perm.refl _)
  have hbest : registry.sources.foldl
      (longerMount (components (join musicDirectory filePath))) none = some record := by
    rw [longerMount_eq_better]
    exact foldl_better_eq_of_lt hmem heligible fun other hother hothers hne =>
      hlonger other hother (List.isPrefixOf_iff_prefix.mp hothers) hne
  rw [resolveSource_of_best hurl hbest] at hres
  by_contra hfirst
  refine hres.floor htree record hmem hfloor ?_
  simp [attributed, hfirst]

end Attribution

/-- A path is attributed by the longest mount, whatever the order of the
registry, exactly when the texts of the mounts decide as their components do. -/
theorem resolveSource_resolvesLongest_iff (registry : Registry)
    (musicDirectory filePath : List Char) :
    (∀ snapshot : List Source, snapshot.Perm registry.sources →
      ResolvesLongest musicDirectory filePath registry.sources
        (resolveSource musicDirectory filePath snapshot)) ↔
      "://".toList <:+: filePath ∨ TextsDecide musicDirectory filePath registry.sources := by
  by_cases hurl : "://".toList <:+: filePath
  · refine iff_of_true (fun snapshot _ => ?_) (.inl hurl)
    rw [resolveSource, if_pos hurl]
    exact resolvesLongest_none fun h => absurd hurl h
  · refine ⟨fun h => .inr (textsDecide_of_resolvesLongest hurl h), fun h snapshot hperm => ?_⟩
    have hdecide := h.resolve_left hurl
    cases hbest : snapshot.foldl (longerMount (components (join musicDirectory filePath))) none with
    | none =>
      have hnone : ∀ source ∈ registry.sources,
          ¬source.components <+: components (join musicDirectory filePath) := by
        intro source hsource hcontains
        rw [longerMount_eq_better] at hbest
        have := foldl_better_eq_none.mp hbest source (hperm.mem_iff.mpr hsource)
        rw [List.isPrefixOf_iff_prefix.mpr hcontains] at this
        cases this
      rw [resolveSource, if_neg hurl, hbest]
      exact resolvesLongest_none fun _ source hsource hwithin =>
        absurd hwithin.2 (hnone source hsource)
    | some best =>
      rw [resolveSource_of_best hurl hbest]
      rw [longerMount_eq_better] at hbest
      obtain ⟨hbestMem, hbestPrefix, hbestLongest⟩ := foldl_better_eq_some hbest
      have hbestSource := hperm.mem_iff.mp hbestMem
      rw [List.isPrefixOf_iff_prefix] at hbestPrefix
      obtain ⟨record, hdeepest⟩ := exists_deepest hbestSource hbestPrefix
      obtain ⟨hlonger, hmusic, hsibling⟩ := hdecide record hdeepest
      have hsame : best = record := by
        by_contra hne
        have hlt := hlonger best hbestSource hbestPrefix hne
        exact absurd (hbestLongest record (hperm.mem_iff.mpr hdeepest.1)
          (List.isPrefixOf_iff_prefix.mpr hdeepest.2.1)) (Nat.not_le.mpr hlt)
      exact hsame ▸ resolvesLongest_of_deepest hurl hdeepest hmusic hsibling

/-- A share beneath the folder of all shares, which was registered with slashes
to spare. -/
def sparedSlashes : Registry where
  sources :=
    [⟨"shares".toList, "/music////////NAS".toList⟩, ⟨"share".toList, "/music/NAS/share".toList⟩]
  ids := by decide
  mounts := by decide

theorem slashes_outweigh_segments :
    resolveSource "/music".toList "NAS/share/a.flac".toList sparedSlashes.sources =
        some "shares".toList ∧
      ¬ResolvesLongest "/music".toList "NAS/share/a.flac".toList sparedSlashes.sources
        (resolveSource "/music".toList "NAS/share/a.flac".toList sparedSlashes.sources) := by
  have hresolve : resolveSource "/music".toList "NAS/share/a.flac".toList sparedSlashes.sources =
      some "shares".toList := by decide
  refine ⟨hresolve, fun h => ?_⟩
  obtain ⟨record, hrecord, hid, -, hlongest⟩ := h.longest _ hresolve
  have hshares : record = ⟨"shares".toList, "/music////////NAS".toList⟩ :=
    sparedSlashes.eq_of_id hrecord (by decide) hid
  have hdeeper := hlongest ⟨"share".toList, "/music/NAS/share".toList⟩ (by decide)
    ⟨by decide, by decide⟩
  rw [hshares] at hdeeper
  exact absurd hdeeper (by decide)

end EvoAudio.Playback.Mounts
