import EvoAudio.Playback.Sources

/-!
# The sticker reconciler

`playback.mpd/src/sticker_reconciler.rs`: for every state change of a source the
reconciler writes one `evo:available` value on all songs that MPD's database has
under the mount of the source. Mounts nest, and the internal source is mounted
at the music directory itself, so the cycles of one source write on songs of
another.
-/

namespace EvoAudio.Playback

/-- The `evo:available` sticker of each song path. -/
abbrev Stickers := AList fun _ : List Char => String

def stickerWriteBatchSize : Nat := 200

def stickerValueFor (state : SourceState) : String := if state.isReachable then "1" else "0"

/-- `find base PATH`: the songs under a path, all songs for the empty one. -/
def isUnderBase (base filePath : List Char) : Bool := base.isEmpty || queuePathIsUnder filePath base

def enumerateSongsUnderMount (songs : List UnixPath) (mountPath : List Char) : List (List Char) :=
  (songs.map UnixPath.join).filter (isUnderBase mountPath)

/-- One command list of `sticker set`. -/
def setStickers (value : String) (stickers : Stickers) (songs : List (List Char)) : Stickers :=
  songs.foldl (fun stickers song => stickers.insert song value) stickers

/-- The songs are collected in command lists of the batch size. -/
def writeStickersBatched (value : String) :
    Stickers → List (List Char) → List (List Char) → Stickers
  | stickers, commands, [] =>
    if commands.isEmpty then stickers else setStickers value stickers commands
  | stickers, commands, song :: songs =>
    if (commands ++ [song]).length ≥ stickerWriteBatchSize then
      writeStickersBatched value (setStickers value stickers (commands ++ [song])) [] songs
    else writeStickersBatched value stickers (commands ++ [song]) songs

/-- The cycle of a change. A source that is gone, or not under the music
directory, has no stickers to write. -/
def reconcileOne (musicDirectory : UnixPath) (songs : List UnixPath) (registry : SourceRegistry)
    (stickers : Stickers) (change : SourceStateChange) : Stickers :=
  match registry.get change.sourceId with
  | none => stickers
  | some record =>
    match mpdDatabaseRelativePath musicDirectory record.mountPath [] with
    | .error _ => stickers
    | .ok mountPath =>
      writeStickersBatched (stickerValueFor change.newState) stickers []
        (enumerateSongsUnderMount songs mountPath)

-- ---------------------------------------------------------------------------
-- A sequence of state changes
-- ---------------------------------------------------------------------------

structure Reconciled where
  registry : SourceRegistry
  stickers : Stickers
  /-- The changes processed so far. -/
  changes : List SourceStateChange
  deriving DecidableEq

structure TransitionRequest where
  sourceId : List Char
  newState : SourceState
  now : Nat
  deriving DecidableEq, Repr

/-- A transition, and the cycle of the change it broadcasts. -/
def Reconciled.transition (musicDirectory : UnixPath) (songs : List UnixPath) (s : Reconciled)
    (request : TransitionRequest) : Reconciled :=
  match s.registry.transition request.sourceId request.newState request.now with
  | .error _ => s
  | .ok (_, registry, none) => { s with registry }
  | .ok (_, registry, some change) =>
    { registry
      stickers := reconcileOne musicDirectory songs registry s.stickers change
      changes := s.changes ++ [change] }

def Reconciled.transitions (musicDirectory : UnixPath) (songs : List UnixPath) (s : Reconciled)
    (requests : List TransitionRequest) : Reconciled :=
  requests.foldl (Reconciled.transition musicDirectory songs) s

/-- The cycle of the change writes on the song. -/
def covers (musicDirectory : UnixPath) (registry : SourceRegistry) (song : UnixPath)
    (change : SourceStateChange) : Bool :=
  match registry.get change.sourceId with
  | none => false
  | some record =>
    match mpdDatabaseRelativePath musicDirectory record.mountPath [] with
    | .error _ => false
    | .ok mountPath => isUnderBase mountPath (UnixPath.join song)

def lastCovering (musicDirectory : UnixPath) (registry : SourceRegistry) (song : UnixPath)
    (changes : List SourceStateChange) : Option SourceStateChange :=
  changes.reverse.find? (covers musicDirectory registry song)

-- ---------------------------------------------------------------------------
-- What a cycle writes
-- ---------------------------------------------------------------------------

theorem lookup_setStickers (value : String) (stickers : Stickers) (songs : List (List Char))
    (song : List Char) : (setStickers value stickers songs).lookup song =
      if song ∈ songs then some value else stickers.lookup song := by
  induction songs generalizing stickers with
  | nil => rfl
  | cons first songs ih =>
    change (setStickers value (stickers.insert first value) songs).lookup song = _
    rw [ih, Table.lookup_insert_ite]
    by_cases hrest : song ∈ songs
    · simp [hrest]
    · by_cases hfirst : song = first <;> simp [hrest, hfirst]

/-- Cutting the writes in command lists changes nothing. -/
theorem writeStickersBatched_eq (value : String) (stickers : Stickers)
    (commands songs : List (List Char)) :
    writeStickersBatched value stickers commands songs =
      setStickers value stickers (commands ++ songs) := by
  induction songs generalizing stickers commands with
  | nil =>
    unfold writeStickersBatched
    split
    next hempty => rw [List.isEmpty_iff.mp hempty, List.append_nil, setStickers, List.foldl_nil]
    · rw [List.append_nil]
  | cons song songs ih =>
    unfold writeStickersBatched
    split
    · rw [ih, List.nil_append, setStickers, setStickers, setStickers, ← List.foldl_append]
      simp
    · rw [ih]
      simp

theorem lookup_reconcileOne {musicDirectory : UnixPath} {songs : List UnixPath} {song : UnixPath}
    (hsong : song ∈ songs) (registry : SourceRegistry) (stickers : Stickers)
    (change : SourceStateChange) :
    (reconcileOne musicDirectory songs registry stickers change).lookup (UnixPath.join song) =
      if covers musicDirectory registry song change then some (stickerValueFor change.newState)
      else stickers.lookup (UnixPath.join song) := by
  cases hget : registry.get change.sourceId with
  | none => simp [reconcileOne, covers, hget]
  | some record =>
    cases hpath : mpdDatabaseRelativePath musicDirectory record.mountPath [] with
    | error e => simp [reconcileOne, covers, hget, hpath]
    | ok mountPath =>
      have hmem : UnixPath.join song ∈ enumerateSongsUnderMount songs mountPath ↔
          isUnderBase mountPath (UnixPath.join song) := by
        simp only [enumerateSongsUnderMount, List.mem_filter, and_iff_right_iff_imp]
        exact fun _ => List.mem_map_of_mem hsong
      simp [reconcileOne, covers, hget, hpath, writeStickersBatched_eq, lookup_setStickers, hmem]

-- ---------------------------------------------------------------------------
-- Whose songs a cycle covers
-- ---------------------------------------------------------------------------

theorem isUnderBase_join {relative song : UnixPath} :
    isUnderBase (UnixPath.join relative) (UnixPath.join song) ↔ relative <+: song := by
  by_cases hempty : relative = []
  · subst hempty
    exact ⟨fun _ => List.nil_prefix, fun _ => rfl⟩
  · have hjoin : (UnixPath.join relative).isEmpty = false := by
      obtain ⟨segment, rest, rfl⟩ := List.exists_cons_of_ne_nil hempty
      cases rest <;> simp [UnixPath.join, segment.isName.1]
    rw [isUnderBase, hjoin, Bool.false_or, queuePathIsUnder, ← UnixPath.join_under_iff hempty]
    constructor
    · intro hunder
      split at hunder
      next rest hstrip => exact ⟨rest, Text.stripPrefix_eq_some hstrip, by simpa using hunder⟩
      · cases hunder
    · rintro ⟨rest, hrest, hslash⟩
      rw [hrest, Text.stripPrefix_append]
      simpa using hslash

/-- A cycle covers the songs below the mount of its source. -/
theorem covers_mount (h : covers musicDirectory registry song change) :
    ∃ record ∈ registry.get change.sourceId, record.mountPath <+: musicDirectory ++ song := by
  unfold covers at h
  split at h
  · cases h
  next record hget =>
    split at h
    · cases h
    next mountPath hpath =>
      obtain ⟨relative, hmount, rfl⟩ := mpdDatabaseRelativePath_mount hpath
      refine ⟨record, hget, ?_⟩
      rw [hmount, List.prefix_append_right_inj]
      exact isUnderBase_join.mp h

/-- When a cycle covers the song of an owner, the mount of its source encloses
the owner's. -/
theorem covering_mount_encloses_owner {registry : SourceRegistry}
    (hcovers : covers musicDirectory registry song change)
    (howner : resolveSource musicDirectory (UnixPath.join song) registry.snapshot = some sourceId) :
    ∃ covering ∈ registry.get change.sourceId, ∃ owner ∈ registry.get sourceId,
      covering.mountPath <+: owner.mountPath := by
  obtain ⟨owner, rfl, hmem, howns, hlongest⟩ := resolveSource_longest howner
  rw [absolutePath_join] at howns hlongest
  obtain ⟨covering, hget, hcontains⟩ := covers_mount hcovers
  have hcovering : registry.get covering.id = some covering := by
    rw [SourceRegistry.get_id hget, hget]
  refine ⟨covering, hget, owner, SourceRegistry.mem_snapshot.mp hmem, ?_⟩
  exact UnixPath.prefix_of_len_le hcontains howns
    (hlongest covering (SourceRegistry.mem_snapshot.mpr hcovering) hcontains)

-- ---------------------------------------------------------------------------
-- What a transition does
-- ---------------------------------------------------------------------------

/-- Every source keeps its mount. -/
def SameMounts (registry registry' : SourceRegistry) : Prop :=
  ∀ sourceId, (registry'.get sourceId).map SourceRecord.mountPath =
    (registry.get sourceId).map SourceRecord.mountPath

theorem SameMounts.covers {registry registry' : SourceRegistry}
    (h : SameMounts registry registry') (musicDirectory song : UnixPath) :
    covers musicDirectory registry' song = covers musicDirectory registry song := by
  funext change
  have hmount := h change.sourceId
  unfold Playback.covers
  cases hget : registry.get change.sourceId with
  | none =>
    rw [hget, Option.map_none, Option.map_eq_none_iff] at hmount
    rw [hmount]
  | some record =>
    rw [hget, Option.map_some, Option.map_eq_some_iff] at hmount
    obtain ⟨record', hget', hpath⟩ := hmount
    simp only [hget', hpath]

theorem SameMounts.upsert {registry : SourceRegistry} {record record' : SourceRecord}
    (hget : registry.get record.id = some record) (hid : record'.id = record.id)
    (hmount : record'.mountPath = record.mountPath) :
    SameMounts registry (registry.upsert record') := by
  intro sourceId
  rw [SourceRegistry.get_upsert, hid]
  split
  next heq => rw [heq, hget, Option.map_some, Option.map_some, hmount]
  · rfl

/-- The ways a transition can go. -/
inductive Transitioned (musicDirectory : UnixPath) (songs : List UnixPath) (s : Reconciled)
    (request : TransitionRequest) : Reconciled → Prop where
  | unknown : Transitioned musicDirectory songs s request s
  | refresh (record record' : SourceRecord) (hget : s.registry.get request.sourceId = some record)
      (hid : record'.id = record.id) (hmount : record'.mountPath = record.mountPath)
      (hstate : record'.state.discriminant = record.state.discriminant) :
      Transitioned musicDirectory songs s request { s with registry := s.registry.upsert record' }
  | change (record record' : SourceRecord) (change : SourceStateChange)
      (hget : s.registry.get request.sourceId = some record) (hid : record'.id = record.id)
      (hmount : record'.mountPath = record.mountPath) (hsource : change.sourceId = record.id)
      (hstate : change.newState = record'.state) :
      Transitioned musicDirectory songs s request
        { registry := s.registry.upsert record'
          stickers :=
            reconcileOne musicDirectory songs (s.registry.upsert record') s.stickers change
          changes := s.changes ++ [change] }

theorem transitioned (musicDirectory : UnixPath) (songs : List UnixPath) (s : Reconciled)
    (request : TransitionRequest) :
    Transitioned musicDirectory songs s request (s.transition musicDirectory songs request) := by
  unfold Reconciled.transition SourceRegistry.transition
  cases hget : s.registry.get request.sourceId with
  | none => exact .unknown
  | some record =>
    dsimp only
    have hid := SourceRegistry.get_id hget
    by_cases hsame : record.state.discriminant = request.newState.discriminant
    · rw [if_pos hsame]
      exact .refresh record _ hget rfl rfl hsame.symm
    · rw [if_neg hsame]
      exact .change record _ _ hget rfl rfl hid.symm rfl

-- ---------------------------------------------------------------------------
-- What every sequence keeps
-- ---------------------------------------------------------------------------

theorem stickerValueFor_congr {state state' : SourceState}
    (h : state.discriminant = state'.discriminant) :
    stickerValueFor state = stickerValueFor state' := by
  cases state <;> cases state' <;> first | rfl | cases h

/-- The song carries the value of the last change that covers it, and the last
change of a source is its state. -/
structure Written (musicDirectory : UnixPath) (songs : List UnixPath) (s : Reconciled) : Prop where
  value : ∀ song ∈ songs, ∀ change,
    lastCovering musicDirectory s.registry song s.changes = some change →
    s.stickers.lookup (UnixPath.join song) = some (stickerValueFor change.newState)
  current : ∀ sourceId change record,
    s.changes.reverse.find? (·.sourceId == sourceId) = some change →
    s.registry.get sourceId = some record →
    change.newState.discriminant = record.state.discriminant

theorem Written.refresh {record record' : SourceRecord} (h : Written musicDirectory songs s)
    (hget : s.registry.get sourceId = some record) (hid : record'.id = record.id)
    (hmount : record'.mountPath = record.mountPath)
    (hstate : record'.state.discriminant = record.state.discriminant) :
    Written musicDirectory songs { s with registry := s.registry.upsert record' } := by
  have hkey := SourceRegistry.get_id hget
  refine ⟨fun song hsong change hlast => ?_, fun other change stored hlast hstored => ?_⟩
  · rw [lastCovering, (SameMounts.upsert (hkey ▸ hget) hid hmount).covers] at hlast
    exact h.value song hsong change hlast
  · rw [SourceRegistry.get_upsert, hid, hkey] at hstored
    split at hstored
    next heq =>
      cases hstored
      subst heq
      exact (h.current _ change record hlast hget).trans hstate.symm
    · exact h.current other change stored hlast hstored

theorem Written.change {record record' : SourceRecord} {change : SourceStateChange}
    (h : Written musicDirectory songs s) (hget : s.registry.get sourceId = some record)
    (hid : record'.id = record.id) (hmount : record'.mountPath = record.mountPath)
    (hsource : change.sourceId = record.id) (hstate : change.newState = record'.state) :
    Written musicDirectory songs
      { registry := s.registry.upsert record'
        stickers := reconcileOne musicDirectory songs (s.registry.upsert record') s.stickers change
        changes := s.changes ++ [change] } := by
  have hkey := SourceRegistry.get_id hget
  have hfind (p : SourceStateChange → Bool) : (s.changes ++ [change]).reverse.find? p =
      if p change then some change else s.changes.reverse.find? p := by
    rw [List.reverse_append, List.reverse_singleton, List.singleton_append, List.find?_cons]
    cases p change <;> rfl
  refine ⟨fun song hsong last hlast => ?_, fun other last stored hlast hstored => ?_⟩
  · rw [lookup_reconcileOne hsong]
    rw [lastCovering, hfind] at hlast
    split at hlast
    next hcovers =>
      cases hlast
      rw [if_pos hcovers]
    next hcovers =>
      rw [if_neg hcovers]
      rw [(SameMounts.upsert (hkey ▸ hget) hid hmount).covers] at hlast
      exact h.value song hsong last hlast
  · rw [hfind] at hlast
    rw [SourceRegistry.get_upsert, hid, hkey] at hstored
    by_cases heq : other = sourceId
    · rw [if_pos (by simp [hsource, hkey, heq])] at hlast
      rw [if_pos heq] at hstored
      cases hlast
      cases hstored
      exact congrArg _ hstate
    · rw [if_neg (by simpa [hsource, hkey] using Ne.symm heq)] at hlast
      rw [if_neg heq] at hstored
      exact h.current other last stored hlast hstored

theorem Written.transition (h : Written musicDirectory songs s) (request : TransitionRequest) :
    Written musicDirectory songs (s.transition musicDirectory songs request) := by
  have htransitioned := transitioned musicDirectory songs s request
  generalize s.transition musicDirectory songs request = s' at htransitioned ⊢
  cases htransitioned with
  | unknown => exact h
  | refresh record record' hget hid hmount hstate => exact h.refresh hget hid hmount hstate
  | change record record' change hget hid hmount hsource hstate =>
    exact h.change hget hid hmount hsource hstate

theorem written_transitions (musicDirectory : UnixPath) (songs : List UnixPath)
    (requests : List TransitionRequest) (h : Written musicDirectory songs s) :
    Written musicDirectory songs (s.transitions musicDirectory songs requests) := by
  induction requests generalizing s with
  | nil => exact h
  | cons request requests ih => exact ih (h.transition request)

/-- Whether a change covers a song depends on its source only. -/
theorem covers_congr (h : change.sourceId = change'.sourceId) :
    covers musicDirectory registry song change = covers musicDirectory registry song change' := by
  unfold covers
  rw [h]

/-- When the last change that covers a song is the owner's, it is the owner's
last change. -/
theorem last_of_lastCovering {changes : List SourceStateChange}
    (h : lastCovering musicDirectory registry song changes = some change) :
    changes.reverse.find? (·.sourceId == change.sourceId) = some change := by
  obtain ⟨hcovers, before, after, hsplit, hbefore⟩ := List.find?_eq_some_iff_append.mp h
  refine List.find?_eq_some_iff_append.mpr ⟨by simp, before, after, hsplit, fun other hother => ?_⟩
  have hnot := hbefore other hother
  rw [Bool.not_eq_true'] at hnot ⊢
  rw [beq_eq_false_iff_ne]
  intro heq
  rw [covers_congr heq, hcovers] at hnot
  cases hnot

-- ---------------------------------------------------------------------------
-- Stickers and owners
-- ---------------------------------------------------------------------------

/-- Every song that was covered carries the value of its owner's state. -/
def Reconciled.FollowsOwners (musicDirectory : UnixPath) (songs : List UnixPath)
    (snapshot : List SourceRecord) (s : Reconciled) : Prop :=
  ∀ song ∈ songs, (∃ change ∈ s.changes, covers musicDirectory s.registry song change) →
    ∀ sourceId, resolveSource musicDirectory (UnixPath.join song) snapshot = some sourceId →
      ∀ record, s.registry.get sourceId = some record →
        s.stickers.lookup (UnixPath.join song) = some (stickerValueFor record.state)

/-- The last change that covers a song is one of the song's owner, or one that
makes its songs as available as the owner's state does. -/
def Reconciled.OwnersLast (musicDirectory : UnixPath) (songs : List UnixPath)
    (snapshot : List SourceRecord) (s : Reconciled) : Prop :=
  ∀ song ∈ songs, ∀ change,
    lastCovering musicDirectory s.registry song s.changes = some change →
    ∀ sourceId, resolveSource musicDirectory (UnixPath.join song) snapshot = some sourceId →
      ∀ record, s.registry.get sourceId = some record →
        change.sourceId = sourceId ∨ change.newState.isReachable = record.state.isReachable

theorem stickerValueFor_eq_iff {state state' : SourceState} :
    stickerValueFor state = stickerValueFor state' ↔ state.isReachable = state'.isReachable := by
  unfold stickerValueFor
  cases state.isReachable <;> cases state'.isReachable <;> decide

/-- After any sequence of transitions the stickers follow the owners exactly
when no other source had the last word on a song and left it with another value.
The snapshot lists the registry in any order. -/
theorem stickers_follow_owners_iff (musicDirectory : UnixPath) (songs : List UnixPath)
    (registry : SourceRegistry) (stickers : Stickers) (requests : List TransitionRequest)
    (snapshot : List SourceRecord) :
    let s := Reconciled.transitions musicDirectory songs ⟨registry, stickers, []⟩ requests
    s.FollowsOwners musicDirectory songs snapshot ↔ s.OwnersLast musicDirectory songs snapshot := by
  intro s
  have hwritten : Written musicDirectory songs s := by
    refine written_transitions musicDirectory songs requests ⟨?_, ?_⟩
    · intro song _ change h
      cases h
    · intro sourceId change record h
      cases h
  constructor
  · intro hfollows song hsong change hlast sourceId howner record hrecord
    have hmem := List.mem_reverse.mp (List.mem_of_find?_eq_some hlast)
    have hvalue := hfollows song hsong ⟨change, hmem, List.find?_some hlast⟩ sourceId howner record
      hrecord
    rw [hwritten.value song hsong change hlast, Option.some.injEq, stickerValueFor_eq_iff] at hvalue
    exact .inr hvalue
  · rintro hlasts song hsong ⟨covering, hmem, hcovers⟩ sourceId howner record hrecord
    cases hlast : lastCovering musicDirectory s.registry song s.changes with
    | none =>
      exact absurd hcovers (List.find?_eq_none.mp hlast covering (List.mem_reverse.mpr hmem))
    | some change =>
      rw [hwritten.value song hsong change hlast, Option.some.injEq]
      rcases hlasts song hsong change hlast sourceId howner record hrecord with rfl | hvalue
      · exact stickerValueFor_congr
          (hwritten.current _ change record (last_of_lastCovering hlast) hrecord)
      · exact stickerValueFor_eq_iff.mpr hvalue

/-- A stick mounted inside the music directory. -/
def nestedSources : SourceRegistry :=
  (SourceRegistry.empty.upsert
    ⟨"local-internal".toList, UnixPath.components "/music".toList, .probing, none⟩).upsert
    ⟨"usb".toList, UnixPath.components "/music/USB/stick".toList, .probing, none⟩

/-- The stick goes offline, then the internal source comes online and its cycle
covers the songs of the stick too. -/
theorem outer_source_overwrites_sticker :
    let song := UnixPath.components "USB/stick/a.flac".toList
    let s := Reconciled.transitions (UnixPath.components "/music".toList) [song] ⟨nestedSources, ∅, []⟩
      [⟨"usb".toList, .offline "unplugged" 1, 1⟩, ⟨"local-internal".toList, .online, 2⟩]
    ¬s.FollowsOwners (UnixPath.components "/music".toList) [song] s.registry.snapshot := by
  intro song s h
  have hvalue := h song (List.mem_singleton_self _)
    ⟨⟨"usb".toList, .probing, .offline "unplugged" 1, 1⟩, by decide, by decide⟩ "usb".toList
    (by decide)
    ⟨"usb".toList, UnixPath.components "/music/USB/stick".toList, .offline "unplugged" 1, none⟩
    (by decide)
  exact absurd hvalue (by decide)

end EvoAudio.Playback
