import EvoAudio.Mpd.Responses

/-!
# One song, four parsers

A song is read by the parsers of the current song, the queue, a stored playlist and
the library. They read the same tags of it. Its duration is the last usable
`duration`, or else the first usable `Time`; but to the parser of the current song a
`duration` that is no number of seconds takes back what was read before it.
-/

namespace EvoAudio.Mpd.Responses

open Text Binary64 Blocks

-- ---------------------------------------------------------------------------
-- One field
-- ---------------------------------------------------------------------------

/-- The duration that a `duration` field gives. -/
def usable (f : Field) : Option Duration :=
  if f.key = "duration".toList then
    match parseDurationSecsField "duration".toList f.value with
    | some (.ok duration) => duration
    | _ => none
  else none

/-- The duration that a `Time` field gives. -/
def timeOf (f : Field) : Option Duration :=
  if f.key = "Time".toList then (parseU64 f.value).map .fromSecs else none

/-- The tags with those of a field that do not bear on the duration. -/
def TrackTags.note (tags : TrackTags) (f : Field) : TrackTags :=
  match tags.classical.tryApply f.key f.value with
  | some classical => { tags with classical := classical }
  | none =>
    if f.key = "Title".toList then { tags with title := some f.value }
    else if f.key = "Artist".toList then { tags with artist := some f.value }
    else if f.key = "Album".toList then { tags with album := some f.value }
    else tags

theorem tryApply_eq_none {tags : ClassicalTags} {key value : List Char}
    (h : key = "duration".toList ∨ key = "Time".toList) : tags.tryApply key value = none := by
  obtain rfl | rfl := h <;> rfl

theorem note_duration (tags : TrackTags) (duration : Option Duration) (f : Field) :
    { tags with duration := duration }.note f = { tags.note f with duration := duration } := by
  unfold TrackTags.note
  dsimp only
  cases tags.classical.tryApply f.key f.value with
  | some classical => rfl
  | none => split_ifs <;> rfl

theorem note_of_duration {tags : TrackTags} {f : Field} (h : f.key = "duration".toList) :
    tags.note f = tags := by
  rw [TrackTags.note, tryApply_eq_none (.inl h), h]
  rfl

theorem apply_eq {ρ : Type} (wrap : TrackTags → ρ) (onDuration : List Char → ρ) (tags : TrackTags)
    (f : Field) :
    tags.apply wrap onDuration f =
      if f.key = "duration".toList then onDuration f.value
      else wrap { tags.note f with duration := tags.duration.or (timeOf f) } := by
  by_cases hduration : f.key = "duration".toList
  · rw [if_pos hduration, TrackTags.apply, tryApply_eq_none (.inl hduration), hduration]
    rfl
  · rw [if_neg hduration]
    by_cases htime : f.key = "Time".toList
    · rw [TrackTags.apply, TrackTags.note, timeOf, tryApply_eq_none (.inr htime), htime]
      obtain ⟨title, artist, album, duration, classical⟩ := tags
      cases duration with
      | some duration => rfl
      | none => cases hparse : parseU64 f.value <;> rfl
    · have hnone : timeOf f = none := if_neg htime
      rw [TrackTags.apply, TrackTags.note, hnone, Option.or_none]
      cases tags.classical.tryApply f.key f.value with
      | some classical => rfl
      | none =>
        simp only [hduration, htime, false_and, if_false]
        split_ifs <;> rfl

-- ---------------------------------------------------------------------------
-- The fields of a song
-- ---------------------------------------------------------------------------

/-- The duration after a field, to the parsers of listings. -/
def keep (duration : Option Duration) (f : Field) : Option Duration :=
  (usable f).or (duration.or (timeOf f))

/-- The duration after a field, to the parser of the current song. -/
def reset (duration : Option Duration) (f : Field) : Option Duration :=
  if f.key = "duration".toList then usable f else duration.or (timeOf f)

/-- A field that the parser of the current song accepts. -/
def Accepted (f : Field) : Prop :=
  f.key = "duration".toList →
    ∃ duration, parseDurationSecsField "duration".toList f.value = some (.ok duration)

theorem usable_of_key {f : Field} (h : f.key ≠ "duration".toList) : usable f = none := if_neg h

theorem timeOf_of_duration {f : Field} (h : f.key = "duration".toList) : timeOf f = none := by
  rw [timeOf, h]
  rfl

theorem absorb_eq {f : Field} (h : Accepted f) (tags : TrackTags) :
    tags.absorb f = some { tags.note f with duration := keep tags.duration f } := by
  rw [TrackTags.absorb, apply_eq]
  split_ifs with hkey
  · obtain ⟨duration, hparse⟩ := h hkey
    rw [note_of_duration hkey, keep, usable, if_pos hkey, timeOf_of_duration hkey, hparse]
    cases duration <;> simp
  · rw [keep, usable_of_key hkey, Option.none_or]

theorem songAbsorb_eq {song song' : SongLoop} {f : Field} (hfile : f.key ≠ "file".toList)
    (h : song.absorb f = some (.ok song')) :
    Accepted f ∧ song'.filePath = song.filePath ∧
      song'.toTrackTags = { song.toTrackTags.note f with duration := reset song.duration f } := by
  rw [SongLoop.absorb, if_neg hfile, apply_eq] at h
  split_ifs at h with hkey
  · obtain ⟨result, hparse, hresult⟩ := Option.map_eq_some_iff.mp h
    cases result with
    | error error => cases hresult
    | ok duration =>
      cases hresult
      refine ⟨fun _ => ⟨duration, hparse⟩, rfl, ?_⟩
      rw [note_of_duration hkey, reset, if_pos hkey, usable, if_pos hkey, hparse]
  · cases h
    refine ⟨fun h => absurd h hkey, rfl, ?_⟩
    rw [reset, if_neg hkey]

theorem foldl_note_duration (fields : List Field) (tags : TrackTags) (duration : Option Duration) :
    fields.foldl TrackTags.note { tags with duration := duration } =
      { fields.foldl TrackTags.note tags with duration := duration } := by
  induction fields generalizing tags with
  | nil => rfl
  | cons f fields ih => rw [List.foldl_cons, List.foldl_cons, note_duration, ih]

/-- The whole song, to the parser of the current song. -/
theorem absorbRecord_song {fields : List Field} (hplain : ∀ f ∈ fields, f.key ≠ "file".toList)
    {song song' : SongLoop} (h : absorbRecord SongLoop.absorb song fields = some (.ok song')) :
    (∀ f ∈ fields, Accepted f) ∧ song'.filePath = song.filePath ∧
      song'.toTrackTags = { fields.foldl TrackTags.note song.toTrackTags with
        duration := fields.foldl reset song.duration } := by
  induction fields generalizing song with
  | nil => cases h; exact ⟨by simp, rfl, rfl⟩
  | cons f fields ih =>
    obtain ⟨hfile, hplain⟩ := List.forall_mem_cons.mp hplain
    rw [absorbRecord] at h
    split at h
    next => cases h
    next => cases h
    next next hstep =>
      obtain ⟨haccepted, hpath, htags⟩ := songAbsorb_eq hfile hstep
      obtain ⟨hall, hpath', htags'⟩ := ih hplain h
      refine ⟨List.forall_mem_cons.mpr ⟨haccepted, hall⟩, hpath'.trans hpath, ?_⟩
      rw [htags', htags, foldl_note_duration]
      rfl

-- ---------------------------------------------------------------------------
-- Durations
-- ---------------------------------------------------------------------------

def lastUsable (fields : List Field) : Option Duration := fields.reverse.findSome? usable

def firstTime (fields : List Field) : Option Duration := fields.findSome? timeOf

/-- The duration that some fields give: the last usable `duration`, or else the first
`Time`. -/
def known (fields : List Field) : Option Duration := (lastUsable fields).or (firstTime fields)

theorem lastUsable_append (a b : List Field) :
    lastUsable (a ++ b) = (lastUsable b).or (lastUsable a) := by
  rw [lastUsable, List.reverse_append, List.findSome?_append]
  rfl

theorem firstTime_append (a b : List Field) :
    firstTime (a ++ b) = (firstTime a).or (firstTime b) :=
  List.findSome?_append

theorem lastUsable_of_keys {fields : List Field} (h : ∀ f ∈ fields, f.key ≠ "duration".toList) :
    lastUsable fields = none :=
  List.findSome?_eq_none_iff.mpr fun f hf => usable_of_key (h f (List.mem_reverse.mp hf))

theorem foldl_keep (fields : List Field) : fields.foldl keep none = known fields := by
  induction fields using List.reverseRecOn with
  | nil => rfl
  | append_singleton fields f ih =>
    have hlast : lastUsable [f] = usable f := by simp [lastUsable]
    have hfirst : firstTime [f] = timeOf f := by simp [firstTime]
    rw [List.foldl_append, ih, known, known, lastUsable_append, firstTime_append, hlast, hfirst]
    simp [keep, Option.or_assoc]

theorem foldl_reset {fields : List Field} (h : ∀ f ∈ fields, f.key ≠ "duration".toList)
    (duration : Option Duration) : fields.foldl reset duration = duration.or (firstTime fields) := by
  induction fields generalizing duration with
  | nil => exact (Option.or_none ..).symm
  | cons f fields ih =>
    obtain ⟨hkey, hkeys⟩ := List.forall_mem_cons.mp h
    have hfirst : firstTime (f :: fields) = (timeOf f).or (firstTime fields) :=
      firstTime_append [f] fields |>.trans (by simp [firstTime])
    rw [List.foldl_cons, reset, if_neg hkey, ih hkeys, hfirst, Option.or_assoc]

theorem or_eq_right_iff {α : Type} {a b : Option α} : a.or b = b ↔ a = none ∨ a = b := by
  cases a <;> simp

section Split

variable {before behind : List Field} {f : Field} (hkey : f.key = "duration".toList)
  (hbehind : ∀ f ∈ behind, f.key ≠ "duration".toList)

include hkey hbehind

theorem foldl_reset_split :
    (before ++ f :: behind).foldl reset none = (usable f).or (firstTime behind) := by
  rw [List.foldl_append, List.foldl_cons, reset, if_pos hkey, foldl_reset hbehind]

theorem foldl_keep_split :
    (before ++ f :: behind).foldl keep none =
      (usable f).or ((known before).or (firstTime behind)) := by
  have hlast : lastUsable (f :: behind) = usable f := by
    rw [← List.singleton_append, lastUsable_append, lastUsable_of_keys hbehind, Option.none_or]
    simp [lastUsable]
  have hfirst : firstTime (f :: behind) = firstTime behind := by
    rw [firstTime, List.findSome?_cons, timeOf_of_duration hkey]
    rfl
  rw [foldl_keep, known, lastUsable_append, firstTime_append, hlast, hfirst, known,
    Option.or_assoc, Option.or_assoc]

end Split

/-- Nothing that is known of the duration is taken back: where the last `duration` is
no number of seconds, there is none in front of it, or the first `Time` behind it is
that one again. -/
def DurationStands (fields : List Field) : Prop :=
  ∀ before f behind, fields = before ++ f :: behind → f.key = "duration".toList →
    parseDurationSecsField "duration".toList f.value = some (.ok none) →
    (∀ f ∈ behind, f.key ≠ "duration".toList) →
      known before = none ∨ known before = firstTime behind

theorem exists_last_key (key : List Char) (fields : List Field) :
    (∀ f ∈ fields, f.key ≠ key) ∨
      ∃ before f behind, fields = before ++ f :: behind ∧ f.key = key ∧
        ∀ f ∈ behind, f.key ≠ key := by
  induction fields with
  | nil => exact .inl (by simp)
  | cons f fields ih =>
    obtain hnone | ⟨before, g, behind, rfl, hg⟩ := ih
    · by_cases hf : f.key = key
      · exact .inr ⟨[], f, fields, rfl, hf, hnone⟩
      · exact .inl (List.forall_mem_cons.mpr ⟨hf, hnone⟩)
    · exact .inr ⟨f :: before, g, behind, rfl, hg⟩

theorem keep_eq_reset_iff {fields : List Field} (haccepted : ∀ f ∈ fields, Accepted f) :
    fields.foldl keep none = fields.foldl reset none ↔ DurationStands fields := by
  constructor
  · rintro heq before f behind rfl hkey hunusable hbehind
    have husable : usable f = none := by rw [usable, if_pos hkey, hunusable]
    rw [foldl_keep_split hkey hbehind, foldl_reset_split hkey hbehind, husable] at heq
    exact or_eq_right_iff.mp heq
  · intro hstands
    obtain hnone | ⟨before, f, behind, rfl, hkey, hbehind⟩ := exists_last_key "duration".toList fields
    · rw [foldl_keep, known, lastUsable_of_keys hnone, foldl_reset hnone]
    · rw [foldl_keep_split hkey hbehind, foldl_reset_split hkey hbehind]
      obtain ⟨duration, hparse⟩ := haccepted f (by simp) hkey
      have husable : usable f = duration := by rw [usable, if_pos hkey, hparse]
      cases duration with
      | some duration => rw [husable, Option.some_or, Option.some_or]
      | none =>
        rw [husable, Option.none_or, Option.none_or]
        exact or_eq_right_iff.mpr (hstands before f behind rfl hkey hparse hbehind)

-- ---------------------------------------------------------------------------
-- The parsers of listings
-- ---------------------------------------------------------------------------

/-- The tags after a field, to the parsers of listings. -/
def TrackTags.read (tags : TrackTags) (f : Field) : TrackTags :=
  { tags.note f with duration := keep tags.duration f }

theorem foldl_read (fields : List Field) (tags : TrackTags) :
    fields.foldl TrackTags.read tags =
      { fields.foldl TrackTags.note tags with duration := fields.foldl keep tags.duration } := by
  induction fields generalizing tags with
  | nil => rfl
  | cons f fields ih =>
    rw [List.foldl_cons, List.foldl_cons, List.foldl_cons, ih, TrackTags.read, foldl_note_duration]

/-- The fields that are no tags of a song leave these as they are. -/
theorem read_of_key {f : Field}
    (h : f.key = "Pos".toList ∨ f.key = "Id".toList ∨ f.key = "AlbumArtist".toList)
    (tags : TrackTags) : tags.read f = tags := by
  obtain ⟨key, value⟩ := f
  have hduration : (tags.duration.or none) = tags.duration := Option.or_none ..
  obtain rfl | rfl | rfl := h <;> exact congrArg (fun d => { tags with duration := d }) hduration

theorem foldl_readAt (fields : List Field) (path : List Char) (tags : TrackTags) :
    fields.foldl (fun seen f => (seen.1, seen.2.read f)) (path, tags) =
      (path, fields.foldl TrackTags.read tags) := by
  induction fields generalizing tags with
  | nil => rfl
  | cons f fields ih => exact ih _

section Block

variable {fields : List Field} (haccepted : ∀ f ∈ fields, Accepted f)

include haccepted

theorem queueItems_absorbAll (b : QueueItemBuilder) :
    ∃ b', queueItems.absorbAll b fields = some (b', []) ∧
      b'.filePath = b.filePath ∧ b'.toTrackTags = fields.foldl TrackTags.read b.toTrackTags := by
  obtain ⟨b', habsorb, hseen⟩ := queueItems.absorbAll_view
    (fun b => (b.filePath, b.toTrackTags)) (fun seen f => (seen.1, seen.2.read f)) (fun b f hf => by
      simp only [queueItems, QueueItemBuilder.absorb]
      split_ifs with hpos hid
      · exact ⟨_, rfl, by rw [read_of_key (.inl hpos)]⟩
      · exact ⟨_, rfl, by rw [read_of_key (.inr (.inl hid))]⟩
      · rw [absorb_eq (haccepted f hf)]
        exact ⟨_, rfl, rfl⟩) b
  rw [foldl_readAt] at hseen
  exact ⟨b', habsorb, Prod.mk.inj hseen⟩

theorem playlistEntries_absorbAll (e : MpdPlaylistEntry) :
    ∃ e', playlistEntries.absorbAll e fields = some (e', []) ∧
      e'.filePath = e.filePath ∧ e'.toTrackTags = fields.foldl TrackTags.read e.toTrackTags := by
  obtain ⟨e', habsorb, hseen⟩ := playlistEntries.absorbAll_view
    (fun e => (e.filePath, e.toTrackTags)) (fun seen f => (seen.1, seen.2.read f)) (fun e f hf => by
      simp only [playlistEntries, absorb_eq (haccepted f hf)]
      exact ⟨_, rfl, rfl⟩) e
  rw [foldl_readAt] at hseen
  exact ⟨e', habsorb, Prod.mk.inj hseen⟩

theorem libraryEntries_absorbAll (path : List Char) (albumartist : Option (List Char))
    (tags : TrackTags) :
    ∃ albumartist', libraryEntries.absorbAll (.file path albumartist tags) fields =
      some (.file path albumartist' (fields.foldl TrackTags.read tags), []) := by
  induction fields generalizing albumartist tags with
  | nil => exact ⟨albumartist, rfl⟩
  | cons f fields ih =>
    obtain ⟨hf, hfields⟩ := List.forall_mem_cons.mp haccepted
    have hstep : ∃ albumartist', libraryEntries.absorb (.file path albumartist tags) f =
        some (.file path albumartist' (tags.read f), []) := by
      simp only [libraryEntries, MpdLibraryEntry.absorbField]
      split_ifs with hkey
      · exact ⟨some f.value, by rw [read_of_key (.inr (.inr hkey))]; rfl⟩
      · exact ⟨albumartist, by rw [absorb_eq hf]; rfl⟩
    obtain ⟨between, hstep⟩ := hstep
    obtain ⟨albumartist', hrest⟩ := ih hfields between (tags.read f)
    refine ⟨albumartist', ?_⟩
    rw [BlockParser.absorbAll, hstep]
    simp [hrest]

end Block

-- ---------------------------------------------------------------------------
-- One song in each listing
-- ---------------------------------------------------------------------------

/-- The block of a song. -/
def songBlock (path : List Char) (fields : List Field) : List Field :=
  ⟨"file".toList, path⟩ :: fields

/-- As an item of the queue, where it has a position and an id, as an entry of a stored
playlist and as a file of the library, the song is what the parser of the current song
made of it. -/
structure ParsersAgree (block : List Field) (song : MpdSong) : Prop where
  queue : ∃ items, parseQueueItems block = some items ∧
    ∀ item ∈ items, item.filePath = song.filePath ∧ item.toTrackTags = song.toTrackTags
  playlist : ∃ entry, parsePlaylistEntries block = some [entry] ∧
    entry.filePath = song.filePath ∧ entry.toTrackTags = song.toTrackTags
  library : ∃ albumartist, parseLibraryEntries block =
    some [.file song.filePath albumartist song.toTrackTags]

section Song

variable {path : List Char} {fields : List Field}
  (hplain : ∀ f ∈ fields,
    f.key ∉ ["file".toList, "directory".toList, "playlist".toList])

include hplain

theorem key_ne_file {f : Field} (hf : f ∈ fields) : f.key ≠ "file".toList :=
  fun heq => hplain f hf (heq ▸ List.mem_cons_self ..)

theorem parseQueueItems_song (path : List Char) (haccepted : ∀ f ∈ fields, Accepted f) :
    ∃ items, parseQueueItems (songBlock path fields) = some items ∧ ∀ item ∈ items,
      item.filePath = path ∧ item.toTrackTags = fields.foldl TrackTags.read {} := by
  obtain ⟨b, habsorb, hpath, htags⟩ := queueItems_absorbAll haccepted { filePath := path }
  refine ⟨b.build.toList, ?_, fun item hitem => ?_⟩
  · rw [parseQueueItems, songBlock, BlockParser.parse_block _ rfl]
    · simp only [queueItems] at habsorb ⊢
      rw [habsorb]
      rfl
    · exact fun f hf => decide_eq_false (key_ne_file hplain hf)
  · have hbuild : b.build = some item := Option.mem_toList.mp hitem
    simp only [QueueItemBuilder.build, Option.bind_eq_bind, Option.bind_eq_some_iff] at hbuild
    obtain ⟨position, -, id, -, hitem⟩ := hbuild
    cases hitem
    exact ⟨hpath, htags⟩

theorem parsePlaylistEntries_song (path : List Char) (haccepted : ∀ f ∈ fields, Accepted f) :
    ∃ entry, parsePlaylistEntries (songBlock path fields) = some [entry] ∧
      entry.filePath = path ∧ entry.toTrackTags = fields.foldl TrackTags.read {} := by
  obtain ⟨entry, habsorb, hseen⟩ :=
    playlistEntries_absorbAll haccepted { position := 0, filePath := path }
  refine ⟨entry, ?_, hseen⟩
  rw [parsePlaylistEntries, songBlock, BlockParser.parse_block _ rfl]
  · simp only [playlistEntries] at habsorb ⊢
    rw [habsorb]
    rfl
  · exact fun f hf => decide_eq_false (key_ne_file hplain hf)

theorem parseLibraryEntries_song (path : List Char) (haccepted : ∀ f ∈ fields, Accepted f) :
    ∃ albumartist, parseLibraryEntries (songBlock path fields) =
      some [.file path albumartist (fields.foldl TrackTags.read {})] := by
  obtain ⟨albumartist, habsorb⟩ := libraryEntries_absorbAll haccepted path none {}
  refine ⟨albumartist, ?_⟩
  rw [parseLibraryEntries, songBlock, BlockParser.parse_block _ rfl]
  · have hstart : libraryEntries.start () ⟨"file".toList, path⟩ = .file path none {} := rfl
    rw [hstart, habsorb]
    rfl
  · refine fun f hf => decide_eq_false ?_
    rintro (hkey | hkey | hkey) <;> exact hplain f hf (by rw [hkey]; decide)

theorem parsersAgree_iff_read (haccepted : ∀ f ∈ fields, Accepted f) {song : MpdSong}
    (hpath : song.filePath = path) :
    ParsersAgree (songBlock path fields) song ↔
      fields.foldl TrackTags.read {} = song.toTrackTags := by
  subst hpath
  obtain ⟨entry, hentry, hentryPath, hentryTags⟩ :=
    parsePlaylistEntries_song hplain song.filePath haccepted
  constructor
  · rintro ⟨-, ⟨entry', hentry', -, htags⟩, -⟩
    rw [hentry] at hentry'
    obtain ⟨rfl, -⟩ := List.cons.inj (Option.some.inj hentry')
    exact hentryTags.symm.trans htags
  · intro htags
    obtain ⟨items, hitems, hseen⟩ := parseQueueItems_song hplain song.filePath haccepted
    obtain ⟨albumartist, hlibrary⟩ := parseLibraryEntries_song hplain song.filePath haccepted
    rw [htags] at hentryTags hseen hlibrary
    exact ⟨⟨items, hitems, hseen⟩, ⟨entry, hentry, hentryPath, hentryTags⟩, albumartist, hlibrary⟩

theorem parseCurrentSong_song {song : MpdSong}
    (hsong : parseCurrentSong (songBlock path fields) = some (.ok (some song))) :
    (∀ f ∈ fields, Accepted f) ∧ song.filePath = path ∧
      song.toTrackTags = { fields.foldl TrackTags.note {} with
        duration := fields.foldl reset none } := by
  have hfirst : absorbRecord SongLoop.absorb {} (songBlock path fields) =
      absorbRecord SongLoop.absorb { filePath := some path } fields := rfl
  rw [parseCurrentSong, if_neg (by simp [songBlock]), hfirst] at hsong
  obtain ⟨result, hloop, hresult⟩ := Option.map_eq_some_iff.mp hsong
  cases result with
  | error error => cases hresult
  | ok loop =>
    obtain ⟨haccepted, hpath, htags⟩ := absorbRecord_song
      (fun f hf => key_ne_file hplain hf) hloop
    have hbuild := Except.ok.inj hresult
    simp only [hpath, Option.map_some, Option.some.injEq] at hbuild
    cases hbuild
    exact ⟨haccepted, rfl, htags⟩

/-- The parsers agree on a song exactly where no `duration` takes back what is known of
its duration. -/
theorem song_parsers_agree_iff {song : MpdSong}
    (hsong : parseCurrentSong (songBlock path fields) = some (.ok (some song))) :
    ParsersAgree (songBlock path fields) song ↔ DurationStands fields := by
  obtain ⟨haccepted, hpath, htags⟩ := parseCurrentSong_song hplain hsong
  rw [parsersAgree_iff_read hplain haccepted hpath, htags, foldl_read,
    ← keep_eq_reset_iff haccepted]
  exact ⟨congrArg TrackTags.duration, fun h => congrArg
    (fun d => { fields.foldl TrackTags.note {} with duration := d }) h⟩

end Song

/-- A song with a title and a whole number of seconds. -/
def plainFields : List Field := [⟨"Title".toList, "Gigue".toList⟩, ⟨"Time".toList, "180".toList⟩]

def plainSong : MpdSong where
  filePath := "a.flac".toList
  title := some "Gigue".toList
  duration := some (.fromSecs 180)
  codecName := some "flac".toList

theorem plain_song_parsers_agree : ParsersAgree (songBlock "a.flac".toList plainFields) plainSong := by
  refine (song_parsers_agree_iff (by decide) (by decide)).mpr fun before f behind hsplit hkey => ?_
  have hmem : f ∈ plainFields := by simp [hsplit]
  exact absurd hkey ((by decide : ∀ f ∈ plainFields, f.key ≠ "duration".toList) f hmem)

/-- A `duration` that is no number takes back the `Time` of the current song only. -/
theorem time_before_nan_is_taken_back :
    ∃ song, parseCurrentSong (songBlock "a.flac".toList
        [⟨"Time".toList, "180".toList⟩, ⟨"duration".toList, "nan".toList⟩]) =
          some (.ok (some song)) ∧
      ¬ ParsersAgree (songBlock "a.flac".toList
        [⟨"Time".toList, "180".toList⟩, ⟨"duration".toList, "nan".toList⟩]) song := by
  refine ⟨{ filePath := "a.flac".toList, codecName := some "flac".toList }, by decide, ?_⟩
  rintro ⟨-, ⟨entry, hentry, -, htags⟩, -⟩
  have hkept : parsePlaylistEntries (songBlock "a.flac".toList
      [⟨"Time".toList, "180".toList⟩, ⟨"duration".toList, "nan".toList⟩]) =
        some [{ position := 0, filePath := "a.flac".toList, duration := some (.fromSecs 180) }] := by
    decide
  rw [hkept] at hentry
  obtain ⟨rfl, -⟩ := List.cons.inj (Option.some.inj hentry)
  exact absurd (congrArg TrackTags.duration htags) (by decide)

end EvoAudio.Mpd.Responses
