import EvoAudio.Lib.Binary64
import EvoAudio.Lib.Blocks
import EvoAudio.Lib.ByteSlices
import EvoAudio.Mpd.Codecs
import EvoAudio.Mpd.Protocol

/-!
# Responses as records

The parsers of `evo-mpd-shared/src/connection.rs` that make records of the fields of
a response. A number of seconds goes through `Duration::from_secs_f64`, which panics
on what a duration cannot hold, so each parser may end in a panic (`none`). The
parsers of listings differ in their headers and in what they absorb.
-/

namespace EvoAudio.Mpd.Responses

open Text Binary64 Blocks

/-- The protocol errors of the projections. -/
inductive FieldError where
  | unparseableField (field value : List Char)
  | unknownPlayState (value : List Char)
  | missingField (field : List Char)
  deriving DecidableEq, Repr

/-- A result, or a panic. -/
abbrev Parsed (α : Type) := Option (Except FieldError α)

-- ---------------------------------------------------------------------------
-- Numbers
-- ---------------------------------------------------------------------------

/-- `str::parse::<u64>`. -/
def parseU64 (s : List Char) : Option UInt64 :=
  let digits := (stripPrefix ['+'] s).getD s
  if digits ≠ [] ∧ digits.all Char.isDigit ∧ Nat.ofDigitChars 10 digits 0 < 2 ^ 64 then
    some (UInt64.ofNat (Nat.ofDigitChars 10 digits 0))
  else none

/-- `str::parse::<i32>`. -/
def parseI32 (s : List Char) : Option Int :=
  let (negative, digits) := splitSign s
  let magnitude := Nat.ofDigitChars 10 digits 0
  if digits ≠ [] ∧ digits.all Char.isDigit ∧
      (if negative then magnitude ≤ 2 ^ 31 else magnitude < 2 ^ 31) then
    some (if negative then -magnitude else magnitude)
  else none

def parseU32Field (field value : List Char) : Except FieldError UInt32 :=
  match parseU32 value with
  | some n => .ok n
  | none => .error (.unparseableField field value)

/-- Any number but a percentage is an unknown volume. -/
def parseVolumeField (value : List Char) : Except FieldError (Option UInt8) :=
  match parseI32 value with
  | none => .error (.unparseableField "volume".toList value)
  | some raw => .ok (if 0 ≤ raw ∧ raw ≤ 100 then some (UInt8.ofNat raw.toNat) else none)

structure Duration where
  nanos : Nat
  deriving DecidableEq, Repr

/-- `Duration::from_secs`. -/
def Duration.fromSecs (secs : UInt64) : Duration := ⟨secs.toNat * 10 ^ 9⟩

/-- `Duration::from_secs_f64`, which panics on what is negative, not finite, or not
below 2^64 seconds. -/
def Duration.fromSecsF64 : F64 → Option Duration
  | .finite negative secs =>
    if (negative && decide (0 < secs)) = false ∧ secs < 2 ^ (64 : Int) then
      some ⟨(roundEven (secs * 10 ^ 9)).toNat⟩
    else none
  | _ => none

def parseDurationSecsField (field value : List Char) : Parsed (Option Duration) :=
  match parseF64 value with
  | none => some (.error (.unparseableField field value))
  | some secs =>
    if !secs.isFinite || secs.isBelowZero then some (.ok none)
    else (Duration.fromSecsF64 secs).map fun duration => .ok (some duration)

-- ---------------------------------------------------------------------------
-- Status
-- ---------------------------------------------------------------------------

inductive PlayState where
  | playing
  | paused
  | stopped
  deriving DecidableEq, Repr

/-- The fields of `MpdStatus` behind the state, with their defaults. -/
structure StatusFields where
  songPosition : Option UInt32 := none
  elapsed : Option Duration := none
  duration : Option Duration := none
  volume : Option UInt8 := none
  repeatMode : Bool := false
  random : Bool := false
  single : Bool := false
  consume : Bool := false
  crossfadeSeconds : UInt32 := 0
  updatingDb : Option UInt32 := none
  deriving DecidableEq, Repr

structure MpdStatus extends StatusFields where
  state : PlayState
  deriving DecidableEq, Repr

/-- The variables of the loop. -/
structure StatusLoop extends StatusFields where
  state : Option PlayState := none

def parsePlayState (value : List Char) : Except FieldError PlayState :=
  if value = "play".toList then .ok .playing
  else if value = "pause".toList then .ok .paused
  else if value = "stop".toList then .ok .stopped
  else .error (.unknownPlayState value)

def StatusLoop.absorb (status : StatusLoop) (f : Field) : Parsed StatusLoop :=
  if f.key = "state".toList then
    some ((parsePlayState f.value).map fun state => { status with state := some state })
  else if f.key = "song".toList then
    some ((parseU32Field "song".toList f.value).map fun position =>
      { status with songPosition := some position })
  else if f.key = "elapsed".toList then
    (parseDurationSecsField "elapsed".toList f.value).map fun elapsed =>
      elapsed.map fun elapsed => { status with elapsed := elapsed }
  else if f.key = "duration".toList then
    (parseDurationSecsField "duration".toList f.value).map fun duration =>
      duration.map fun duration => { status with duration := duration }
  else if f.key = "volume".toList then
    some ((parseVolumeField f.value).map fun volume => { status with volume := volume })
  else if f.key = "repeat".toList then some (.ok { status with repeatMode := f.value = "1".toList })
  else if f.key = "random".toList then some (.ok { status with random := f.value = "1".toList })
  else if f.key = "single".toList then some (.ok { status with single := f.value ≠ "0".toList })
  else if f.key = "consume".toList then some (.ok { status with consume := f.value = "1".toList })
  else if f.key = "xfade".toList then
    some (.ok { status with crossfadeSeconds := (parseU32 f.value).getD 0 })
  else if f.key = "updating_db".toList then
    some (.ok { status with updatingDb := parseU32 f.value })
  else some (.ok status)

def parseStatus (fields : List Field) : Parsed MpdStatus :=
  (absorbRecord StatusLoop.absorb {} fields).map fun result =>
    result.bind fun status =>
      match status.state with
      | none => .error (.missingField "state".toList)
      | some state => .ok { toStatusFields := status.toStatusFields, state := state }

-- ---------------------------------------------------------------------------
-- Tags
-- ---------------------------------------------------------------------------

structure ClassicalTags where
  composer : Option (List Char) := none
  composerSort : Option (List Char) := none
  conductor : Option (List Char) := none
  ensemble : Option (List Char) := none
  performer : Option (List Char) := none
  work : Option (List Char) := none
  workSort : Option (List Char) := none
  movement : Option (List Char) := none
  movementNumber : Option UInt32 := none
  originalDate : Option (List Char) := none
  recordingDate : Option (List Char) := none
  label : Option (List Char) := none
  medium : Option (List Char) := none
  deriving DecidableEq, Repr

def someIfNonEmpty (v : List Char) : Option (List Char) :=
  if (trim v).isEmpty then none else some v

/-- The tags with one more, or `none` for a key that is not one of them. -/
def ClassicalTags.tryApply (tags : ClassicalTags) (key value : List Char) : Option ClassicalTags :=
  if key = "Composer".toList then some { tags with composer := someIfNonEmpty value }
  else if key = "ComposerSort".toList then some { tags with composerSort := someIfNonEmpty value }
  else if key = "Conductor".toList then some { tags with conductor := someIfNonEmpty value }
  else if key = "Ensemble".toList then some { tags with ensemble := someIfNonEmpty value }
  else if key = "Performer".toList then some { tags with performer := someIfNonEmpty value }
  else if key = "Work".toList then some { tags with work := someIfNonEmpty value }
  else if key = "WorkSort".toList then some { tags with workSort := someIfNonEmpty value }
  else if key = "Movement".toList then some { tags with movement := someIfNonEmpty value }
  else if key = "MovementNumber".toList then
    some { tags with movementNumber := parseU32 (trim value) }
  else if key = "OriginalDate".toList then some { tags with originalDate := someIfNonEmpty value }
  else if key = "Date".toList then some { tags with recordingDate := someIfNonEmpty value }
  else if key = "Label".toList then some { tags with label := someIfNonEmpty value }
  else if key = "Media".toList then some { tags with medium := someIfNonEmpty value }
  else none

/-- What all parsers of songs read of a song. -/
structure TrackTags where
  title : Option (List Char) := none
  artist : Option (List Char) := none
  album : Option (List Char) := none
  duration : Option Duration := none
  classical : ClassicalTags := {}
  deriving DecidableEq, Repr

/-- The arms that the parsers of songs share. They differ in what a `duration`
does. -/
def TrackTags.apply {ρ : Type} (wrap : TrackTags → ρ) (onDuration : List Char → ρ)
    (tags : TrackTags) (f : Field) : ρ :=
  match tags.classical.tryApply f.key f.value with
  | some classical => wrap { tags with classical := classical }
  | none =>
    if f.key = "Title".toList then wrap { tags with title := some f.value }
    else if f.key = "Artist".toList then wrap { tags with artist := some f.value }
    else if f.key = "Album".toList then wrap { tags with album := some f.value }
    else if f.key = "duration".toList then onDuration f.value
    else if f.key = "Time".toList ∧ tags.duration = none then
      match parseU64 f.value with
      | some secs => wrap { tags with duration := some (.fromSecs secs) }
      | none => wrap tags
    else wrap tags

-- ---------------------------------------------------------------------------
-- The current song
-- ---------------------------------------------------------------------------

structure MpdSong extends TrackTags where
  filePath : List Char
  codecName : Option (List Char)
  deriving DecidableEq, Repr

/-- The variables of the loop. -/
structure SongLoop extends TrackTags where
  filePath : Option (List Char) := none

/-- A `duration` sets the duration, or takes it away. -/
def SongLoop.absorb (song : SongLoop) (f : Field) : Parsed SongLoop :=
  if f.key = "file".toList then some (.ok { song with filePath := some f.value })
  else
    song.toTrackTags.apply (fun tags => some (.ok { song with toTrackTags := tags }))
      (fun value => (parseDurationSecsField "duration".toList value).map fun result =>
        result.map fun duration => { song with duration := duration }) f

def parseCurrentSong (fields : List Field) : Parsed (Option MpdSong) :=
  if fields.isEmpty then some (.ok none)
  else
    (absorbRecord SongLoop.absorb {} fields).map fun result =>
      result.map fun song => song.filePath.map fun filePath =>
        { toTrackTags := song.toTrackTags
          filePath := filePath
          codecName := Codecs.deriveSourceCodecName filePath }

-- ---------------------------------------------------------------------------
-- Songs in listings
-- ---------------------------------------------------------------------------

/-- A `duration` that is not a number of seconds is passed over. -/
def TrackTags.absorb (tags : TrackTags) (f : Field) : Option TrackTags :=
  tags.apply some (fun value => (parseDurationSecsField "duration".toList value).map fun result =>
    match result with
    | .ok (some duration) => { tags with duration := some duration }
    | _ => tags) f

structure QueueItemBuilder extends TrackTags where
  filePath : List Char
  position : Option UInt32 := none
  id : Option UInt32 := none

structure MpdQueueItem extends TrackTags where
  id : UInt32
  position : UInt32
  filePath : List Char
  deriving DecidableEq, Repr

def QueueItemBuilder.absorb (b : QueueItemBuilder) (f : Field) : Option QueueItemBuilder :=
  if f.key = "Pos".toList then some { b with position := (parseU32 f.value).or b.position }
  else if f.key = "Id".toList then some { b with id := (parseU32 f.value).or b.id }
  else (b.toTrackTags.absorb f).map fun tags => { b with toTrackTags := tags }

def QueueItemBuilder.build (b : QueueItemBuilder) : Option MpdQueueItem := do
  let position ← b.position
  let id ← b.id
  some { toTrackTags := b.toTrackTags, id, position, filePath := b.filePath }

/-- The parser of `playlistinfo`. -/
def queueItems : BlockParser Unit Field QueueItemBuilder MpdQueueItem where
  header f := f.key = "file".toList
  start _ f := { filePath := f.value }
  next := id
  absorb b f := (b.absorb f).map (·, [])
  build b := b.build.toList

def parseQueueItems (fields : List Field) : Option (List MpdQueueItem) :=
  queueItems.parse () fields

structure MpdPlaylistEntry extends TrackTags where
  position : UInt32
  filePath : List Char
  deriving DecidableEq, Repr

/-- `u32::saturating_add(1)` -/
def succSaturating (n : UInt32) : UInt32 := if n.toNat + 1 < 2 ^ 32 then n + 1 else n

/-- The parser of `listplaylistinfo`, which counts the entries. -/
def playlistEntries : BlockParser UInt32 Field MpdPlaylistEntry MpdPlaylistEntry where
  header f := f.key = "file".toList
  start position f := { position, filePath := f.value }
  next := succSaturating
  absorb e f := (e.toTrackTags.absorb f).map fun tags => ({ e with toTrackTags := tags }, [])
  build e := [e]

def parsePlaylistEntries (fields : List Field) : Option (List MpdPlaylistEntry) :=
  playlistEntries.parse 0 fields

/-- The builder of an entry has the variants of the entry. -/
inductive MpdLibraryEntry where
  | directory (path : List Char) (lastModified : Option (List Char))
  | file (path : List Char) (albumartist : Option (List Char)) (tags : TrackTags)
  | playlist (path : List Char) (lastModified : Option (List Char))
  deriving DecidableEq, Repr

def MpdLibraryEntry.absorbField (f : Field) : MpdLibraryEntry → Option MpdLibraryEntry
  | .directory path lastModified =>
    some (.directory path (if f.key = "Last-Modified".toList then some f.value else lastModified))
  | .playlist path lastModified =>
    some (.playlist path (if f.key = "Last-Modified".toList then some f.value else lastModified))
  | .file path albumartist tags =>
    if f.key = "AlbumArtist".toList then some (.file path (some f.value) tags)
    else (tags.absorb f).map (.file path albumartist)

/-- The parser of `lsinfo`, `find` and `search`. -/
def libraryEntries : BlockParser Unit Field MpdLibraryEntry MpdLibraryEntry where
  header f :=
    f.key = "directory".toList ∨ f.key = "file".toList ∨ f.key = "playlist".toList
  start _ f :=
    if f.key = "directory".toList then .directory f.value none
    else if f.key = "file".toList then .file f.value none {}
    else .playlist f.value none
  next := id
  absorb entry f := (entry.absorbField f).map (·, [])
  build entry := [entry]

def parseLibraryEntries (fields : List Field) : Option (List MpdLibraryEntry) :=
  libraryEntries.parse () fields

-- ---------------------------------------------------------------------------
-- Other listings
-- ---------------------------------------------------------------------------

structure MpdPlaylistSummary where
  name : List Char
  lastModified : Option (List Char) := none
  deriving DecidableEq, Repr

/-- The parser of `listplaylists`. -/
def playlistSummaries : BlockParser Unit Field MpdPlaylistSummary MpdPlaylistSummary where
  header f := f.key = "playlist".toList
  start _ f := { name := f.value }
  next := id
  absorb summary f :=
    some (if f.key = "Last-Modified".toList then { summary with lastModified := some f.value }
      else summary, [])
  build summary := [summary]

def parsePlaylistSummaries (fields : List Field) : Option (List MpdPlaylistSummary) :=
  playlistSummaries.parse () fields

structure MpdMount where
  name : List Char
  storage : List Char := []
  deriving DecidableEq, Repr

/-- The parser of `listmounts`. -/
def mounts : BlockParser Unit Field MpdMount MpdMount where
  header f := f.key = "mount".toList
  start _ f := { name := f.value }
  next := id
  absorb mount f :=
    some (if f.key = "storage".toList then { mount with storage := f.value } else mount, [])
  build mount := [mount]

def parseMounts (fields : List Field) : Option (List MpdMount) := mounts.parse () fields

structure MpdNeighbor where
  uri : List Char
  name : List Char := []
  deriving DecidableEq, Repr

/-- The parser of `listneighbors`. -/
def neighbors : BlockParser Unit Field MpdNeighbor MpdNeighbor where
  header f := f.key = "neighbor".toList
  start _ f := { uri := f.value }
  next := id
  absorb neighbor f :=
    some (if f.key = "name".toList then { neighbor with name := f.value } else neighbor, [])
  build neighbor := [neighbor]

def parseNeighbors (fields : List Field) : Option (List MpdNeighbor) := neighbors.parse () fields

-- ---------------------------------------------------------------------------
-- Stickers
-- ---------------------------------------------------------------------------

structure MpdSticker where
  name : List Char
  value : List Char
  deriving DecidableEq, Repr

structure MpdStickerMatch where
  filePath : List Char
  sticker : MpdSticker
  deriving DecidableEq, Repr

/-- The name and the value around the first `=`. The slices panic within a
character. -/
def stickerSplitPair (raw : List Char) : Option (Option MpdSticker) :=
  match findWhere (· == '=') raw with
  | none => some none
  | some eq => do
    let name ← sliceTo raw eq
    let value ← sliceFrom raw (eq + 1)
    some (some ⟨name, value⟩)

def parseStickerList (fields : List Field) : Option (List MpdSticker) :=
  ((fields.filter (·.key = "sticker".toList)).mapM fun f => stickerSplitPair f.value).map
    List.reduceOption

/-- The parser of `sticker find`, which answers each `sticker` line at once. -/
def stickerFind : BlockParser Unit Field (List Char) MpdStickerMatch where
  header f := f.key = "file".toList
  start _ f := f.value
  next := id
  absorb path f :=
    if f.key = "sticker".toList then
      (stickerSplitPair f.value).map fun sticker =>
        (path, (sticker.map (⟨path, ·⟩)).toList)
    else some (path, [])
  build _ := []

def parseStickerFind (fields : List Field) : Option (List MpdStickerMatch) :=
  stickerFind.parse () fields

end EvoAudio.Mpd.Responses
