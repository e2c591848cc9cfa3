import EvoAudio.Mpd.SongBlocks

/-!
# Durations that are too long

The parsers go through unless they come to a number of seconds that is finite, not
negative, and `2 ^ 64` or more after rounding: nothing guards the conversion to a
duration against it. Which fields a parser comes to depends on the errors in front of
them and on the blocks that they are in.
-/

namespace EvoAudio.Mpd.Responses

open Text Binary64 Blocks

/-- The text of a number that is not negative, is at least `2 ^ 64` when it has been
rounded, and is not rounded to an infinity. -/
def Overlong (value : List Char) : Prop :=
  ∃ decimal, (splitSign value).1 = false ∧ parseDecimal (splitSign value).2 = some decimal ∧
    (2 : ℚ) ^ (64 : Int) - 2 ^ (10 : Int) ≤ decimalValue decimal ∧
      decimalValue decimal < 2 ^ (1024 : Int) - 2 ^ (970 : Int)

theorem overlong_iff {value : List Char} :
    Overlong value ↔
      ∃ magnitude, parseF64 value = some (.finite false magnitude) ∧ 2 ^ (64 : Int) ≤ magnitude :=
  (parseF64_reaches (t := 64) (by decide) value).symm

theorem parseDurationSecsField_isSome_iff (field value : List Char) :
    (parseDurationSecsField field value).isSome ↔ ¬ Overlong value := by
  rw [overlong_iff, parseDurationSecsField]
  cases hparse : parseF64 value with
  | none => simp
  | some secs =>
    cases secs with
    | nan => simp [F64.isFinite]
    | infinite negative => simp [F64.isFinite]
    | finite negative magnitude =>
      simp only [F64.isFinite, F64.isBelowZero, Bool.not_true, Bool.false_or, Option.some.injEq,
        F64.finite.injEq]
      split_ifs with hbelow
      · refine iff_of_true rfl ?_
        rintro ⟨_, ⟨rfl, rfl⟩, -⟩
        cases hbelow
      · rw [Bool.not_eq_true] at hbelow
        rw [Option.isSome_map, Duration.fromSecsF64, hbelow]
        split_ifs with hfits
        · refine iff_of_true rfl ?_
          rintro ⟨_, ⟨-, rfl⟩, hlong⟩
          exact absurd hfits.2 (not_lt.mpr hlong)
        · have hlong : 2 ^ (64 : Int) ≤ magnitude := not_lt.mp fun hlt => hfits ⟨rfl, hlt⟩
          refine iff_of_false Bool.false_ne_true (not_not.mpr ⟨magnitude, ⟨?_, rfl⟩, hlong⟩)
          cases negative with
          | false => rfl
          | true =>
            have hpos : 0 < magnitude := (two_zpow_pos 64).trans_le hlong
            simp [hpos] at hbelow

theorem parseDurationSecsField_eq_none (field value : List Char) :
    parseDurationSecsField field value = none ↔ Overlong value := by
  rw [← Option.not_isSome_iff_eq_none, parseDurationSecsField_isSome_iff, not_not]

/-- A field whose text is no number at all is an error, and the only one. -/
theorem parseDurationSecsField_error {field value : List Char} :
    (∃ error, parseDurationSecsField field value = some (.error error)) ↔
      (parseF64 value).isNone := by
  rw [parseDurationSecsField]
  cases parseF64 value with
  | none => simp
  | some secs =>
    refine iff_of_false ?_ (by simp)
    rintro ⟨error, herror⟩
    dsimp only at herror
    split_ifs at herror
    · cases herror
    · obtain ⟨duration, -, h⟩ := Option.map_eq_some_iff.mp herror
      cases h

-- ---------------------------------------------------------------------------
-- Status
-- ---------------------------------------------------------------------------

/-- A field that `parse_status` answers with an error. -/
def statusRejects (f : Field) : Bool :=
  f.key = "state".toList ∧ f.value ≠ "play".toList ∧ f.value ≠ "pause".toList ∧
    f.value ≠ "stop".toList ∨
  f.key = "song".toList ∧ (parseU32 f.value).isNone ∨
  (f.key = "elapsed".toList ∨ f.key = "duration".toList) ∧ (parseF64 f.value).isNone ∨
  f.key = "volume".toList ∧ (parseI32 f.value).isNone

/-- A field of `parse_status` with a duration that is too long. -/
def statusOverlong (f : Field) : Prop :=
  (f.key = "elapsed".toList ∨ f.key = "duration".toList) ∧ Overlong f.value

theorem ite_ok {σ : Type} {c : Prop} [Decidable c] {a b : Parsed σ}
    (ha : ∃ s, a = some (.ok s)) (hb : ∃ s, b = some (.ok s)) :
    ∃ s, (if c then a else b) = some (.ok s) := by
  split_ifs
  · exact ha
  · exact hb

/-- A projection that is mapped over the record is an error as it was before. -/
theorem map_error_iff {σ τ : Type} {result : Parsed σ} {g : σ → τ} :
    (∃ error, result.map (Except.map g) = some (.error error)) ↔
      ∃ error, result = some (.error error) := by
  rcases result with _ | _ | _ <;> simp [Except.map]

theorem parsePlayState_error {value : List Char} :
    (∃ error, some (parsePlayState value) = some (.error error)) ↔
      value ≠ "play".toList ∧ value ≠ "pause".toList ∧ value ≠ "stop".toList := by
  unfold parsePlayState
  by_cases hplay : value = "play".toList
  · simp [hplay]
  by_cases hpause : value = "pause".toList
  · simp [hpause]
  by_cases hstop : value = "stop".toList
  · simp [hstop]
  · rw [if_neg hplay, if_neg hpause, if_neg hstop]
    exact iff_of_true ⟨_, rfl⟩ ⟨hplay, hpause, hstop⟩

theorem parseU32Field_error {field value : List Char} :
    (∃ error, some (parseU32Field field value) = some (.error error)) ↔ (parseU32 value).isNone := by
  rw [parseU32Field]
  cases parseU32 value <;> simp

theorem parseVolumeField_error {value : List Char} :
    (∃ error, some (parseVolumeField value) = some (.error error)) ↔ (parseI32 value).isNone := by
  rw [parseVolumeField]
  cases parseI32 value <;> simp

theorem statusAbsorb_other (status : StatusLoop) {f : Field} (hstate : f.key ≠ "state".toList)
    (hsong : f.key ≠ "song".toList) (helapsed : f.key ≠ "elapsed".toList)
    (hduration : f.key ≠ "duration".toList) (hvolume : f.key ≠ "volume".toList) :
    ∃ status', status.absorb f = some (.ok status') := by
  rw [StatusLoop.absorb, if_neg hstate, if_neg hsong, if_neg helapsed, if_neg hduration,
    if_neg hvolume]
  exact ite_ok ⟨_, rfl⟩ (ite_ok ⟨_, rfl⟩ (ite_ok ⟨_, rfl⟩ (ite_ok ⟨_, rfl⟩ (ite_ok ⟨_, rfl⟩
    (ite_ok ⟨_, rfl⟩ ⟨_, rfl⟩)))))

/-- What a field of the status comes to: a panic, an error, or neither. -/
theorem statusAbsorb_outcome (status : StatusLoop) (f : Field) :
    (status.absorb f = none ↔ statusOverlong f) ∧
      ((∃ error, status.absorb f = some (.error error)) ↔ statusRejects f = true) := by
  rw [statusOverlong, statusRejects, decide_eq_true_iff]
  by_cases hstate : f.key = "state".toList
  · rw [StatusLoop.absorb, if_pos hstate, hstate, ← Option.map_some, map_error_iff,
      parsePlayState_error]
    simp
  by_cases hsong : f.key = "song".toList
  · rw [StatusLoop.absorb, if_neg hstate, if_pos hsong, hsong, ← Option.map_some, map_error_iff,
      parseU32Field_error]
    simp
  by_cases helapsed : f.key = "elapsed".toList
  · rw [StatusLoop.absorb, if_neg hstate, if_neg hsong, if_pos helapsed, helapsed,
      Option.map_eq_none_iff, parseDurationSecsField_eq_none, map_error_iff,
      parseDurationSecsField_error]
    simp
  by_cases hduration : f.key = "duration".toList
  · rw [StatusLoop.absorb, if_neg hstate, if_neg hsong, if_neg helapsed, if_pos hduration,
      hduration, Option.map_eq_none_iff, parseDurationSecsField_eq_none, map_error_iff,
      parseDurationSecsField_error]
    simp
  by_cases hvolume : f.key = "volume".toList
  · rw [StatusLoop.absorb, if_neg hstate, if_neg hsong, if_neg helapsed, if_neg hduration,
      if_pos hvolume, hvolume, ← Option.map_some, map_error_iff, parseVolumeField_error]
    simp
  · obtain ⟨status', hok⟩ := statusAbsorb_other status hstate hsong helapsed hduration hvolume
    rw [hok]
    simp only [hstate, hsong, helapsed, hduration, hvolume]
    simp

theorem parseStatus_isSome_iff (fields : List Field) :
    (parseStatus fields).isSome ↔
      ∀ f ∈ fields.takeWhile (!statusRejects ·), ¬ statusOverlong f := by
  rw [parseStatus, Option.isSome_map]
  exact absorbRecord_isSome_iff (fun status f => (statusAbsorb_outcome status f).1)
    (fun status f => (statusAbsorb_outcome status f).2) _ fields

-- ---------------------------------------------------------------------------
-- Songs
-- ---------------------------------------------------------------------------

/-- A field that `parse_current_song` answers with an error. -/
def songRejects (f : Field) : Bool := f.key = "duration".toList ∧ (parseF64 f.value).isNone

/-- A field of a song with a duration that is too long. -/
def songOverlong (f : Field) : Prop := f.key = "duration".toList ∧ Overlong f.value

theorem songAbsorb_outcome (song : SongLoop) (f : Field) :
    (song.absorb f = none ↔ songOverlong f) ∧
      ((∃ error, song.absorb f = some (.error error)) ↔ songRejects f = true) := by
  rw [SongLoop.absorb, songOverlong, songRejects, decide_eq_true_iff]
  by_cases hfile : f.key = "file".toList
  · rw [if_pos hfile, hfile]
    simp
  rw [if_neg hfile, apply_eq]
  by_cases hduration : f.key = "duration".toList
  · rw [if_pos hduration, hduration, Option.map_eq_none_iff, parseDurationSecsField_eq_none,
      map_error_iff, parseDurationSecsField_error]
    simp
  · rw [if_neg hduration]
    simp only [hduration]
    simp

theorem parseCurrentSong_isSome_iff (fields : List Field) :
    (parseCurrentSong fields).isSome ↔
      ∀ f ∈ fields.takeWhile (!songRejects ·), ¬ songOverlong f := by
  rw [parseCurrentSong]
  cases fields with
  | nil => simp
  | cons f fields =>
    rw [if_neg (by simp), Option.isSome_map]
    exact absorbRecord_isSome_iff (fun song f => (songAbsorb_outcome song f).1)
      (fun song f => (songAbsorb_outcome song f).2) _ (f :: fields)

theorem absorb_eq_none (tags : TrackTags) (f : Field) :
    tags.absorb f = none ↔ songOverlong f := by
  rw [TrackTags.absorb, apply_eq, songOverlong]
  by_cases hduration : f.key = "duration".toList
  · rw [if_pos hduration, Option.map_eq_none_iff, parseDurationSecsField_eq_none,
      and_iff_right hduration]
  · rw [if_neg hduration]
    simp only [hduration]
    simp

theorem parseQueueItems_isSome_iff (fields : List Field) :
    (parseQueueItems fields).isSome ↔
      ∀ f ∈ queueItems.fieldsIn (fun _ => true) false fields, ¬ songOverlong f := by
  refine queueItems.parse_isSome_iff (fun _ => true) (fun _ => true) (fun _ _ => rfl)
    (fun _ _ _ _ => rfl) (fun b f _ => ?_) () fields
  rw [and_iff_right rfl]
  change (b.absorb f).map _ = none ↔ _
  rw [Option.map_eq_none_iff, QueueItemBuilder.absorb]
  by_cases hpos : f.key = "Pos".toList
  · rw [if_pos hpos, songOverlong, hpos]
    simp
  by_cases hid : f.key = "Id".toList
  · rw [if_neg hpos, if_pos hid, songOverlong, hid]
    simp
  · rw [if_neg hpos, if_neg hid, Option.map_eq_none_iff, absorb_eq_none]

theorem parsePlaylistEntries_isSome_iff (fields : List Field) :
    (parsePlaylistEntries fields).isSome ↔
      ∀ f ∈ playlistEntries.fieldsIn (fun _ => true) false fields, ¬ songOverlong f := by
  refine playlistEntries.parse_isSome_iff (fun _ => true) (fun _ => true) (fun _ _ => rfl)
    (fun _ _ _ _ => rfl) (fun e f _ => ?_) 0 fields
  rw [and_iff_right rfl]
  change (e.toTrackTags.absorb f).map _ = none ↔ _
  rw [Option.map_eq_none_iff, absorb_eq_none]

/-- The entry is a file. -/
def MpdLibraryEntry.isFile : MpdLibraryEntry → Bool
  | .file .. => true
  | _ => false

theorem absorbField_eq_none (entry : MpdLibraryEntry) (f : Field) :
    entry.absorbField f = none ↔ entry.isFile = true ∧ songOverlong f := by
  cases entry with
  | directory path lastModified => exact iff_of_false nofun fun h => Bool.false_ne_true h.1
  | playlist path lastModified => exact iff_of_false nofun fun h => Bool.false_ne_true h.1
  | file path albumartist tags =>
    have hfile : (MpdLibraryEntry.file path albumartist tags).isFile = true := rfl
    rw [and_iff_right hfile, MpdLibraryEntry.absorbField]
    by_cases hkey : f.key = "AlbumArtist".toList
    · rw [if_pos hkey, songOverlong, hkey]
      simp
    · rw [if_neg hkey, Option.map_eq_none_iff, absorb_eq_none]

theorem absorbField_isFile {entry entry' : MpdLibraryEntry} {f : Field}
    (h : entry.absorbField f = some entry') : entry'.isFile = entry.isFile := by
  cases entry with
  | directory path lastModified =>
    cases h
    rfl
  | playlist path lastModified =>
    cases h
    rfl
  | file path albumartist tags =>
    rw [MpdLibraryEntry.absorbField] at h
    split_ifs at h
    · cases h
      rfl
    · obtain ⟨tags', -, rfl⟩ := Option.map_eq_some_iff.mp h
      rfl

theorem parseLibraryEntries_isSome_iff (fields : List Field) :
    (parseLibraryEntries fields).isSome ↔
      ∀ f ∈ libraryEntries.fieldsIn (·.key = "file".toList) false fields, ¬ songOverlong f := by
  refine libraryEntries.parse_isSome_iff (·.key = "file".toList) MpdLibraryEntry.isFile
    (fun _ f => ?_) (fun entry f step hstep => ?_) (fun entry f _ => ?_) () fields
  · change (if f.key = "directory".toList then _ else if f.key = "file".toList then _ else _ :
      MpdLibraryEntry).isFile = _
    by_cases hdirectory : f.key = "directory".toList
    · rw [if_pos hdirectory, hdirectory]
      rfl
    by_cases hfile : f.key = "file".toList
    · rw [if_neg hdirectory, if_pos hfile, hfile]
      rfl
    · rw [if_neg hdirectory, if_neg hfile, decide_eq_false hfile]
      rfl
  · obtain ⟨entry', hentry, rfl⟩ := Option.map_eq_some_iff.mp hstep
    exact absorbField_isFile hentry
  · change (entry.absorbField f).map _ = none ↔ _
    rw [Option.map_eq_none_iff, absorbField_eq_none]

-- ---------------------------------------------------------------------------
-- Other listings
-- ---------------------------------------------------------------------------

/-- A parser that absorbs every field goes through. -/
theorem parse_isSome {β ω : Type} (p : BlockParser Unit Field β ω)
    (h : ∀ block f, (p.absorb block f).isSome) (fields : List Field) :
    (p.parse () fields).isSome := by
  refine (p.parse_isSome_iff (fun _ => true) (fun _ => true) (fun _ _ => rfl) (fun _ _ _ _ => rfl)
    (fun block f _ => ?_) () fields).mpr fun _ _ => not_false
  rw [← Option.not_isSome_iff_eq_none, not_iff_comm]
  simp [h block f]

/-- The character `=` is a boundary on both sides. -/
theorem stickerSplitPair_isSome (raw : List Char) : (stickerSplitPair raw).isSome := by
  rw [stickerSplitPair, findWhere]
  split_ifs with hany
  · have hmem : '=' ∈ raw := by
      obtain ⟨c, hc, heq⟩ := List.any_eq_true.mp hany
      rwa [← beq_iff_eq.mp heq]
    obtain ⟨before, after, rfl, hbefore⟩ := List.eq_append_cons_of_mem hmem
    have htake : (before ++ '=' :: after).takeWhile (!· == '=') = before := by
      rw [List.takeWhile_append_of_pos, List.takeWhile_cons_of_neg (by simp), List.append_nil]
      intro c hc
      simpa using fun heq : c = '=' => hbefore (heq ▸ hc)
    have hwidth : '='.utf8Size = 1 := rfl
    simp only [htake, sliceTo_len, sliceFrom_len_add_one, if_pos hwidth]
    rfl
  · rfl

theorem parseStickerFind_isSome (fields : List Field) : (parseStickerFind fields).isSome := by
  refine parse_isSome stickerFind (fun path f => ?_) fields
  change (if f.key = "sticker".toList then _ else _ : Option _).isSome
  split_ifs
  · rw [Option.isSome_map]
    exact stickerSplitPair_isSome f.value
  · rfl

theorem parseStickerList_isSome (fields : List Field) : (parseStickerList fields).isSome := by
  rw [parseStickerList, Option.isSome_map]
  induction fields.filter (·.key = "sticker".toList) with
  | nil => rfl
  | cons f rest ih =>
    obtain ⟨sticker, hsticker⟩ := Option.isSome_iff_exists.mp (stickerSplitPair_isSome f.value)
    obtain ⟨stickers, hstickers⟩ := Option.isSome_iff_exists.mp ih
    rw [List.mapM_cons, hsticker, hstickers]
    rfl

/-- The parsers go through where no duration that they come to is too long. Those that
read no durations always do. -/
theorem parsers_return_iff (fields : List Field) :
    (∀ field value, (parseDurationSecsField field value).isSome ↔ ¬ Overlong value) ∧
    ((parseStatus fields).isSome ↔
      ∀ f ∈ fields.takeWhile (!statusRejects ·), ¬ statusOverlong f) ∧
    ((parseCurrentSong fields).isSome ↔
      ∀ f ∈ fields.takeWhile (!songRejects ·), ¬ songOverlong f) ∧
    ((parseQueueItems fields).isSome ↔
      ∀ f ∈ queueItems.fieldsIn (fun _ => true) false fields, ¬ songOverlong f) ∧
    ((parsePlaylistEntries fields).isSome ↔
      ∀ f ∈ playlistEntries.fieldsIn (fun _ => true) false fields, ¬ songOverlong f) ∧
    ((parseLibraryEntries fields).isSome ↔
      ∀ f ∈ libraryEntries.fieldsIn (·.key = "file".toList) false fields, ¬ songOverlong f) ∧
    (parsePlaylistSummaries fields).isSome ∧ (parseMounts fields).isSome ∧
    (parseNeighbors fields).isSome ∧ (parseStickerList fields).isSome ∧
    (parseStickerFind fields).isSome :=
  ⟨parseDurationSecsField_isSome_iff, parseStatus_isSome_iff fields, parseCurrentSong_isSome_iff fields,
    parseQueueItems_isSome_iff fields, parsePlaylistEntries_isSome_iff fields,
    parseLibraryEntries_isSome_iff fields, parse_isSome _ (fun _ _ => rfl) fields,
    parse_isSome _ (fun _ _ => rfl) fields, parse_isSome _ (fun _ _ => rfl) fields,
    parseStickerList_isSome fields, parseStickerFind_isSome fields⟩

theorem overlong_two_pow_64 : Overlong "18446744073709551616".toList := by
  have hvalue : decimalValue (18446744073709551616, 0) = 2 ^ (64 : Int) := by
    norm_num [decimalValue]
  have htop : (2 : ℚ) ^ (970 : Int) + 2 ^ (970 : Int) ≤ 2 ^ (1024 : Int) := by
    rw [← two_mul, ← zpow_one_add₀ (by norm_num)]
    exact two_zpow_le (by decide)
  have hlt : (2 : ℚ) ^ (64 : Int) < 2 ^ (970 : Int) :=
    zpow_lt_zpow_right₀ (by norm_num) (by decide)
  refine ⟨(18446744073709551616, 0), rfl, by decide, ?_, ?_⟩
  · rw [hvalue]
    exact sub_le_self _ (two_zpow_pos _).le
  · rw [hvalue]
    exact hlt.trans_le (le_sub_iff_add_le.mpr htop)

/-- A text for `2 ^ 64`, from where on a duration cannot hold the seconds. -/
theorem elapsed_overflow_panics :
    parseStatus [⟨"state".toList, "play".toList⟩,
      ⟨"elapsed".toList, "18446744073709551616".toList⟩] = none := by
  rw [← Option.not_isSome_iff_eq_none, parseStatus_isSome_iff]
  intro h
  exact h ⟨"elapsed".toList, "18446744073709551616".toList⟩ (by decide)
    ⟨.inl rfl, overlong_two_pow_64⟩

end EvoAudio.Mpd.Responses
