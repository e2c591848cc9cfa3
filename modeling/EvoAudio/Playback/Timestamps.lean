import EvoAudio.Lib.Calendar
import EvoAudio.Lib.FixedWidth
import EvoAudio.Lib.Words

/-!
# The modification times of playlists

`parse_iso_to_epoch_ms` of `playback.mpd/src/playlist.rs`: MPD's `Last-Modified`
as milliseconds since the epoch. The day is computed with years that begin in
March, in `i64` and `u32` arithmetic that wraps; a sum wraps to the same value
wherever in it the wrap is taken.
-/

namespace EvoAudio.Playback

open FixedWidth
open Calendar (Date daysFromCivil daysFromMarch)

/-- `str::parse::<i64>`: an optional sign and at least one decimal digit. -/
def parseI64 (s : List Char) : Option Int :=
  let value (digits : List Char) : Option Int :=
    if digits ≠ [] ∧ digits.all Char.isDigit then some (Nat.ofDigitChars 10 digits 0 : Nat)
    else none
  match Text.stripPrefix ['-'] s with
  | some digits => (value digits).bind fun n => signed? 64 (-n)
  | none => (value ((Text.stripPrefix ['+'] s).getD s)).bind (signed? 64)

/-- The year of the era, of a year that begins in March. -/
def yoe (y : Int) : Nat := (unsigned 32 (signed 64 (y - signed 64 (y / 400 * 400)))).toNat

/-- The day of the year that begins in March. -/
def doy (month day : UInt32) : Nat :=
  let m : Int := month.toNat
  (unsigned 32 ((153 * (if m > 2 then m - 3 else m + 9) + 2).tdiv 5 + day.toNat - 1)).toNat

/-- A time before the epoch is the epoch. -/
def msOfSeconds (seconds : Int) : Nat :=
  if seconds < 0 then 0 else (unsigned 64 (seconds * 1000)).toNat

def epochMsFromComponents (year : Int) (month day hh mm ss : UInt32) : Nat :=
  let y := if month.toNat ≤ 2 then signed 64 (year - 1) else year
  let era := y / 400
  let doe : Nat := (yoe y * 365 + yoe y / 4 - yoe y / 100 + doy month day) % 2 ^ 32
  let daysFromEpoch := signed 64 (era * 146097 + doe - 719468)
  msOfSeconds (signed 64 (daysFromEpoch * 86400 + hh.toNat * 3600 + mm.toNat * 60 + ss.toNat))

/-- Seconds that are missing or no number are taken for none. -/
def parseIsoToEpochMs (raw : List Char) : Option Nat := do
  let trimmed := Text.trimEndMatches 'Z' (Text.trim raw)
  let (datePart, timePart) ← Text.splitOnce ['T'] trimmed
  let dateParts := Text.split ['-'] datePart
  let y ← dateParts[0]?.bind parseI64
  let m ← dateParts[1]?.bind Text.parseU32
  let d ← dateParts[2]?.bind Text.parseU32
  let timeParts := Text.split [':'] timePart
  let hh ← timeParts[0]?.bind Text.parseU32
  let mm ← timeParts[1]?.bind Text.parseU32
  let ss := (timeParts[2]?.bind Text.parseU32).getD 0
  return epochMsFromComponents y m d hh mm ss

-- ---------------------------------------------------------------------------
-- Moments
-- ---------------------------------------------------------------------------

/-- A date from 1970 on, with a year that an `i64` can hold, and a time of day. -/
structure Moment where
  date : Date
  hour : Nat
  minute : Nat
  second : Nat
  year_ge : 1970 ≤ date.year
  year_lt : date.year < 2 ^ 63
  hour_lt : hour < 24
  minute_lt : minute < 60
  second_lt : second < 60

namespace Moment

/-- The seconds since the epoch, counted by the calendar. -/
def seconds (moment : Moment) : Nat :=
  moment.date.dayCount 1970 * 86400 + moment.hour * 3600 + moment.minute * 60 + moment.second

/-- Earlier by year, month, day, hour, minute and second. -/
def Earlier (a b : Moment) : Prop :=
  a.date.Earlier b.date ∨ a.date = b.date ∧
    (a.hour < b.hour ∨ a.hour = b.hour ∧
      (a.minute < b.minute ∨ a.minute = b.minute ∧ a.second < b.second))

theorem seconds_lt {a b : Moment} (h : a.Earlier b) : a.seconds < b.seconds := by
  have hhour := a.hour_lt
  have hminute := a.minute_lt
  have hsecond := a.second_lt
  unfold seconds
  rcases h with hdate | ⟨hdate, htime⟩
  · have hday := Calendar.Date.dayCount_lt a.year_ge hdate
    omega
  · rw [hdate]
    omega

/-- The result of `epoch_ms_from_components` for the moment. -/
def epochMs (moment : Moment) : Nat :=
  epochMsFromComponents moment.date.year (.ofNat moment.date.month) (.ofNat moment.date.day)
    (.ofNat moment.hour) (.ofNat moment.minute) (.ofNat moment.second)

end Moment

-- ---------------------------------------------------------------------------
-- The steps of the code
-- ---------------------------------------------------------------------------

theorem day_le_31 (date : Date) : date.day ≤ 31 := by
  refine date.day_le.trans ?_
  unfold Calendar.daysInMonth
  split
  · split <;> decide
  · split <;> decide

theorem yoe_natCast {y : Nat} (h : y < 2 ^ 63) : yoe y = y % 400 := by
  have hera : Signed 64 ((y : Int) / 400 * 400) := by
    unfold Signed
    omega
  have hyear : Signed 64 ((y : Int) - y / 400 * 400) := by
    unfold Signed
    omega
  have hcast : Unsigned 32 ((y : Int) - y / 400 * 400) := by
    unfold Unsigned
    omega
  rw [yoe, signed_of_fits (by decide) hera, signed_of_fits (by decide) hyear,
    unsigned_of_fits hcast]
  omega

theorem doy_ofNat (hmonth : 1 ≤ month) (hmonth' : month ≤ 12) (hday : 1 ≤ day) (hday' : day ≤ 31) :
    doy (.ofNat month) (.ofNat day) =
      daysFromMarch (if month > 2 then month - 3 else month + 9) + day - 1 := by
  have hm : (UInt32.ofNat month).toNat = month := by simp; omega
  have hd : (UInt32.ofNat day).toNat = day := by simp; omega
  have hif : (if (month : Int) > 2 then (month : Int) - 3 else month + 9) =
      (if month > 2 then month - 3 else month + 9 : Nat) := by
    split <;> split <;> omega
  have hcast : Unsigned 32
      ((153 * (if month > 2 then month - 3 else month + 9 : Nat) + 2 : Int).tdiv 5 + day - 1) := by
    rw [Int.tdiv_eq_ediv_of_nonneg (by positivity)]
    unfold Unsigned
    split <;> omega
  rw [doy, hm, hd, hif, unsigned_of_fits hcast, Int.tdiv_eq_ediv_of_nonneg (by positivity),
    daysFromMarch]
  omega

/-- The day the code computes, before it is wrapped, is the one the calendar counts. -/
theorem day_eq {date : Date} (hyear : 1970 ≤ date.year) (hfits : date.year < 2 ^ 63) :
    let month := UInt32.ofNat date.month
    let y := if month.toNat ≤ 2 then signed 64 ((date.year : Int) - 1) else date.year
    let doe : Nat := (yoe y * 365 + yoe y / 4 - yoe y / 100 + doy month (.ofNat date.day)) % 2 ^ 32
    y / 400 * 146097 + doe - 719468 = date.dayCount 1970 := by
  have hmonth := date.month_pos
  have hmonth' := date.month_le
  have hday := date.day_pos
  have hday' := day_le_31 date
  have hm : (UInt32.ofNat date.month).toNat = date.month := by simp; omega
  have hlast : signed 64 ((date.year : Int) - 1) = (date.year - 1 : Nat) := by
    rw [signed_of_fits (by decide)]
    · omega
    · unfold Signed
      omega
  have hy : (if date.month ≤ 2 then signed 64 ((date.year : Int) - 1) else date.year) =
      ((if date.month ≤ 2 then date.year - 1 else date.year : Nat) : Int) := by
    rw [hlast]
    split <;> rfl
  intro month y doe
  have hyoe : yoe y = (if date.month ≤ 2 then date.year - 1 else date.year) % 400 := by
    simp only [y, month, hm, hy]
    refine yoe_natCast ?_
    split <;> omega
  have hdoy := doy_ofNat hmonth hmonth' hday hday'
  have hbound : doy month (.ofNat date.day) ≤ 400 := by
    rw [hdoy, daysFromMarch]
    split <;> omega
  have hdoe : doe = yoe y * 365 + yoe y / 4 - yoe y / 100 + doy month (.ofNat date.day) := by
    refine Nat.mod_eq_of_lt ?_
    omega
  rw [date.dayCount_eq hyear, daysFromCivil, hdoe, hyoe, hdoy]
  simp only [y, month, hm, hy]
  push_cast
  rfl

theorem msOfSeconds_lt (seconds : Int) : msOfSeconds seconds < 2 ^ 64 := by
  have hfits := unsigned_fits 64 (seconds * 1000)
  unfold msOfSeconds
  unfold Unsigned at hfits
  split <;> omega

theorem msOfSeconds_natCast {seconds : Nat} (h : 1000 * seconds < 2 ^ 64) :
    msOfSeconds seconds = 1000 * seconds := by
  rw [msOfSeconds, if_neg (by omega), unsigned_of_fits]
  · omega
  · unfold Unsigned
    omega

namespace Moment

theorem epochMs_lt (moment : Moment) : moment.epochMs < 2 ^ 64 := by
  unfold epochMs epochMsFromComponents
  exact msOfSeconds_lt _

theorem epochMs_eq (moment : Moment) (h : 1000 * moment.seconds < 2 ^ 64) :
    moment.epochMs = 1000 * moment.seconds := by
  have hhour : (UInt32.ofNat moment.hour).toNat = moment.hour := by
    have := moment.hour_lt
    simp
    omega
  have hminute : (UInt32.ofNat moment.minute).toNat = moment.minute := by
    have := moment.minute_lt
    simp
    omega
  have hsecond : (UInt32.ofNat moment.second).toNat = moment.second := by
    have := moment.second_lt
    simp
    omega
  have hdays : Signed 64 (moment.date.dayCount 1970) := by
    unfold seconds at h
    unfold Signed
    omega
  have hseconds : ((moment.date.dayCount 1970 : Int) * 86400 + moment.hour * 3600 +
      moment.minute * 60 + moment.second) = moment.seconds := by
    unfold seconds
    push_cast
    rfl
  have hfits : Signed 64 moment.seconds := by
    unfold Signed
    omega
  rw [epochMs, epochMsFromComponents, day_eq moment.year_ge moment.year_lt,
    signed_of_fits (by decide) hdays, hhour, hminute, hsecond, hseconds,
    signed_of_fits (by decide) hfits, msOfSeconds_natCast h]

-- ---------------------------------------------------------------------------
-- The texts MPD sends
-- ---------------------------------------------------------------------------

/-- `{:0width$}` -/
def pad (width n : Nat) : List Char := (Nat.toDigits 10 n).leftpad width '0'

/-- `YYYY-MM-DDTHH:MM:SSZ`, the year with more digits where it has more. -/
def isoText (moment : Moment) : List Char :=
  (pad 4 moment.date.year ++ '-' :: (pad 2 moment.date.month ++ '-' :: pad 2 moment.date.day)) ++
    'T' :: (pad 2 moment.hour ++ ':' :: (pad 2 moment.minute ++ ':' :: pad 2 moment.second)) ++ ['Z']

theorem isDigit_of_mem_pad (h : c ∈ pad width n) : c.isDigit := by
  rcases List.mem_append.mp h with hzero | hdigit
  · rw [List.eq_of_mem_replicate hzero]
    rfl
  · exact Nat.isDigit_of_mem_toDigits (by decide) (by decide) hdigit

/-- No character that is not a digit is in a number. -/
theorem notMem_pad (h : c.isDigit = false) : c ∉ pad width n := by
  intro hmem
  rw [isDigit_of_mem_pad hmem] at h
  cases h

theorem ofDigitChars_pad (width n : Nat) : Nat.ofDigitChars 10 (pad width n) 0 = n := by
  simp [pad, List.leftpad, Nat.ofDigitChars_append, Nat.ofDigitChars_replicate_zero,
    Nat.ofDigitChars_ten_toDigits]

theorem pad_ne_nil (width n : Nat) : pad width n ≠ [] := by
  simp [pad, List.leftpad, Nat.toDigits_ne_nil]

theorem all_isDigit_pad (width n : Nat) : (pad width n).all Char.isDigit := by
  rw [List.all_eq_true]
  exact fun c => isDigit_of_mem_pad

/-- A number has no sign. -/
theorem stripPrefix_pad (h : c.isDigit = false) : Text.stripPrefix [c] (pad width n) = none := by
  refine Text.stripPrefix_eq_none ?_
  rintro ⟨rest, hrest⟩
  have hmem : c ∈ pad width n := by simp [← hrest]
  exact notMem_pad h hmem

theorem parseU32_pad (h : n < 2 ^ 32) : Text.parseU32 (pad width n) = some (.ofNat n) := by
  have hplus : Text.stripPrefix ['+'] (pad width n) = none := stripPrefix_pad (by decide)
  simp only [Text.parseU32, hplus, Option.getD_none, ofDigitChars_pad]
  rw [if_pos ⟨pad_ne_nil width n, all_isDigit_pad width n, h⟩]

theorem parseI64_pad (h : n < 2 ^ 63) : parseI64 (pad width n) = some (n : Int) := by
  have hplus : Text.stripPrefix ['+'] (pad width n) = none := stripPrefix_pad (by decide)
  have hminus : Text.stripPrefix ['-'] (pad width n) = none := stripPrefix_pad (by decide)
  have hfits : signed? 64 (n : Int) = some (n : Int) := by
    rw [signed?_eq_some]
    refine ⟨?_, rfl⟩
    unfold Signed
    omega
  simp only [parseI64, hplus, hminus, Option.getD_none, ofDigitChars_pad]
  rw [if_pos ⟨pad_ne_nil width n, all_isDigit_pad width n⟩, Option.bind_some, hfits]

/-- Two separators cut a text into three parts. -/
theorem split_three {c : Char} {first second third : List Char} (hfirst : c ∉ first)
    (hsecond : c ∉ second) (hthird : c ∉ third) :
    Text.split [c] (first ++ c :: (second ++ c :: third)) = [first, second, third] := by
  have hone : Text.splitOnce [c] (first ++ c :: (second ++ c :: third)) = _ :=
    @Text.splitOnce_of_notMem _ _ c [] first (second ++ c :: third) hfirst
  have htwo : Text.splitOnce [c] (second ++ c :: third) = _ :=
    @Text.splitOnce_of_notMem _ _ c [] second third hsecond
  have hlast := Text.splitOnce_singleton_eq_none.mpr hthird
  obtain ⟨fuel, hfuel⟩ : ∃ fuel, (first ++ c :: (second ++ c :: third)).length = fuel + 1 + 1 :=
    ⟨first.length + second.length + third.length, by simp; omega⟩
  rw [Text.split, hfuel, Text.splitBy, hone]
  dsimp only
  rw [Text.splitBy, htwo]
  dsimp only
  cases fuel with
  | zero => rfl
  | succ fuel => rw [Text.splitBy, hlast]

/-- The characters between the numbers of a text. -/
def isMark (c : Char) : Bool := c == '-' || c == 'T' || c == ':' || c == 'Z'

theorem digit_or_mark {moment : Moment} (h : c ∈ moment.isoText) : c.isDigit ∨ isMark c := by
  simp only [isoText, List.mem_append, List.mem_cons, List.not_mem_nil, or_false] at h
  rcases h with ((h | rfl | h | rfl | h) | rfl | h | rfl | h | rfl | h) | rfl
  all_goals first | exact .inl (isDigit_of_mem_pad h) | exact .inr (by decide)

theorem not_space_of_digit_or_mark (h : c.isDigit ∨ isMark c) : Text.isWhitespace c = false := by
  rcases h with hdigit | hmark
  · have hrange := Char.isDigit_iff_toNat.mp hdigit
    simp only [Char.reduceToNat] at hrange
    simp only [Text.isWhitespace, Bool.or_eq_false_iff, Bool.and_eq_false_iff, beq_eq_false_iff_ne,
      decide_eq_false_iff_not]
    omega
  · simp only [isMark, Bool.or_eq_true, beq_iff_eq, or_assoc] at hmark
    rcases hmark with rfl | rfl | rfl | rfl <;> decide

theorem dropWhile_of_none {p : Char → Bool} {s : List Char} (h : ∀ c ∈ s, p c = false) :
    s.dropWhile p = s := by
  cases s with
  | nil => rfl
  | cons c s => exact List.dropWhile_cons_of_neg (by simp [h c])

theorem trim_isoText (moment : Moment) : Text.trim moment.isoText = moment.isoText := by
  have hsolid (c : Char) (hc : c ∈ moment.isoText) : Text.isWhitespace c = false :=
    not_space_of_digit_or_mark (digit_or_mark hc)
  rw [Text.trim, dropWhile_of_none hsolid, dropWhile_of_none (by simpa using hsolid),
    List.reverse_reverse]

/-- The text up to its last character has no `Z`. -/
theorem trimEndMatches_concat {body : List Char} (h : 'Z' ∉ body) :
    Text.trimEndMatches 'Z' (body ++ ['Z']) = body := by
  have hbody : body.reverse.dropWhile (· == 'Z') = body.reverse := by
    refine dropWhile_of_none fun c hc => ?_
    simp only [beq_eq_false_iff_ne]
    rintro rfl
    exact h (List.mem_reverse.mp hc)
  simp [Text.trimEndMatches, hbody]

theorem parseIsoToEpochMs_isoText (moment : Moment) :
    parseIsoToEpochMs moment.isoText = some moment.epochMs := by
  have hmonth := moment.date.month_le
  have hday := day_le_31 moment.date
  have hhour := moment.hour_lt
  have hminute := moment.minute_lt
  have hsecond := moment.second_lt
  have hbody := @trimEndMatches_concat
    ((pad 4 moment.date.year ++ '-' :: (pad 2 moment.date.month ++ '-' :: pad 2 moment.date.day)) ++
      'T' :: (pad 2 moment.hour ++ ':' :: (pad 2 moment.minute ++ ':' :: pad 2 moment.second))) (by
    simp [notMem_pad])
  have hcut := @Text.splitOnce_of_notMem _ _ 'T' []
    (pad 4 moment.date.year ++ '-' :: (pad 2 moment.date.month ++ '-' :: pad 2 moment.date.day))
    (pad 2 moment.hour ++ ':' :: (pad 2 moment.minute ++ ':' :: pad 2 moment.second))
    (by simp [notMem_pad])
  have hdate := @split_three '-' (pad 4 moment.date.year) (pad 2 moment.date.month)
    (pad 2 moment.date.day) (notMem_pad (by decide)) (notMem_pad (by decide))
    (notMem_pad (by decide))
  have htime := @split_three ':' (pad 2 moment.hour) (pad 2 moment.minute) (pad 2 moment.second)
    (notMem_pad (by decide)) (notMem_pad (by decide)) (notMem_pad (by decide))
  rw [parseIsoToEpochMs, trim_isoText, isoText, hbody]
  rw [List.nil_append] at hcut
  simp only [hcut, hdate, htime, Option.bind_eq_bind, Option.bind_some, Option.pure_def,
    List.getElem?_cons_zero, List.getElem?_cons_succ, parseI64_pad moment.year_lt,
    parseU32_pad (show moment.date.month < 2 ^ 32 by omega),
    parseU32_pad (show moment.date.day < 2 ^ 32 by omega),
    parseU32_pad (show moment.hour < 2 ^ 32 by omega),
    parseU32_pad (show moment.minute < 2 ^ 32 by omega),
    parseU32_pad (show moment.second < 2 ^ 32 by omega), Option.getD_some]
  rfl

end Moment

/-- The code agrees with the calendar as far as a `u64` goes, and as far as
that, of two texts the one of the later moment has the larger time. -/
theorem epochMs_civil_iff (moment : Moment) :
    (moment.epochMs = 1000 * moment.seconds ∧
      ∀ earlier : Moment, earlier.Earlier moment →
        ∃ early late, parseIsoToEpochMs earlier.isoText = some early ∧
          parseIsoToEpochMs moment.isoText = some late ∧ early < late) ↔
      1000 * moment.seconds < 2 ^ 64 := by
  constructor
  · rintro ⟨heq, -⟩
    exact heq ▸ moment.epochMs_lt
  · intro hfits
    refine ⟨moment.epochMs_eq hfits, fun earlier hearlier => ?_⟩
    have hlt := Moment.seconds_lt hearlier
    refine ⟨_, _, earlier.parseIsoToEpochMs_isoText, moment.parseIsoToEpochMs_isoText, ?_⟩
    rw [moment.epochMs_eq hfits, earlier.epochMs_eq (by omega)]
    omega

/-- Midnight of the first of January. -/
def newYear (year : Nat) (h : 1970 ≤ year) (h' : year < 2 ^ 63) : Moment where
  date := ⟨year, 1, 1, by decide, by decide, by decide, by simp [Calendar.daysInMonth]⟩
  hour := 0
  minute := 0
  second := 0
  year_ge := h
  year_lt := h'
  hour_lt := by decide
  minute_lt := by decide
  second_lt := by decide

theorem newYear_seconds (year : Nat) (h : 1970 ≤ year) (h' : year < 2 ^ 63) :
    ((newYear year h h').seconds : Int) = daysFromCivil year 1 1 * 86400 := by
  have hcount := (newYear year h h').date.dayCount_eq h
  have hdate : daysFromCivil year 1 1 = (newYear year h h').date.dayCount 1970 := hcount.symm
  have hhour : (newYear year h h').hour = 0 := rfl
  have hminute : (newYear year h h').minute = 0 := rfl
  have hsecond : (newYear year h h').second = 0 := rfl
  rw [hdate, Moment.seconds, hhour, hminute, hsecond]
  omega

def midYear : Moment := newYear 500000000 (by decide) (by decide)

def farYear : Moment := newYear 600000000 (by decide) (by decide)

theorem farYear_seconds : 2 ^ 64 ≤ 1000 * farYear.seconds := by
  have hseconds : (farYear.seconds : Int) = daysFromCivil 600000000 1 1 * 86400 :=
    newYear_seconds 600000000 (by decide) (by decide)
  have hcivil : daysFromCivil 600000000 1 1 = 219144780472 := by decide
  rw [hcivil] at hseconds
  generalize farYear.seconds = seconds at *
  omega

/-- The milliseconds of the year 600000000 are no `u64`, and its time comes out
before that of the year 500000000. -/
theorem far_year_wraps :
    midYear.Earlier farYear ∧ farYear.epochMs ≠ 1000 * farYear.seconds ∧
      farYear.epochMs < midYear.epochMs := by
  refine ⟨.inl (.inl (by decide)), ?_, by decide⟩
  intro heq
  exact absurd (heq ▸ farYear.epochMs_lt) (Nat.not_lt.mpr farYear_seconds)

end EvoAudio.Playback
