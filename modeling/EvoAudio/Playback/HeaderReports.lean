import EvoAudio.Playback.HeaderParsing

/-!
# What the probe reports of a header

The probe is to report what a header says, and the depth at its full width. It does so
of a FLAC or DSF header whenever it reports it. Of the others it compares the lower byte of the
depth, and of an APE header it reads the wrong fields.
-/

namespace EvoAudio.SourceProbe

open Checked (Returns)
open EvoAudio.Topology (AudioFormat DsdRate PcmCodec)

-- ---------------------------------------------------------------------------
-- Formats from fields
-- ---------------------------------------------------------------------------

theorem exists_codecDepth : (∃ codec, codecDepth codec = some n) ↔ IsDepth n := by
  constructor
  · rintro ⟨codec, hcodec⟩
    cases codec <;> cases hcodec
    · exact .inl rfl
    · exact .inr (.inl rfl)
    · exact .inr (.inr rfl)
  · rintro (rfl | rfl | rfl)
    · exact ⟨.pcmS16Le, rfl⟩
    · exact ⟨.pcmS24Le, rfl⟩
    · exact ⟨.pcmS32Le, rfl⟩

theorem exists_clampChannels : (∃ count, clampChannels n = some count) ↔ FewChannels n.toNat := by
  simp only [clampChannels_eq_some, exists_and_left, and_iff_left_iff_imp]
  rintro ⟨-, hfew⟩
  exact ⟨UInt8.ofNat n.toNat, UInt8.toNat_ofNat_of_lt' (by simp [UInt8.size]; omega)⟩

theorem pcmOf_eq_some : pcmOf bits rateHz channels = some format ↔
    ∃ codec count, codecDepth codec = some bits.toNat ∧ clampChannels channels = some count ∧
      format = .pcm codec rateHz count := by
  unfold pcmOf
  constructor
  · intro h
    cases hcodec : pcmCodecFromBits bits with
    | none => simp [hcodec] at h
    | some codec =>
      cases hcount : clampChannels channels with
      | none => simp [hcodec, hcount] at h
      | some count =>
        rw [hcodec, hcount] at h
        exact ⟨codec, count, pcmCodecFromBits_eq_some.mp hcodec, rfl, (Option.some.inj h).symm⟩
  · rintro ⟨codec, count, hcodec, hcount, rfl⟩
    rw [pcmCodecFromBits_eq_some.mpr hcodec, hcount]
    rfl

theorem pcmOf_eq_none : pcmOf bits rateHz channels = none ↔
    ¬(IsDepth bits.toNat ∧ FewChannels channels.toNat) := by
  rw [← exists_codecDepth, ← exists_clampChannels, Option.eq_none_iff_forall_ne_some]
  constructor
  · rintro hno ⟨⟨codec, hcodec⟩, count, hcount⟩
    exact hno _ (pcmOf_eq_some.mpr ⟨codec, count, hcodec, hcount, rfl⟩)
  · intro hno format hformat
    obtain ⟨codec, count, hcodec, hcount, -⟩ := pcmOf_eq_some.mp hformat
    exact hno ⟨⟨codec, hcodec⟩, count, hcount⟩

theorem reportsPcm_pcmOf {IsRate : UInt32 → Prop} :
    ReportsPcm depth channels IsRate (pcmOf bits rateHz count) ↔
      if IsDepth depth then bits.toNat = depth ∧ IsRate rateHz ∧ count.toNat = channels ∧
        FewChannels count.toNat
      else ¬(IsDepth bits.toNat ∧ FewChannels count.toNat) := by
  unfold ReportsPcm
  split
  next hdepth =>
    constructor
    · rintro ⟨codec, hz, n, hpcm, hcodec, hrate, hn⟩
      obtain ⟨codec', n', hcodec', hn', heq⟩ := pcmOf_eq_some.mp hpcm
      cases heq
      obtain ⟨hfew, hcount⟩ := clampChannels_eq_some.mp hn'
      exact ⟨Option.some.inj (hcodec'.symm.trans hcodec), hrate, hcount ▸ hn, hfew⟩
    · rintro ⟨rfl, hrate, rfl, hfew⟩
      obtain ⟨codec, hcodec⟩ := exists_codecDepth.mpr hdepth
      obtain ⟨n, hn⟩ := exists_clampChannels.mpr hfew
      exact ⟨codec, rateHz, n, pcmOf_eq_some.mpr ⟨codec, n, hcodec, hn, rfl⟩, hcodec, hrate,
        (clampChannels_eq_some.mp hn).2⟩
  next => exact pcmOf_eq_none

theorem reportsPcm_none {IsRate : UInt32 → Prop} :
    ReportsPcm depth channels IsRate none ↔ ¬IsDepth depth := by
  unfold ReportsPcm
  split <;> simp [*]

-- ---------------------------------------------------------------------------
-- Headers that are reported as they are
-- ---------------------------------------------------------------------------

/-- A file of one of the depths has what a report needs. One of any other depth lacks it,
or has a depth whose lower byte is none of them. -/
def DepthKept (bits : Nat) (reportable : Prop) : Prop :=
  if IsDepth bits then reportable else ¬(IsDepth (bits % 256) ∧ reportable)

/-- A rate that is a whole number of Hz, with its point less than 64 bits off. -/
def Extended.IsWhole (e : Extended) : Prop :=
  e.negative = false ∧ e.exponent ≠ 0x7FFF ∧ 16446 < e.exponent + 64 ∧ e.exponent < 16446 + 64 ∧
    ∃ n < 2 ^ 32, e.magnitude = (n : Nat)

/-- A rate that the conversion makes some number of. -/
def Extended.GivesRate (e : Extended) : Prop :=
  e.negative = false ∧ e.exponent ≠ 0x7FFF ∧ 16446 < e.exponent + 64 ∧ e.exponent < 16446 + 64 ∧
    (16446 < e.exponent → e.mantissa * 2 ^ (e.exponent - 16446) % 2 ^ 64 < 2 ^ 32)

/-- The headers of which the probe reports what they say. -/
def Header.Legible : Header → Prop
  | .flac h => IsDepth (h.bitsPerSampleLess1.val + 1) → h.sampleRate.val ≠ 0
  | .wav h => DepthKept h.bitsPerSample.toNat
      ((h.formatTag = 1 ∨ h.formatTag = 0xFFFE) ∧ FewChannels h.channels.toNat)
  | .aiff h =>
    if IsDepth h.sampleSize.toNat then FewChannels h.channels.toNat ∧ h.sampleRate.IsWhole
    else ¬(IsDepth (h.sampleSize.toNat % 256) ∧ FewChannels h.channels.toNat ∧
      h.sampleRate.GivesRate)
  | .ape h =>
    -- The frame count stands where depth and channels are read, these where the rate is.
    if IsDepth h.bitsPerSample.toNat then
      h.totalFrames.toNat % 256 = h.bitsPerSample.toNat ∧
        h.sampleRate.toNat = h.bitsPerSample.toNat + 65536 * h.channels.toNat ∧
        h.totalFrames.toNat / 65536 = h.channels.toNat ∧ FewChannels h.channels.toNat
    else ¬(IsDepth (h.totalFrames.toNat % 256) ∧ FewChannels (h.totalFrames.toNat / 65536))
  | .tta h => DepthKept h.bitsPerSample.toNat (FewChannels h.channels.toNat)
  | .dsf h => FewChannels h.channelCount.toNat
  | .alac h => DepthKept h.sampleSize.toNat (FewChannels h.channelCount.toNat)

/-- A parser that takes the fields at their places, of the depth the lower byte. -/
theorem reportsPcm_lowByte {bits : UInt16} {channels : UInt16} {IsRate : UInt32 → Prop}
    (hrate : IsRate rateHz) : ReportsPcm bits.toNat channels.toNat IsRate
      (pcmOf bits.toUInt8 rateHz channels.toUInt32) ↔
      DepthKept bits.toNat (FewChannels channels.toNat) := by
  rw [reportsPcm_pcmOf, UInt16.toNat_toUInt8, UInt16.toNat_toUInt32, DepthKept]
  split
  next hdepth =>
    have hbyte : bits.toNat % 256 = bits.toNat := by
      rcases hdepth with h | h | h <;> rw [h]
    simp [hbyte, hrate]
  next => exact Iff.rfl

theorem shiftedHz_isSome : (∃ hz, shiftedHz x m = some hz) ↔
    16446 < x + 64 ∧ x < 16446 + 64 ∧ (16446 < x → m * 2 ^ (x - 16446) % 2 ^ 64 < 2 ^ 32) := by
  unfold shiftedHz
  split
  next hfar =>
    refine iff_of_false (by simp) ?_
    omega
  next hnear =>
    have hbounds : 16446 < x + 64 ∧ x < 16446 + 64 := by omega
    simp only [hbounds, true_and]
    split
    next hleft =>
      simp only [hleft, forall_const]
      split
      next hlarge => exact iff_of_false (by simp) (by omega)
      next hsmall => exact iff_of_true ⟨_, rfl⟩ (by omega)
    next hright => exact iff_of_true ⟨_, rfl⟩ (fun hleft => absurd hleft hright)

/-- Shifts that keep every bit give the integer part. -/
theorem shiftedHz_of_small {e : Extended} (hnear : 16446 < e.exponent + 64)
    (hnear' : e.exponent < 16446 + 64) (hsmall : e.wholeHz < 2 ^ 32) :
    shiftedHz e.exponent e.mantissa = some (UInt32.ofNat e.wholeHz) := by
  unfold shiftedHz
  rw [if_neg (by omega)]
  unfold Extended.wholeHz at hsmall ⊢
  split
  next hleft =>
    rw [if_pos (Nat.le_of_lt hleft)] at hsmall ⊢
    have hv : e.mantissa * 2 ^ (e.exponent - 16446) % 2 ^ 64 =
        e.mantissa * 2 ^ (e.exponent - 16446) := Nat.mod_eq_of_lt (by omega)
    simp only [hv]
    rw [if_neg (by omega)]
  next hright =>
    split
    next hle =>
      have hsame : e.exponent = 16446 := by omega
      simp [hsame]
    next => rfl

/-- The rate that the conversion gives. -/
def Extended.givenHz (e : Extended) : Option UInt32 :=
  if e.negative = true ∨ e.exponent = 0x7FFF then none else shiftedHz e.exponent e.mantissa

theorem givenHz_eq_some {e : Extended} : e.givenHz = some hz ↔
    e.negative = false ∧ e.exponent ≠ 0x7FFF ∧ shiftedHz e.exponent e.mantissa = some hz := by
  unfold Extended.givenHz
  split
  next h => grind
  next h => grind

theorem givesRate_iff {e : Extended} : e.GivesRate ↔ ∃ hz, e.givenHz = some hz := by
  simp only [givenHz_eq_some, exists_and_left, shiftedHz_isSome]
  rfl

theorem isWhole_iff {e : Extended} : e.IsWhole ↔
    ∃ hz, e.givenHz = some hz ∧ e.magnitude = hz.toNat := by
  constructor
  · rintro ⟨hsign, hfinite, hnear, hnear', n, hn, hvalue⟩
    have hwhole : e.wholeHz = n := by rw [← floor_magnitude, hvalue, Nat.floor_natCast]
    have hgiven := shiftedHz_of_small hnear hnear' (hwhole ▸ hn)
    refine ⟨_, givenHz_eq_some.mpr ⟨hsign, hfinite, hgiven⟩, ?_⟩
    rw [hwhole, UInt32.toNat_ofNat_of_lt' hn, hvalue]
  · rintro ⟨hz, hgiven, hvalue⟩
    obtain ⟨hsign, hfinite, hshift⟩ := givenHz_eq_some.mp hgiven
    obtain ⟨hnear, hnear', -⟩ := shiftedHz_isSome.mp ⟨hz, hshift⟩
    exact ⟨hsign, hfinite, hnear, hnear', hz.toNat, hz.toNat_lt, hvalue⟩

theorem says_aiff (h : AiffHeader) : (Header.aiff h).Says (h.sampleRate.givenHz.bind fun hz =>
      pcmOf h.sampleSize.toUInt8 hz h.channels.toUInt32) ↔ (Header.aiff h).Legible := by
  unfold Header.Says Header.Legible
  dsimp only
  rw [isWhole_iff, givesRate_iff]
  cases hgiven : h.sampleRate.givenHz with
  | none =>
    rw [Option.bind_none, reportsPcm_none]
    split <;> simp [*]
  | some hz =>
    obtain ⟨hsign, hfinite, -⟩ := givenHz_eq_some.mp hgiven
    rw [Option.bind_some, reportsPcm_pcmOf, UInt16.toNat_toUInt8, UInt16.toNat_toUInt32]
    split
    next hdepth =>
      have hbyte : h.sampleSize.toNat % 256 = h.sampleSize.toNat := by
        rcases hdepth with h | h | h <;> rw [h]
      simp [hbyte, hsign, hfinite, and_comm]
    next => simp

/-- What the probe takes for the format of a file with a header. -/
def Header.taken : Header → Option AudioFormat
  | .flac h =>
    if h.sampleRate.val = 0 then none
    else pcmOf (UInt8.ofNat (h.bitsPerSampleLess1.val + 1)) (UInt32.ofNat h.sampleRate.val)
      (UInt32.ofNat (h.channelsLess1.val + 1))
  | .wav h =>
    if h.formatTag = 1 ∨ h.formatTag = 0xFFFE then
      pcmOf h.bitsPerSample.toUInt8 h.sampleRate h.channels.toUInt32
    else none
  | .aiff h => h.sampleRate.givenHz.bind fun hz =>
      pcmOf h.sampleSize.toUInt8 hz h.channels.toUInt32
  | .ape h => pcmOf h.totalFrames.toUInt8
      (h.bitsPerSample.toUInt32 + 0x10000 * h.channels.toUInt32) (h.totalFrames >>> 16)
  | .tta h => pcmOf h.bitsPerSample.toUInt8 h.sampleRate h.channels.toUInt32
  | .dsf h => (clampChannels h.channelCount).map (.dsd h.sampleRate .nativeUsb)
  | .alac h => pcmOf h.sampleSize.toUInt8 h.sampleRate.toUInt32 h.channelCount.toUInt32

theorem returns_dispatch (f : HeadedFile) :
    Returns (dispatch f.header.codecHint f.head) r ↔ r = f.header.taken := by
  have hlen : f.head.length ≤ 4096 := List.length_take_le 4096 _
  have hbytes : HasMagic f.head 0 f.header.bytes := hasMagic_take f.withinHead
  revert hbytes
  cases f.header with
  | flac h => exact returns_parseFlac h hlen
  | wav h => exact returns_parseWav h hlen
  | aiff h =>
    intro hbytes
    rw [Header.codecHint, dispatch, returns_parseAiff h hlen hbytes, Header.taken, Extended.givenHz]
    split <;> rfl
  | ape h => exact returns_parseApe h hlen
  | tta h => exact returns_parseTta h hlen
  | dsf h => exact returns_parseDsf h hlen
  | alac h => exact returns_parseM4a h hlen

theorem says_flac (h : FlacHeader) :
    (Header.flac h).Says (Header.flac h).taken ↔ (Header.flac h).Legible := by
  have hrate := h.sampleRate.isLt
  have hbits := h.bitsPerSampleLess1.isLt
  have hchannels := h.channelsLess1.isLt
  have hrateWord : (UInt32.ofNat h.sampleRate.val).toNat = h.sampleRate.val :=
    UInt32.toNat_ofNat_of_lt' (by simp [UInt32.size]; omega)
  have hbitsByte : (UInt8.ofNat (h.bitsPerSampleLess1.val + 1)).toNat =
      h.bitsPerSampleLess1.val + 1 := UInt8.toNat_ofNat_of_lt' (by simp [UInt8.size]; omega)
  have hchannelsWord : (UInt32.ofNat (h.channelsLess1.val + 1)).toNat = h.channelsLess1.val + 1 :=
    UInt32.toNat_ofNat_of_lt' (by simp [UInt32.size]; omega)
  have hfew : FewChannels (h.channelsLess1.val + 1) := ⟨by omega, by omega⟩
  unfold Header.Says Header.taken Header.Legible
  dsimp only
  by_cases hzero : h.sampleRate.val = 0
  · rw [if_pos hzero, reportsPcm_none]
    simp [hzero]
  · rw [if_neg hzero, reportsPcm_pcmOf, hrateWord, hbitsByte, hchannelsWord]
    split <;> simp [*]

theorem says_wav (h : WavHeader) :
    (Header.wav h).Says (Header.wav h).taken ↔ (Header.wav h).Legible := by
  unfold Header.Says Header.taken Header.Legible
  dsimp only
  by_cases hformat : h.formatTag = 1 ∨ h.formatTag = 0xFFFE
  · have hlow : ReportsPcm h.bitsPerSample.toNat h.channels.toNat (fun hz => hz = h.sampleRate)
        (pcmOf h.bitsPerSample.toUInt8 h.sampleRate h.channels.toUInt32) ↔
        DepthKept h.bitsPerSample.toNat (FewChannels h.channels.toNat) := reportsPcm_lowByte rfl
    rw [if_pos hformat, hlow]
    simp only [DepthKept, hformat, true_and]
  · rw [if_neg hformat, reportsPcm_none]
    unfold DepthKept
    split <;> simp [*]

theorem says_ape (h : ApeHeader) :
    (Header.ape h).Says (Header.ape h).taken ↔ (Header.ape h).Legible := by
  have hlow : h.totalFrames.toUInt8.toNat = h.totalFrames.toNat % 256 := UInt32.toNat_toUInt8 _
  have hhigh : (h.totalFrames >>> 16).toNat = h.totalFrames.toNat / 65536 := by
    simp [Nat.shiftRight_eq_div_pow]
  have hrate : h.bitsPerSample.toUInt32 + 0x10000 * h.channels.toUInt32 = h.sampleRate ↔
      h.sampleRate.toNat = h.bitsPerSample.toNat + 65536 * h.channels.toNat := by
    rw [← UInt32.toNat_inj, toNat_joined, eq_comm]
  unfold Header.Says Header.taken Header.Legible
  dsimp only
  rw [reportsPcm_pcmOf, hlow, hhigh, hrate]
  split
  next => grind
  next => rfl

theorem says_taken (h : Header) : h.Says h.taken ↔ h.Legible := by
  cases h with
  | flac h => exact says_flac h
  | wav h => exact says_wav h
  | aiff h => exact says_aiff h
  | ape h => exact says_ape h
  | tta h => exact reportsPcm_lowByte rfl
  | dsf h =>
    unfold Header.Says Header.taken Header.Legible
    dsimp only
    rw [← exists_clampChannels]
    cases hcount : clampChannels h.channelCount with
    | none => simp
    | some count => simp [(clampChannels_eq_some.mp hcount).2]
  | alac h => exact reportsPcm_lowByte (UInt16.toNat_toUInt32 _)

theorem reportsHeader_iff_header : ReportsHeader f ↔ f.header.Says f.header.taken := by
  unfold ReportsHeader
  simp only [returns_dispatch, exists_eq_left]

/-- The probe reports what a header says exactly when the header is a legible one. -/
theorem reportsHeader_iff (f : HeadedFile) : ReportsHeader f ↔ f.header.Legible :=
  reportsHeader_iff_header.trans (says_taken f.header)

/-- A WAV header of 272 bits per sample. -/
def deepWav : WavHeader where
  fileSize := 36
  before := []
  chunkSize := 16
  formatTag := 1
  channels := 2
  sampleRate := 44100
  byteRate := 0
  blockAlign := 0
  bitsPerSample := 272

/-- An APE header of ten frames. -/
def shortApe : ApeHeader where
  version := 3990
  later := by decide
  padding := 0
  descriptor := List.replicate 40 0
  compressionLevel := 2000
  formatFlags := 0
  blocksPerFrame := 73728
  finalFrameBlocks := 100
  totalFrames := 10
  bitsPerSample := 16
  channels := 2
  sampleRate := 44100

/-- The WAV header is reported to be of 16 bits, and the APE header not at all. -/
theorem not_reportsHeader_sample :
    ¬ReportsHeader ⟨.wav deepWav, [], by decide +kernel⟩ ∧
      ¬ReportsHeader ⟨.ape shortApe, [], by decide +kernel⟩ := by
  rw [reportsHeader_iff_header, says_taken, reportsHeader_iff_header, says_taken]
  constructor
  · simp [Header.Legible, deepWav, DepthKept, IsDepth, FewChannels]
  · simp [Header.Legible, shortApe, IsDepth]

end EvoAudio.SourceProbe
