import EvoAudio.Playback.HeaderParsing
import EvoAudio.Playback.ProbeCompletion

/-!
# Xing and Info tags of MP3 files

The comments of `source_probe.rs` place the tag with the counts of a VBR file so many bytes
behind the sync word of the first frame. `mp3_bitrate` measures the distance from the end of
the frame header instead, four bytes on. So it takes the flags of the tag for its name,
the frame count for its flags and the byte count for its frame count.
-/

namespace EvoAudio.SourceProbe

open Checked (Returns)
open EvoAudio.Topology (AudioFormat EncodedBitrate)

-- ---------------------------------------------------------------------------
-- Heads with a tag
-- ---------------------------------------------------------------------------

/-- An ID3v2 tag. Its size is in septets. -/
structure Id3Tag where
  version : Vector UInt8 3
  body : Bytes

def septet (n k : Nat) : UInt8 := UInt8.ofNat (n / 2 ^ k % 128)

def Id3Tag.bytes (t : Id3Tag) : Bytes :=
  ascii "ID3" ++ t.version.toList ++ [septet t.body.length 21, septet t.body.length 14,
    septet t.body.length 7, septet t.body.length 0] ++ t.body

/-- A Layer III frame header after its first byte. -/
structure FrameHeader where
  b₁ : UInt8
  b₂ : UInt8
  b₃ : UInt8
  sync : b₁ &&& 0xE0 = 0xE0
  layer : (b₁ >>> 1) &&& 0x3 = 0b01
  version : (b₁ >>> 3) &&& 0x3 ≠ 0b01
  sampleRate : (b₂ >>> 2) &&& 0x3 ≠ 3

namespace FrameHeader

def versionBits (f : FrameHeader) : UInt8 := (f.b₁ >>> 3) &&& 0x3

def modeBits (f : FrameHeader) : UInt8 := (f.b₃ >>> 6) &&& 0x3

def bytes (f : FrameHeader) : Bytes := [0xFF, f.b₁, f.b₂, f.b₃]

def kbps (f : FrameHeader) : Option UInt32 := mp3BitrateKbps f.versionBits ((f.b₂ >>> 4) &&& 0x0F)

def isMpeg1 (f : FrameHeader) : Bool := f.versionBits == 0b11

/-- How far the tag is behind the sync word. -/
def tagDistance (f : FrameHeader) : Nat :=
  if f.isMpeg1 && (f.modeBits != 0b11) then 36 else if f.isMpeg1 || (f.modeBits != 0b11) then 21 else 13

end FrameHeader

/-- No sync pattern is in the bytes. -/
def Unsynced (bytes : Bytes) : Prop := ∀ (i : Nat) (b : UInt8),
  bytes[i]? = some 0xFF → bytes[i + 1]? = some b → b &&& 0xE0 ≠ 0xE0

/-- The head of a file up to the counts in its tag. -/
structure TagLayout where
  id3 : Option Id3Tag
  leading : Bytes
  unsynced : Unsynced leading
  /-- What begins like a tag is one. -/
  untagged : id3 = none → ¬ascii "ID3" <+: leading
  frame : FrameHeader
  sideInfo : Bytes
  sideLength : 4 + sideInfo.length = frame.tagDistance
  isInfo : Bool
  flags : UInt32
  counted : flags &&& 0x3 = 0x3
  totalFrames : UInt32
  positive : 0 < totalFrames
  totalBytes : UInt32

namespace TagLayout

def id3Bytes (h : TagLayout) : Bytes := h.id3.elim [] Id3Tag.bytes

def tagName (h : TagLayout) : Bytes := ascii (if h.isInfo then "Info" else "Xing")

def bytes (h : TagLayout) : Bytes :=
  h.id3Bytes ++ h.leading ++ h.frame.bytes ++ h.sideInfo ++ h.tagName ++ be32 h.flags ++
    be32 h.totalFrames ++ be32 h.totalBytes

end TagLayout

/-- A file with a tag within what the probe reads of it. -/
structure TaggedMp3 where
  layout : TagLayout
  rest : Bytes
  withinHead : layout.bytes.length ≤ 4096

def TaggedMp3.head (f : TaggedMp3) : Bytes := (f.layout.bytes ++ f.rest).take 4096

/-- The kind of bitrate that a tag stands for: the VBR of a `Xing` tag, and with an
`Info` tag the constant rate of the first frame. -/
def TagLayout.Announces (h : TagLayout) (bitrate : EncodedBitrate) : Prop :=
  if h.isInfo then ∃ kbps, h.frame.kbps = some kbps ∧ bitrate = .cbr kbps
  else ∃ avgKbps, bitrate = .vbr avgKbps

def RecognisesTag (f : TaggedMp3) : Prop :=
  ∃ rateHz channels bitrate, f.layout.Announces bitrate ∧ Returns (parseMp3 f.head)
    (some (.encodedPassthrough "mp3".toList rateHz channels (some bitrate)))

-- ---------------------------------------------------------------------------
-- Up to the frame
-- ---------------------------------------------------------------------------

variable {head : Bytes}

theorem and_three (b : UInt8) : b &&& 0x3 = 0 ∨ b &&& 0x3 = 1 ∨ b &&& 0x3 = 2 ∨ b &&& 0x3 = 3 := by
  have hmod : (b &&& 0x3).toNat = b.toNat % 4 := Nat.and_two_pow_sub_one_eq_mod b.toNat 2
  simp only [← UInt8.toNat_inj, hmod]
  have hlt := Nat.mod_lt b.toNat (show 4 > 0 by decide)
  change _ = 0 ∨ _ = 1 ∨ _ = 2 ∨ _ = 3
  omega

theorem FrameHeader.rates (f : FrameHeader) : ∃ rates rate, mp3Rates f.versionBits = some rates ∧
    rates[((f.b₂ >>> 2) &&& 0x3).toNat]? = some rate := by
  have hversion : f.versionBits = 0 ∨ f.versionBits = 2 ∨ f.versionBits = 3 := by
    rcases and_three (f.b₁ >>> 3) with h | h | h | h
    · exact .inl h
    · exact absurd h f.version
    · exact .inr (.inl h)
    · exact .inr (.inr h)
  have hrate : ∃ i < 3, ((f.b₂ >>> 2) &&& 0x3).toNat = i := by
    rcases and_three (f.b₂ >>> 2) with h | h | h | h
    · exact ⟨0, by decide, congrArg UInt8.toNat h⟩
    · exact ⟨1, by decide, congrArg UInt8.toNat h⟩
    · exact ⟨2, by decide, congrArg UInt8.toNat h⟩
    · exact absurd h f.sampleRate
  obtain ⟨i, hi, hrate⟩ := hrate
  rw [hrate]
  rcases hversion with h | h | h <;> rw [h] <;> match i, hi with
    | 0, _ | 1, _ | 2, _ => exact ⟨_, _, rfl, rfl⟩

theorem returns_index_of {xs : List α} (h : xs[i]? = some x) :
    Returns (Checked.index xs i) (some x) := Checked.returns_index.mpr ⟨x, h, rfl⟩

theorem septet_low (n k : Nat) : ((septet n k).toUInt32 &&& 0x7F).toNat = n / 2 ^ k % 128 := by
  have hbyte : (septet n k).toNat = n / 2 ^ k % 128 := by
    simp [septet]
    omega
  rw [UInt32.toNat_and, UInt8.toNat_toUInt32, hbyte]
  exact (Nat.and_two_pow_sub_one_eq_mod _ 7).trans (Nat.mod_mod _ _)

theorem synchsafe_eq (h : n < 2 ^ 14) :
    (((septet n 21).toUInt32 &&& 0x7F) <<< 21 ||| ((septet n 14).toUInt32 &&& 0x7F) <<< 14 |||
      ((septet n 7).toUInt32 &&& 0x7F) <<< 7 ||| ((septet n 0).toUInt32 &&& 0x7F)).toNat = n := by
  have h21 : n / 2 ^ 21 % 128 = 0 := by omega
  have h14 : n / 2 ^ 14 % 128 = 0 := by omega
  have h7 : n / 2 ^ 7 % 128 = n / 128 := by omega
  have hword : (n / 128) <<< 7 % 2 ^ 32 = (n / 128) <<< 7 := by
    rw [Nat.shiftLeft_eq]
    omega
  have hor := Nat.shiftLeft_add_eq_or_of_lt (i := 7) (Nat.mod_lt n (show 128 > 0 by decide)) (n / 128)
  simp only [UInt32.toNat_or, UInt32.toNat_shiftLeft, septet_low, h21, h14, h7, Nat.pow_zero,
    Nat.div_one]
  change 0 <<< 21 % 2 ^ 32 ||| 0 <<< 14 % 2 ^ 32 ||| (n / 128) <<< 7 % 2 ^ 32 ||| n % 128 = n
  rw [hword]
  simp only [Nat.zero_shiftLeft, Nat.zero_mod, Nat.zero_or]
  rw [← hor, Nat.shiftLeft_eq]
  omega

theorem Id3Tag.length_bytes (t : Id3Tag) : t.bytes.length = 10 + t.body.length := by
  simp [Id3Tag.bytes]
  omega

theorem returns_range_take {xs : List α} (h : n ≤ xs.length) :
    Returns (Checked.range xs 0 n) (some (xs.take n)) := by
  rw [Checked.range, if_pos ⟨Nat.zero_le n, h⟩]
  simp

theorem Id3Tag.returns_mp3Skip (t : Id3Tag) (hlen : head.length ≤ 4096)
    (hh : HasMagic head 0 t.bytes) : Returns (mp3Skip head) (some t.bytes.length) := by
  have hle := hh.1
  rw [t.length_bytes] at hle
  simp only [Id3Tag.bytes, hasMagic_append] at hh
  obtain ⟨⟨⟨hname, -⟩, hsize⟩, -⟩ := hh
  have hthree : (ascii "ID3").length = 3 := by simp
  have hfirst : head.take 3 = ascii "ID3" := by
    have heq := hname.2
    rw [hthree] at heq
    exact heq
  have hrange := (hsize.at (o := 6) (by simp)).returns_getRange (j := 10) (by simp)
  rw [mp3Skip, if_pos (by omega), (returns_range_take (by omega)).bind_iff, if_pos hfirst,
    hrange.bind_iff, (returns_index_of rfl).bind_iff, (returns_index_of rfl).bind_iff,
    (returns_index_of rfl).bind_iff, (returns_index_of rfl).bind_iff]
  dsimp only
  rw [synchsafe_eq (by omega), t.length_bytes]
  exact returns_plus_of_le hlen (by omega)

/-- What does not begin with `ID3` begins with the leading bytes. -/
theorem returns_mp3Skip_zero (hlen : 10 ≤ head.length) (hno : head.take 3 ≠ ascii "ID3") :
    Returns (mp3Skip head) (some 0) := by
  rw [mp3Skip, if_pos hlen, (returns_range_take (by omega)).bind_iff, if_neg hno]
  simp

theorem take_three_ne {leading rest : Bytes} (hno : ¬ascii "ID3" <+: leading) :
    (leading ++ 0xFF :: rest).take 3 ≠ ascii "ID3" := by
  intro heq
  have hshort : leading.length < 3 := by
    refine Nat.lt_of_not_le fun hle => hno ?_
    rw [List.take_append_of_le_length hle] at heq
    exact heq ▸ List.take_prefix 3 leading
  have hmem : (0xFF : UInt8) ∈ (leading ++ 0xFF :: rest).take 3 := by
    rw [List.mem_take_iff_getElem]
    refine ⟨leading.length, by simp; omega, by simp⟩
  rw [heq] at hmem
  revert hmem
  decide

-- ---------------------------------------------------------------------------
-- The scan
-- ---------------------------------------------------------------------------

theorem mp3FrameAt_none {b : UInt8} (h₀ : head[i]? = some b) (hlen : head.length ≤ 4096)
    (hno : b = 0xFF → ∃ b₁ : UInt8, head[i + 1]? = some b₁ ∧
      (b₁ &&& 0xE0 ≠ 0xE0 ∨ (b₁ >>> 1) &&& 0x3 ≠ 0b01)) :
    Returns (mp3FrameAt head i) (some none) := by
  rw [mp3FrameAt, (returns_index_of h₀).bind_iff]
  by_cases hb : b = 0xFF
  · obtain ⟨b₁, h₁, hrejected⟩ := hno hb
    obtain ⟨hlt, -⟩ := List.getElem?_eq_some_iff.mp h₁
    rw [if_neg (by simp [hb]), (returns_plus_of_le hlen (Nat.le_of_lt hlt)).bind_iff,
      (returns_index_of h₁).bind_iff]
    by_cases hsync : b₁ &&& 0xE0 ≠ 0xE0
    · rw [if_pos hsync]
      simp
    · rw [if_neg hsync]
      dsimp only
      rw [if_pos (hrejected.resolve_left hsync)]
      simp
  · rw [if_pos hb]
    simp

theorem goesOn_mp3Step {b : UInt8} (h₀ : head[i]? = some b) (hlen : head.length ≤ 4096)
    (hinside : i < head.length - 4)
    (hno : b = 0xFF → ∃ b₁ : UInt8, head[i + 1]? = some b₁ ∧
      (b₁ &&& 0xE0 ≠ 0xE0 ∨ (b₁ >>> 1) &&& 0x3 ≠ 0b01)) :
    Checked.GoesOn (mp3Step head) i (i + 1) := by
  rw [Checked.GoesOn, mp3Step, if_pos hinside, (mp3FrameAt_none h₀ hlen hno).bind_iff]
  simp

theorem HasMagic.cons {field : Bytes} (h : HasMagic head o (b :: field)) :
    head[o]? = some b ∧ HasMagic head (o + 1) field := by
  have happ : HasMagic head o ([b] ++ field) := h
  obtain ⟨hfirst, hrest⟩ := hasMagic_append.mp happ
  exact ⟨hasMagic_singleton hfirst, hrest⟩

/-- The scan passes over leading bytes up to a frame, whose first byte makes no sync pattern
of Layer III with the last of them. -/
theorem scan_leading {leading : Bytes} (hlen : head.length ≤ 4096) (hno : Unsynced leading)
    (hleading : HasMagic head o leading) (hframe : head[o + leading.length]? = some 0xFF)
    (hinside : o + leading.length ≤ head.length - 4)
    (hr : Returns (.loop (mp3Step head) (o + leading.length)) r) :
    Returns (.loop (mp3Step head) o) r := by
  induction leading generalizing o with
  | nil => exact hr
  | cons b leading ih =>
    have hplace : o + (b :: leading).length = o + 1 + leading.length := by
      rw [List.length_cons]
      omega
    rw [hplace] at hframe hinside hr
    obtain ⟨hb₀, hrest⟩ := hleading.cons
    have hnext := ih (fun i b' hi hb' => hno (i + 1) b' hi hb') hrest hframe hinside hr
    refine Checked.returns_loop.mpr (.inr (.inr ⟨o + 1, ?_, hnext⟩))
    refine goesOn_mp3Step hb₀ hlen (by omega) fun hb => ?_
    cases leading with
    | nil => exact ⟨0xFF, hframe, .inr (by decide)⟩
    | cons b₁ leading => exact ⟨b₁, hrest.cons.1, .inl (hno 0 b₁ (congrArg some hb) rfl)⟩

-- ---------------------------------------------------------------------------
-- The frame
-- ---------------------------------------------------------------------------

theorem returns_encodedFormat (h : clampChannels channels = some count) :
    Returns (encodedFormat codec rateHz channels bitrate)
      (some (.encodedPassthrough codec.toList rateHz count bitrate)) := by
  simp [encodedFormat, h, Checked.returns_bind]

/-- The scan ends at a frame with its format. -/
theorem FrameHeader.returns_scan (f : FrameHeader) (hlen : head.length ≤ 4096)
    (hh : HasMagic head i f.bytes) (hinside : i < head.length - 4)
    (hbitrate : Returns (mp3Bitrate head i f.versionBits f.modeBits f.kbps) bitrate) :
    ∃ rateHz channels, Returns (.loop (mp3Step head) i)
      (some (.encodedPassthrough "mp3".toList rateHz channels bitrate)) := by
  obtain ⟨rates, rate, hrates, hrate⟩ := f.rates
  obtain ⟨h₀, hh₁⟩ := hh.cons
  obtain ⟨h₁, hh₂⟩ := hh₁.cons
  obtain ⟨h₂, hh₃⟩ := hh₂.cons
  obtain ⟨h₃, -⟩ := hh₃.cons
  have hplus (k : Nat) (hk : k ≤ 3) : Returns (plus i k) (some (i + k)) :=
    returns_plus_of_le hlen (by omega)
  refine ⟨rate, if f.modeBits = 0b11 then 1 else 2, Checked.returns_loop.mpr (.inr (.inl ⟨_, ?_, rfl⟩))⟩
  have hframe : Returns (mp3FrameAt head i) (some (some (.encodedPassthrough "mp3".toList rate
      (if f.modeBits = 0b11 then 1 else 2) bitrate))) := by
    rw [mp3FrameAt, (returns_index_of h₀).bind_iff, if_neg (by simp),
      (hplus 1 (by omega)).bind_iff, (returns_index_of h₁).bind_iff,
      if_neg (by simp [f.sync])]
    dsimp only
    rw [if_neg (by simp [f.layer]), (hplus 2 (by omega)).bind_iff,
      (returns_index_of h₂).bind_iff, if_neg f.sampleRate]
    have hrates' : mp3Rates ((f.b₁ >>> 3) &&& 0x3) = some rates := hrates
    have hoption : Returns (mp3Bitrate head i ((f.b₁ >>> 3) &&& 0x3) ((f.b₃ >>> 6) &&& 0x3)
        (mp3BitrateKbps ((f.b₁ >>> 3) &&& 0x3) ((f.b₂ >>> 4) &&& 0x0F))).option (some bitrate) :=
      Checked.returns_option_some.mpr hbitrate
    rw [hrates']
    dsimp only
    rw [(returns_index_of hrate).bind_iff, (hplus 3 (by omega)).bind_iff,
      (returns_index_of h₃).bind_iff, hoption.bind_iff]
    have hmode : (f.b₃ >>> 6) &&& 0x3 = f.modeBits := rfl
    rw [hmode]
    have hcount : clampChannels (if f.modeBits = 0b11 then 1 else 2) =
        some (if f.modeBits = 0b11 then 1 else 2) := by
      split <;> rfl
    rw [(returns_encodedFormat hcount).bind_iff]
    simp
  rw [mp3Step, if_pos hinside, hframe.bind_iff]
  simp

-- ---------------------------------------------------------------------------
-- The tag
-- ---------------------------------------------------------------------------

/-- The four bytes of the head behind the byte count, if it has them. -/
def TaggedMp3.following (f : TaggedMp3) : Option UInt32 :=
  let place := f.layout.bytes.length
  if place + 4 ≤ f.head.length then some (UInt32.ofNat (beValue (bytesAt f.head place 4))) else none

/-- The kbps of a VBR file, as they are estimated of a count of frames and one of bytes. -/
def vbrKbps (mpeg1 : Bool) (frames bytes : UInt32) : UInt32 :=
  UInt32.ofNat (bytes.toNat / frames.toNat * 8 * 44100 / (if mpeg1 then 1152 else 576) / 1000)

/-- The bitrate that is read of the tag's fields, each taken for the one before it. -/
def TagLayout.readBitrate (h : TagLayout) (following : Option UInt32) : Option EncodedBitrate :=
  let firstFrame := h.frame.kbps.map .cbr
  if be32 h.flags ≠ ascii "Xing" ∧ be32 h.flags ≠ ascii "Info" then firstFrame
  else if h.totalFrames &&& 0x2 = 0 then firstFrame
  else if h.totalFrames &&& 0x1 = 0 then firstFrame
  else following.bind fun bytes =>
    if h.totalBytes = 0 then firstFrame
    else if be32 h.flags = ascii "Info" then some (h.frame.kbps.elim .unknown .cbr)
    else if 0 < vbrKbps h.frame.isMpeg1 h.totalBytes bytes then
      some (.vbr (vbrKbps h.frame.isMpeg1 h.totalBytes bytes))
    else firstFrame

theorem returns_xingBitrate {frames bytes : UInt32} (h : 0 < frames) :
    Returns (xingBitrate mpeg1 isInfo kbps (some frames) (some bytes))
      (some (if isInfo then some (kbps.elim .unknown .cbr)
        else if 0 < vbrKbps mpeg1 frames bytes then some (.vbr (vbrKbps mpeg1 frames bytes))
        else none)) := by
  have hframes : frames.toNat ≠ 0 := Nat.pos_iff_ne_zero.mp (UInt32.lt_iff_toNat_lt.mp h)
  have hbytes := bytes.toNat_lt
  have hquotient : bytes.toNat / frames.toNat < 2 ^ 32 :=
    Nat.lt_of_le_of_lt (Nat.div_le_self _ _) hbytes
  cases isInfo
  · have hbits : Returns (Checked.checkedMul (2 ^ 64) (bytes.toNat / frames.toNat) 8)
        (some (bytes.toNat / frames.toNat * 8)) := by
      rw [Checked.checkedMul, if_pos (by omega)]
      simp
    have hscaled : Returns (Checked.checkedMul (2 ^ 64) (bytes.toNat / frames.toNat * 8) 44100)
        (some (bytes.toNat / frames.toNat * 8 * 44100)) := by
      rw [Checked.checkedMul, if_pos (by omega)]
      simp
    have hdiv (n d : Nat) (hd : d ≠ 0) : Returns (Checked.checkedDiv n d) (some (n / d)) := by
      rw [Checked.checkedDiv, if_neg hd]
      simp
    have hsamples : (if mpeg1 then 1152 else 576) ≠ 0 := by cases mpeg1 <;> decide
    rw [xingBitrate, if_pos h, if_neg (by simp)]
    dsimp only
    rw [(hdiv _ _ hframes).bind_iff, hbits.bind_iff, hscaled.bind_iff, (hdiv _ _ hsamples).bind_iff,
      (hdiv _ 1000 (by decide)).bind_iff]
    refine Checked.returns_pure.mpr ?_
    simp only [Bool.false_eq_true, if_false]
    rfl
  · simp [xingBitrate, if_pos h]

/-- Without a positive frame count and a byte count there is no average. -/
theorem returns_xingBitrate_none (h : frames = none ∨ bytes = none ∨ frames = some 0) :
    Returns (xingBitrate mpeg1 isInfo kbps frames bytes) (some none) := by
  rcases h with rfl | rfl | rfl
  · cases bytes <;> simp [xingBitrate]
  · cases frames <;> simp [xingBitrate]
  · cases bytes <;> simp [xingBitrate]

theorem returns_firstFrameBitrate : Returns (firstFrameBitrate kbps) (kbps.map .cbr) := by
  simp [firstFrameBitrate]

theorem returns_mp3Bitrate (f : TaggedMp3)
    (hh : HasMagic f.head 0 f.layout.bytes) :
    Returns (mp3Bitrate f.head (f.layout.id3Bytes.length + f.layout.leading.length)
      f.layout.frame.versionBits f.layout.frame.modeBits f.layout.frame.kbps)
      (f.layout.readBitrate f.following) := by
  have hlen : f.head.length ≤ 4096 := List.length_take_le 4096 _
  have hwhole := hh.1
  simp only [TagLayout.bytes, hasMagic_append] at hh
  obtain ⟨⟨⟨⟨⟨⟨⟨-, -⟩, -⟩, -⟩, -⟩, hflags⟩, hframes⟩, hbytes⟩ := hh
  generalize hi : f.layout.id3Bytes.length + f.layout.leading.length = i
  have hname : f.layout.tagName.length = 4 := by
    unfold TagLayout.tagName
    cases f.layout.isInfo <;> simp
  have hside := f.layout.sideLength
  have hframe : f.layout.frame.bytes.length = 4 := rfl
  simp only [List.length_append, length_be32, hframe, hname] at hflags hframes hbytes
  generalize hd : f.layout.frame.tagDistance = d at hside
  have hlength : f.layout.bytes.length = i + d + 16 := by
    simp only [TagLayout.bytes, List.length_append, length_be32, hframe, hname]
    omega
  have hslice := (hflags.at (o := i + 4 + d) (by omega)).returns_slice hlen
  rw [length_be32] at hslice
  have hadd : Returns (Checked.checkedAdd (2 ^ 64) i 4) (some (i + 4)) := by
    rw [Checked.returns_checkedAdd, if_pos (by omega)]
  have hadd' : Returns (Checked.checkedAdd (2 ^ 64) (i + 4) d) (some (i + 4 + d)) := by
    rw [Checked.returns_checkedAdd, if_pos (by omega)]
  have hplus (k : Nat) (hk : k ≤ 8) : Returns (plus (i + 4 + d) k) (some (i + 4 + d + k)) :=
    returns_plus_of_le hlen (by omega)
  have hdist : (if (f.layout.frame.versionBits == 0b11) && (f.layout.frame.modeBits != 0b11) then 36
      else if (f.layout.frame.versionBits == 0b11) || (f.layout.frame.modeBits != 0b11) then 21
      else 13) = d := hd
  rw [mp3Bitrate, hadd.bind_iff]
  dsimp only
  rw [hdist, hadd'.bind_iff, (Checked.returns_option_some.mpr hslice).bind_iff]
  have hfollowing : Returns (u32Be f.head (i + 4 + d + 8 + 4)) f.following := by
    have hplace : i + 4 + d + 8 + 4 = f.layout.bytes.length := by omega
    rw [hplace, returns_u32Be]
    exact ⟨by omega, rfl⟩
  have hfirst : Returns (firstFrameBitrate f.layout.frame.kbps) (f.layout.frame.kbps.map .cbr) :=
    returns_firstFrameBitrate
  simp only [TagLayout.readBitrate, ← not_or]
  by_cases hmagic : be32 f.layout.flags = ascii "Xing" ∨ be32 f.layout.flags = ascii "Info"
  · rw [if_pos (by simpa using hmagic), if_neg (not_not_intro hmagic),
      (hplus 4 (by omega)).bind_iff, ((hframes.at (by omega)).returns_u32Be hlen).bind_iff,
      (hplus 8 (by omega)).bind_iff]
    have hcursor := hbytes.at (o := i + 4 + d + 8) (by omega)
    by_cases hone : f.layout.totalFrames &&& 0x1 = 0
    · -- No frame count is read, so it does not matter whether a byte count is.
      have hframesRead : Returns (xingFrames f.head f.layout.totalFrames (i + 4 + d + 8))
          (some (none, i + 4 + d + 8)) := by
        rw [xingFrames, if_neg (by simp [hone])]
        simp
      obtain ⟨count, hcount⟩ : ∃ count, Returns
          (xingBytes f.head f.layout.totalFrames (i + 4 + d + 8)) (some count) := by
        unfold xingBytes
        split
        · exact ⟨some f.layout.totalBytes, by rw [(hcursor.returns_u32Be hlen).bind_iff]; simp⟩
        · exact ⟨none, by simp⟩
      rw [hframesRead.bind_iff, hcount.bind_iff, (returns_xingBitrate_none (.inl rfl)).bind_iff, hone,
        if_pos rfl, ite_self]
      exact hfirst
    · have hframesRead : Returns (xingFrames f.head f.layout.totalFrames (i + 4 + d + 8))
          (some (some f.layout.totalBytes, i + 4 + d + 8 + 4)) := by
        rw [xingFrames, if_pos hone, (hcursor.returns_u32Be hlen).bind_iff,
          (returns_plus_of_le hlen (by omega)).bind_iff]
        simp
      rw [hframesRead.bind_iff, if_neg hone]
      dsimp only
      by_cases htwo : f.layout.totalFrames &&& 0x2 = 0
      · have hcount : Returns (xingBytes f.head f.layout.totalFrames (i + 4 + d + 8 + 4))
            (some none) := by
          rw [xingBytes, if_neg (by simp [htwo])]
          simp
        rw [hcount.bind_iff, if_pos htwo, (returns_xingBitrate_none (.inr (.inl rfl))).bind_iff]
        exact hfirst
      · rw [if_neg htwo]
        cases hnext : f.following with
        | none =>
          rw [hnext] at hfollowing
          have hcount : Returns (xingBytes f.head f.layout.totalFrames (i + 4 + d + 8 + 4)) none := by
            rw [xingBytes, if_pos htwo, hfollowing.bind_none_iff]
          exact hcount.bind_none_iff.mpr rfl
        | some bytes =>
          rw [hnext] at hfollowing
          have hcount : Returns (xingBytes f.head f.layout.totalFrames (i + 4 + d + 8 + 4))
              (some (some bytes)) := by
            rw [xingBytes, if_pos htwo, hfollowing.bind_iff]
            simp
          rw [hcount.bind_iff, Option.bind_some]
          by_cases hzero : f.layout.totalBytes = 0
          · rw [if_pos hzero, hzero, (returns_xingBitrate_none (.inr (.inr rfl))).bind_iff]
            exact hfirst
          · have hpositive : 0 < f.layout.totalBytes := UInt32.pos_iff_ne_zero.mpr hzero
            have hmpeg1 : (f.layout.frame.versionBits == 0b11) = f.layout.frame.isMpeg1 := rfl
            rw [(returns_xingBitrate hpositive).bind_iff, if_neg hzero, hmpeg1]
            by_cases hinfo : be32 f.layout.flags = ascii "Info"
            · simp [hinfo]
            by_cases hkbps : 0 < vbrKbps f.layout.frame.isMpeg1 f.layout.totalBytes bytes
            · simp [hinfo, hkbps]
            · rw [if_neg (by simpa using hinfo), if_neg hkbps, if_neg hinfo, if_neg hkbps]
              exact hfirst
  · rw [if_neg (by simpa using hmagic), if_pos hmagic]
    exact hfirst

/-- The parser of MP3 files comes to the frame and reads the tag's fields. -/
theorem returns_parseMp3 (f : TaggedMp3) : ∃ rateHz channels, Returns (parseMp3 f.head)
    (some (.encodedPassthrough "mp3".toList rateHz channels (f.layout.readBitrate f.following))) := by
  have hlen : f.head.length ≤ 4096 := List.length_take_le 4096 _
  have hh : HasMagic f.head 0 f.layout.bytes := hasMagic_take f.withinHead
  have hwhole := hh.1
  have hbitrate := returns_mp3Bitrate f hh
  have hname : f.layout.tagName.length = 4 := by
    unfold TagLayout.tagName
    cases f.layout.isInfo <;> simp
  have hframe : f.layout.frame.bytes.length = 4 := rfl
  have hlength : f.layout.bytes.length = f.layout.id3Bytes.length + f.layout.leading.length + 4 +
      f.layout.sideInfo.length + 16 := by
    simp only [TagLayout.bytes, List.length_append, length_be32, hframe, hname]
  simp only [TagLayout.bytes, hasMagic_append] at hh
  obtain ⟨⟨⟨⟨⟨⟨⟨hid3, hleading⟩, hframeAt⟩, -⟩, -⟩, -⟩, -⟩, -⟩ := hh
  rw [List.length_append] at hframeAt
  have hframeAt := hframeAt.at (Nat.zero_add _)
  have hskip : Returns (mp3Skip f.head) (some f.layout.id3Bytes.length) := by
    unfold TagLayout.id3Bytes at hid3 ⊢
    cases htag : f.layout.id3 with
    | some t =>
      rw [htag] at hid3
      exact t.returns_mp3Skip hlen hid3
    | none =>
      have hside := f.layout.sideLength
      refine returns_mp3Skip_zero (by omega) ?_
      have hbegin : f.layout.bytes ++ f.rest = f.layout.leading ++ 0xFF :: ([f.layout.frame.b₁,
          f.layout.frame.b₂, f.layout.frame.b₃] ++ f.layout.sideInfo ++ f.layout.tagName ++
          be32 f.layout.flags ++ be32 f.layout.totalFrames ++ be32 f.layout.totalBytes ++ f.rest) := by
        simp [TagLayout.bytes, TagLayout.id3Bytes, htag, FrameHeader.bytes]
      rw [TaggedMp3.head, List.take_take, hbegin]
      exact take_three_ne (f.layout.untagged htag)
  obtain ⟨rateHz, channels, hscan⟩ := f.layout.frame.returns_scan hlen hframeAt (by omega) hbitrate
  refine ⟨rateHz, channels, ?_⟩
  rw [parseMp3, hskip.bind_iff]
  exact scan_leading hlen f.layout.unsynced (hleading.at (Nat.zero_add _)) hframeAt.cons.1
    (by omega) hscan

-- ---------------------------------------------------------------------------
-- Tags that are recognised
-- ---------------------------------------------------------------------------

/-- The counts read a field late give a bitrate of at least one kbps. -/
def TagLayout.ReadsVbr (h : TagLayout) (bytes : UInt32) : Prop :=
  h.totalBytes ≠ 0 ∧
    (if h.frame.isMpeg1 then 4 else 2) * h.totalBytes.toNat ≤ bytes.toNat

/-- The flags of a `Xing` tag spell its name, the frame count has both flags, and the bytes
behind the byte count are so large a number that an average is made of the two. With
an `Info` tag the first frame has a bitrate, and none of that goes halfway. -/
def TaggedMp3.Recognised (f : TaggedMp3) : Prop :=
  let h := f.layout
  if h.isInfo then
    h.frame.kbps.isSome ∧
      (be32 h.flags = ascii "Xing" ∨ be32 h.flags = ascii "Info" → h.totalFrames &&& 0x2 ≠ 0 →
        h.totalFrames &&& 0x1 ≠ 0 → ∃ bytes, f.following = some bytes ∧
          (be32 h.flags = ascii "Xing" → ¬h.ReadsVbr bytes))
  else
    be32 h.flags = ascii "Xing" ∧ h.totalFrames &&& 0x2 ≠ 0 ∧ h.totalFrames &&& 0x1 ≠ 0 ∧
      ∃ bytes, f.following = some bytes ∧ h.ReadsVbr bytes

theorem vbrKbps_pos (h : frames ≠ 0) : 0 < vbrKbps mpeg1 frames bytes ↔
    (if mpeg1 then 4 else 2) * frames.toNat ≤ bytes.toNat := by
  have hframes : 0 < frames.toNat := UInt32.lt_iff_toNat_lt.mp (UInt32.pos_iff_ne_zero.mpr h)
  have hbytes := bytes.toNat_lt
  have hquotient : bytes.toNat / frames.toNat < 2 ^ 32 :=
    Nat.lt_of_le_of_lt (Nat.div_le_self _ _) hbytes
  rw [← Nat.le_div_iff_mul_le hframes, UInt32.lt_iff_toNat_lt, vbrKbps, UInt32.toNat_ofNat_of_lt']
  · change 0 < _ ↔ _
    cases mpeg1
    · simp only [Bool.false_eq_true, if_false]
      omega
    · simp only [if_true]
      omega
  · cases mpeg1
    · simp only [Bool.false_eq_true, if_false, UInt32.size]
      omega
    · simp only [if_true, UInt32.size]
      omega

theorem recognisesTag_iff_announces : RecognisesTag f ↔
    ∃ bitrate, f.layout.readBitrate f.following = some bitrate ∧ f.layout.Announces bitrate := by
  obtain ⟨rateHz, channels, hparse⟩ := returns_parseMp3 f
  constructor
  · rintro ⟨rateHz', channels', bitrate, hannounces, hr⟩
    have heq := Option.some.inj (hparse.unique hr)
    simp only [AudioFormat.encodedPassthrough.injEq] at heq
    exact ⟨bitrate, heq.2.2.2, hannounces⟩
  · rintro ⟨bitrate, hread, hannounces⟩
    rw [hread] at hparse
    exact ⟨rateHz, channels, bitrate, hannounces, hparse⟩

theorem xing_ne_info : ascii "Xing" ≠ ascii "Info" := by decide +kernel

/-- What is read is a VBR exactly when the flags spell `Xing` and the counts allow it. -/
theorem readBitrate_eq_vbr {h : TagLayout} : (∃ avgKbps, h.readBitrate after = some (.vbr avgKbps)) ↔
    be32 h.flags = ascii "Xing" ∧ h.totalFrames &&& 0x2 ≠ 0 ∧ h.totalFrames &&& 0x1 ≠ 0 ∧
      ∃ bytes, after = some bytes ∧ h.ReadsVbr bytes := by
  have hfirst : ¬∃ avgKbps, h.frame.kbps.map EncodedBitrate.cbr = some (.vbr avgKbps) := by
    cases h.frame.kbps <;> simp
  have hne := xing_ne_info
  unfold TagLayout.readBitrate TagLayout.ReadsVbr
  dsimp only
  split
  next hname => exact iff_of_false hfirst fun hread => hname.1 hread.1
  split
  next htwo => exact iff_of_false hfirst fun hread => hread.2.1 htwo
  split
  next hone => exact iff_of_false hfirst fun hread => hread.2.2.1 hone
  next hname htwo hone =>
    cases after with
    | none => simp
    | some bytes =>
      rw [Option.bind_some]
      split
      next hzero => exact iff_of_false hfirst (by simp [hzero])
      split
      next hinfo =>
        refine iff_of_false ?_ fun hread => hne (hread.1.symm.trans hinfo)
        cases h.frame.kbps <;> simp
      next hzero hinfo =>
        have hxing : be32 h.flags = ascii "Xing" := by
          by_cases hxing : be32 h.flags = ascii "Xing"
          · exact hxing
          · exact absurd ⟨hxing, hinfo⟩ hname
        split
        next hlarge =>
          rw [vbrKbps_pos hzero] at hlarge
          exact iff_of_true ⟨_, rfl⟩ ⟨hxing, htwo, hone, bytes, rfl, hzero, hlarge⟩
        next hsmall =>
          rw [vbrKbps_pos hzero] at hsmall
          refine iff_of_false hfirst ?_
          rintro ⟨-, -, -, n, hn, -, hle⟩
          cases hn
          exact hsmall hle

/-- What is read is the first frame's rate exactly when the frame has one and nothing that
is taken for a tag has cut off or VBR counts. -/
theorem readBitrate_eq_cbr {h : TagLayout} :
    (∃ kbps, h.frame.kbps = some kbps ∧ h.readBitrate after = some (.cbr kbps)) ↔
      h.frame.kbps.isSome ∧
      (be32 h.flags = ascii "Xing" ∨ be32 h.flags = ascii "Info" → h.totalFrames &&& 0x2 ≠ 0 →
        h.totalFrames &&& 0x1 ≠ 0 → ∃ bytes, after = some bytes ∧
          (be32 h.flags = ascii "Xing" → ¬h.ReadsVbr bytes)) := by
  have hne := xing_ne_info
  cases hkbps : h.frame.kbps with
  | none => simp
  | some kbps =>
    unfold TagLayout.readBitrate TagLayout.ReadsVbr
    simp only [hkbps, Option.map_some, Option.elim_some, Option.isSome_some, true_and,
      Option.some.injEq, exists_eq_left']
    split
    next hname => exact iff_of_true rfl fun hread => absurd hread (not_or.mpr hname)
    split
    next htwo => exact iff_of_true rfl fun _ hno => absurd htwo hno
    split
    next hone => exact iff_of_true rfl fun _ _ hno => absurd hone hno
    next hname htwo hone =>
      cases after with
      | none =>
        refine iff_of_false (by simp) fun hread => ?_
        obtain ⟨bytes, hbytes, -⟩ := hread (by grind) htwo hone
        cases hbytes
      | some bytes =>
        rw [Option.bind_some]
        split
        next hzero => exact iff_of_true rfl fun _ _ _ => ⟨bytes, rfl, fun _ hread => hread.1 hzero⟩
        split
        next hinfo =>
          exact iff_of_true rfl fun _ _ _ => ⟨bytes, rfl, fun hxing => absurd (hxing.symm.trans hinfo) hne⟩
        next hzero hinfo =>
          have hxing : be32 h.flags = ascii "Xing" := by grind
          split
          next hlarge =>
            rw [vbrKbps_pos hzero] at hlarge
            refine iff_of_false (by simp) fun hread => ?_
            obtain ⟨n, hn, hno⟩ := hread (.inl hxing) htwo hone
            cases hn
            exact hno hxing ⟨hzero, hlarge⟩
          next hsmall =>
            rw [vbrKbps_pos hzero] at hsmall
            exact iff_of_true rfl fun _ _ _ => ⟨bytes, rfl, fun _ hread => hsmall hread.2⟩

/-- A tag is recognised exactly when its fields can be read one for another. -/
theorem recognisesTag_iff (f : TaggedMp3) : RecognisesTag f ↔ f.Recognised := by
  rw [recognisesTag_iff_announces]
  unfold TagLayout.Announces TaggedMp3.Recognised
  dsimp only
  split
  next =>
    rw [← readBitrate_eq_cbr]
    constructor
    · rintro ⟨bitrate, hread, kbps, hkbps, rfl⟩
      exact ⟨kbps, hkbps, hread⟩
    · rintro ⟨kbps, hkbps, hread⟩
      exact ⟨_, hread, kbps, hkbps, rfl⟩
  next =>
    rw [← readBitrate_eq_vbr]
    constructor
    · rintro ⟨bitrate, hread, avgKbps, rfl⟩
      exact ⟨avgKbps, hread⟩
    · rintro ⟨avgKbps, hread⟩
      exact ⟨_, hread, avgKbps, rfl⟩

/-- An MPEG-1 stereo frame of 128 kbps with a `Xing` tag of both counts. -/
def xingSample : TagLayout where
  id3 := none
  leading := []
  unsynced := by simp [Unsynced]
  untagged := by decide +kernel
  frame := ⟨0xFB, 0x90, 0x00, rfl, rfl, by decide, by decide⟩
  sideInfo := List.replicate 32 0
  sideLength := rfl
  isInfo := false
  flags := 3
  counted := rfl
  totalFrames := 1000
  positive := by decide
  totalBytes := 417000

theorem not_recognisesTag_sample : ¬RecognisesTag ⟨xingSample, [], by decide +kernel⟩ := by
  rw [recognisesTag_iff_announces]
  have hread : xingSample.readBitrate
      (TaggedMp3.following ⟨xingSample, [], by decide +kernel⟩) = some (.cbr 128) := by
    decide +kernel
  rw [hread]
  rintro ⟨bitrate, hbitrate, avgKbps, rfl⟩
  cases hbitrate

end EvoAudio.SourceProbe
