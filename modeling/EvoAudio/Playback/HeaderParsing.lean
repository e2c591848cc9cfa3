import EvoAudio.Playback.HeaderLayouts

/-!
# What the parsers take for the fields of a header

Each parser is run on the head of a file with the header of its format. The result says
of which fields it makes the depth, the rate and the channels, and what it does to them
on the way.
-/

namespace EvoAudio.SourceProbe

open Checked (Returns)
open EvoAudio.Topology (AudioFormat DsdRate PcmCodec)
open Relation (ReflTransGen)

variable {head : Bytes}

-- ---------------------------------------------------------------------------
-- Fields of a head
-- ---------------------------------------------------------------------------

theorem bytesAt_add (b : Bytes) (offset m n : Nat) :
    bytesAt b offset (m + n) = bytesAt b offset m ++ bytesAt b (offset + m) n := by
  simp only [bytesAt, List.take_add, List.drop_drop]

theorem hasMagic_append {x y : Bytes} : HasMagic head offset (x ++ y) ↔
    HasMagic head offset x ∧ HasMagic head (offset + x.length) y := by
  unfold HasMagic
  rw [List.length_append, bytesAt_add]
  constructor
  · rintro ⟨hle, heq⟩
    have hlen : (bytesAt head offset x.length).length = x.length := length_bytesAt (by omega)
    obtain ⟨hx, hy⟩ := List.append_inj heq hlen
    exact ⟨⟨by omega, hx⟩, by omega, hy⟩
  · rintro ⟨⟨-, hx⟩, hle, hy⟩
    exact ⟨by omega, by rw [hx, hy]⟩

theorem HasMagic.at {field : Bytes} (h : HasMagic head offset field) (heq : offset = o) :
    HasMagic head o field := heq ▸ h

theorem HasMagic.returns_getRange {field : Bytes} (h : HasMagic head offset field)
    (hj : j = offset + field.length) : Returns (Checked.getRange head offset j) (some field) := by
  obtain ⟨hle, heq⟩ := h
  subst hj
  rw [Checked.returns_getRange, if_pos ⟨by omega, hle⟩, Nat.add_sub_cancel_left]
  exact congrArg some heq.symm

theorem hasMagic_drop {x : Bytes} (h : s ≤ head.length) :
    HasMagic (head.drop s) offset x ↔ HasMagic head (s + offset) x := by
  unfold HasMagic bytesAt
  rw [List.drop_drop, List.length_drop]
  refine and_congr_left fun _ => ?_
  omega

theorem hasMagic_take {x rest : Bytes} (h : x.length ≤ 4096) :
    HasMagic ((x ++ rest).take 4096) 0 x := by
  refine ⟨by simp; omega, ?_⟩
  rw [bytesAt, List.drop_zero, List.take_take, Nat.min_eq_left h, List.take_left]

section

variable (hlen : head.length ≤ 4096)
include hlen

theorem HasMagic.returns_slice {field : Bytes} (h : HasMagic head offset field) :
    Returns (slice head offset field.length) (some field) := by
  obtain ⟨hle, heq⟩ := h
  rw [SourceProbe.returns_slice, if_pos hle, heq]
  exact ⟨by omega, rfl⟩

theorem HasMagic.returns_arrayAt {field : Bytes} (h : HasMagic head offset field)
    (hn : field.length = n) : Returns (arrayAt head offset n) (some field) := by
  subst hn
  exact SourceProbe.returns_arrayAt.mpr (h.returns_slice hlen)

theorem HasMagic.returns_checkMagic {magic : Bytes} (h : HasMagic head offset magic) :
    Returns (checkMagic head offset magic) (some true) := by
  have hslice := Checked.returns_option_some.mpr (h.returns_slice hlen)
  rw [checkMagic, hslice.bind_iff]
  simp

theorem HasMagic.returns_u16Le (h : HasMagic head offset (le16 v)) :
    Returns (u16Le head offset) (some v) := by
  rw [u16Le, (h.returns_arrayAt hlen (length_leBytes 2 _)).bind_iff, le16,
    leValue_leBytes v.toNat_lt]
  simp

theorem HasMagic.returns_u32Le (h : HasMagic head offset (le32 v)) :
    Returns (u32Le head offset) (some v) := by
  rw [u32Le, (h.returns_arrayAt hlen (length_leBytes 4 _)).bind_iff, le32,
    leValue_leBytes v.toNat_lt]
  simp

theorem HasMagic.returns_u16Be (h : HasMagic head offset (be16 v)) :
    Returns (u16Be head offset) (some v) := by
  rw [u16Be, (h.returns_arrayAt hlen (length_beBytes 2 _)).bind_iff, be16,
    beValue_beBytes v.toNat_lt]
  simp

theorem HasMagic.returns_u32Be (h : HasMagic head offset (be32 v)) :
    Returns (u32Be head offset) (some v) := by
  rw [u32Be, (h.returns_arrayAt hlen (length_beBytes 4 _)).bind_iff, be32,
    beValue_beBytes v.toNat_lt]
  simp

theorem returns_plus_of_le (h : a + b ≤ head.length) : Returns (plus a b) (some (a + b)) :=
  Checked.returns_add.mpr ⟨by omega, rfl⟩

end

-- ---------------------------------------------------------------------------
-- PCM formats
-- ---------------------------------------------------------------------------

/-- What `pcmFormat` makes of its arguments. -/
def pcmOf (bits : UInt8) (rateHz : UInt32) (channels : UInt32) : Option AudioFormat := do
  let codec ← pcmCodecFromBits bits
  let channels ← clampChannels channels
  return .pcm codec rateHz channels

theorem returns_pcmFormat : Returns (pcmFormat bits rateHz channels) r ↔
    r = pcmOf bits rateHz channels := by
  unfold pcmFormat pcmOf
  cases pcmCodecFromBits bits with
  | none => simp [Checked.returns_bind]
  | some codec => cases clampChannels channels <;> simp [Checked.returns_bind]

def FewChannels (n : Nat) : Prop := 1 ≤ n ∧ n ≤ 32

instance : Decidable (FewChannels n) := inferInstanceAs (Decidable (_ ∧ _))

theorem clampChannels_eq_some : clampChannels n = some count ↔
    FewChannels n.toNat ∧ count.toNat = n.toNat := by
  unfold clampChannels FewChannels
  have hzero : n = 0 ↔ n.toNat = 0 := by rw [← UInt32.toNat_inj]; rfl
  have hmany : n > 32 ↔ 32 < n.toNat := UInt32.lt_iff_toNat_lt
  split
  next h =>
    rw [hzero, hmany] at h
    refine iff_of_false (by simp) ?_
    omega
  next h =>
    rw [hzero, hmany] at h
    have hbyte : n.toUInt8.toNat = n.toNat := by
      rw [UInt32.toNat_toUInt8]
      omega
    rw [Option.some.injEq, ← UInt8.toNat_inj, hbyte]
    constructor
    · intro heq
      omega
    · intro heq
      omega

theorem pcmCodecFromBits_eq_some {bits : UInt8} : pcmCodecFromBits bits = some codec ↔
    codecDepth codec = some bits.toNat := by
  have hbits (n : UInt8) : bits = n ↔ bits.toNat = n.toNat := UInt8.toNat_inj.symm
  have h16 := hbits 16
  have h24 := hbits 24
  have h32 := hbits 32
  unfold pcmCodecFromBits codecDepth
  cases codec <;> grind

-- ---------------------------------------------------------------------------
-- Parsers
-- ---------------------------------------------------------------------------

@[simp] theorem length_ascii (s : String) : (ascii s).length = s.toList.length := by simp [ascii]

@[simp] theorem length_le16 (v : UInt16) : (le16 v).length = 2 := length_leBytes 2 _
@[simp] theorem length_le32 (v : UInt32) : (le32 v).length = 4 := length_leBytes 4 _
@[simp] theorem length_le64 (v : UInt64) : (le64 v).length = 8 := length_leBytes 8 _
@[simp] theorem length_be16 (v : UInt16) : (be16 v).length = 2 := length_beBytes 2 _
@[simp] theorem length_be32 (v : UInt32) : (be32 v).length = 4 := length_beBytes 4 _

theorem returns_require_true : Returns (Checked.require true) (some ()) := by
  simp [Checked.require]

theorem returns_parseTta (h : TtaHeader) (hlen : head.length ≤ 4096)
    (hh : HasMagic head 0 h.bytes) : Returns (parseTta head) r ↔
      r = pcmOf h.bitsPerSample.toUInt8 h.sampleRate h.channels.toUInt32 := by
  simp only [TtaHeader.bytes, hasMagic_append] at hh
  obtain ⟨⟨⟨⟨hmagic, -⟩, hchannels⟩, hbits⟩, hrate⟩ := hh
  simp at hchannels hbits hrate
  rw [parseTta, (hmagic.returns_checkMagic hlen).bind_iff, returns_require_true.bind_iff,
    (hchannels.returns_u16Le hlen).bind_iff, (hbits.returns_u16Le hlen).bind_iff,
    (hrate.returns_u32Le hlen).bind_iff, returns_pcmFormat]

theorem returns_parseDsf (h : DsfHeader) (hlen : head.length ≤ 4096)
    (hh : HasMagic head 0 h.bytes) : Returns (parseDsf head) r ↔
      r = (clampChannels h.channelCount).map (.dsd h.sampleRate .nativeUsb) := by
  simp only [DsfHeader.bytes, hasMagic_append] at hh
  obtain ⟨⟨⟨⟨⟨⟨⟨⟨⟨⟨⟨hmagic, -⟩, -⟩, -⟩, hfmt⟩, -⟩, -⟩, -⟩, -⟩, hchannels⟩, hrate⟩, -⟩ := hh
  simp at hfmt hchannels hrate
  have hdsd : dsdRateFromHz (dsdHz h.sampleRate) = some h.sampleRate := by
    cases h.sampleRate <;> rfl
  rw [parseDsf, (hmagic.returns_checkMagic hlen).bind_iff, returns_require_true.bind_iff,
    (hfmt.returns_checkMagic hlen).bind_iff, returns_require_true.bind_iff,
    (hchannels.returns_u32Le hlen).bind_iff, (hrate.returns_u32Le hlen).bind_iff, hdsd]
  cases clampChannels h.channelCount <;> simp [Checked.returns_bind]

theorem toNat_joined (lo hi : UInt16) :
    (lo.toUInt32 + 0x10000 * hi.toUInt32).toNat = lo.toNat + 65536 * hi.toNat := by
  have hlo := lo.toNat_lt
  have hhi := hi.toNat_lt
  simp
  omega

theorem append_le16 (lo hi : UInt16) :
    le16 lo ++ le16 hi = le32 (lo.toUInt32 + 0x10000 * hi.toUInt32) := by
  have hlo := lo.toNat_lt
  have hhi := hi.toNat_lt
  rw [le32, toNat_joined, le16, le16]
  simp only [leBytes, List.cons_append, List.nil_append, List.cons.injEq, and_true,
    ← UInt8.toNat_inj, UInt8.toNat_ofNat']
  omega

theorem le32_eq (v : UInt32) : le32 v = le16 v.toUInt16 ++ le16 (v >>> 16).toUInt16 := by
  have hv := v.toNat_lt
  rw [append_le16]
  congr 1
  rw [← UInt32.toNat_inj]
  simp [Nat.shiftRight_eq_div_pow]
  omega

theorem hasMagic_singleton (h : HasMagic head offset [x]) : head[offset]? = some x := by
  obtain ⟨hle, heq⟩ := h
  have hdrop : (head.drop offset)[0]? = some x := by
    have htake : ((head.drop offset).take 1)[0]? = some x := by
      change (bytesAt head offset [x].length)[0]? = _
      rw [heq]
      rfl
    rwa [List.getElem?_take_of_lt (by decide)] at htake
  simpa using hdrop

/-- The bits of a word from the `k`-th on, under a mask of `n` bits. -/
theorem toNat_field (v k n : Nat) (hv : v < 2 ^ 64) (hk : k < 64) (hn : n < 64) :
    ((UInt64.ofNat v >>> UInt64.ofNat k) &&& UInt64.ofNat (2 ^ n - 1)).toNat = v / 2 ^ k % 2 ^ n := by
  have hmask : (UInt64.ofNat (2 ^ n - 1)).toNat = 2 ^ n - 1 := by
    refine UInt64.toNat_ofNat_of_lt' ?_
    have hpow : 2 ^ n < 2 ^ 64 := Nat.pow_lt_pow_right (by decide) hn
    exact Nat.lt_of_le_of_lt (Nat.sub_le _ _) hpow
  rw [UInt64.toNat_and, toNat_shiftRight _ hk, UInt64.toNat_ofNat_of_lt' hv, hmask,
    Nat.and_two_pow_sub_one_eq_mod]
/-- The parser of APE files reads the fields four bytes ahead of their places: the frame
count for depth and channels, and those two for the rate. -/
theorem returns_parseApe (h : ApeHeader) (hlen : head.length ≤ 4096)
    (hh : HasMagic head 0 h.bytes) : Returns (parseApe head) r ↔
      r = pcmOf h.totalFrames.toUInt8
        (h.bitsPerSample.toUInt32 + 0x10000 * h.channels.toUInt32) (h.totalFrames >>> 16) := by
  simp only [ApeHeader.bytes, hasMagic_append] at hh
  obtain ⟨⟨⟨⟨⟨⟨⟨⟨⟨⟨⟨⟨hmagic, hversion⟩, -⟩, hsize⟩, -⟩, -⟩, -⟩, -⟩, -⟩, hframes⟩, hbits⟩,
    hchannels⟩, -⟩ := hh
  simp at hversion hsize hframes hbits hchannels
  have hlater : (!decide (h.version < 3980)) = true := by
    have hle := UInt16.le_iff_toNat_le.mp h.later
    simpa [UInt16.lt_iff_toNat_lt] using hle
  have hdescriptor : h.descriptor.length + 32 ≤ head.length := by
    have hle := hchannels.1
    simp at hle
    omega
  have hsizeWord : Returns (u32Le head 8) (some (UInt32.ofNat (12 + h.descriptor.length))) := by
    rw [u32Le, (hsize.returns_arrayAt hlen (length_leBytes 4 _)).bind_iff,
      leValue_leBytes (by omega)]
    simp
  have hoff : (UInt32.ofNat (12 + h.descriptor.length)).toNat = 12 + h.descriptor.length :=
    UInt32.toNat_ofNat_of_lt' (by simp [UInt32.size]; omega)
  rw [le32_eq, hasMagic_append, length_le16] at hframes
  obtain ⟨hlow, hhigh⟩ := hframes
  have hboth := hasMagic_append.mpr ⟨hbits, (by
    rw [length_le16]
    exact hchannels)⟩
  rw [append_le16] at hboth
  have hplaces : 4 + (2 + (2 + (4 + (h.descriptor.length + 12)))) = 12 + h.descriptor.length + 12 := by
    omega
  have hplaces' : 4 + (2 + (2 + (4 + (h.descriptor.length + 16)))) = 12 + h.descriptor.length + 16 := by
    omega
  rw [hplaces] at hlow hhigh
  rw [hplaces'] at hboth
  have hplus (k : Nat) (hk : k ≤ 20) : Returns (plus (12 + h.descriptor.length) k)
      (some (12 + h.descriptor.length + k)) := returns_plus_of_le hlen (by omega)
  rw [parseApe, (hmagic.returns_checkMagic hlen).bind_iff, returns_require_true.bind_iff,
    (hversion.returns_u16Le hlen).bind_iff, hlater, returns_require_true.bind_iff,
    hsizeWord.bind_iff, hoff, (hplus 12 (by omega)).bind_iff, (hlow.returns_u16Le hlen).bind_iff,
    (hplus 14 (by omega)).bind_iff, (hhigh.returns_u16Le hlen).bind_iff,
    (hplus 16 (by omega)).bind_iff, (hboth.returns_u32Le hlen).bind_iff, returns_pcmFormat]
  have hhighWord : (h.totalFrames >>> 16).toUInt16.toUInt32 = h.totalFrames >>> 16 := by
    have hlt := h.totalFrames.toNat_lt
    rw [← UInt32.toNat_inj]
    simp [Nat.shiftRight_eq_div_pow]
    omega
  rw [hhighWord, UInt32.toUInt8_toUInt16]

theorem packed_fields (h : FlacHeader) : h.packed < 256 ^ 8 ∧
    h.packed / 2 ^ 44 % 2 ^ 20 = h.sampleRate.val ∧
    h.packed / 2 ^ 41 % 2 ^ 3 = h.channelsLess1.val ∧
    h.packed / 2 ^ 36 % 2 ^ 5 = h.bitsPerSampleLess1.val := by
  have hrate := h.sampleRate.isLt
  have hchannels := h.channelsLess1.isLt
  have hbits := h.bitsPerSampleLess1.isLt
  have hsamples := h.totalSamples.isLt
  unfold FlacHeader.packed
  omega

theorem returns_parseFlac (h : FlacHeader) (hlen : head.length ≤ 4096)
    (hh : HasMagic head 0 h.bytes) : Returns (parseFlac head) r ↔
      r = if h.sampleRate.val = 0 then none
        else pcmOf (UInt8.ofNat (h.bitsPerSampleLess1.val + 1)) (UInt32.ofNat h.sampleRate.val)
          (UInt32.ofNat (h.channelsLess1.val + 1)) := by
  simp only [FlacHeader.bytes, hasMagic_append] at hh
  obtain ⟨⟨⟨⟨hmagic, hflags⟩, -⟩, -⟩, hpacked⟩ := hh
  simp at hflags hpacked
  have hblock : ((if h.last then 0x80 else 0 : UInt8) &&& 0x7F == 0) = true := by
    cases h.last <;> decide
  obtain ⟨hlt, hrate, hchannels, hbits⟩ := packed_fields h
  have hrateWord : ((UInt64.ofNat h.packed >>> 44) &&& 0xFFFFF).toUInt32 =
      UInt32.ofNat h.sampleRate.val := by
    have hfield := toNat_field h.packed 44 20 hlt (by decide) (by decide)
    rw [← hrate, ← hfield, UInt32.ofNat_uInt64ToNat]
    rfl
  have hchannelsByte : ((UInt64.ofNat h.packed >>> 41) &&& 0x7).toUInt8 + 1 =
      UInt8.ofNat (h.channelsLess1.val + 1) := by
    have hfield := toNat_field h.packed 41 3 hlt (by decide) (by decide)
    rw [← hchannels, ← hfield, UInt8.ofNat_add, UInt8.ofNat_uInt64ToNat]
    rfl
  have hbitsByte : ((UInt64.ofNat h.packed >>> 36) &&& 0x1F).toUInt8 + 1 =
      UInt8.ofNat (h.bitsPerSampleLess1.val + 1) := by
    have hfield := toNat_field h.packed 36 5 hlt (by decide) (by decide)
    rw [← hbits, ← hfield, UInt8.ofNat_add, UInt8.ofNat_uInt64ToNat]
    rfl
  have hflag := Checked.returns_ofOption.mpr (hasMagic_singleton hflags).symm
  rw [parseFlac, (hmagic.returns_checkMagic hlen).bind_iff, returns_require_true.bind_iff,
    hflag.bind_iff, hblock, returns_require_true.bind_iff,
    (hpacked.returns_arrayAt hlen (length_beBytes 8 _)).bind_iff, beValue_beBytes hlt]
  dsimp only
  rw [hrateWord, hchannelsByte, hbitsByte]
  have hchannelsWord : (UInt8.ofNat (h.channelsLess1.val + 1)).toUInt32 =
      UInt32.ofNat (h.channelsLess1.val + 1) := by
    have hchannels := h.channelsLess1.isLt
    rw [← UInt32.toNat_inj]
    simp
    omega
  rw [hchannelsWord]
  have hzero : UInt32.ofNat h.sampleRate.val = 0 ↔ h.sampleRate.val = 0 := by
    have hrate := h.sampleRate.isLt
    rw [← UInt32.toNat_inj]
    simp
    omega
  by_cases hrate : h.sampleRate.val = 0
  · simp [hrate, Checked.require, Checked.returns_bind]
  · have htrue : (UInt32.ofNat h.sampleRate.val != 0) = true := by simpa [hzero] using hrate
    rw [htrue, returns_require_true.bind_iff, returns_pcmFormat, if_neg hrate]

-- ---------------------------------------------------------------------------
-- Chunks before the format
-- ---------------------------------------------------------------------------

theorem length_id (c : Other sought) : c.id.toList.length = 4 := by simp

section

variable {size : Nat → Bytes} {sizeOf : Bytes → Nat} (hlen : head.length ≤ 4096)
  (hsize : ∀ n < 2 ^ 32, (size n).length = 4 ∧ sizeOf (size n) = n)
include hlen hsize

theorem Other.passesOver {c : Other sought} (hh : HasMagic head offset (c.chunk size)) :
    PassesOver 8 sizeOf head (ascii sought) offset (offset + (c.chunk size).length) := by
  have hwhole := hh.1
  have hbody : c.body.length < 2 ^ 32 := by
    simp only [Other.chunk, List.length_append] at hwhole
    omega
  obtain ⟨hfour, hvalue⟩ := hsize c.body.length hbody
  have hchunk : (c.chunk size).length = 8 + c.body.length + c.body.length % 2 := by
    simp [Other.chunk, hfour]
    omega
  simp only [Other.chunk, hasMagic_append, length_id] at hh
  obtain ⟨⟨⟨hid, hsizeField⟩, -⟩, -⟩ := hh
  have hidBytes : bytesAt head offset 4 = c.id.toList := by
    have heq := hid.2
    rwa [length_id] at heq
  have hsizeBytes : bytesAt head (offset + 4) 4 = size c.body.length := by
    have heq := hsizeField.2
    rwa [hfour] at heq
  refine ⟨by omega, by rw [hidBytes]; exact c.differs, ?_, by omega⟩
  simp only [chunkLen, hsizeBytes, hvalue, hchunk]

theorem passesOver_chunks {before : List (Other sought)}
    (hh : HasMagic head offset (before.flatMap (Other.chunk size))) :
    ReflTransGen (PassesOver 8 sizeOf head (ascii sought)) offset
      (offset + (before.flatMap (Other.chunk size)).length) := by
  induction before generalizing offset with
  | nil => exact .refl
  | cons c before ih =>
    rw [List.flatMap_cons, hasMagic_append] at hh
    rw [List.flatMap_cons, List.length_append, ← Nat.add_assoc]
    exact .head (c.passesOver hlen hsize hh.1) (ih hh.2)

/-- A search finds the chunk after those that are passed over. -/
theorem returns_findChunk_of_chunks {sizeAt : Bytes → Nat → Checked Nat}
    (hread : ReadsSize 8 sizeAt sizeOf head) {before : List (Other sought)}
    (hfour : (ascii sought).length = 4)
    (hh : HasMagic head offset (before.flatMap (Other.chunk size)))
    (hid : HasMagic head (offset + (before.flatMap (Other.chunk size)).length) (ascii sought))
    (hheader : offset + (before.flatMap (Other.chunk size)).length + 8 ≤ head.length) :
    Returns (findChunk 8 sizeAt head offset (ascii sought))
      (some (offset + (before.flatMap (Other.chunk size)).length)) :=
  (returns_findChunk hlen (Nat.le_refl 8) hread).mpr
    ⟨passesOver_chunks hlen hsize hh, hheader, hfour ▸ hid.2⟩

end

theorem returns_parseWav (h : WavHeader) (hlen : head.length ≤ 4096)
    (hh : HasMagic head 0 h.bytes) : Returns (parseWav head) r ↔
      r = if h.formatTag = 1 ∨ h.formatTag = 0xFFFE then
        pcmOf h.bitsPerSample.toUInt8 h.sampleRate h.channels.toUInt32 else none := by
  simp only [WavHeader.bytes, hasMagic_append] at hh
  obtain ⟨⟨⟨⟨⟨⟨⟨⟨⟨⟨⟨hriff, -⟩, hwave⟩, hbefore⟩, hfmt⟩, -⟩, htag⟩, hchannels⟩, hrate⟩, -⟩, -⟩,
    hbits⟩ := hh
  have hids : (ascii "RIFF").length = 4 ∧ (ascii "WAVE").length = 4 ∧ (ascii "fmt ").length = 4 := by
    simp
  have hsizes (n : Nat) (hn : n < 2 ^ 32) :
      (leBytes 4 n).length = 4 ∧ leValue (leBytes 4 n) = n := ⟨by simp, leValue_leBytes hn⟩
  simp only [List.length_append, hids, length_le16, length_le32]
    at hwave hbefore hfmt htag hchannels hrate hbits
  have hfind := returns_findChunk_of_chunks hlen hsizes (readsSize_riff hlen) hids.2.2
    (hbefore.at (o := 12) (by omega))
  generalize (h.before.flatMap (Other.chunk (leBytes 4))).length = n at *
  have hwhole : 12 + n + 24 ≤ head.length := by
    have hle := hbits.1
    rw [length_le16] at hle
    omega
  have hfind := hfind (hfmt.at (by omega)) (by omega)
  have hplus (m k : Nat) (hk : m + k ≤ 12 + n + 24) : Returns (plus m k) (some (m + k)) :=
    returns_plus_of_le hlen (by omega)
  rw [parseWav, (hriff.returns_checkMagic hlen).bind_iff, returns_require_true.bind_iff,
    ((hwave.at (by omega)).returns_checkMagic hlen).bind_iff, returns_require_true.bind_iff,
    findRiffChunk, hfind.bind_iff, (hplus (12 + n) 8 (by omega)).bind_iff,
    ((htag.at (o := 12 + n + 8) (by omega)).returns_u16Le hlen).bind_iff,
    (hplus _ 2 (by omega)).bind_iff,
    ((hchannels.at (o := 12 + n + 8 + 2) (by omega)).returns_u16Le hlen).bind_iff,
    (hplus _ 4 (by omega)).bind_iff,
    ((hrate.at (o := 12 + n + 8 + 4) (by omega)).returns_u32Le hlen).bind_iff,
    (hplus _ 14 (by omega)).bind_iff,
    ((hbits.at (o := 12 + n + 8 + 14) (by omega)).returns_u16Le hlen).bind_iff]
  by_cases hformat : h.formatTag = 1 ∨ h.formatTag = 0xFFFE
  · have htrue : (h.formatTag == 1 || h.formatTag == 0xFFFE) = true := by simpa using hformat
    rw [htrue, returns_require_true.bind_iff, if_pos hformat, returns_pcmFormat]
  · have hfalse : (h.formatTag == 1 || h.formatTag == 0xFFFE) = false := by simpa using hformat
    rw [hfalse, if_neg hformat]
    simp [Checked.require, Checked.returns_bind]

theorem returns_parseAiff (h : AiffHeader) (hlen : head.length ≤ 4096)
    (hh : HasMagic head 0 h.bytes) : Returns (parseAiff head) r ↔
      r = if h.sampleRate.negative = true ∨ h.sampleRate.exponent = 0x7FFF then none
        else (shiftedHz h.sampleRate.exponent h.sampleRate.mantissa).bind fun hz =>
          pcmOf h.sampleSize.toUInt8 hz h.channels.toUInt32 := by
  simp only [AiffHeader.bytes, hasMagic_append] at hh
  obtain ⟨⟨⟨⟨⟨⟨⟨⟨⟨hform, -⟩, htype⟩, hbefore⟩, hcomm⟩, -⟩, hchannels⟩, -⟩, hbits⟩, hrate⟩ := hh
  have hids : (ascii "FORM").length = 4 ∧ (ascii "COMM").length = 4 ∧
      (ascii (if h.compressed then "AIFC" else "AIFF")).length = 4 := by
    cases h.compressed <;> simp
  have hsizes (n : Nat) (hn : n < 2 ^ 32) :
      (beBytes 4 n).length = 4 ∧ beValue (beBytes 4 n) = n := ⟨by simp, beValue_beBytes hn⟩
  simp only [List.length_append, hids, length_be16, length_be32]
    at htype hbefore hcomm hchannels hbits hrate
  have hfind := returns_findChunk_of_chunks hlen hsizes (readsSize_aiff hlen) hids.2.1
    (hbefore.at (o := 12) (by omega))
  generalize (h.before.flatMap (Other.chunk (beBytes 4))).length = n at *
  have hwhole : 12 + n + 26 ≤ head.length := by
    have hle := hrate.1
    rw [Vector.length_toList] at hle
    omega
  have hfind := hfind (hcomm.at (by omega)) (by omega)
  have hplus (m k : Nat) (hk : m + k ≤ 12 + n + 26) : Returns (plus m k) (some (m + k)) :=
    returns_plus_of_le hlen (by omega)
  have htypeRange := (htype.at (o := 8) (by omega)).returns_getRange (j := 12) (by omega)
  have htypeTrue : (ascii (if h.compressed then "AIFC" else "AIFF") == ascii "AIFF" ||
      ascii (if h.compressed then "AIFC" else "AIFF") == ascii "AIFC") = true := by
    cases h.compressed <;> decide +kernel
  have hextRange := (hrate.at (o := 12 + n + 8 + 8) (by omega)).returns_getRange
    (j := 12 + n + 8 + 18) (by rw [Vector.length_toList])
  have hcopy : Returns (copyFromSlice 10 h.sampleRate.toList) (some h.sampleRate.toList) := by
    simp [copyFromSlice]
  rw [parseAiff, (hform.returns_checkMagic hlen).bind_iff, returns_require_true.bind_iff,
    htypeRange.bind_iff, htypeTrue, returns_require_true.bind_iff, findAiffChunk, hfind.bind_iff,
    (hplus (12 + n) 8 (by omega)).bind_iff,
    ((hchannels.at (o := 12 + n + 8) (by omega)).returns_u16Be hlen).bind_iff,
    (hplus _ 6 (by omega)).bind_iff,
    ((hbits.at (o := 12 + n + 8 + 6) (by omega)).returns_u16Be hlen).bind_iff,
    (hplus _ 8 (by omega)).bind_iff, (hplus _ 18 (by omega)).bind_iff, hextRange.bind_iff,
    hcopy.bind_iff]
  have hrateValue := returns_ieee754ExtendedToU32.mpr
    (Eq.refl (if h.sampleRate.negative = true ∨ h.sampleRate.exponent = 0x7FFF then none
        else shiftedHz h.sampleRate.exponent h.sampleRate.mantissa))
  split at hrateValue
  next hno => rw [hrateValue.bind_none_iff, if_pos hno]
  next hyes =>
    rw [if_neg hyes]
    cases hhz : shiftedHz h.sampleRate.exponent h.sampleRate.mantissa with
    | none =>
      rw [hhz] at hrateValue
      rw [hrateValue.bind_none_iff]
      rfl
    | some hz =>
      rw [hhz] at hrateValue
      rw [hrateValue.bind_iff, returns_pcmFormat]
      rfl
-- ---------------------------------------------------------------------------
-- Atoms before the sample entry
-- ---------------------------------------------------------------------------

theorem returns_atomAt {size : Nat} {id : Bytes} (hlen : head.length ≤ 4096) (hsize : size < 2 ^ 32)
    (hid : id.length = 4) (hsizeField : HasMagic head c (beBytes 4 size))
    (hidField : HasMagic head (c + 4) id) : Returns (atomAt head c) (some (size, id)) := by
  have hle := hidField.1
  rw [hid] at hle
  have hword : Returns (u32Be head c) (some (UInt32.ofNat size)) := by
    rw [u32Be, (hsizeField.returns_arrayAt hlen (length_beBytes 4 _)).bind_iff,
      beValue_beBytes hsize]
    simp
  have hty := hidField.returns_getRange (j := c + 8) (by omega)
  rw [atomAt, hword.bind_iff, (returns_plus_of_le hlen (by omega)).bind_iff,
    (returns_plus_of_le hlen (by omega)).bind_iff, hty.bind_iff,
    ((returns_firstBytes (Nat.le_of_eq hid.symm)).mpr rfl).bind_iff,
    List.take_of_length_le (Nat.le_of_eq hid), UInt32.toNat_ofNat_of_lt' hsize]
  simp

theorem returns_findAtomStep {id : Bytes} (sought : String) (hlen : head.length ≤ 4096)
    (hsize : size < 2 ^ 32) (hheader : 8 ≤ size) (hid : id.length = 4) (hh : HasMagic head c (beBytes 4 size ++ id)) :
    Returns (findAtomStep head (ascii sought) c)
      (some (if id = ascii sought then .inr c else .inl (c + size))) := by
  have hle := hh.1
  rw [List.length_append, length_beBytes, hid] at hle
  have hcounted : (!decide (size < 8)) = true := by simpa using hheader
  obtain ⟨hsizeField, hidField⟩ := hasMagic_append.mp hh
  rw [length_beBytes] at hidField
  rw [findAtomStep, (returns_plus_of_le hlen (by omega)).bind_iff, if_pos (by omega),
    (returns_atomAt hlen hsize hid hsizeField hidField).bind_iff]
  dsimp only
  rw [hcounted, returns_require_true.bind_iff]
  split
  · simp
  · have hadd : Returns (Checked.checkedAdd (2 ^ 64) c size) (some (c + size)) := by
      rw [Checked.returns_checkedAdd, if_pos (by omega)]
    rw [hadd.bind_iff]
    simp

theorem Other.length_atom (a : Other sought) : a.atom.length = 8 + a.body.length := by
  simp [Other.atom]
  omega

/-- A search passes over the atoms before the one that is sought. -/
theorem returns_findAtomWithin_atoms {before : List (Other sought)} (hlen : head.length ≤ 4096)
    (hh : HasMagic head o (before.flatMap Other.atom))
    (hr : Returns (findAtomWithin head (o + (before.flatMap Other.atom).length) (ascii sought)) r) :
    Returns (findAtomWithin head o (ascii sought)) r := by
  induction before generalizing o with
  | nil => exact hr
  | cons a before ih =>
    rw [List.flatMap_cons, hasMagic_append] at hh
    obtain ⟨ha, hrest⟩ := hh
    rw [List.flatMap_cons, List.length_append, ← Nat.add_assoc] at hr
    have hnext := ih hrest hr
    have hle := ha.1
    rw [a.length_atom] at hle
    rw [a.length_atom] at hnext
    have hstep := returns_findAtomStep sought hlen
      (show 8 + a.body.length < 2 ^ 32 by omega) (by omega) (length_id a) (hasMagic_append.mp ha).1
    rw [if_neg a.differs] at hstep
    exact Checked.returns_loop.mpr (.inr (.inr ⟨_, hstep, hnext⟩))

/-- A search for an atom ends at it, and what follows begins behind its header. -/
theorem Descent.bind_iff {id : String} (d : Descent id) {f : Nat → Checked α}
    (hlen : head.length ≤ 4096) (hid : (ascii id).length = 4) (hh : HasMagic head o d.bytes) :
    Returns (findAtomWithin head o (ascii id) >>= fun c => plus c 8 >>= f) r ↔
      Returns (f (o + d.bytes.length)) r := by
  have hle := hh.1
  have hbytes : d.bytes.length = (d.before.flatMap Other.atom).length + 8 := by
    rw [Descent.bytes, List.length_append, List.length_append, hid, length_be32]
  rw [Descent.bytes, List.append_assoc, hasMagic_append] at hh
  have hstep := returns_findAtomStep id hlen d.size.toNat_lt d.counted hid hh.2
  rw [if_pos rfl] at hstep
  have hfind := returns_findAtomWithin_atoms hlen hh.1
    (Checked.returns_loop.mpr (.inr (.inl ⟨_, hstep, rfl⟩)))
  rw [hfind.bind_iff, (returns_plus_of_le hlen (by omega)).bind_iff, hbytes, Nat.add_assoc]

theorem returns_walkToStsdEntry (h : AlacHeader) (hlen : head.length ≤ 4096)
    (hh : HasMagic head 0 h.bytes) : ∃ start ≤ head.length, HasMagic head start h.entry ∧
      Returns (walkToStsdEntry head) (some (ascii "alac", head.drop start)) := by
  simp only [AlacHeader.bytes, hasMagic_append] at hh
  obtain ⟨⟨⟨⟨⟨⟨⟨⟨⟨⟨⟨⟨⟨hsize, hftyp⟩, hbrands⟩, hmoov⟩, htrak⟩, hmdia⟩, hminf⟩, hstbl⟩, hstsd⟩, -⟩, -⟩,
    hentrySize⟩, hname⟩, hentry⟩ := hh
  have hids : (ascii "ftyp").length = 4 ∧ (ascii "moov").length = 4 ∧ (ascii "trak").length = 4 ∧
      (ascii "mdia").length = 4 ∧ (ascii "minf").length = 4 ∧ (ascii "stbl").length = 4 ∧
      (ascii "stsd").length = 4 ∧ (ascii "alac").length = 4 := by simp
  simp only [List.length_append, hids, length_be32, length_beBytes]
    at hftyp hbrands hmoov htrak hmdia hminf hstbl hstsd hentrySize hname hentry
  have hwhole := hentry.1
  have hplus (m k : Nat) (hk : m + k ≤ head.length) : Returns (plus m k) (some (m + k)) :=
    returns_plus_of_le hlen hk
  have hftypAtom : Returns (stepIntoAtom head 0 (ascii "ftyp")).option
      (some (some (8 + h.brands.length))) := by
    have hatom := returns_atomAt hlen (show 8 + h.brands.length < 2 ^ 32 by omega) hids.1 hsize hftyp
    have hadd : Returns (Checked.checkedAdd (2 ^ 64) 0 (8 + h.brands.length))
        (some (8 + h.brands.length)) := by
      rw [Checked.returns_checkedAdd, if_pos (by omega), Nat.zero_add]
    rw [Checked.returns_option_some, stepIntoAtom, hatom.bind_iff]
    dsimp only
    rw [beq_self_eq_true, returns_require_true.bind_iff]
    exact hadd
  obtain ⟨m, hm⟩ : ∃ m, m = 8 + h.brands.length + h.moov.bytes.length + h.trak.bytes.length +
    h.mdia.bytes.length + h.minf.bytes.length + h.stbl.bytes.length + h.stsd.bytes.length := ⟨_, rfl⟩
  refine ⟨m + 8 + 8, by omega, hentry.at (by omega), ?_⟩
  rw [walkToStsdEntry, hftypAtom.bind_iff]
  dsimp only [Option.getD_some]
  rw [h.moov.bind_iff hlen hids.2.1 (hmoov.at (by omega)),
    h.trak.bind_iff hlen hids.2.2.1 (htrak.at (by omega)),
    h.mdia.bind_iff hlen hids.2.2.2.1 (hmdia.at (by omega)),
    h.minf.bind_iff hlen hids.2.2.2.2.1 (hminf.at (by omega)),
    h.stbl.bind_iff hlen hids.2.2.2.2.2.1 (hstbl.at (by omega)),
    h.stsd.bind_iff hlen hids.2.2.2.2.2.2.1 (hstsd.at (by omega)), ← hm]
  have hatom := returns_atomAt hlen h.entrySize.toNat_lt hids.2.2.2.2.2.2.2
    (hentrySize.at (o := m + 8) (by omega)) (hname.at (by omega))
  have hinside : decide (m + 8 + 8 ≤ head.length) = true := decide_eq_true (by omega)
  rw [(hplus m 8 (by omega)).bind_iff, (hplus (m + 8) 8 (by omega)).bind_iff, hinside,
    returns_require_true.bind_iff, hatom.bind_iff]
  dsimp only
  have hbody : Returns (Checked.getRange head (m + 8 + 8) head.length)
      (some (head.drop (m + 8 + 8))) := by
    rw [Checked.returns_getRange, if_pos ⟨by omega, Nat.le_refl _⟩,
      List.take_of_length_le (by rw [List.length_drop])]
  rw [(hplus (m + 8) 8 (by omega)).bind_iff, hbody.bind_iff]
  simp

theorem append_be16 (hi lo : UInt16) :
    be16 hi ++ be16 lo = be32 (lo.toUInt32 + 0x10000 * hi.toUInt32) := by
  have hle := congrArg List.reverse (append_le16 lo hi)
  rwa [List.reverse_append] at hle

theorem returns_parseM4a (h : AlacHeader) (hlen : head.length ≤ 4096)
    (hh : HasMagic head 0 h.bytes) : Returns (parseM4a head) r ↔
      r = pcmOf h.sampleSize.toUInt8 h.sampleRate.toUInt32 h.channelCount.toUInt32 := by
  obtain ⟨start, hstart, hentry, hwalk⟩ := returns_walkToStsdEntry h hlen hh
  have hdrop : (head.drop start).length ≤ 4096 := by
    rw [List.length_drop]
    omega
  have hentry : HasMagic (head.drop start) 0 h.entry := (hasMagic_drop hstart).mpr hentry
  simp only [AlacHeader.entry, hasMagic_append, Vector.length_toList, List.length_append,
    length_be16] at hentry
  obtain ⟨⟨⟨⟨⟨⟨-, hchannels⟩, hsize⟩, -⟩, -⟩, hrate⟩, hfraction⟩ := hentry
  have hword : Returns (u32Be (head.drop start) 24)
      (some (h.sampleRateFraction.toUInt32 + 0x10000 * h.sampleRate.toUInt32)) := by
    have hboth := hasMagic_append.mpr ⟨hrate.at (o := 24) (by omega), hfraction.at (by simp)⟩
    rw [append_be16] at hboth
    exact hboth.returns_u32Be hdrop
  have hrateWord : ((h.sampleRateFraction.toUInt32 + 0x10000 * h.sampleRate.toUInt32) >>> 16) &&&
      0xFFFF = h.sampleRate.toUInt32 := by
    have hrateLt := h.sampleRate.toNat_lt
    have hfractionLt := h.sampleRateFraction.toNat_lt
    have hupper : (h.sampleRateFraction.toNat + 65536 * h.sampleRate.toNat) / 2 ^ 16 =
        h.sampleRate.toNat := by omega
    rw [← UInt32.toNat_inj, UInt32.toNat_and, UInt32.toNat_shiftRight, toNat_joined,
      UInt16.toNat_toUInt32]
    change (h.sampleRateFraction.toNat + 65536 * h.sampleRate.toNat) >>> 16 &&& 2 ^ 16 - 1 = _
    rw [Nat.shiftRight_eq_div_pow, hupper, Nat.and_two_pow_sub_one_eq_mod, Nat.mod_eq_of_lt hrateLt]
  have hrateRead : Returns (m4aEntrySampleRate (head.drop start)) (some h.sampleRate.toUInt32) := by
    rw [m4aEntrySampleRate, hword.bind_iff, hrateWord]
    simp
  have hchannelsRead : Returns (m4aEntryChannels (head.drop start))
      (some h.channelCount.toUInt32) := by
    rw [m4aEntryChannels, ((hchannels.at (o := 8 + 8) (by omega)).returns_u16Be hdrop).bind_iff]
    simp
  have hsizeRead : Returns (m4aEntrySamplesize (head.drop start)) (some h.sampleSize.toUInt8) := by
    rw [m4aEntrySamplesize, ((hsize.at (o := 8 + 8 + 2) (by omega)).returns_u16Be hdrop).bind_iff]
    simp
  rw [parseM4a, hwalk.bind_iff]
  dsimp only
  rw [hrateRead.bind_iff, hchannelsRead.bind_iff, hsizeRead.bind_iff, if_pos (.inl rfl),
    returns_pcmFormat]
end EvoAudio.SourceProbe
