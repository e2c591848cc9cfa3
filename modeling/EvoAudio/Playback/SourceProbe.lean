import EvoAudio.Lib.Checked
import EvoAudio.Topology.Formats
import Mathlib.Algebra.Group.Nat.Defs

/-!
# The source-format probe

`playback.mpd/src/source_probe.rs` reads the format of a music file off its head. Its
parsers take offsets and sizes from the file, so each addition of a `usize` and each
index is one that can fail here. A `usize` has 64 bits.
-/

namespace EvoAudio.SourceProbe

open Checked (ofOption index require checkedAdd)
open EvoAudio.Topology (AudioFormat DsdRate EncodedBitrate PcmCodec)

abbrev Bytes := List UInt8

/-- The bytes of a literal `b"..."`. -/
def ascii (s : String) : Bytes := s.toList.map fun c => UInt8.ofNat c.toNat

/-- `+` on `usize`. -/
def plus (a b : Nat) : Checked Nat := .add (2 ^ 64) a b

-- ---------------------------------------------------------------------------
-- Byte-reading helpers
-- ---------------------------------------------------------------------------

/-- `b.get(offset..offset + n)?` -/
def slice (b : Bytes) (offset n : Nat) : Checked Bytes := do
  let stop ← plus offset n
  .getRange b offset stop

/-- `[s[0], .., s[n - 1]]` -/
def firstBytes (s : Bytes) : Nat → Checked Bytes
  | 0 => return []
  | n + 1 => do
    let before ← firstBytes s n
    let last ← index s n
    return before ++ [last]

def leValue (bytes : Bytes) : Nat := bytes.foldr (fun b value => b.toNat + 256 * value) 0

def beValue (bytes : Bytes) : Nat := leValue bytes.reverse

/-- A slice of `n` bytes, and the bytes that are read of it. -/
def arrayAt (b : Bytes) (offset n : Nat) : Checked Bytes := do
  let s ← slice b offset n
  firstBytes s n

def u32Le (b : Bytes) (offset : Nat) : Checked UInt32 := do
  return UInt32.ofNat (leValue (← arrayAt b offset 4))

def u32Be (b : Bytes) (offset : Nat) : Checked UInt32 := do
  return UInt32.ofNat (beValue (← arrayAt b offset 4))

def u64Le (b : Bytes) (offset : Nat) : Checked UInt64 := do
  return UInt64.ofNat (leValue (← arrayAt b offset 8))

def u64BeAt (b : Bytes) (offset : Nat) : Checked UInt64 := do
  return UInt64.ofNat (beValue (← arrayAt b offset 8))

def u16Le (b : Bytes) (offset : Nat) : Checked UInt16 := do
  return UInt16.ofNat (leValue (← arrayAt b offset 2))

def u16Be (b : Bytes) (offset : Nat) : Checked UInt16 := do
  return UInt16.ofNat (beValue (← arrayAt b offset 2))

def checkMagic (head : Bytes) (offset : Nat) (magic : Bytes) : Checked Bool := do
  let s ← (slice head offset magic.length).option
  return s == some magic

def dsdRateFromHz (hz : UInt32) : Option DsdRate :=
  if hz = 2822400 then some .dsd64
  else if hz = 5644800 then some .dsd128
  else if hz = 11289600 then some .dsd256
  else if hz = 22579200 then some .dsd512
  else none

def clampChannels (n : UInt32) : Option UInt8 :=
  if n = 0 ∨ n > 32 then none else some n.toUInt8

def pcmCodecFromBits (bits : UInt8) : Option PcmCodec :=
  if bits = 16 then some .pcmS16Le
  else if bits = 24 then some .pcmS24Le
  else if bits = 32 then some .pcmS32Le
  else none

/-- `AudioFormat::Pcm`, whose codec and channels the head has to give. -/
def pcmFormat (bits : UInt8) (rateHz : UInt32) (channels : UInt32) : Checked AudioFormat := do
  let codec ← ofOption (pcmCodecFromBits bits)
  let channels ← ofOption (clampChannels channels)
  return .pcm codec rateHz channels

/-- `AudioFormat::EncodedPassthrough`, whose channels the head has to give. -/
def encodedFormat (codec : String) (rateHz : UInt32) (channels : UInt32)
    (bitrateKbps : Option EncodedBitrate) : Checked AudioFormat := do
  let channels ← ofOption (clampChannels channels)
  return .encodedPassthrough codec.toList rateHz channels bitrateKbps

-- ---------------------------------------------------------------------------
-- Chunks of IFF containers
-- ---------------------------------------------------------------------------

/-- How far a chunk walker advances: a chunk is padded to an even size. -/
def chunkAdvance (headerLen chunkSize : Nat) : Checked Nat := do
  let advance ← plus headerLen chunkSize
  plus advance (chunkSize % 2)

/-- One turn of the loop of the three chunk searches. -/
def findChunkStep (headerLen : Nat) (sizeAt : Bytes → Nat → Checked Nat) (head id : Bytes)
    (cursor : Nat) : Checked (Nat ⊕ Nat) := do
  let header ← plus cursor headerLen
  if header ≤ head.length then
    let chunkId ← slice head cursor 4
    let sizeOffset ← plus cursor 4
    let chunkSize ← sizeAt head sizeOffset
    if chunkId = id then
      return .inr cursor
    else
      let advance ← chunkAdvance headerLen chunkSize
      let cursor ← checkedAdd (2 ^ 64) cursor advance
      return .inl cursor
  else
    .absent

def findChunk (headerLen : Nat) (sizeAt : Bytes → Nat → Checked Nat) (head : Bytes) (start : Nat)
    (id : Bytes) : Checked Nat :=
  .loop (findChunkStep headerLen sizeAt head id) start

def findRiffChunk : Bytes → Nat → Bytes → Checked Nat :=
  findChunk 8 fun head offset => return (← u32Le head offset).toNat

def findAiffChunk : Bytes → Nat → Bytes → Checked Nat :=
  findChunk 8 fun head offset => return (← u32Be head offset).toNat

def findDffSubchunk : Bytes → Nat → Bytes → Checked Nat :=
  findChunk 12 fun head offset => return (← u64BeAt head offset).toNat

-- ---------------------------------------------------------------------------
-- DSD
-- ---------------------------------------------------------------------------

def parseDsf (head : Bytes) : Checked AudioFormat := do
  require (← checkMagic head 0 (ascii "DSD "))
  require (← checkMagic head 0x1C (ascii "fmt "))
  let channels ← u32Le head 0x34
  let sampleRate ← u32Le head 0x38
  let rate ← ofOption (dsdRateFromHz sampleRate)
  let channels ← ofOption (clampChannels channels)
  return .dsd rate .nativeUsb channels

/-- What `parse_dff` has found within the `PROP` chunk. -/
structure DffProps where
  cursor : Nat
  rateHz : Option UInt32
  channels : Option UInt32
  deriving DecidableEq, Repr

/-- What a chunk of the `PROP` chunk says about the format. -/
def readDffChunk (head id : Bytes) (body : Nat) (props : DffProps) : Checked DffProps :=
  if id = ascii "FS  " then do
    let rateHz ← (u32Be head body).option
    return { props with rateHz }
  else if id = ascii "CHNL" then do
    let n ← u16Be head body
    return { props with channels := some n.toUInt32 }
  else
    return props

def dffStep (head : Bytes) (props : DffProps) : Checked (DffProps ⊕ DffProps) := do
  let header ← plus props.cursor 12
  if header ≤ head.length then
    let id ← slice head props.cursor 4
    let sizeOffset ← plus props.cursor 4
    let chunkSize ← u64BeAt head sizeOffset
    let body ← plus props.cursor 12
    let props ← readDffChunk head id body props
    let advance ← chunkAdvance 12 chunkSize.toNat
    let cursor ← checkedAdd (2 ^ 64) props.cursor advance
    let props := { props with cursor }
    if props.rateHz.isSome ∧ props.channels.isSome then
      return .inr props
    else
      return .inl props
  else
    return .inr props

def parseDff (head : Bytes) : Checked AudioFormat := do
  require (← checkMagic head 0 (ascii "FRM8"))
  require (← checkMagic head 0x0C (ascii "DSD "))
  let propOffset ← findDffSubchunk head 0x10 (ascii "PROP")
  let propBodyOffset ← plus propOffset 12
  require (← checkMagic head propBodyOffset (ascii "SND "))
  let cursor ← plus propBodyOffset 4
  let props ← .loop (dffStep head) ⟨cursor, none, none⟩
  let rateHz ← ofOption props.rateHz
  let channels ← ofOption props.channels
  let rate ← ofOption (dsdRateFromHz rateHz)
  let channels ← ofOption (clampChannels channels)
  return .dsd rate .nativeUsb channels

-- ---------------------------------------------------------------------------
-- FLAC, WAV and AIFF
-- ---------------------------------------------------------------------------

def parseFlac (head : Bytes) : Checked AudioFormat := do
  require (← checkMagic head 0 (ascii "fLaC"))
  let flags ← ofOption head[4]?
  require (flags &&& 0x7F == 0)
  let packed ← arrayAt head 18 8
  let bits := UInt64.ofNat (beValue packed)
  let sampleRate := ((bits >>> 44) &&& 0xFFFFF).toUInt32
  let channels := ((bits >>> 41) &&& 0x7).toUInt8 + 1
  let bitsPerSample := ((bits >>> 36) &&& 0x1F).toUInt8 + 1
  require (sampleRate != 0)
  pcmFormat bitsPerSample sampleRate channels.toUInt32

def parseWav (head : Bytes) : Checked AudioFormat := do
  require (← checkMagic head 0 (ascii "RIFF"))
  require (← checkMagic head 8 (ascii "WAVE"))
  let fmtOffset ← findRiffChunk head 12 (ascii "fmt ")
  let body ← plus fmtOffset 8
  let formatTag ← u16Le head body
  let channels ← u16Le head (← plus body 2)
  let sampleRate ← u32Le head (← plus body 4)
  let bits ← u16Le head (← plus body 14)
  require (formatTag == 1 || formatTag == 0xFFFE)
  pcmFormat bits.toUInt8 sampleRate channels.toUInt32

/-- The Hz of an 80-bit number, with the point after the first bit of its mantissa. -/
def extendedHz (sign : UInt8) (exponent : UInt32) (mantissa : UInt64) : Option UInt32 :=
  let shift : Int := exponent.toNat - (16383 + 63)
  if sign ≠ 0 ∨ exponent = 0x7FFF then none
  else if exponent = 0 ∧ mantissa = 0 then none
  else if 0 < shift then
    if 64 ≤ shift then none
    else
      let v := mantissa <<< UInt64.ofNat shift.toNat
      if v > 0xFFFFFFFF then none else some v.toUInt32
  else if shift = 0 then some mantissa.toUInt32
  else if 64 ≤ -shift then none
  else some (mantissa >>> UInt64.ofNat (-shift).toNat).toUInt32

def ieee754ExtendedToU32 (bytes : Bytes) : Checked UInt32 := do
  let b0 ← index bytes 0
  let b1 ← index bytes 1
  let sign := (b0 &&& 0x80) >>> 7
  let exponent := ((b0 &&& 0x7F).toUInt32 <<< 8) ||| b1.toUInt32
  let mantissa := UInt64.ofNat (beValue (← firstBytes (bytes.drop 2) 8))
  ofOption (extendedHz sign exponent mantissa)

/-- `copy_from_slice` into an array of `n` bytes. -/
def copyFromSlice (n : Nat) (s : Bytes) : Checked Bytes := if s.length = n then return s else .fault

def parseAiff (head : Bytes) : Checked AudioFormat := do
  require (← checkMagic head 0 (ascii "FORM"))
  let formType ← .getRange head 8 12
  require (formType == ascii "AIFF" || formType == ascii "AIFC")
  let commOffset ← findAiffChunk head 12 (ascii "COMM")
  let body ← plus commOffset 8
  let channels ← u16Be head body
  let bits ← u16Be head (← plus body 6)
  let extBytes ← .getRange head (← plus body 8) (← plus body 18)
  let ext ← copyFromSlice 10 extBytes
  let sampleRate ← ieee754ExtendedToU32 ext
  pcmFormat bits.toUInt8 sampleRate channels.toUInt32

-- ---------------------------------------------------------------------------
-- M4A and AAC
-- ---------------------------------------------------------------------------

/-- The loop of `mpeg_descriptor_length` and of `mpc_varint`, which puts seven bits of
each byte to the value: of the bytes from an offset on, at most `limit`. -/
def septetsStep {ν : Type} (limit : Nat) (push : ν → UInt8 → ν) (bytes : Bytes) (offset : Nat) :
    ν × Nat → Checked (ν × Nat ⊕ ν × Nat)
  | (value, consumed) =>
    if consumed < limit then do
      let b ← ofOption bytes[← plus offset consumed]?
      let value := push value (b &&& 0x7F)
      let consumed ← plus consumed 1
      if b &&& 0x80 = 0 then
        return .inr (value, consumed)
      else
        return .inl (value, consumed)
    else
      .absent

def mpegDescriptorLength (bytes : Bytes) (offset : Nat) : Checked (UInt32 × Nat) :=
  .loop (septetsStep 4 (fun len b => (len <<< 7) ||| b.toUInt32) bytes offset) (0, 0)

def atomAt (head : Bytes) (cursor : Nat) : Checked (Nat × Bytes) := do
  let size ← u32Be head cursor
  let ty ← .getRange head (← plus cursor 4) (← plus cursor 8)
  return (size.toNat, ← firstBytes ty 4)

def stepIntoAtom (head : Bytes) (cursor : Nat) (expected : Bytes) : Checked Nat := do
  let (size, ty) ← atomAt head cursor
  require (ty == expected)
  checkedAdd (2 ^ 64) cursor size

def findAtomStep (head id : Bytes) (cursor : Nat) : Checked (Nat ⊕ Nat) := do
  let header ← plus cursor 8
  if header ≤ head.length then
    let (size, ty) ← atomAt head cursor
    require (!decide (size < 8))
    if ty = id then
      return .inr cursor
    else
      let cursor ← checkedAdd (2 ^ 64) cursor size
      return .inl cursor
  else
    .absent

def findAtomWithin (head : Bytes) (start : Nat) (id : Bytes) : Checked Nat :=
  .loop (findAtomStep head id) start

def walkToStsdEntry (head : Bytes) : Checked (Bytes × Bytes) := do
  let cursor := (← (stepIntoAtom head 0 (ascii "ftyp")).option).getD 0
  -- The loop over the atoms after `ftyp` is the one of `find_atom_within`.
  let moovOff ← findAtomWithin head cursor (ascii "moov")
  let insideMoov ← plus moovOff 8
  let trakOff ← findAtomWithin head insideMoov (ascii "trak")
  let insideTrak ← plus trakOff 8
  let mdiaOff ← findAtomWithin head insideTrak (ascii "mdia")
  let insideMdia ← plus mdiaOff 8
  let minfOff ← findAtomWithin head insideMdia (ascii "minf")
  let insideMinf ← plus minfOff 8
  let stblOff ← findAtomWithin head insideMinf (ascii "stbl")
  let insideStbl ← plus stblOff 8
  let stsdOff ← findAtomWithin head insideStbl (ascii "stsd")
  let entriesStart ← plus (← plus stsdOff 8) 8
  require (decide ((← plus entriesStart 8) ≤ head.length))
  let (_, entryType) ← atomAt head entriesStart
  let entryBodyStart ← plus entriesStart 8
  return (entryType, ← .getRange head entryBodyStart head.length)

def m4aEntrySampleRate (entryBody : Bytes) : Checked UInt32 := do
  let raw ← u32Be entryBody (8 + 8 + 2 + 2 + 2 + 2)
  return (raw >>> 16) &&& 0xFFFF

def m4aEntryChannels (entryBody : Bytes) : Checked UInt32 := do
  return (← u16Be entryBody (8 + 8)).toUInt32

def m4aEntrySamplesize (entryBody : Bytes) : Checked UInt8 := do
  return (← u16Be entryBody (8 + 8 + 2)).toUInt8

/-- The place after the optional fields of an ES descriptor. -/
def afterEsFields (entryBody : Bytes) (flags : UInt8) (q : Nat) : Checked Nat := do
  let q ← (if flags &&& 0x80 ≠ 0 then plus q 2 else pure q)
  let q ← (if flags &&& 0x40 ≠ 0 then do
      let urlLen ← ofOption entryBody[q]?
      plus q (← plus 1 urlLen.toNat)
    else pure q)
  if flags &&& 0x20 ≠ 0 then plus q 2 else pure q

def m4aAacAvgBitrate (entryBody : Bytes) : Checked UInt32 := do
  let esdsOff ← findAtomWithin entryBody 28 (ascii "esds")
  let esdsBody ← plus esdsOff 8
  let p ← plus esdsBody 4
  let tag ← ofOption entryBody[p]?
  require (tag == 0x03)
  let (_, esDescLenConsumed) ← mpegDescriptorLength entryBody (← plus p 1)
  let q ← plus (← plus p 1) esDescLenConsumed
  let flags ← ofOption entryBody[← plus q 2]?
  let q ← plus q 3
  let q ← afterEsFields entryBody flags q
  let tag ← ofOption entryBody[q]?
  require (tag == 0x04)
  let (_, dcdLenConsumed) ← mpegDescriptorLength entryBody (← plus q 1)
  let dcdBody ← plus (← plus q 1) dcdLenConsumed
  let avgOff ← plus (← plus (← plus (← plus dcdBody 1) 1) 3) 4
  u32Be entryBody avgOff

def parseM4a (head : Bytes) : Checked AudioFormat := do
  let (entryAtomName, entryBody) ← walkToStsdEntry head
  let rateHz ← m4aEntrySampleRate entryBody
  let channels ← m4aEntryChannels entryBody
  let bits ← m4aEntrySamplesize entryBody
  if entryAtomName = ascii "alac" ∨ entryAtomName = ascii "lpcm" then
    pcmFormat bits rateHz channels
  else if entryAtomName = ascii "mp4a" ∨ entryAtomName = ascii "aac " then
    let bps ← (m4aAacAvgBitrate entryBody).option
    encodedFormat "aac" rateHz channels <| bps.map fun bps =>
      if bps > 0 then .vbr (bps / 1000) else .unknown
  else
    .absent

def aacSr : List UInt32 :=
  [96000, 88200, 64000, 48000, 44100, 32000, 24000, 22050, 16000, 12000, 11025, 8000, 7350, 0, 0, 0]

/-- Whether the head begins with the sync word of an ADTS frame. -/
def beginsWithAdts (head : Bytes) : Checked Bool :=
  if 2 ≤ head.length then do
    if (← index head 0) = 0xFF then
      return (← index head 1) &&& 0xF6 == 0xF0
    else
      return false
  else
    return false

/-- The kbps of a frame of so many bytes at a rate. -/
def adtsBitrate (frameLength rateHz : UInt32) : Checked EncodedBitrate :=
  if frameLength > 0 then do
    let bits ← .checkedMul (2 ^ 64) frameLength.toNat 8
    let scaled ← .checkedMul (2 ^ 64) bits rateHz.toNat
    let perSecond ← .checkedDiv scaled 1024
    let kbps := UInt32.ofNat (← .checkedDiv perSecond 1000)
    return if kbps > 0 then .cbr kbps else .unknown
  else
    return .unknown

def parseAacAdts (head : Bytes) : Checked AudioFormat := do
  let b ← .getRange head 0 6
  let b2 ← index b 2
  let b3 ← index b 3
  let srIndex := (b2 >>> 2) &&& 0x0F
  let channels := ((b2 &&& 0x01) <<< 2) ||| ((b3 >>> 6) &&& 0x03)
  let rateHz ← ofOption aacSr[srIndex.toNat]?
  require (rateHz != 0)
  let b4 ← index b 4
  let b5 ← index b 5
  let frameLength := ((b3.toUInt32 &&& 0x03) <<< 11) ||| (b4.toUInt32 <<< 3) |||
    ((b5.toUInt32 >>> 5) &&& 0x07)
  let bitrate ← adtsBitrate frameLength rateHz
  encodedFormat "aac" rateHz channels.toUInt32 (some bitrate)

def parseAacOrM4a (head : Bytes) : Checked AudioFormat := do
  if (← beginsWithAdts head) then
    parseAacAdts head
  else
    parseM4a head

-- ---------------------------------------------------------------------------
-- APE, WavPack and TTA
-- ---------------------------------------------------------------------------

def parseApe (head : Bytes) : Checked AudioFormat := do
  require (← checkMagic head 0 (ascii "MAC "))
  let version ← u16Le head 4
  require (!decide (version < 3980))
  let descriptorSize ← u32Le head 8
  let headerOff := descriptorSize.toNat
  let bits ← u16Le head (← plus headerOff 12)
  let channels ← u16Le head (← plus headerOff 14)
  let rateHz ← u32Le head (← plus headerOff 16)
  pcmFormat bits.toUInt8 rateHz channels.toUInt32

def wavpackSr : List UInt32 :=
  [6000, 8000, 9600, 11025, 12000, 16000, 22050, 24000, 32000, 44100, 48000, 64000, 88200, 96000,
    192000]

def parseWavpack (head : Bytes) : Checked AudioFormat := do
  require (← checkMagic head 0 (ascii "wvpk"))
  let flags ← u32Le head 0x18
  let bytesPerSample := (flags &&& 0x3) + 1
  let bits := (bytesPerSample * 8).toUInt8
  let mono := (flags >>> 2) &&& 0x1
  let channels : UInt32 := if mono = 1 then 1 else 2
  let srIndex := (flags >>> 23) &&& 0xF
  let rateHz ← ofOption wavpackSr[srIndex.toNat]?
  pcmFormat bits rateHz channels

def parseTta (head : Bytes) : Checked AudioFormat := do
  require (← checkMagic head 0 (ascii "TTA1"))
  let channels ← u16Le head 6
  let bits ← u16Le head 8
  let rateHz ← u32Le head 10
  pcmFormat bits.toUInt8 rateHz channels.toUInt32

-- ---------------------------------------------------------------------------
-- MP3
-- ---------------------------------------------------------------------------

def mpeg1L3 : List UInt32 :=
  [0, 32, 40, 48, 56, 64, 80, 96, 112, 128, 160, 192, 224, 256, 320, 0]

def mpeg2L3 : List UInt32 :=
  [0, 8, 16, 24, 32, 40, 48, 56, 64, 80, 96, 112, 128, 144, 160, 0]

def mp3BitrateKbps (versionBits bitrateIndex : UInt8) : Option UInt32 := do
  let table ←
    if versionBits = 0b11 then some mpeg1L3
    else if versionBits = 0b10 ∨ versionBits = 0b00 then some mpeg2L3
    else none
  let val ← table[bitrateIndex.toNat]?
  if val = 0 then none else some val

def firstFrameBitrate (firstFrameKbps : Option UInt32) : Checked EncodedBitrate :=
  ofOption (firstFrameKbps.map .cbr)

/-- The bitrate that the counters of a Xing or Info tag give, `none` if they do not. -/
def xingBitrate (mpeg1 isInfo : Bool) (firstFrameKbps : Option UInt32) :
    Option UInt32 → Option UInt32 → Checked (Option EncodedBitrate)
  | some frames, some bytes =>
    if frames > 0 then
      if isInfo then
        return some (firstFrameKbps.elim .unknown .cbr)
      else do
        let samplesPerFrame := if mpeg1 then 1152 else 576
        let bytesPerFrame ← .checkedDiv bytes.toNat frames.toNat
        let bits ← .checkedMul (2 ^ 64) bytesPerFrame 8
        let scaled ← .checkedMul (2 ^ 64) bits 44100
        let perSecond ← .checkedDiv scaled samplesPerFrame
        let kbps := UInt32.ofNat (← .checkedDiv perSecond 1000)
        return if kbps > 0 then some (.vbr kbps) else none
    else
      return none
  | _, _ => return none

/-- The frame count of a Xing or Info tag, if it has one, and the place after it. -/
def xingFrames (head : Bytes) (flags : UInt32) (cursor : Nat) : Checked (Option UInt32 × Nat) :=
  if flags &&& 0x1 ≠ 0 then do
    let v ← u32Be head cursor
    return (some v, ← plus cursor 4)
  else
    return (none, cursor)

def xingBytes (head : Bytes) (flags : UInt32) (cursor : Nat) : Checked (Option UInt32) :=
  if flags &&& 0x2 ≠ 0 then do
    return some (← u32Be head cursor)
  else
    return none

def mp3Bitrate (head : Bytes) (frameOffset : Nat) (versionBits modeBits : UInt8)
    (firstFrameKbps : Option UInt32) : Checked EncodedBitrate := do
  let mpeg1 := versionBits == 0b11
  let stereo := modeBits != 0b11
  let xingOffset := if mpeg1 && stereo then 36 else if mpeg1 || stereo then 21 else 13
  let tagOffset ← checkedAdd (2 ^ 64) (← checkedAdd (2 ^ 64) frameOffset 4) xingOffset
  let magic ← (slice head tagOffset 4).option
  let isXing := magic == some (ascii "Xing")
  let isInfo := magic == some (ascii "Info")
  if isXing || isInfo then
    let flags ← u32Be head (← plus tagOffset 4)
    let cursor ← plus tagOffset 8
    let (totalFrames, cursor) ← xingFrames head flags cursor
    let totalBytes ← xingBytes head flags cursor
    match ← xingBitrate mpeg1 isInfo firstFrameKbps totalFrames totalBytes with
    | some bitrate => return bitrate
    | none => firstFrameBitrate firstFrameKbps
  else
    firstFrameBitrate firstFrameKbps

/-- Where the scan for a sync word begins, past an ID3v2 tag. -/
def mp3Skip (head : Bytes) : Checked Nat :=
  if 10 ≤ head.length then do
    if (← .range head 0 3) = ascii "ID3" then
      let s ← .getRange head 6 10
      let size := ((← index s 0).toUInt32 &&& 0x7F) <<< 21 |||
        ((← index s 1).toUInt32 &&& 0x7F) <<< 14 |||
        ((← index s 2).toUInt32 &&& 0x7F) <<< 7 ||| ((← index s 3).toUInt32 &&& 0x7F)
      plus 10 size.toNat
    else
      return 0
  else
    return 0

def mp3Rates (versionBits : UInt8) : Option (List UInt32) :=
  if versionBits = 0b11 then some [44100, 48000, 32000]
  else if versionBits = 0b10 then some [22050, 24000, 16000]
  else if versionBits = 0b00 then some [11025, 12000, 8000]
  else none

/-- The frame header with its sync word at `i`, `none` for the `continue`s of the scan. -/
def mp3FrameAt (head : Bytes) (i : Nat) : Checked (Option AudioFormat) := do
  if (← index head i) ≠ 0xFF then return none else
  let b1 ← index head (← plus i 1)
  if b1 &&& 0xE0 ≠ 0xE0 then return none else
  let versionBits := (b1 >>> 3) &&& 0x3
  let layerBits := (b1 >>> 1) &&& 0x3
  if layerBits ≠ 0b01 then return none else
  let b2 ← index head (← plus i 2)
  let srIndex := (b2 >>> 2) &&& 0x3
  if srIndex = 3 then return none else
  match mp3Rates versionBits with
  | none => return none
  | some rates =>
    let rate ← index rates srIndex.toNat
    let b3 ← index head (← plus i 3)
    let modeBits := (b3 >>> 6) &&& 0x3
    let channels : UInt32 := if modeBits = 0b11 then 1 else 2
    let bitrateIndex := (b2 >>> 4) &&& 0x0F
    let firstFrameKbps := mp3BitrateKbps versionBits bitrateIndex
    let bitrateKbps ← (mp3Bitrate head i versionBits modeBits firstFrameKbps).option
    return some (← encodedFormat "mp3" rate channels bitrateKbps)

def mp3Step (head : Bytes) (i : Nat) : Checked (Nat ⊕ AudioFormat) :=
  if i < head.length - 4 then do
    match ← mp3FrameAt head i with
    | some format => return .inr format
    | none => return .inl (i + 1)
  else
    .absent

def parseMp3 (head : Bytes) : Checked AudioFormat := do
  let skip ← mp3Skip head
  .loop (mp3Step head) skip

-- ---------------------------------------------------------------------------
-- Ogg
-- ---------------------------------------------------------------------------

/-- The loop over the segment table, which breaks at the first short segment. -/
def packetLen : Bytes → Nat → Checked Nat
  | [], len => return len
  | b :: segTable, len => do
    let len ← plus len b.toNat
    if b < 255 then return len else packetLen segTable len

def oggFirstPacket (head : Bytes) : Checked Bytes := do
  require (← checkMagic head 0 (ascii "OggS"))
  let segCount := (← ofOption head[0x1A]?).toNat
  let segTable ← slice head 0x1B segCount
  let packetLen ← packetLen segTable 0
  let bodyStart ← plus 0x1B segCount
  slice head bodyStart packetLen

def parseVorbis (head : Bytes) : Checked AudioFormat := do
  let packet ← oggFirstPacket head
  let packetType ← ofOption packet[0]?
  require (packetType == 0x01)
  require (← checkMagic packet 1 (ascii "vorbis"))
  let channels ← ofOption packet[11]?
  let rateHz ← u32Le packet 12
  let nominal ← u32Le packet 20
  let bitrate := if nominal.toInt32 > 0 then .vbr (nominal / 1000) else .unknown
  encodedFormat "vorbis" rateHz channels.toUInt32 (some bitrate)

def parseOpus (head : Bytes) : Checked AudioFormat := do
  let packet ← oggFirstPacket head
  require (← checkMagic packet 0 (ascii "OpusHead"))
  let channels ← ofOption packet[9]?
  let rateHz ← u32Le packet 12
  let rateHz := if rateHz = 0 then 48000 else rateHz
  encodedFormat "opus" rateHz channels.toUInt32 (some .unknown)

def parseSpeex (head : Bytes) : Checked AudioFormat := do
  let packet ← oggFirstPacket head
  require (← checkMagic packet 0 (ascii "Speex   "))
  let rateHz ← u32Le packet 0x24
  let channels ← u32Le packet 0x30
  let raw ← u32Le packet 0x34
  let vbr := (← (u32Le packet 0x3C).option).getD 0
  let bitrate :=
    if raw.toInt32 > 0 then
      if vbr = 1 then .vbr (raw / 1000) else .cbr (raw / 1000)
    else .unknown
  encodedFormat "speex" rateHz channels (some bitrate)

-- ---------------------------------------------------------------------------
-- WMA
-- ---------------------------------------------------------------------------

def asfHeaderGuid : Bytes :=
  [0x30, 0x26, 0xB2, 0x75, 0x8E, 0x66, 0xCF, 0x11, 0xA6, 0xD9, 0x00, 0xAA, 0x00, 0x62, 0xCE, 0x6C]

def asfStreamPropsGuid : Bytes :=
  [0x91, 0x07, 0xDC, 0xB7, 0xB7, 0xA9, 0xCF, 0x11, 0x8E, 0xE6, 0x00, 0xC0, 0x0C, 0x20, 0x53, 0x65]

def asfStreamTypeAudioGuid : Bytes :=
  [0x40, 0x9E, 0x69, 0xF8, 0x4D, 0x5B, 0xCF, 0x11, 0xA8, 0xFD, 0x00, 0x80, 0x5F, 0x5C, 0x44, 0x2B]

/-- The format of a stream-properties object whose type-specific data is at `tsData`. -/
def readWaveFormat (head : Bytes) (tsData : Nat) : Checked AudioFormat := do
  let channels ← u16Le head (← plus tsData 2)
  let rateHz ← u32Le head (← plus tsData 4)
  let avgBytesPerSec ← u32Le head (← plus tsData 8)
  let bitrate ← (if avgBytesPerSec > 0 then do
      let bits ← .checkedMul (2 ^ 64) avgBytesPerSec.toNat 8
      return .vbr (UInt32.ofNat (← .checkedDiv bits 1000))
    else pure .unknown)
  encodedFormat "wma" rateHz channels.toUInt32 (some bitrate)

def wmaStep (head : Bytes) (cursor : Nat) : Checked (Nat ⊕ AudioFormat) := do
  let header ← plus cursor 24
  if header ≤ head.length then
    let guid ← slice head cursor 16
    let size ← u64Le head (← plus cursor 16)
    if guid = asfStreamPropsGuid then
      let body ← plus cursor 24
      let streamTypeGuid ← slice head body 16
      if streamTypeGuid ≠ asfStreamTypeAudioGuid then
        let cursor ← checkedAdd (2 ^ 64) cursor size.toNat
        return .inl cursor
      else
        let tsData ← plus body 54
        let format ← readWaveFormat head tsData
        return .inr format
    else
      let cursor ← checkedAdd (2 ^ 64) cursor size.toNat
      return .inl cursor
  else
    .absent

def parseWma (head : Bytes) : Checked AudioFormat := do
  let guid ← .getRange head 0 16
  require (guid == asfHeaderGuid)
  .loop (wmaStep head) 30

-- ---------------------------------------------------------------------------
-- Musepack
-- ---------------------------------------------------------------------------

def mpcVarint (head : Bytes) (offset : Nat) : Checked (UInt64 × Nat) :=
  .loop (septetsStep 9 (fun value b => (value <<< 7) ||| b.toUInt64) head offset) (0, 0)

def mpcSr : List UInt32 := [44100, 48000, 37800, 32000, 0, 0, 0, 0]

/-- The format of a stream header packet whose fields begin at `body`. -/
def readStreamHeader (head : Bytes) (body : Nat) : Checked AudioFormat := do
  let (_, scLen) ← mpcVarint head body
  let (_, silLen) ← mpcVarint head (← plus body scLen)
  let packed ← ofOption head[← plus (← plus body scLen) silLen]?
  let srIndex := (packed >>> 5) &&& 0x7
  let next ← ofOption head[← plus (← plus (← plus body scLen) silLen) 1]?
  let channels := ((next >>> 4) &&& 0xF).toUInt32 + 1
  let rateHz ← ofOption mpcSr[srIndex.toNat]?
  require (rateHz != 0)
  encodedFormat "musepack" rateHz channels (some .unknown)

def sv8Step (head : Bytes) (cursor : Nat) : Checked (Nat ⊕ AudioFormat) := do
  let stop ← plus cursor 2
  if stop ≤ head.length then
    let key ← slice head cursor 2
    let (size, sizeLen) ← mpcVarint head (← plus cursor 2)
    if key = ascii "SH" then
      let body ← plus (← plus (← plus (← plus cursor 2) sizeLen) 4) 1
      let format ← readStreamHeader head body
      return .inr format
    else
      let afterKey ← checkedAdd (2 ^ 64) cursor 2
      let afterSize ← checkedAdd (2 ^ 64) afterKey sizeLen
      let cursor ← checkedAdd (2 ^ 64) afterSize size.toNat
      return .inl cursor
  else
    .absent

def parseMusepackSv8 (head : Bytes) : Checked AudioFormat := .loop (sv8Step head) 4

def sv7Sr : List UInt32 := [44100, 48000, 37800, 32000]

def parseMusepackSv7 (head : Bytes) : Checked AudioFormat := do
  let word ← u32Le head 8
  let srIndex := (word >>> 16) &&& 0x3
  let rateHz ← index sv7Sr srIndex.toNat
  return .encodedPassthrough "musepack".toList rateHz 2 (some .unknown)

def parseMusepack (head : Bytes) : Checked AudioFormat := do
  if (← checkMagic head 0 (ascii "MPCK")) then
    parseMusepackSv8 head
  else if (← checkMagic head 0 (ascii "MP+ ")) then
    parseMusepackSv7 head
  else
    .absent

-- ---------------------------------------------------------------------------
-- Dispatch
-- ---------------------------------------------------------------------------

/-- Of a tracker file nothing is read. -/
def parseTracker (_head : Bytes) : Checked AudioFormat := .absent

def dispatch (codecHint : String) (head : Bytes) : Checked AudioFormat :=
  match codecHint with
  | "dsf" => parseDsf head
  | "dff" => parseDff head
  | "flac" => parseFlac head
  | "wav" => parseWav head
  | "aiff" => parseAiff head
  | "alac" => parseM4a head
  | "aac" => parseAacOrM4a head
  | "ape" => parseApe head
  | "wavpack" => parseWavpack head
  | "tta" => parseTta head
  | "mp3" => parseMp3 head
  | "vorbis" => parseVorbis head
  | "opus" => parseOpus head
  | "speex" => parseSpeex head
  | "wma" => parseWma head
  | "musepack" => parseMusepack head
  | "mod" => parseTracker head
  | "shorten" => .absent
  | _ => .absent

end EvoAudio.SourceProbe
