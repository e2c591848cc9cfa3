import EvoAudio.Playback.ExtendedRates

/-!
# Headers by their layouts

The comments of `source_probe.rs` lay out the head of each kind of file. These are the
layouts of those whose sample rate, channels and bit depth are fields: each field at its
full width, and before the one with the format whatever other chunks or atoms a file has.
-/

namespace EvoAudio.SourceProbe

open EvoAudio.Topology (AudioFormat DsdRate PcmCodec)

-- ---------------------------------------------------------------------------
-- Numbers as bytes
-- ---------------------------------------------------------------------------

def leBytes : Nat → Nat → Bytes
  | 0, _ => []
  | n + 1, v => UInt8.ofNat v :: leBytes n (v / 256)

def beBytes (n v : Nat) : Bytes := (leBytes n v).reverse

@[simp] theorem length_leBytes (n v : Nat) : (leBytes n v).length = n := by
  induction n generalizing v with
  | zero => rfl
  | succ n ih => simp [leBytes, ih]

@[simp] theorem length_beBytes (n v : Nat) : (beBytes n v).length = n := by simp [beBytes]

theorem leValue_leBytes (h : v < 256 ^ n) : leValue (leBytes n v) = v := by
  induction n generalizing v with
  | zero =>
    rw [Nat.pow_zero] at h
    have hzero : v = 0 := by omega
    simp [leBytes, leValue, hzero]
  | succ n ih =>
    rw [Nat.pow_succ] at h
    have hcons : leValue (leBytes (n + 1) v) =
        (UInt8.ofNat v).toNat + 256 * leValue (leBytes n (v / 256)) := rfl
    have hbyte : (UInt8.ofNat v).toNat = v % 256 := by simp
    rw [hcons, ih (by omega), hbyte]
    omega

theorem beValue_beBytes (h : v < 256 ^ n) : beValue (beBytes n v) = v := by
  rw [beValue, beBytes, List.reverse_reverse, leValue_leBytes h]

def le16 (v : UInt16) : Bytes := leBytes 2 v.toNat
def le32 (v : UInt32) : Bytes := leBytes 4 v.toNat
def le64 (v : UInt64) : Bytes := leBytes 8 v.toNat
def be16 (v : UInt16) : Bytes := beBytes 2 v.toNat
def be32 (v : UInt32) : Bytes := beBytes 4 v.toNat

-- ---------------------------------------------------------------------------
-- Chunks and atoms
-- ---------------------------------------------------------------------------

/-- A chunk or an atom that is not the one that is sought. -/
structure Other (sought : String) where
  id : Vector UInt8 4
  differs : id.toList ≠ ascii sought
  body : Bytes

/-- A chunk, padded to an even size. -/
def Other.chunk (size : Nat → Bytes) (c : Other sought) : Bytes :=
  c.id.toList ++ size c.body.length ++ c.body ++ List.replicate (c.body.length % 2) 0

def Other.atom (a : Other sought) : Bytes :=
  beBytes 4 (8 + a.body.length) ++ a.id.toList ++ a.body

/-- A step down into an atom, with those that come before it. The atom's size counts its
own header. -/
structure Descent (id : String) where
  before : List (Other id)
  size : UInt32
  counted : 8 ≤ size.toNat

def Descent.bytes {id : String} (d : Descent id) : Bytes :=
  d.before.flatMap Other.atom ++ be32 d.size ++ ascii id

-- ---------------------------------------------------------------------------
-- Headers
-- ---------------------------------------------------------------------------

structure FlacHeader where
  last : Bool
  blockLength : Vector UInt8 3
  /-- The sizes of blocks and frames. -/
  sizes : Vector UInt8 10
  sampleRate : Fin (2 ^ 20)
  channelsLess1 : Fin 8
  bitsPerSampleLess1 : Fin 32
  totalSamples : Fin (2 ^ 36)

def FlacHeader.packed (h : FlacHeader) : Nat :=
  ((h.sampleRate.val * 2 ^ 3 + h.channelsLess1.val) * 2 ^ 5 + h.bitsPerSampleLess1.val) * 2 ^ 36 +
    h.totalSamples.val

def FlacHeader.bytes (h : FlacHeader) : Bytes :=
  ascii "fLaC" ++ [if h.last then 0x80 else 0] ++ h.blockLength.toList ++ h.sizes.toList ++
    beBytes 8 h.packed

structure WavHeader where
  fileSize : UInt32
  before : List (Other "fmt ")
  chunkSize : UInt32
  formatTag : UInt16
  channels : UInt16
  sampleRate : UInt32
  byteRate : UInt32
  blockAlign : UInt16
  bitsPerSample : UInt16

def WavHeader.bytes (h : WavHeader) : Bytes :=
  ascii "RIFF" ++ le32 h.fileSize ++ ascii "WAVE" ++ h.before.flatMap (Other.chunk (leBytes 4)) ++
    ascii "fmt " ++ le32 h.chunkSize ++ le16 h.formatTag ++ le16 h.channels ++ le32 h.sampleRate ++
    le32 h.byteRate ++ le16 h.blockAlign ++ le16 h.bitsPerSample

structure AiffHeader where
  fileSize : UInt32
  compressed : Bool
  before : List (Other "COMM")
  chunkSize : UInt32
  channels : UInt16
  numSampleFrames : UInt32
  sampleSize : UInt16
  sampleRate : Extended

def AiffHeader.bytes (h : AiffHeader) : Bytes :=
  ascii "FORM" ++ be32 h.fileSize ++ ascii (if h.compressed then "AIFC" else "AIFF") ++
    h.before.flatMap (Other.chunk (beBytes 4)) ++ ascii "COMM" ++ be32 h.chunkSize ++
    be16 h.channels ++ be32 h.numSampleFrames ++ be16 h.sampleSize ++ h.sampleRate.toList

/-- The descriptor of a file of version 3.98 or later, and the header after it. -/
structure ApeHeader where
  version : UInt16
  later : 3980 ≤ version
  padding : UInt16
  /-- The descriptor after its size. -/
  descriptor : Bytes
  compressionLevel : UInt16
  formatFlags : UInt16
  blocksPerFrame : UInt32
  finalFrameBlocks : UInt32
  totalFrames : UInt32
  bitsPerSample : UInt16
  channels : UInt16
  sampleRate : UInt32

def ApeHeader.bytes (h : ApeHeader) : Bytes :=
  ascii "MAC " ++ le16 h.version ++ le16 h.padding ++ leBytes 4 (12 + h.descriptor.length) ++
    h.descriptor ++ le16 h.compressionLevel ++ le16 h.formatFlags ++ le32 h.blocksPerFrame ++
    le32 h.finalFrameBlocks ++ le32 h.totalFrames ++ le16 h.bitsPerSample ++ le16 h.channels ++
    le32 h.sampleRate

structure TtaHeader where
  format : UInt16
  channels : UInt16
  bitsPerSample : UInt16
  sampleRate : UInt32

def TtaHeader.bytes (h : TtaHeader) : Bytes :=
  ascii "TTA1" ++ le16 h.format ++ le16 h.channels ++ le16 h.bitsPerSample ++ le32 h.sampleRate

def dsdHz : DsdRate → UInt32
  | .dsd64 => 2822400
  | .dsd128 => 5644800
  | .dsd256 => 11289600
  | .dsd512 => 22579200

/-- A DSF file has one bit per sample, at one of the four rates. -/
structure DsfHeader where
  totalSize : UInt64
  metadataPointer : UInt64
  formatVersion : UInt32
  formatId : UInt32
  channelType : UInt32
  channelCount : UInt32
  sampleRate : DsdRate

def DsfHeader.bytes (h : DsfHeader) : Bytes :=
  ascii "DSD " ++ le64 28 ++ le64 h.totalSize ++ le64 h.metadataPointer ++ ascii "fmt " ++ le64 52 ++
    le32 h.formatVersion ++ le32 h.formatId ++ le32 h.channelType ++ le32 h.channelCount ++
    le32 (dsdHz h.sampleRate) ++ le32 1

structure AlacHeader where
  /-- The body of the `ftyp` atom. -/
  brands : Bytes
  moov : Descent "moov"
  trak : Descent "trak"
  mdia : Descent "mdia"
  minf : Descent "minf"
  stbl : Descent "stbl"
  stsd : Descent "stsd"
  versionAndFlags : UInt32
  entryCount : UInt32
  entrySize : UInt32
  /-- The bytes of the sample entry before its channels. -/
  reserved : Vector UInt8 16
  channelCount : UInt16
  sampleSize : UInt16
  preDefined : UInt16
  reserved2 : UInt16
  sampleRate : UInt16
  /-- The lower 16 bits of the rate. -/
  sampleRateFraction : UInt16

def AlacHeader.entry (h : AlacHeader) : Bytes :=
  h.reserved.toList ++ be16 h.channelCount ++ be16 h.sampleSize ++ be16 h.preDefined ++
    be16 h.reserved2 ++ be16 h.sampleRate ++ be16 h.sampleRateFraction

def AlacHeader.bytes (h : AlacHeader) : Bytes :=
  beBytes 4 (8 + h.brands.length) ++ ascii "ftyp" ++ h.brands ++ h.moov.bytes ++ h.trak.bytes ++
    h.mdia.bytes ++ h.minf.bytes ++ h.stbl.bytes ++ h.stsd.bytes ++ be32 h.versionAndFlags ++
    be32 h.entryCount ++ be32 h.entrySize ++ ascii "alac" ++ h.entry

inductive Header where
  | flac (h : FlacHeader)
  | wav (h : WavHeader)
  | aiff (h : AiffHeader)
  | ape (h : ApeHeader)
  | tta (h : TtaHeader)
  | dsf (h : DsfHeader)
  | alac (h : AlacHeader)

def Header.bytes : Header → Bytes
  | .flac h => h.bytes
  | .wav h => h.bytes
  | .aiff h => h.bytes
  | .ape h => h.bytes
  | .tta h => h.bytes
  | .dsf h => h.bytes
  | .alac h => h.bytes

/-- The codec hint of a file with the header. -/
def Header.codecHint : Header → String
  | .flac _ => "flac"
  | .wav _ => "wav"
  | .aiff _ => "aiff"
  | .ape _ => "ape"
  | .tta _ => "tta"
  | .dsf _ => "dsf"
  | .alac _ => "alac"

/-- A file that begins with a header, which is within what the probe reads of it. -/
structure HeadedFile where
  header : Header
  rest : Bytes
  withinHead : header.bytes.length ≤ 4096

/-- `read_head` reads the first 4 KiB. -/
def HeadedFile.head (f : HeadedFile) : Bytes := (f.header.bytes ++ f.rest).take 4096

-- ---------------------------------------------------------------------------
-- What a header says
-- ---------------------------------------------------------------------------

/-- The depth of the integers of a codec. -/
def codecDepth : PcmCodec → Option Nat
  | .pcmS16Le => some 16
  | .pcmS24Le => some 24
  | .pcmS32Le => some 32
  | .pcmF32 => none

def IsDepth (bits : Nat) : Prop := bits = 16 ∨ bits = 24 ∨ bits = 32

instance : Decidable (IsDepth bits) := inferInstanceAs (Decidable (_ ∨ _ ∨ _))

/-- What is reported of a PCM file: its rate, channels and depth if the depth is one that
is reported, and else nothing. -/
def ReportsPcm (depth channels : Nat) (IsRate : UInt32 → Prop) (r : Option AudioFormat) : Prop :=
  if IsDepth depth then
    ∃ codec rateHz count, r = some (.pcm codec rateHz count) ∧ codecDepth codec = some depth ∧
      IsRate rateHz ∧ count.toNat = channels
  else
    r = none

/-- What is reported is what the header says. -/
def Header.Says : Header → Option AudioFormat → Prop
  | .flac h => ReportsPcm (h.bitsPerSampleLess1.val + 1) (h.channelsLess1.val + 1)
      fun hz => hz.toNat = h.sampleRate.val
  | .wav h => ReportsPcm h.bitsPerSample.toNat h.channels.toNat fun hz => hz = h.sampleRate
  | .aiff h => ReportsPcm h.sampleSize.toNat h.channels.toNat fun hz =>
      h.sampleRate.negative = false ∧ h.sampleRate.exponent ≠ 0x7FFF ∧
        h.sampleRate.magnitude = hz.toNat
  | .ape h => ReportsPcm h.bitsPerSample.toNat h.channels.toNat fun hz => hz = h.sampleRate
  | .tta h => ReportsPcm h.bitsPerSample.toNat h.channels.toNat fun hz => hz = h.sampleRate
  | .dsf h => fun r => ∃ count, r = some (.dsd h.sampleRate .nativeUsb count) ∧
      count.toNat = h.channelCount.toNat
  | .alac h => ReportsPcm h.sampleSize.toNat h.channelCount.toNat
      fun hz => hz.toNat = h.sampleRate.toNat

/-- The probe reports of a file what its header says. -/
def ReportsHeader (f : HeadedFile) : Prop :=
  ∃ r, Checked.Returns (dispatch f.header.codecHint f.head) r ∧ f.header.Says r

end EvoAudio.SourceProbe
