/-!
# Audio formats

The formats of the SDK, as this repository builds and matches them. They are
compared whole or field by field, and only the bitrate of an encoded stream can
be unknown.
-/

namespace EvoAudio.Topology

inductive PcmCodec where
  | pcmS16Le
  | pcmS24Le
  | pcmS32Le
  | pcmF32
  deriving DecidableEq, Repr

inductive DsdRate where
  | dsd64
  | dsd128
  | dsd256
  | dsd512
  deriving DecidableEq, Repr

inductive DsdTransport where
  | nativeUsb
  | dop
  deriving DecidableEq, Repr

inductive EncodedBitrate where
  | cbr (kbps : UInt32)
  | vbr (avgKbps : UInt32)
  | unknown
  deriving DecidableEq, Repr

inductive AudioFormat where
  | pcm (codec : PcmCodec) (rateHz : UInt32) (channels : UInt8)
  | dsd (rate : DsdRate) (transport : DsdTransport) (channels : UInt8)
  | encodedPassthrough (codec : List Char) (rateHz : UInt32) (channels : UInt8)
    (bitrateKbps : Option EncodedBitrate)
  deriving DecidableEq, Repr

end EvoAudio.Topology
