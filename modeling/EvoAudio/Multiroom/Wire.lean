import EvoAudio.Lib.ByteStream

/-!
# Audio-plane wire framing

`read_message` and `write_message` of `evo-multiroom/src/audio_plane.rs`: a
message travels as a four-byte big-endian length and a JSON body. Both sides
cap the body at `MAX_FRAME_BYTES`, and the reader refuses an empty one. The
JSON codec of the message type is a parameter.
-/

namespace EvoAudio.Multiroom.Wire

open ByteStream

def maxFrameBytes : Nat := 1048576

/-- `serde_json` at the message type. -/
structure Codec (Message ζ : Type) where
  toVec : Message → Except ζ (List UInt8)
  fromSlice : List UInt8 → Except ζ Message

inductive AudioPlaneError (ε ζ : Type) where
  | io (error : ReadError ε)
  | serde (error : ζ)
  | frameTooLarge (length : Nat)
  | protocol (reason : String)
  deriving DecidableEq, Repr

variable {ε ζ Message : Type}

def readMessage (codec : Codec Message ζ) (reader : ByteStream ε) :
    Except (AudioPlaneError ε ζ) Message × ByteStream ε :=
  match readExact 4 reader.pending reader.arrivals with
  | (.error error, reader) => (.error (.io error), reader)
  | (.ok lenBuf, reader) =>
    let len := ofBeBytes lenBuf
    if len = 0 then (.error (.protocol "zero-length frame"), reader)
    else if len > maxFrameBytes then (.error (.frameTooLarge len), reader)
    else
      match readExact len reader.pending reader.arrivals with
      | (.error error, reader) => (.error (.io error), reader)
      | (.ok body, reader) => ((codec.fromSlice body).mapError .serde, reader)

def writeMessage (codec : Codec Message ζ) (message : Message) (writer : Sink ε) :
    Except (AudioPlaneError ε ζ) Unit × Sink ε :=
  match codec.toVec message with
  | .error error => (.error (.serde error), writer)
  | .ok body =>
    if body.length > maxFrameBytes then (.error (.frameTooLarge body.length), writer)
    else
      match writer.writeAll (beBytes body.length) with
      | (.error error, writer) => (.error (.io (.fault error)), writer)
      | (.ok (), writer) =>
        match writer.writeAll body with
        | (.error error, writer) => (.error (.io (.fault error)), writer)
        | (.ok (), writer) => (.ok (), writer)

/-- The read pump, for a number of messages. -/
def readMessages (codec : Codec Message ζ) : Nat → ByteStream ε →
    Except (AudioPlaneError ε ζ) (List Message) × ByteStream ε
  | 0, reader => (.ok [], reader)
  | n + 1, reader =>
    match readMessage codec reader with
    | (.error error, reader) => (.error error, reader)
    | (.ok message, reader) =>
      let (messages, reader) := readMessages codec n reader
      (messages.map (message :: ·), reader)

/-- The write pump. -/
def writeMessages (codec : Codec Message ζ) : List Message → Sink ε →
    Except (AudioPlaneError ε ζ) Unit × Sink ε
  | [], writer => (.ok (), writer)
  | message :: messages, writer =>
    match writeMessage codec message writer with
    | (.error error, writer) => (.error error, writer)
    | (.ok (), writer) => writeMessages codec messages writer

-- ---------------------------------------------------------------------------
-- One frame
-- ---------------------------------------------------------------------------

/-- The bytes of a frame, whatever the length of its body. -/
def frame (body : List UInt8) : List UInt8 := beBytes body.length ++ body

/-- The message round-trips through `serde_json`, which finds no value in an
empty text. -/
structure Codec.RoundTrips (codec : Codec Message ζ) : Prop where
  fromSlice_toVec : codec.toVec message = .ok body → codec.fromSlice body = .ok message
  fromSlice_nil : ∃ error, codec.fromSlice [] = .error error

theorem Codec.RoundTrips.body_ne_nil {codec : Codec Message ζ} (h : codec.RoundTrips)
    (hbody : codec.toVec message = .ok body) : body ≠ [] := by
  rintro rfl
  obtain ⟨error, hnil⟩ := h.fromSlice_nil
  rw [h.fromSlice_toVec hbody] at hnil
  cases hnil

theorem writeMessage_eq (codec : Codec Message ζ) (written : List UInt8)
    (hbody : codec.toVec message = .ok body) (hlen : body.length ≤ maxFrameBytes) :
    writeMessage codec message (⟨written, none⟩ : Sink ε) =
      (.ok (), ⟨written ++ frame body, none⟩) := by
  simp [writeMessage, hbody, Nat.not_lt.mpr hlen, Sink.writeAll, frame]

theorem writeMessage_ok_iff (codec : Codec Message ζ) (written : List UInt8)
    (hbody : codec.toVec message = .ok body) :
    (writeMessage codec message (⟨written, none⟩ : Sink ε)).1 = .ok () ↔
      body.length ≤ maxFrameBytes := by
  by_cases hlen : body.length ≤ maxFrameBytes
  · simp [writeMessage_eq codec written hbody hlen, hlen]
  · simp [writeMessage, hbody, Nat.not_le.mp hlen, hlen]

/-- The reader past the length prefix of whatever frame comes next. -/
theorem readMessage_prefix (codec : Codec Message ζ) {reader : ByteStream ε} (n : Nat)
    (h : reader.remaining = beBytes n ++ rest) :
    ∃ after : ByteStream ε, after.remaining = rest ∧ (reader.Sound → after.Sound) ∧
      readMessage codec reader =
        if n % 4294967296 = 0 then (.error (.protocol "zero-length frame"), after)
        else if n % 4294967296 > maxFrameBytes then
          (.error (.frameTooLarge (n % 4294967296)), after)
        else
          match readExact (n % 4294967296) after.pending after.arrivals with
          | (.error error, reader) => (.error (.io error), reader)
          | (.ok body, reader) => ((codec.fromSlice body).mapError .serde, reader) := by
  have hfour : 4 ≤ reader.remaining.length := by simp [h, beBytes]
  obtain ⟨after, hread, hafter, hsound⟩ := readExact_ok reader.arrivals reader.pending hfour
  change readExact 4 reader.pending reader.arrivals = (.ok (reader.remaining.take 4), after) at hread
  change after.remaining = reader.remaining.drop 4 at hafter
  have htake : reader.remaining.take 4 = beBytes n := by simp [h, beBytes]
  refine ⟨after, by rw [hafter, h]; rfl, hsound, ?_⟩
  unfold readMessage
  rw [hread, htake]
  simp only [ofBeBytes_beBytes]

/-- A frame of a body within the limits is read whole, and its body goes to the
JSON decoder. -/
theorem readMessage_frame (codec : Codec Message ζ) {reader : ByteStream ε}
    (h : reader.remaining = frame body ++ rest) (hne : body ≠ [])
    (hlen : body.length ≤ maxFrameBytes) :
    ∃ after : ByteStream ε, after.remaining = rest ∧ (reader.Sound → after.Sound) ∧
      readMessage codec reader = ((codec.fromSlice body).mapError .serde, after) := by
  have hpos : 0 < body.length := List.length_pos_iff.mpr hne
  have hmod : body.length % 4294967296 = body.length := by
    simp only [maxFrameBytes] at hlen
    omega
  rw [frame, List.append_assoc] at h
  obtain ⟨mid, hmid, hsound, heq⟩ := readMessage_prefix codec body.length h
  rw [hmod, if_neg (Nat.pos_iff_ne_zero.mp hpos), if_neg (Nat.not_lt.mpr hlen)] at heq
  have hroom : body.length ≤ mid.remaining.length := by simp [hmid]
  obtain ⟨after, hread, hafter, hsound'⟩ := readExact_ok mid.arrivals mid.pending hroom
  change readExact _ _ _ = (.ok (mid.remaining.take body.length), after) at hread
  change after.remaining = mid.remaining.drop body.length at hafter
  rw [hmid] at hread hafter
  rw [List.take_left] at hread
  rw [hread] at heq
  refine ⟨after, by rw [hafter, List.drop_left], fun hs => hsound' (hsound hs), heq⟩

/-- Where the reader takes a frame as one message and stops at its end, the body
was within the limits: a longer body does not fit the prefix, or is refused. -/
theorem readMessage_frame_fits (codec : Codec Message ζ) {reader after : ByteStream ε}
    (h : reader.remaining = frame body) (hread : readMessage codec reader = (.ok message, after))
    (hend : after.remaining = []) : body.length ≤ maxFrameBytes := by
  obtain ⟨mid, hmid, -, heq⟩ := readMessage_prefix codec body.length h
  rw [hread] at heq
  split at heq
  · cases heq
  split at heq
  · cases heq
  rename_i hzero hmax
  by_cases hroom : body.length % 4294967296 ≤ mid.remaining.length
  · obtain ⟨rest, hbody, hrest, -⟩ := readExact_ok mid.arrivals mid.pending hroom
    change rest.remaining = mid.remaining.drop _ at hrest
    rw [hbody] at heq
    obtain ⟨-, rfl⟩ := Prod.mk.inj heq
    rw [hrest, hmid, List.drop_eq_nil_iff] at hend
    exact Nat.le_trans hend (Nat.not_lt.mp hmax)
  · rw [hmid] at hroom
    exact absurd (Nat.mod_le _ _) hroom

theorem readMessage_eof (codec : Codec Message ζ) {reader : ByteStream ε}
    (h : reader.remaining = []) (hs : reader.Sound) :
    (readMessage codec reader).1 = .error (.io .unexpectedEof) := by
  have hshort : reader.remaining.length < 4 := by simp [h]
  have heof := readExact_eof reader.arrivals reader.pending hshort hs
  unfold readMessage
  split
  next error after hread =>
    rw [hread] at heof
    cases heof
    rfl
  next hread =>
    rw [hread] at heof
    cases heof

-- ---------------------------------------------------------------------------
-- Runs of frames
-- ---------------------------------------------------------------------------

/-- The message has a body that `write_message` takes. -/
def Fits (codec : Codec Message ζ) (message : Message) : Prop :=
  ∃ body, codec.toVec message = .ok body ∧ body.length ≤ maxFrameBytes

/-- What the write pump puts on the wire for messages that fit reads back as
the same messages. -/
theorem writeMessages_read {codec : Codec Message ζ} (hcodec : codec.RoundTrips)
    (messages : List Message) (hfits : ∀ message ∈ messages, Fits codec message)
    (written : List UInt8) :
    ∃ bytes, writeMessages codec messages (⟨written, none⟩ : Sink ε) =
        (.ok (), ⟨written ++ bytes, none⟩) ∧
      ∀ reader : ByteStream ε, reader.remaining = bytes →
        ∃ after : ByteStream ε, readMessages codec messages.length reader = (.ok messages, after) ∧
          after.remaining = [] ∧ (reader.Sound → after.Sound) := by
  induction messages generalizing written with
  | nil => exact ⟨[], by simp [writeMessages], fun reader h => ⟨reader, rfl, h, id⟩⟩
  | cons message messages ih =>
    obtain ⟨body, hbody, hlen⟩ := hfits message (List.mem_cons_self ..)
    obtain ⟨bytes, hwrite, hread⟩ :=
      ih (fun m hm => hfits m (List.mem_cons_of_mem _ hm)) (written ++ frame body)
    refine ⟨frame body ++ bytes, ?_, ?_⟩
    · rw [writeMessages, writeMessage_eq codec written hbody hlen]
      simpa using hwrite
    · intro reader hreader
      obtain ⟨mid, hmid, hsound, hmessage⟩ :=
        readMessage_frame codec hreader (hcodec.body_ne_nil hbody) hlen
      obtain ⟨after, hrest, hend, hsound'⟩ := hread mid hmid
      refine ⟨after, ?_, hend, fun hs => hsound' (hsound hs)⟩
      rw [List.length_cons, readMessages, hmessage, hcodec.fromSlice_toVec hbody]
      simp [Except.mapError, hrest, Except.map]

/-- Messages whose bodies are within the limit are written and read back in
order, however their bytes are cut into chunks, and the reader then stands at
the end of the stream. The writer takes a message exactly when the reader
takes its frame as one message. -/
theorem readMessages_writeMessages {codec : Codec Message ζ} (hcodec : codec.RoundTrips) :
    (∀ messages : List Message, (∀ message ∈ messages, Fits codec message) →
      ∃ bytes, writeMessages codec messages (⟨[], none⟩ : Sink ε) = (.ok (), ⟨bytes, none⟩) ∧
        ∀ reader : ByteStream ε, reader.remaining = bytes → reader.Sound →
          ∃ after, readMessages codec messages.length reader = (.ok messages, after) ∧
            after.remaining = [] ∧
            (readMessage codec after).1 = .error (.io .unexpectedEof)) ∧
    ∀ message body, codec.toVec message = .ok body →
      ∀ reader : ByteStream ε, reader.remaining = frame body →
        ((writeMessage codec message (⟨[], none⟩ : Sink ε)).1 = .ok () ↔
          ∃ read after, readMessage codec reader = (.ok read, after) ∧ after.remaining = []) := by
  constructor
  · intro messages hfits
    obtain ⟨bytes, hwrite, hread⟩ := writeMessages_read hcodec messages hfits []
    refine ⟨bytes, hwrite, fun reader hreader hs => ?_⟩
    obtain ⟨after, hmessages, hend, hsound⟩ := hread reader hreader
    exact ⟨after, hmessages, hend, readMessage_eof codec hend (hsound hs)⟩
  · intro message body hbody reader hreader
    rw [writeMessage_ok_iff codec [] hbody]
    constructor
    · intro hlen
      obtain ⟨after, hend, -, hread⟩ := readMessage_frame codec (hreader.trans (List.append_nil _).symm)
        (hcodec.body_ne_nil hbody) hlen
      rw [hcodec.fromSlice_toVec hbody] at hread
      exact ⟨message, after, hread, hend⟩
    · rintro ⟨read, after, hread, hend⟩
      exact readMessage_frame_fits codec hreader hread hend

/-- The `Goodbye` of a device as `serde_json` renders it. -/
def goodbye (deviceId : String) : List Char :=
  ("\x7b\"type\":\"goodbye\",\"device_id\":\"" ++ deviceId ++ "\"\x7d").toList

/-- `serde_json` on the farewells of two devices. -/
def goodbyeCodec : Codec Bool Unit where
  toVec first := .ok (Text.encode (goodbye (if first then "a" else "b")))
  fromSlice bytes :=
    if Text.decode? bytes = some (goodbye "a") then .ok true
    else if Text.decode? bytes = some (goodbye "b") then .ok false
    else .error ()

theorem goodbyeCodec_roundTrips : goodbyeCodec.RoundTrips where
  fromSlice_toVec := by
    rintro (_ | _) body h
    all_goals
      cases h
      simp only [goodbyeCodec, Text.decode_encode]
      decide
  fromSlice_nil := by
    refine ⟨(), ?_⟩
    have hnil : Text.decode? [] = some [] := Text.decode_encode []
    simp only [goodbyeCodec, hnil]
    decide

theorem goodbyes_read :
    ∃ bytes, writeMessages goodbyeCodec [true, false, true] (⟨[], none⟩ : Sink Unit) =
        (.ok (), ⟨bytes, none⟩) ∧
      ∀ reader : ByteStream Unit, reader.remaining = bytes → reader.Sound →
        ∃ after, readMessages goodbyeCodec 3 reader = (.ok [true, false, true], after) ∧
          after.remaining = [] ∧
          (readMessage goodbyeCodec after).1 = .error (.io .unexpectedEof) := by
  refine (readMessages_writeMessages goodbyeCodec_roundTrips).1 [true, false, true] ?_
  rintro (_ | _) -
  · exact ⟨_, rfl, by decide⟩
  · exact ⟨_, rfl, by decide⟩

end EvoAudio.Multiroom.Wire
