import EvoAudio.Lib.ByteStream
import EvoAudio.Mpd.Protocol

/-!
# Line framing

The line reader and the writer of `evo-mpd-shared/src/framing.rs` over a byte
stream, each with a deadline. The reader hands out lines without their newline
and one carriage return before it. Budgets are milliseconds.
-/

namespace EvoAudio.Mpd

open Text

/-- The kinds of `io::Error` that `classify_read_error` tells apart. -/
inductive IoErrorKind where
  | invalidData
  | unexpectedEof
  | other
  deriving DecidableEq, Repr

inductive TransportError where
  | io (kind : IoErrorKind)
  | closed
  deriving DecidableEq, Repr

inductive MpdError where
  | transport (error : TransportError)
  | protocol (error : ProtocolError)
  | ack (code listPosition : UInt32) (command message : List Char)
  | timeout (operation : String) (elapsed : Nat)
  deriving DecidableEq, Repr

def classifyReadError : IoErrorKind → MpdError
  | .invalidData => .protocol (.nonUtf8 0)
  | .unexpectedEof => .transport .closed
  | kind => .transport (.io kind)

inductive WriteFault where
  | io (kind : IoErrorKind)
  | stall
  deriving DecidableEq, Repr

/-- The peer's side of the writer. With a limit, the transport takes that many
more bytes and then fails or stalls. -/
structure Writer where
  written : List UInt8
  limit : Option (Nat × WriteFault)
  deriving DecidableEq, Repr

structure Framing where
  reader : ByteStream IoErrorKind
  writer : Writer
  deriving DecidableEq, Repr

-- ---------------------------------------------------------------------------
-- Reading and writing
-- ---------------------------------------------------------------------------

def stripCr (text : List Char) : List Char :=
  if text.getLast? = some '\r' then text.dropLast else text

/-- The checks `read_line_with_timeout` makes on the bytes of a finished read. -/
def finishLine (bytes : List UInt8) : Except MpdError (List Char) :=
  match decode? bytes with
  | none => .error (classifyReadError .invalidData)
  | some scratch =>
    if bytes.length = 0 then .error (.transport .closed)
    else if bytes.length > lineMax then .error (.protocol (.lineTooLong bytes.length lineMax))
    else if scratch.getLast? ≠ some '\n' then .error (.transport .closed)
    else .ok (stripCr scratch.dropLast)

def Framing.readLineWithTimeout (budget : Nat) (operation : String) (framing : Framing) :
    Except MpdError (List Char) × Framing :=
  let (outcome, reader) := ByteStream.readUntil newline framing.reader.pending framing.reader.arrivals
  let line :=
    match outcome with
    | .found bytes | .eof bytes => finishLine bytes
    | .stalled => .error (.timeout operation budget)
    | .fault kind => .error (classifyReadError kind)
  (line, { framing with reader })

def Framing.writeAllWithTimeout (bytes : List UInt8) (budget : Nat) (operation : String)
    (framing : Framing) : Except MpdError Unit × Framing :=
  let written := framing.writer.written
  match framing.writer.limit with
  | none => (.ok (), { framing with writer := ⟨written ++ bytes, none⟩ })
  | some (room, fault) =>
    if bytes.length ≤ room then
      (.ok (), { framing with writer := ⟨written ++ bytes, some (room - bytes.length, fault)⟩ })
    else
      let error :=
        match fault with
        | .io kind => MpdError.transport (.io kind)
        | .stall => .timeout operation budget
      (.error error, { framing with writer := ⟨written ++ bytes.take room, some (0, fault)⟩ })

-- ---------------------------------------------------------------------------
-- Lines that have arrived
-- ---------------------------------------------------------------------------

/-- A text the server can send as one line. -/
structure LineText where
  text : List Char
  noNewline : '\n' ∉ text
  fits : (encode text).length < lineMax

def LineText.bytes (line : LineText) : List UInt8 :=
  encode line.text ++ [newline]

theorem finishLine_bytes (line : LineText) : finishLine line.bytes = .ok (stripCr line.text) := by
  have hdecode : decode? line.bytes = some (line.text ++ ['\n']) := by
    have hencode : encode (line.text ++ ['\n']) = line.bytes := by
      rw [encode_append, LineText.bytes]
      rfl
    rw [← hencode, decode_encode]
  have hlen : line.bytes.length = (encode line.text).length + 1 := by simp [LineText.bytes]
  have hfits := line.fits
  simp only [finishLine, hdecode, hlen]
  rw [if_neg (by omega), if_neg (by omega), if_neg (by simp), List.dropLast_concat]

/-- A line that has arrived whole is the next one read, however it is cut. -/
theorem readLine_bytes (line : LineText) (h : reader.available = line.bytes ++ rest)
    (writer : Writer) (budget : Nat) (operation : String) :
    ∃ reader', reader'.available = rest ∧
      Framing.readLineWithTimeout budget operation ⟨reader, writer⟩ =
        (.ok (stripCr line.text), ⟨reader', writer⟩) := by
  have hnl : newline ∉ encode line.text := by
    intro hmem
    exact line.noNewline ((byte_mem_encode (by decide)).mp hmem)
  rw [LineText.bytes, List.append_assoc, List.singleton_append] at h
  obtain ⟨reader', hread, hrest⟩ := ByteStream.readUntil_line hnl _ _ h
  refine ⟨reader', hrest, ?_⟩
  have hfinish := finishLine_bytes line
  rw [LineText.bytes] at hfinish
  simp only [Framing.readLineWithTimeout, hread, hfinish]

theorem finishLine_nil : finishLine [] = .error (.transport .closed) := by
  have hdecode : decode? [] = some [] := decode_encode []
  simp [finishLine, hdecode]

/-- A line that was read took at least one byte off the stream. -/
theorem size_readLine {framing framing' : Framing}
    (h : framing.readLineWithTimeout budget operation = (.ok line, framing')) :
    framing'.reader.size < framing.reader.size := by
  have hreader : framing'.reader =
      (ByteStream.readUntil newline framing.reader.pending framing.reader.arrivals).2 :=
    (congrArg (Framing.reader ∘ Prod.snd) h).symm
  rw [hreader]
  refine ByteStream.size_readUntil newline _ _ ?_
  by_contra hempty
  rw [not_or, not_not, not_not] at hempty
  have heof : ByteStream.readUntil newline framing.reader.pending framing.reader.arrivals =
      (.eof [], ⟨[], []⟩) := by
    rw [hempty.1, hempty.2]
    rfl
  rw [Framing.readLineWithTimeout, heof] at h
  exact absurd (congrArg Prod.fst h) (by simp [finishLine_nil])

end EvoAudio.Mpd
