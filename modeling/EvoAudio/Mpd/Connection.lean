import EvoAudio.Mpd.Batch
import EvoAudio.Mpd.Framing

/-!
# Command dispatch

`dispatch`, `command_list` and `command_list_ok` of
`evo-mpd-shared/src/connection.rs`: serialise, write, then read response lines
until one of them ends the response. The three differ in what they do with a
line, so they share one loop.
-/

namespace EvoAudio.Mpd

open Text

/-- What a loop does with one classified line. -/
inductive Next (σ ρ : Type) where
  | more (state : σ)
  | done (result : Except MpdError ρ)

section ReplyLoop

variable {σ ρ : Type}

/-- The loop over response lines. Every line read takes bytes off the stream, so
the loop ends. -/
def replyLoop (budget : Nat) (operation : String) (onLine : σ → ClassifiedLine → Next σ ρ)
    (state : σ) (framing : Framing) : Except MpdError ρ × Framing :=
  match _hread : framing.readLineWithTimeout budget operation with
  | (.error e, framing') => (.error e, framing')
  | (.ok line, framing') =>
    match classifyLine line with
    | .error e => (.error (.protocol e), framing')
    | .ok classified =>
      match onLine state classified with
      | .more state' => replyLoop budget operation onLine state' framing'
      | .done result => (result, framing')
termination_by framing.reader.size
decreasing_by exact size_readLine _hread

/-- What a line amounts to, a malformed one included. -/
def onText (onLine : σ → ClassifiedLine → Next σ ρ) (state : σ) (text : List Char) : Next σ ρ :=
  match classifyLine text with
  | .error e => .done (.error (.protocol e))
  | .ok classified => onLine state classified

/-- The loop on lines that have been read and classified already. -/
def feed (onLine : σ → ClassifiedLine → Next σ ρ) (state : σ) : List ClassifiedLine → Next σ ρ
  | [] => .more state
  | line :: rest =>
    match onLine state line with
    | .more state' => feed onLine state' rest
    | .done result => .done result

end ReplyLoop

-- ---------------------------------------------------------------------------
-- The three loops
-- ---------------------------------------------------------------------------

/-- `dispatch` and `command_list`: fields up to the `OK`. -/
def collectLine (finish : List Field → ρ) (fields : List Field) :
    ClassifiedLine → Next (List Field) ρ
  | .ok => .done (.ok (finish fields))
  | .listOk => .done (.error (.protocol .unexpectedListOk))
  | .ack code listPosition command message =>
    .done (.error (.ack code listPosition command message))
  | .field field => .more (fields ++ [field])

/-- `command_list_ok`: a group for each `list_OK`, and one for fields that no
`list_OK` closed. -/
def groupLine : List (List Field) × List Field → ClassifiedLine →
    Next (List (List Field) × List Field) (List (List Field))
  | (groups, current), .listOk => .more (groups ++ [current], [])
  | (groups, current), .ok =>
    .done (.ok (if current.isEmpty then groups else groups ++ [current]))
  | _, .ack code listPosition command message =>
    .done (.error (.ack code listPosition command message))
  | (groups, current), .field field => .more (groups, current ++ [field])

structure Connection where
  framing : Framing
  commandTimeout : Nat
  deriving DecidableEq, Repr

/-- Writes what was serialised and reads the reply. -/
def Connection.exchange (conn : Connection) (payload : Except ProtocolError (List UInt8))
    (writeOp readOp : String) (onLine : σ → ClassifiedLine → Next σ ρ) (state : σ) :
    Except MpdError ρ × Connection :=
  match payload with
  | .error e => (.error (.protocol e), conn)
  | .ok bytes =>
    match conn.framing.writeAllWithTimeout bytes conn.commandTimeout writeOp with
    | (.error e, framing) => (.error e, { conn with framing })
    | (.ok (), framing) =>
      let (result, framing) := replyLoop conn.commandTimeout readOp onLine state framing
      (result, { conn with framing })

def Connection.dispatch (command : List Char) (args : List (List Char)) (conn : Connection) :
    Except MpdError (List Field) × Connection :=
  conn.exchange (serialiseCommand command args) "write_command" "read_response"
    (collectLine id) []

def Connection.commandList (commands : List Command) (conn : Connection) :
    Except MpdError Unit × Connection :=
  if commands.isEmpty then (.ok (), conn)
  else
    conn.exchange (commandListPayload commands) "command_list_write" "command_list_response"
      (collectLine fun _ => ()) []

def Connection.commandListOk (commands : List Command) (conn : Connection) :
    Except MpdError (List (List Field)) × Connection :=
  if commands.isEmpty then (.ok [], conn)
  else
    conn.exchange (commandListOkPayload commands) "command_list_ok_write"
      "command_list_ok_response" groupLine ([], [])

-- ---------------------------------------------------------------------------
-- What goes out
-- ---------------------------------------------------------------------------

/-- The transport takes these bytes. -/
def Framing.Takes (framing : Framing) (bytes : List UInt8) : Prop :=
  ∀ room fault, framing.writer.limit = some (room, fault) → bytes.length ≤ room

theorem writeAll_takes {framing : Framing} (h : framing.Takes bytes) (budget : Nat)
    (operation : String) :
    ∃ limit, framing.writeAllWithTimeout bytes budget operation =
      (.ok (), ⟨framing.reader, ⟨framing.writer.written ++ bytes, limit⟩⟩) := by
  unfold Framing.writeAllWithTimeout
  cases hlimit : framing.writer.limit with
  | none => exact ⟨none, rfl⟩
  | some limit =>
    obtain ⟨room, fault⟩ := limit
    exact ⟨_, if_pos (h room fault hlimit)⟩

theorem replyLoop_writer (budget : Nat) (operation : String)
    (onLine : σ → ClassifiedLine → Next σ ρ) (state : σ) (framing : Framing) :
    (replyLoop budget operation onLine state framing).2.writer = framing.writer := by
  have hkeep : ∀ {line framing'},
      framing.readLineWithTimeout budget operation = (line, framing') →
        framing'.writer = framing.writer := by
    intro line framing' h
    exact (congrArg (Framing.writer ∘ Prod.snd) h).symm
  rw [replyLoop]
  split
  · rename_i hread
    exact hkeep hread
  · rename_i line framing' hread
    split
    · exact hkeep hread
    · split
      · rename_i state' _
        have := size_readLine hread
        rw [replyLoop_writer budget operation onLine state' framing', hkeep hread]
      · exact hkeep hread
termination_by framing.reader.size

/-- Whatever comes back, what goes out is what was serialised. -/
theorem exchange_written {conn : Connection} (h : conn.framing.Takes bytes)
    (writeOp readOp : String) (onLine : σ → ClassifiedLine → Next σ ρ) (state : σ) :
    (conn.exchange (.ok bytes) writeOp readOp onLine state).2.framing.writer.written =
      conn.framing.writer.written ++ bytes := by
  obtain ⟨limit, hwrite⟩ := writeAll_takes h conn.commandTimeout writeOp
  simp only [Connection.exchange, hwrite, replyLoop_writer]

theorem commandList_written {conn : Connection} (hne : commands ≠ [])
    (hpayload : commandListPayload commands = .ok bytes) (h : conn.framing.Takes bytes) :
    (conn.commandList commands).2.framing.writer.written =
      conn.framing.writer.written ++ bytes := by
  rw [Connection.commandList, if_neg (by simpa using hne), hpayload]
  exact exchange_written h ..

theorem commandListOk_written {conn : Connection} (hne : commands ≠ [])
    (hpayload : commandListOkPayload commands = .ok bytes) (h : conn.framing.Takes bytes) :
    (conn.commandListOk commands).2.framing.writer.written =
      conn.framing.writer.written ++ bytes := by
  rw [Connection.commandListOk, if_neg (by simpa using hne), hpayload]
  exact exchange_written h ..

end EvoAudio.Mpd
