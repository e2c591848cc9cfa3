import EvoAudio.Lib.Text

/-!
# The MPD line protocol

Command serialisation and response parsing, the pure functions of
`evo-mpd-shared/src/protocol.rs`. Commands go out as bytes, response lines come
in as text with their newline already stripped by the framing layer.
-/

namespace EvoAudio.Mpd

open Text

def lineMax : Nat := 64 * 1024

def newline : UInt8 := byte '\n'

structure Field where
  key : List Char
  value : List Char
  deriving DecidableEq, Repr

inductive ClassifiedLine where
  | ok
  | listOk
  | ack (code listPosition : UInt32) (command message : List Char)
  | field (field : Field)
  deriving DecidableEq, Repr

/-- The variants of `ProtocolError` that commands and responses raise. -/
inductive ProtocolError where
  | lineTooLong (len limit : Nat)
  | nonUtf8 (bytes : Nat)
  | malformedKeyValue (line : List Char)
  | malformedAck (line : List Char)
  | commandForbiddenChar (ch : Char)
  | unexpectedListOk
  | missingField (field : List Char)
  deriving DecidableEq, Repr

-- ---------------------------------------------------------------------------
-- Commands
-- ---------------------------------------------------------------------------

/-- The characters that cannot be placed on the wire at all. -/
def forbidden (ch : Char) : Bool :=
  ch == '\n' || ch == '\r' || ch == '\x00'

/-- The loop over `chars()` that opens both functions below. -/
def rejectForbidden (text : List Char) : Except ProtocolError Unit :=
  match text.find? forbidden with
  | some ch => .error (.commandForbiddenChar ch)
  | none => .ok ()

def escapeChar (ch : Char) : List UInt8 :=
  if ch = '\\' then [byte '\\', byte '\\']
  else if ch = '"' then [byte '\\', byte '"']
  else String.utf8EncodeChar ch

def encodeArgument (arg : List Char) : Except ProtocolError (List UInt8) := do
  rejectForbidden arg
  return byte '"' :: arg.flatMap escapeChar ++ [byte '"']

/-- The loop over `args`: a space and the encoded argument for each. -/
def encodeArguments : List (List Char) → Except ProtocolError (List UInt8)
  | [] => .ok []
  | arg :: rest => do
    let encoded ← encodeArgument arg
    let out ← encodeArguments rest
    return byte ' ' :: encoded ++ out

def serialiseCommand (command : List Char) (args : List (List Char)) :
    Except ProtocolError (List UInt8) := do
  rejectForbidden command
  let out ← encodeArguments args
  return encode command ++ out ++ [newline]

-- ---------------------------------------------------------------------------
-- Responses
-- ---------------------------------------------------------------------------

def parseFieldLine (line : List Char) : Except ProtocolError Field :=
  match splitOnce ": ".toList line with
  | none => .error (.malformedKeyValue line)
  | some (key, value) =>
    if key = [] then .error (.malformedKeyValue line) else .ok ⟨key, value⟩

/-- The parts of an `ACK` line, `none` where the source answers `MalformedAck`. -/
def ackParts (line : List Char) : Option ClassifiedLine := do
  let rest ← stripPrefix "ACK [".toList line
  let (codePos, rest) ← splitOnce "] ".toList rest
  let (codeS, posS) ← splitOnce ['@'] codePos
  let code ← parseU32 codeS
  let listPosition ← parseU32 posS
  let rest ← stripPrefix ['\x7b'] rest
  let (command, after) ← splitOnce ['\x7d'] rest
  return .ack code listPosition command ((stripPrefix [' '] after).getD after)

def parseAckLine (line : List Char) : Except ProtocolError ClassifiedLine :=
  match ackParts line with
  | some ack => .ok ack
  | none => .error (.malformedAck line)

def classifyLine (line : List Char) : Except ProtocolError ClassifiedLine :=
  if line = "OK".toList then .ok .ok
  else if line = "list_OK".toList then .ok .listOk
  else if "ACK [".toList <+: line then parseAckLine line
  else (parseFieldLine line).map .field

example : classifyLine "audio: 44100:24:2".toList =
    .ok (.field ⟨"audio".toList, "44100:24:2".toList⟩) := by decide

example : classifyLine "ACK [50@0] \x7badd\x7d [2] not found".toList =
    .ok (.ack 50 0 "add".toList "[2] not found".toList) := by decide

-- ---------------------------------------------------------------------------
-- What the server renders is read back
-- ---------------------------------------------------------------------------

def fieldLine (key value : List Char) : List Char :=
  key ++ (": ".toList ++ value)

def ackLine (code listPosition : UInt32) (command message : List Char) : List Char :=
  "ACK [".toList ++ (decimal code ++ '@' :: decimal listPosition ++ ("] ".toList ++
    ('\x7b' :: command ++ ('\x7d' :: ' ' :: message))))

theorem splitOnce_fieldLine (hkey : ¬ ": ".toList <:+: key) :
    splitOnce ": ".toList (fieldLine key value) = some (key, value) := by
  refine splitOnce_first (by simp) ?_
  rintro (_ | ⟨x, _ | ⟨y, t⟩⟩) ht hs hp
  · exact ht rfl
  · -- An occurrence that starts at the key's last character would need the
    -- separator's colon to be its space.
    simp [List.cons_prefix_cons] at hp
  · refine hkey (List.IsInfix.trans ?_ hs.isInfix)
    simp only [String.reduceToList, List.cons_append, List.cons_prefix_cons] at hp
    obtain ⟨rfl, rfl, -⟩ := hp
    exact ⟨[], t, rfl⟩

theorem classifyLine_fieldLine (hne : key ≠ []) (hkey : ¬ ": ".toList <:+: key)
    (hack : ¬ "ACK [".toList <+: fieldLine key value) :
    classifyLine (fieldLine key value) = .ok (.field ⟨key, value⟩) := by
  have hsplit : splitOnce ": ".toList (fieldLine key value) = some (key, value) :=
    splitOnce_fieldLine hkey
  have hok : fieldLine key value ≠ "OK".toList := by
    intro h
    rw [h] at hsplit
    exact absurd hsplit (by simp [splitOnce, List.cons_prefix_cons])
  have hlist : fieldLine key value ≠ "list_OK".toList := by
    intro h
    rw [h] at hsplit
    exact absurd hsplit (by simp [splitOnce, List.cons_prefix_cons])
  simp only [classifyLine, if_neg hok, if_neg hlist, if_neg hack, parseFieldLine, hsplit, if_neg hne]
  rfl

theorem notMem_decimal {c : Char} (h : c.isDigit = false) (n : UInt32) : c ∉ decimal n := by
  intro hc
  rw [isDigit_of_mem_decimal hc] at h
  exact Bool.noConfusion h

theorem ackParts_ackLine (hcommand : '\x7d' ∉ command) :
    ackParts (ackLine code listPosition command message) =
      some (.ack code listPosition command message) := by
  have hbracket : ']' ∉ decimal code ++ '@' :: decimal listPosition := by
    simp [notMem_decimal (c := ']') (by decide)]
  have hpair := @splitOnce_of_notMem _ _ ']' [' '] _
    ('\x7b' :: command ++ ('\x7d' :: ' ' :: message)) hbracket
  have hat := @splitOnce_of_notMem _ _ '@' [] _ (decimal listPosition)
    (notMem_decimal (by decide) code)
  have hbrace := @splitOnce_of_notMem _ _ '\x7d' [] _ (' ' :: message) hcommand
  have hopen := stripPrefix_append ['\x7b'] (command ++ '\x7d' :: ' ' :: message)
  have hspace := stripPrefix_append [' '] message
  have htag := stripPrefix_append "ACK [".toList (decimal code ++ '@' :: decimal listPosition ++
    ']' :: ' ' :: '\x7b' :: (command ++ '\x7d' :: ' ' :: message))
  simp only [String.reduceToList, List.cons_append, List.nil_append, List.append_assoc] at *
  simp [ackParts, ackLine, htag, hpair, hat, hopen, hbrace, hspace, parseU32_decimal]

theorem classifyLine_ackLine (hcommand : '\x7d' ∉ command) :
    classifyLine (ackLine code listPosition command message) =
      .ok (.ack code listPosition command message) := by
  have hprefix : "ACK [".toList <+: ackLine code listPosition command message :=
    List.prefix_append _ _
  have hhead : (ackLine code listPosition command message).head? = some 'A' := rfl
  have hok : ackLine code listPosition command message ≠ "OK".toList :=
    ne_of_apply_ne List.head? (by rw [hhead]; decide)
  have hlist : ackLine code listPosition command message ≠ "list_OK".toList :=
    ne_of_apply_ne List.head? (by rw [hhead]; decide)
  rw [classifyLine, if_neg hok, if_neg hlist, if_pos hprefix, parseAckLine,
    ackParts_ackLine hcommand]

end EvoAudio.Mpd
