import EvoAudio.Mpd.Connection

/-!
# Replies

What the server sends for a command or a batch, as values that can only be
built from texts that survive the trip, and that the client reads back what was
sent, in whatever chunks it arrives.
-/

namespace EvoAudio.Mpd

open Text

/-- A field the server can send: the line is one line, has its separator where
the key ends, and is not taken for an `ACK`. -/
structure WireField where
  key : List Char
  value : List Char
  keyNonempty : key ≠ []
  keyNoSeparator : ¬ ": ".toList <:+: key
  keyNoNewline : '\n' ∉ key
  valueNoNewline : '\n' ∉ value
  valueNoCr : value.getLast? ≠ some '\r'
  notAck : ¬ "ACK [".toList <+: fieldLine key value
  fits : (encode (fieldLine key value)).length < lineMax

structure WireAck where
  code : UInt32
  listPosition : UInt32
  command : List Char
  message : List Char
  commandNoBrace : '\x7d' ∉ command
  commandNoNewline : '\n' ∉ command
  messageNoNewline : '\n' ∉ message
  messageNoCr : message.getLast? ≠ some '\r'
  fits : (encode (ackLine code listPosition command message)).length < lineMax

inductive ReplyLine where
  | ok
  | listOk
  | ack (ack : WireAck)
  | field (field : WireField)

def WireField.field (f : WireField) : Field :=
  ⟨f.key, f.value⟩

def WireAck.error (a : WireAck) : MpdError :=
  .ack a.code a.listPosition a.command a.message

def ReplyLine.text : ReplyLine → List Char
  | .ok => "OK".toList
  | .listOk => "list_OK".toList
  | .ack a => ackLine a.code a.listPosition a.command a.message
  | .field f => fieldLine f.key f.value

def ReplyLine.classified : ReplyLine → ClassifiedLine
  | .ok => .ok
  | .listOk => .listOk
  | .ack a => .ack a.code a.listPosition a.command a.message
  | .field f => .field f.field

def render (reply : List ReplyLine) : List UInt8 :=
  reply.flatMap fun line => encode line.text ++ [newline]

theorem classifyLine_text (line : ReplyLine) : classifyLine line.text = .ok line.classified := by
  cases line with
  | ok | listOk => rfl
  | ack a => exact classifyLine_ackLine a.commandNoBrace
  | field f => exact classifyLine_fieldLine f.keyNonempty f.keyNoSeparator f.notAck

theorem newline_notMem_text (line : ReplyLine) : '\n' ∉ line.text := by
  cases line with
  | ok | listOk => decide
  | ack a =>
    have hdigits : ∀ n, '\n' ∉ decimal n := notMem_decimal (by decide)
    change '\n' ∉ ackLine a.code a.listPosition a.command a.message
    simp [ackLine, hdigits, a.commandNoNewline, a.messageNoNewline]
  | field f =>
    change '\n' ∉ fieldLine f.key f.value
    simp [fieldLine, f.keyNoNewline, f.valueNoNewline]

theorem stripCr_space (front : List Char) {tail : List Char} (h : tail.getLast? ≠ some '\r') :
    stripCr (front ++ ' ' :: tail) = front ++ ' ' :: tail := by
  have hlast : (front ++ ' ' :: tail).getLast? ≠ some '\r' := by
    rw [List.getLast?_append_of_ne_nil _ (by simp), List.getLast?_cons]
    cases hl : tail.getLast? with
    | none => decide
    | some ch => simpa [hl] using h
  rw [stripCr, if_neg hlast]

theorem stripCr_text (line : ReplyLine) : stripCr line.text = line.text := by
  cases line with
  | ok | listOk => decide
  | ack a =>
    have hstrip := stripCr_space ("ACK [".toList ++ (decimal a.code ++
      '@' :: decimal a.listPosition ++ ("] ".toList ++ ('\x7b' :: a.command ++ ['\x7d']))))
      a.messageNoCr
    change stripCr (ackLine a.code a.listPosition a.command a.message) = ackLine _ _ _ _
    simpa [ackLine] using hstrip
  | field f =>
    have hstrip := stripCr_space (f.key ++ [':']) f.valueNoCr
    change stripCr (fieldLine f.key f.value) = fieldLine f.key f.value
    simpa [fieldLine] using hstrip

theorem text_fits (line : ReplyLine) : (encode line.text).length < lineMax := by
  cases line with
  | ok | listOk => decide
  | ack a => exact a.fits
  | field f => exact f.fits

def ReplyLine.lineText (line : ReplyLine) : LineText :=
  ⟨line.text, newline_notMem_text line, text_fits line⟩

-- ---------------------------------------------------------------------------
-- The loop on a reply that has arrived
-- ---------------------------------------------------------------------------

section Loop

variable {σ ρ : Type} (onLine : σ → ClassifiedLine → Next σ ρ) (writer : Writer) (budget : Nat)
  (operation : String)

theorem feed_append (state : σ) (front back : List ClassifiedLine) :
    feed onLine state (front ++ back) =
      match feed onLine state front with
      | .more state' => feed onLine state' back
      | .done result => .done result := by
  induction front generalizing state with
  | nil => rfl
  | cons line front ih =>
    rw [List.cons_append, feed, feed]
    cases onLine state line with
    | more state' => exact ih state'
    | done result => rfl

/-- One turn of the loop on a line that has arrived whole. -/
theorem replyLoop_line (line : LineText) (h : reader.available = line.bytes ++ rest) (state : σ) :
    ∃ reader', reader'.available = rest ∧
      replyLoop budget operation onLine state ⟨reader, writer⟩ =
        match onText onLine state (stripCr line.text) with
        | .more state' => replyLoop budget operation onLine state' ⟨reader', writer⟩
        | .done result => (result, ⟨reader', writer⟩) := by
  obtain ⟨reader', hrest, hread⟩ := readLine_bytes line h writer budget operation
  refine ⟨reader', hrest, ?_⟩
  rw [replyLoop]
  split
  · rename_i e framing heq
    rw [hread] at heq
    exact absurd (congrArg Prod.fst heq) (by simp)
  · rename_i text framing heq
    rw [hread] at heq
    obtain ⟨htext, rfl⟩ := Prod.mk.inj heq
    rw [← Except.ok.inj htext, onText]
    cases classifyLine (stripCr line.text) with
    | error e => rfl
    | ok classified => rfl

theorem onText_replyLine (line : ReplyLine) (state : σ) :
    onText onLine state (stripCr line.text) = onLine state line.classified := by
  rw [onText, stripCr_text, classifyLine_text]

theorem replyLoop_replyLine (line : ReplyLine)
    (h : reader.available = render [line] ++ rest) (state : σ) :
    ∃ reader', reader'.available = rest ∧
      replyLoop budget operation onLine state ⟨reader, writer⟩ =
        match onLine state line.classified with
        | .more state' => replyLoop budget operation onLine state' ⟨reader', writer⟩
        | .done result => (result, ⟨reader', writer⟩) := by
  have harrived : reader.available = line.lineText.bytes ++ rest := by
    rw [h]
    simp [render, ReplyLine.lineText, LineText.bytes]
  obtain ⟨reader', hrest, hloop⟩ :=
    replyLoop_line onLine writer budget operation line.lineText harrived state
  rw [show line.lineText.text = line.text from rfl, onText_replyLine] at hloop
  exact ⟨reader', hrest, hloop⟩

theorem replyLoop_body {body : List ReplyLine} {state state' : σ}
    (h : reader.available = render body ++ rest)
    (hbody : feed onLine state (body.map ReplyLine.classified) = .more state') :
    ∃ reader', reader'.available = rest ∧
      replyLoop budget operation onLine state ⟨reader, writer⟩ =
        replyLoop budget operation onLine state' ⟨reader', writer⟩ := by
  induction body generalizing reader state with
  | nil =>
    cases hbody
    exact ⟨reader, h, rfl⟩
  | cons line body ih =>
    have harrived : reader.available = render [line] ++ (render body ++ rest) := by
      simpa [render] using h
    obtain ⟨reader', hrest, hloop⟩ :=
      replyLoop_replyLine onLine writer budget operation line harrived state
    rw [List.map_cons, feed] at hbody
    cases hnext : onLine state line.classified with
    | done result =>
      rw [hnext] at hbody
      exact absurd hbody (by simp)
    | more state'' =>
      rw [hnext] at hbody hloop
      obtain ⟨reader'', hrest', hmore⟩ := ih hrest hbody
      exact ⟨reader'', hrest', hloop.trans hmore⟩

/-- A reply whose last line is the first to end the loop is read as a whole, and
what follows it is left for the next one. -/
theorem replyLoop_reply {body : List ReplyLine} {last : ReplyLine} {state state' : σ}
    {result : Except MpdError ρ}
    (h : reader.available = render (body ++ [last]) ++ rest)
    (hbody : feed onLine state (body.map ReplyLine.classified) = .more state')
    (hlast : onLine state' last.classified = .done result) :
    ∃ reader', reader'.available = rest ∧
      replyLoop budget operation onLine state ⟨reader, writer⟩ = (result, ⟨reader', writer⟩) := by
  have hsplit : reader.available = render body ++ (render [last] ++ rest) := by
    simpa [render] using h
  obtain ⟨reader', hrest, hmore⟩ :=
    replyLoop_body onLine writer budget operation hsplit hbody
  obtain ⟨reader'', hrest', hloop⟩ :=
    replyLoop_replyLine onLine writer budget operation last hrest state'
  rw [hlast] at hloop
  exact ⟨reader'', hrest', hmore.trans hloop⟩

end Loop

-- ---------------------------------------------------------------------------
-- Fields and groups
-- ---------------------------------------------------------------------------

/-- The reply to a batch: the fields of each command and its `list_OK`. -/
def groupBody (groups : List (List WireField)) : List ReplyLine :=
  groups.flatMap fun fields => fields.map .field ++ [.listOk]

theorem feed_collect_fields (finish : List Field → ρ) (fields : List WireField)
    (seen : List Field) :
    feed (collectLine finish) seen ((fields.map ReplyLine.field).map ReplyLine.classified) =
      .more (seen ++ fields.map WireField.field) := by
  induction fields generalizing seen with
  | nil => simp [feed]
  | cons f fields ih =>
    simp only [List.map_cons, ReplyLine.classified, feed, collectLine, ih, List.append_assoc,
      List.singleton_append]

theorem feed_group_fields (groups : List (List Field)) (fields : List WireField)
    (current : List Field) :
    feed groupLine (groups, current)
        ((fields.map ReplyLine.field).map ReplyLine.classified) =
      .more (groups, current ++ fields.map WireField.field) := by
  induction fields generalizing current with
  | nil => simp [feed]
  | cons f fields ih =>
    simp only [List.map_cons, ReplyLine.classified, feed, groupLine, ih, List.append_assoc,
      List.singleton_append]

theorem feed_groups (groups : List (List WireField)) (closed : List (List Field)) :
    feed groupLine (closed, []) ((groupBody groups).map ReplyLine.classified) =
      .more (closed ++ groups.map (List.map WireField.field), []) := by
  induction groups generalizing closed with
  | nil => simp [groupBody, feed]
  | cons fields groups ih =>
    have hbody : groupBody (fields :: groups) =
        fields.map ReplyLine.field ++ (ReplyLine.listOk :: groupBody groups) := by
      simp [groupBody]
    rw [hbody, List.map_append, feed_append, feed_group_fields]
    simp only [List.map_cons, ReplyLine.classified, feed, groupLine, ih, List.nil_append]
    simp

/-- A line that `command_list_ok` reads on from. -/
def ReplyLine.IsBody : ReplyLine → Prop
  | .listOk | .field _ => True
  | .ok | .ack _ => False

theorem feed_group_body {body : List ReplyLine} (h : ∀ line ∈ body, line.IsBody)
    (state : List (List Field) × List Field) :
    ∃ state', feed groupLine state (body.map ReplyLine.classified) = .more state' := by
  induction body generalizing state with
  | nil => exact ⟨state, rfl⟩
  | cons line body ih =>
    rw [List.forall_mem_cons] at h
    cases line with
    | listOk => exact ih h.2 _
    | field f => exact ih h.2 _
    | ok | ack a => exact h.1.elim

-- ---------------------------------------------------------------------------
-- The commands on a reply that has arrived
-- ---------------------------------------------------------------------------

theorem exchange_reply {conn : Connection} {onLine : σ → ClassifiedLine → Next σ ρ}
    {body : List ReplyLine} {last : ReplyLine} {result : Except MpdError ρ}
    (htakes : conn.framing.Takes bytes)
    (h : conn.framing.reader.available = render (body ++ [last]) ++ rest)
    (hbody : feed onLine state (body.map ReplyLine.classified) = .more state')
    (hlast : onLine state' last.classified = .done result) (writeOp readOp : String) :
    (conn.exchange (.ok bytes) writeOp readOp onLine state).1 = result ∧
      (conn.exchange (.ok bytes) writeOp readOp onLine state).2.framing.reader.available =
        rest := by
  obtain ⟨limit, hwrite⟩ := writeAll_takes htakes conn.commandTimeout writeOp
  obtain ⟨reader, hrest, hloop⟩ := replyLoop_reply onLine
    ⟨conn.framing.writer.written ++ bytes, limit⟩ conn.commandTimeout readOp h hbody hlast
  simp only [Connection.exchange, hwrite, hloop, hrest, and_self]

theorem dispatch_fields {conn : Connection} {fields : List WireField}
    (hpayload : serialiseCommand command args = .ok bytes) (htakes : conn.framing.Takes bytes)
    (h : conn.framing.reader.available = render (fields.map .field ++ [.ok]) ++ rest) :
    (conn.dispatch command args).1 = .ok (fields.map WireField.field) ∧
      (conn.dispatch command args).2.framing.reader.available = rest := by
  rw [Connection.dispatch, hpayload]
  exact exchange_reply htakes h (feed_collect_fields id fields []) rfl ..

theorem dispatch_ack {conn : Connection} {fields : List WireField} {ack : WireAck}
    (hpayload : serialiseCommand command args = .ok bytes) (htakes : conn.framing.Takes bytes)
    (h : conn.framing.reader.available = render (fields.map .field ++ [.ack ack]) ++ rest) :
    (conn.dispatch command args).1 = .error ack.error := by
  rw [Connection.dispatch, hpayload]
  exact (exchange_reply htakes h (feed_collect_fields id fields []) rfl ..).1

theorem commandList_ack {conn : Connection} {fields : List WireField} {ack : WireAck}
    (hne : commands ≠ []) (hpayload : commandListPayload commands = .ok bytes)
    (htakes : conn.framing.Takes bytes)
    (h : conn.framing.reader.available = render (fields.map .field ++ [.ack ack]) ++ rest) :
    (conn.commandList commands).1 = .error ack.error := by
  rw [Connection.commandList, if_neg (by simpa using hne), hpayload]
  exact (exchange_reply htakes h (feed_collect_fields _ fields []) rfl ..).1

theorem commandListOk_groups {conn : Connection} {groups : List (List WireField)}
    (hne : commands ≠ []) (hpayload : commandListOkPayload commands = .ok bytes)
    (htakes : conn.framing.Takes bytes)
    (h : conn.framing.reader.available = render (groupBody groups ++ [.ok]) ++ rest) :
    (conn.commandListOk commands).1 = .ok (groups.map (List.map WireField.field)) ∧
      (conn.commandListOk commands).2.framing.reader.available = rest := by
  rw [Connection.commandListOk, if_neg (by simpa using hne), hpayload]
  exact exchange_reply htakes h (feed_groups groups []) rfl ..

theorem commandListOk_ack {conn : Connection} {body : List ReplyLine} {ack : WireAck}
    (hne : commands ≠ []) (hpayload : commandListOkPayload commands = .ok bytes)
    (htakes : conn.framing.Takes bytes) (hbody : ∀ line ∈ body, line.IsBody)
    (h : conn.framing.reader.available = render (body ++ [.ack ack]) ++ rest) :
    (conn.commandListOk commands).1 = .error ack.error := by
  obtain ⟨state', hfeed⟩ := feed_group_body hbody ([], [])
  rw [Connection.commandListOk, if_neg (by simpa using hne), hpayload]
  exact (exchange_reply htakes h hfeed rfl ..).1

/-- However a reply is cut into chunks, `command_list_ok` hands each command of a
batch its own fields, and an `ACK` anywhere in a reply is the error returned. -/
theorem reply_read_back :
    (∀ (replies : List (Command × List WireField)) (conn : Connection) (bytes rest : List UInt8),
      commandListOkPayload (replies.map Prod.fst) = .ok bytes → conn.framing.Takes bytes →
      conn.framing.reader.available =
        render (groupBody (replies.map Prod.snd) ++ [.ok]) ++ rest →
      (conn.commandListOk (replies.map Prod.fst)).1 =
        .ok (replies.map fun reply => reply.2.map WireField.field)) ∧
    (∀ (commands : List Command) (conn : Connection) (bytes rest : List UInt8)
        (body : List ReplyLine) (ack : WireAck),
      commands ≠ [] → commandListOkPayload commands = .ok bytes → conn.framing.Takes bytes →
      (∀ line ∈ body, line.IsBody) →
      conn.framing.reader.available = render (body ++ [.ack ack]) ++ rest →
      (conn.commandListOk commands).1 = .error ack.error) ∧
    (∀ (command : Command) (conn : Connection) (bytes rest : List UInt8)
        (fields : List WireField) (ack : WireAck),
      serialiseCommand command.1 command.2 = .ok bytes → conn.framing.Takes bytes →
      conn.framing.reader.available = render (fields.map .field ++ [.ack ack]) ++ rest →
      (conn.dispatch command.1 command.2).1 = .error ack.error) := by
  refine ⟨?_, ?_, ?_⟩
  · intro replies conn bytes rest hpayload htakes h
    cases replies with
    | nil => rfl
    | cons reply replies =>
      have hgroups := (commandListOk_groups (by simp) hpayload htakes h).1
      rw [List.map_map] at hgroups
      exact hgroups
  · intro commands conn bytes rest body ack hne hpayload htakes hbody h
    exact commandListOk_ack hne hpayload htakes hbody h
  · intro command conn bytes rest fields ack hpayload htakes h
    exact dispatch_ack hpayload htakes h

/-- A field with the separator, a leading space and a terminator's name in its
value, cut in the middle of its line. -/
def titleField : WireField where
  key := "Title".toList
  value := " OK: list_OK".toList
  keyNonempty := by decide
  keyNoSeparator := by decide
  keyNoNewline := by decide
  valueNoNewline := by decide
  valueNoCr := by decide
  notAck := by decide
  fits := by decide

def noSuchSong : WireAck where
  code := 50
  listPosition := 1
  command := "add".toList
  message := "[2] No such song".toList
  commandNoBrace := by decide
  commandNoNewline := by decide
  messageNoNewline := by decide
  messageNoCr := by decide
  fits := by decide

/-- A connection on which these bytes wait in two chunks. -/
def twoChunks (cut : Nat) (bytes : List UInt8) : Connection :=
  let arrivals := [bytes.take cut, bytes.drop cut].filterMap fun
    | [] => none
    | head :: tail => some (.chunk head tail)
  { framing := { reader := ⟨[], arrivals⟩, writer := ⟨[], none⟩ }, commandTimeout := 5000 }

theorem takes_twoChunks (cut : Nat) (bytes payload : List UInt8) :
    (twoChunks cut bytes).framing.Takes payload := by
  intro room fault h
  exact absurd h (by simp [twoChunks])

theorem reply_read_back_title :
    ((twoChunks 7 (render [.field titleField, .listOk, .listOk, .ok])).commandListOk
        [("currentsong".toList, []), ("ping".toList, [])]).1 =
      .ok [[titleField.field], []] ∧
    ((twoChunks 7 (render [.field titleField, .listOk, .ack noSuchSong])).commandListOk
        [("currentsong".toList, []), ("add".toList, ["x".toList])]).1 =
      .error noSuchSong.error ∧
    ((twoChunks 7 (render [.field titleField, .ack noSuchSong])).dispatch
        "add".toList ["x".toList]).1 =
      .error noSuchSong.error := by
  refine ⟨?_, ?_, ?_⟩
  · exact reply_read_back.1 [(("currentsong".toList, []), [titleField]), (("ping".toList, []), [])]
      _ _ [] rfl (takes_twoChunks _ _ _) (by decide)
  · exact reply_read_back.2.1 _ _ _ [] [.field titleField, .listOk] noSuchSong (by simp) rfl
      (takes_twoChunks _ _ _) (by simp [ReplyLine.IsBody]) (by decide)
  · exact reply_read_back.2.2 ("add".toList, ["x".toList]) _ _ [] [titleField] noSuchSong rfl
      (takes_twoChunks _ _ _) (by decide)

theorem commandListOk_line {conn : Connection} {result : Except MpdError (List (List Field))}
    (line : LineText) (rest : List UInt8) (hne : commands ≠ [])
    (hpayload : commandListOkPayload commands = .ok bytes) (htakes : conn.framing.Takes bytes)
    (h : conn.framing.reader.available = line.bytes ++ rest)
    (hdone : onText groupLine ([], []) (stripCr line.text) = .done result) :
    (conn.commandListOk commands).1 = result := by
  obtain ⟨limit, hwrite⟩ := writeAll_takes htakes conn.commandTimeout "command_list_ok_write"
  obtain ⟨reader, -, hloop⟩ := replyLoop_line groupLine
    ⟨conn.framing.writer.written ++ bytes, limit⟩ conn.commandTimeout "command_list_ok_response"
    line h ([], [])
  rw [hdone] at hloop
  rw [Connection.commandListOk, if_neg (by simpa using hne), hpayload]
  simp only [Connection.exchange, hwrite, hloop]

/-- The texts a reply cannot carry: a newline in a key ends its line early, a
brace in an `ACK` ends the command there, and a last carriage return is taken
for part of the line end. -/
theorem unsendable_texts :
    ("a\nb".toList ≠ [] ∧ ¬ ": ".toList <:+: "a\nb".toList ∧
      ¬ "ACK [".toList <+: fieldLine "a\nb".toList "c".toList ∧
      fieldLine "a\nb".toList "c".toList ≠ "OK".toList ∧
      fieldLine "a\nb".toList "c".toList ≠ "list_OK".toList ∧
      '\n' ∉ "c".toList ∧ "c".toList.getLast? ≠ some '\r' ∧
      (encode (fieldLine "a\nb".toList "c".toList)).length < lineMax) ∧
    ((twoChunks 2 (encode (fieldLine "a\nb".toList "c".toList) ++ [newline] ++
        render [.listOk, .ok])).commandListOk [("stats".toList, [])]).1 =
      .error (.protocol (.malformedKeyValue "a".toList)) ∧
    ((twoChunks 2 (encode (ackLine 5 0 "a\x7db".toList "no".toList) ++
        [newline])).commandListOk [("stats".toList, [])]).1 =
      .error (.ack 5 0 "a".toList "b\x7d no".toList) ∧
    ((twoChunks 2 (encode (ackLine 5 0 "add".toList "no\r".toList) ++
        [newline])).commandListOk [("stats".toList, [])]).1 =
      .error (.ack 5 0 "add".toList "no".toList) := by
  refine ⟨by decide, ?_, ?_, ?_⟩
  · exact commandListOk_line ⟨"a".toList, by decide, by decide⟩
      (encode (fieldLine "b".toList "c".toList) ++ [newline] ++ render [.listOk, .ok])
      (by simp) rfl (takes_twoChunks _ _ _) (by decide) rfl
  · exact commandListOk_line ⟨ackLine 5 0 "a\x7db".toList "no".toList, by decide, by decide⟩ []
      (by simp) rfl (takes_twoChunks _ _ _) (by decide) rfl
  · exact commandListOk_line ⟨ackLine 5 0 "add".toList "no\r".toList, by decide, by decide⟩ []
      (by simp) rfl (takes_twoChunks _ _ _) (by decide) rfl

end EvoAudio.Mpd
