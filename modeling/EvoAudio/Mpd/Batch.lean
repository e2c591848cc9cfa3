import EvoAudio.Mpd.Tokenizer

/-!
# Command list payloads

The bytes `command_list` and `command_list_ok` write for a batch, and what the
server reads out of them: one line for each command, between the line that
opens the list and the one that ends it.
-/

namespace EvoAudio.Mpd

open Text

/-- A command word and its arguments, one entry of a batch. -/
abbrev Command := List Char × List (List Char)

def serialiseAll : List Command → Except ProtocolError (List UInt8)
  | [] => .ok []
  | (cmd, args) :: rest => do
    let bytes ← serialiseCommand cmd args
    let payload ← serialiseAll rest
    return bytes ++ payload

def batchPayload (opener : List Char) (commands : List Command) :
    Except ProtocolError (List UInt8) := do
  let payload ← serialiseAll commands
  return encode opener ++ payload ++ encode "command_list_end\n".toList

def commandListPayload (commands : List Command) : Except ProtocolError (List UInt8) :=
  batchPayload "command_list_begin\n".toList commands

def commandListOkPayload (commands : List Command) : Except ProtocolError (List UInt8) :=
  batchPayload "command_list_ok_begin\n".toList commands

/-- The complete lines of what the server has received. -/
def lines : List UInt8 → List (List UInt8)
  | [] => []
  | b :: rest =>
    if b = newline then [] :: lines rest
    else
      match lines rest with
      | [] => []
      | line :: more => (b :: line) :: more

def unlines (ls : List (List UInt8)) : List UInt8 :=
  ls.flatMap fun line => line ++ [newline]

theorem lines_append {line : List UInt8} (h : newline ∉ line) (rest : List UInt8) :
    lines (line ++ newline :: rest) = line :: lines rest := by
  induction line with
  | nil => simp [lines]
  | cons b line ih =>
    rw [List.mem_cons, not_or] at h
    simp [lines, Ne.symm h.1, ih h.2]

theorem lines_unlines {ls : List (List UInt8)} (h : ∀ line ∈ ls, newline ∉ line) :
    lines (unlines ls) = ls := by
  induction ls with
  | nil => rfl
  | cons line ls ih =>
    rw [List.forall_mem_cons] at h
    have htail := lines_append h.1 (unlines ls)
    rw [ih h.2] at htail
    simpa [unlines] using htail

-- ---------------------------------------------------------------------------
-- What a batch serialises to
-- ---------------------------------------------------------------------------

theorem bind_eq_ok {x : Except ε α} {f : α → Except ε β} :
    (x >>= f) = .ok b ↔ ∃ a, x = .ok a ∧ f a = .ok b := by
  cases x <;> simp [bind, Except.bind]

theorem bind_eq_error {x : Except ε α} {f : α → Except ε β} :
    (x >>= f) = .error e ↔ x = .error e ∨ ∃ a, x = .ok a ∧ f a = .error e := by
  cases x <;> simp [bind, Except.bind]

def Command.line (command : Command) : List UInt8 :=
  commandLine command.1 command.2

/-- Some part of some command cannot be placed on the wire. -/
def HasForbidden (commands : List Command) : Prop :=
  ∃ command ∈ commands, ∃ part ∈ command.1 :: command.2, ∃ ch ∈ part, forbidden ch

theorem serialiseAll_error_iff (commands : List Command) :
    (∃ e, serialiseAll commands = .error e) ↔ HasForbidden commands := by
  induction commands with
  | nil => simp [serialiseAll, HasForbidden]
  | cons command commands ih =>
    obtain ⟨cmd, args⟩ := command
    rw [HasForbidden, List.exists_mem_cons_iff, ← serialiseCommand_error_iff, ← HasForbidden, ← ih]
    simp only [serialiseAll, bind_eq_error, pure, Except.pure, reduceCtorEq, and_false, exists_false,
      or_false]
    constructor
    · rintro ⟨e, hhead | ⟨bytes, -, htail⟩⟩
      · exact .inl ⟨e, hhead⟩
      · exact .inr ⟨e, htail⟩
    · rintro (⟨e, hhead⟩ | ⟨e, htail⟩)
      · exact ⟨e, .inl hhead⟩
      · cases hhead : serialiseCommand cmd args with
        | error e' => exact ⟨e', .inl rfl⟩
        | ok bytes => exact ⟨e, .inr ⟨bytes, rfl, htail⟩⟩

theorem serialiseAll_ok (h : serialiseAll commands = .ok payload) :
    payload = unlines (commands.map Command.line) ∧
      ∀ line ∈ commands.map Command.line, newline ∉ line := by
  induction commands generalizing payload with
  | nil =>
    cases h
    exact ⟨rfl, by simp⟩
  | cons command commands ih =>
    obtain ⟨cmd, args⟩ := command
    simp only [serialiseAll, bind_eq_ok] at h
    obtain ⟨bytes, hs, tail, ht, hpayload⟩ := h
    cases hpayload
    obtain ⟨rfl, hlines⟩ := ih ht
    rw [serialiseCommand_ok hs, List.map_cons, List.forall_mem_cons]
    exact ⟨rfl, newline_notMem_of_ok hs, hlines⟩

theorem lines_batchPayload {opener : List Char} (hopener : newline ∉ encode opener)
    (h : batchPayload (opener ++ ['\n']) commands = .ok bytes) :
    bytes = unlines (lines bytes) ∧
      lines bytes =
        encode opener :: (commands.map Command.line ++ [encode "command_list_end".toList]) := by
  simp only [batchPayload, bind_eq_ok] at h
  obtain ⟨payload, hs, hbytes⟩ := h
  cases hbytes
  obtain ⟨rfl, hlines⟩ := serialiseAll_ok hs
  have hall : ∀ line ∈ encode opener ::
      (commands.map Command.line ++ [encode "command_list_end".toList]), newline ∉ line := by
    intro line hline
    rw [List.mem_cons, List.mem_append, List.mem_singleton] at hline
    obtain rfl | hline | rfl := hline
    · exact hopener
    · exact hlines line hline
    · decide
  have hbytes : encode (opener ++ ['\n']) ++ unlines (commands.map Command.line) ++
      encode "command_list_end\n".toList =
        unlines (encode opener ::
          (commands.map Command.line ++ [encode "command_list_end".toList])) := by
    have hnl : encode ['\n'] = [newline] := by decide
    simp [unlines, hnl]
  rw [hbytes, lines_unlines hall]
  exact ⟨rfl, rfl⟩

-- ---------------------------------------------------------------------------
-- Injection
-- ---------------------------------------------------------------------------

/-- What the tokenizer should read for a command. -/
def Command.tokens (command : Command) : Option (List UInt8 × List (List UInt8)) :=
  some (encode command.1, command.2.map encode)

def HasForbiddenArgument (commands : List Command) : Prop :=
  ∃ command ∈ commands, ∃ arg ∈ command.2, ∃ ch ∈ arg, forbidden ch

/-- A command is refused for a forbidden character and nothing else, and goes
out as one line that reads back as the command and its arguments. -/
def SerialisesExactly (command : Command) : Prop :=
  ((∃ e, serialiseCommand command.1 command.2 = .error e) ↔ HasForbidden [command]) ∧
    ∀ bytes, serialiseCommand command.1 command.2 = .ok bytes →
      ∃ line, bytes = line ++ [newline] ∧ newline ∉ line ∧ tokenise line = command.tokens

/-- A batch is refused for a forbidden character and nothing else, and goes out
as a line that opens the list, one line for each command in order, and the line
that ends it. -/
def BatchExact (opener : List Char) (commands : List Command)
    (payload : Except ProtocolError (List UInt8)) : Prop :=
  ((∃ e, payload = .error e) ↔ HasForbidden commands) ∧
    ∀ bytes, payload = .ok bytes →
      bytes = unlines (lines bytes) ∧ (lines bytes).length = commands.length + 2 ∧
        (lines bytes).map tokenise =
          Command.tokens (opener, []) ::
            (commands.map Command.tokens ++ [Command.tokens ("command_list_end".toList, [])])

theorem hasForbidden_iff_argument (hwords : ∀ command ∈ commands, WordShaped command.1) :
    HasForbidden commands ↔ HasForbiddenArgument commands := by
  constructor
  · rintro ⟨command, hcommand, part, hpart, ch, hch, hf⟩
    rw [List.mem_cons] at hpart
    obtain rfl | hpart := hpart
    · rw [(hwords command hcommand ch hch).2] at hf
      exact absurd hf (by simp)
    · exact ⟨command, hcommand, part, hpart, ch, hch, hf⟩
  · rintro ⟨command, hcommand, arg, harg, ch, hch, hf⟩
    exact ⟨command, hcommand, arg, List.mem_cons_of_mem _ harg, ch, hch, hf⟩

theorem serialisesExactly_iff {command : Command} (hword : WordShaped command.1) :
    SerialisesExactly command ↔ HasForbiddenArgument [command] ∨ Printable command.1 := by
  have herr : (∃ e, serialiseCommand command.1 command.2 = .error e) ↔ HasForbidden [command] := by
    rw [serialiseCommand_error_iff, HasForbidden]
    simp
  have hiff : HasForbidden [command] ↔ HasForbiddenArgument [command] :=
    hasForbidden_iff_argument (by simpa using hword)
  constructor
  · rintro ⟨-, hok⟩
    by_cases hbad : HasForbiddenArgument [command]
    · exact .inl hbad
    · right
      cases hs : serialiseCommand command.1 command.2 with
      | error e => exact absurd (hiff.mp (herr.mp ⟨e, hs⟩)) hbad
      | ok bytes =>
        obtain ⟨line, hbytes, -, htok⟩ := hok bytes hs
        rw [serialiseCommand_ok hs, List.append_left_inj] at hbytes
        rw [← hbytes] at htok
        exact (tokenise_commandLine_iff hword command.2).mp htok
  · intro h
    refine ⟨herr, ?_⟩
    intro bytes hs
    refine ⟨command.line, serialiseCommand_ok hs, newline_notMem_of_ok hs, ?_⟩
    obtain hbad | hprint := h
    · obtain ⟨e, he⟩ := herr.mpr (hiff.mpr hbad)
      rw [hs] at he
      exact absurd he (by simp)
    · exact (tokenise_commandLine_iff hword command.2).mpr hprint

theorem batchPayload_error_iff (opener : List Char) (commands : List Command) :
    (∃ e, batchPayload opener commands = .error e) ↔ HasForbidden commands := by
  rw [← serialiseAll_error_iff]
  simp only [batchPayload, bind_eq_error, pure, Except.pure, reduceCtorEq, and_false, exists_false,
    or_false]

theorem batchExact_iff {opener : List Char} (hopener : WordShaped opener)
    (hprint : Printable opener) (hwords : ∀ command ∈ commands, WordShaped command.1) :
    BatchExact opener commands (batchPayload (opener ++ ['\n']) commands) ↔
      HasForbiddenArgument commands ∨ ∀ command ∈ commands, Printable command.1 := by
  have herr := batchPayload_error_iff (opener ++ ['\n']) commands
  have hiff := hasForbidden_iff_argument hwords
  have hnl : newline ∉ encode opener := by
    intro h
    exact absurd (hopener _ ((byte_mem_encode (by decide)).mp h)).2 (by decide)
  have hopen : tokenise (encode opener) = Command.tokens (opener, []) := by
    have h := (tokenise_commandLine_iff hopener []).mpr hprint
    simpa [commandLine, Command.tokens] using h
  have hend : tokenise (encode "command_list_end".toList) =
      Command.tokens ("command_list_end".toList, []) := by decide
  -- Line by line, the tokens come back exactly when every word is printable.
  have htokens : (commands.map Command.line).map tokenise = commands.map Command.tokens ↔
      ∀ command ∈ commands, Printable command.1 := by
    rw [List.map_map, List.map_inj_left]
    refine forall₂_congr fun command hcommand => ?_
    exact tokenise_commandLine_iff (hwords command hcommand) command.2
  constructor
  · rintro ⟨-, hok⟩
    by_cases hbad : HasForbiddenArgument commands
    · exact .inl hbad
    · right
      cases hs : batchPayload (opener ++ ['\n']) commands with
      | error e => exact absurd (hiff.mp (herr.mp ⟨e, hs⟩)) hbad
      | ok bytes =>
        obtain ⟨-, -, hmap⟩ := hok bytes hs
        rw [(lines_batchPayload hnl hs).2] at hmap
        simp only [List.map_cons, List.map_append, List.map_nil, hopen, hend, List.cons.injEq,
          true_and, List.append_cancel_right_eq] at hmap
        exact htokens.mp hmap
  · intro h
    refine ⟨herr, ?_⟩
    intro bytes hs
    obtain ⟨hunlines, hlines⟩ := lines_batchPayload hnl hs
    refine ⟨hunlines, by simp [hlines], ?_⟩
    obtain hbad | hprint := h
    · obtain ⟨e, he⟩ := herr.mpr (hiff.mpr hbad)
      rw [hs] at he
      exact absurd he (by simp)
    · simp only [hlines, List.map_cons, List.map_append, List.map_nil, hopen, hend,
        htokens.mpr hprint]

/-- The server reads what was asked exactly when an argument is refused or every
command word is printable; `serialise_command` looks for three characters only. -/
theorem injection_free_iff_printable (command : Command) (hword : WordShaped command.1)
    (commands : List Command) (hwords : ∀ command ∈ commands, WordShaped command.1) :
    (SerialisesExactly command ↔ HasForbiddenArgument [command] ∨ Printable command.1) ∧
      (BatchExact "command_list_begin".toList commands (commandListPayload commands) ↔
        HasForbiddenArgument commands ∨ ∀ command ∈ commands, Printable command.1) ∧
      (BatchExact "command_list_ok_begin".toList commands (commandListOkPayload commands) ↔
        HasForbiddenArgument commands ∨ ∀ command ∈ commands, Printable command.1) := by
  refine ⟨serialisesExactly_iff hword, ?_, ?_⟩
  · exact batchExact_iff (by decide) (by decide) hwords
  · exact batchExact_iff (by decide) (by decide) hwords

/-- An argument full of quotes, backslashes and spaces stays one argument. -/
theorem injection_free_quotes :
    WordShaped "find".toList ∧
      SerialisesExactly ("find".toList, ["\\\" \"stop".toList, [], "a\\".toList]) ∧
      BatchExact "command_list_ok_begin".toList [("add".toList, ["x\" \"".toList])]
        (commandListOkPayload [("add".toList, ["x\" \"".toList])]) := by
  have hfind : WordShaped "find".toList := by decide
  have hall := injection_free_iff_printable
    ("find".toList, ["\\\" \"stop".toList, [], "a\\".toList]) hfind
    [("add".toList, ["x\" \"".toList])] (by decide)
  exact ⟨hfind, hall.1.mpr (.inr (by decide)), hall.2.2.mpr (.inr (by decide))⟩

/-- A tab passes the check of the command word and splits it on the wire. -/
theorem tab_splits_command :
    WordShaped "a\tb".toList ∧
      serialiseCommand "a\tb".toList [] = .ok (encode "a\tb".toList ++ [newline]) ∧
      tokenise (encode "a\tb".toList) = some (encode "a".toList, [encode "b".toList]) ∧
      ¬ SerialisesExactly ("a\tb".toList, []) := by
  refine ⟨by decide, by decide, by decide, ?_⟩
  rintro ⟨-, hok⟩
  obtain ⟨line, hbytes, -, htok⟩ := hok (encode "a\tb".toList ++ [newline]) (by decide)
  rw [List.append_left_inj] at hbytes
  rw [← hbytes] at htok
  exact absurd htok (by decide)

end EvoAudio.Mpd
