import EvoAudio.Mpd.Protocol

/-!
# Reading a command line back

The server's tokenizer: a command word, then parameters separated by
whitespace, bare or in double quotes, where a backslash in quotes takes the
next byte as it is. Like the server's, it works on bytes, and every byte up to
the space separates.
-/

namespace EvoAudio.Mpd

open Text

def isSpace (b : UInt8) : Bool :=
  b ≤ 0x20

inductive Mode where
  | word
  | gap
  | bare
  | quoted
  | escaped
  | closed
  deriving DecidableEq, Repr

/-- Extends the token being read. -/
def prepend (front : List UInt8) : List (List UInt8) → List (List UInt8)
  | [] => [front]
  | token :: tokens => (front ++ token) :: tokens

/-- The tokens from here on, the one being read first. -/
def scan : Mode → List UInt8 → Option (List (List UInt8))
  | .word, [] | .bare, [] => some [[]]
  | .gap, [] | .closed, [] => some []
  | .quoted, [] | .escaped, [] => none
  | .word, b :: rest =>
    if isSpace b then (scan .gap rest).map ([] :: ·) else (scan .word rest).map (prepend [b])
  | .gap, b :: rest =>
    if isSpace b then scan .gap rest
    else if b = byte '"' then scan .quoted rest
    else (scan .bare rest).map (prepend [b])
  | .bare, b :: rest =>
    if isSpace b then (scan .gap rest).map ([] :: ·)
    else if b = byte '"' then none
    else (scan .bare rest).map (prepend [b])
  | .quoted, b :: rest =>
    if b = byte '"' then (scan .closed rest).map ([] :: ·)
    else if b = byte '\\' then scan .escaped rest
    else (scan .quoted rest).map (prepend [b])
  | .escaped, b :: rest => (scan .quoted rest).map (prepend [b])
  -- A closing quote is followed by whitespace or by the end of the line.
  | .closed, b :: rest => if isSpace b then scan .gap rest else none

attribute [local grind =] scan

/-- The command word and the parameters of one line, without its newline. -/
def tokenise (line : List UInt8) : Option (List UInt8 × List (List UInt8)) :=
  match scan .word line with
  | some (word :: params) => if word = [] then none else some (word, params)
  | _ => none

example : tokenise (encode "find \"Album\" \"a\\\\\\\" b\"".toList) =
    some (encode "find".toList, [encode "Album".toList, encode "a\\\" b".toList]) := by decide

-- ---------------------------------------------------------------------------
-- Runs of the scanner
-- ---------------------------------------------------------------------------

theorem scan_word_append {word : List UInt8} (h : ∀ b ∈ word, isSpace b = false)
    (rest : List UInt8) (hrest : scan .word rest = some (token :: tokens)) :
    scan .word (word ++ rest) = some ((word ++ token) :: tokens) := by
  induction word with
  | nil => exact hrest
  | cons b word ih =>
    rw [List.forall_mem_cons] at h
    simp [scan, h.1, ih h.2, prepend]

theorem scan_quoted_append {bytes : List UInt8}
    (h : ∀ b ∈ bytes, b ≠ byte '"' ∧ b ≠ byte '\\') (rest : List UInt8)
    (hrest : scan .quoted rest = some (token :: tokens)) :
    scan .quoted (bytes ++ rest) = some ((bytes ++ token) :: tokens) := by
  induction bytes with
  | nil => exact hrest
  | cons b bytes ih =>
    rw [List.forall_mem_cons] at h
    simp [scan, h.1.1, h.1.2, ih h.2, prepend]

theorem utf8EncodeChar_plain {ch : Char} (hslash : ch ≠ '\\') (hquote : ch ≠ '"') :
    ∀ b ∈ String.utf8EncodeChar ch, b ≠ byte '"' ∧ b ≠ byte '\\' := by
  intro b hb
  by_cases hc : ch.toNat < 128
  · rw [utf8EncodeChar_ascii hc, List.mem_singleton] at hb
    subst hb
    rw [Ne, Ne, byte_inj hc (by decide), byte_inj hc (by decide)]
    exact ⟨hquote, hslash⟩
  · have hhigh := utf8EncodeChar_high (Nat.not_lt.mp hc) b hb
    constructor <;> rintro rfl <;> revert hhigh <;> decide

theorem scan_quoted_backslash (b : UInt8) (rest : List UInt8) :
    scan .quoted (byte '\\' :: b :: rest) = (scan .quoted rest).map (prepend [b]) := by
  have hne : byte '\\' ≠ byte '"' := by decide
  simp [scan, hne]

/-- An escaped character is read back as the character. -/
theorem scan_quoted_escapeChar (ch : Char) (rest : List UInt8)
    (hrest : scan .quoted rest = some (token :: tokens)) :
    scan .quoted (escapeChar ch ++ rest) =
      some ((String.utf8EncodeChar ch ++ token) :: tokens) := by
  by_cases hslash : ch = '\\'
  · subst hslash
    rw [utf8EncodeChar_ascii (by decide)]
    simp [escapeChar, scan_quoted_backslash, hrest, prepend]
  by_cases hquote : ch = '"'
  · subst hquote
    rw [utf8EncodeChar_ascii (by decide)]
    simp [escapeChar, scan_quoted_backslash, hrest, prepend]
  · rw [escapeChar, if_neg hslash, if_neg hquote]
    exact scan_quoted_append (utf8EncodeChar_plain hslash hquote) rest hrest

theorem scan_quoted_argument (arg : List Char) (rest : List UInt8)
    (hrest : scan .closed rest = some tokens) :
    scan .quoted (arg.flatMap escapeChar ++ byte '"' :: rest) = some (encode arg :: tokens) := by
  induction arg with
  | nil => simp [scan, hrest]
  | cons ch arg ih =>
    rw [List.flatMap_cons, List.append_assoc, encode_cons]
    exact scan_quoted_escapeChar ch _ ih

-- ---------------------------------------------------------------------------
-- One serialised command
-- ---------------------------------------------------------------------------

def quotedArgument (arg : List Char) : List UInt8 :=
  byte ' ' :: byte '"' :: (arg.flatMap escapeChar ++ [byte '"'])

/-- The line `serialise_command` emits when it accepts every part. -/
def commandLine (command : List Char) (args : List (List Char)) : List UInt8 :=
  encode command ++ args.flatMap quotedArgument

theorem encodeArguments_eq (args : List (List Char)) :
    encodeArguments args =
      match args.flatten.find? forbidden with
      | some ch => .error (.commandForbiddenChar ch)
      | none => .ok (args.flatMap quotedArgument) := by
  induction args with
  | nil => rfl
  | cons arg args ih =>
    rw [encodeArguments, ih, encodeArgument, rejectForbidden, List.flatten_cons, List.find?_append,
      List.flatMap_cons]
    cases arg.find? forbidden with
    | some ch => rfl
    | none =>
      cases args.flatten.find? forbidden with
      | some ch => rfl
      | none => rfl

/-- The first forbidden character of the command and its arguments decides. -/
theorem serialiseCommand_eq (command : List Char) (args : List (List Char)) :
    serialiseCommand command args =
      match (command :: args).flatten.find? forbidden with
      | some ch => .error (.commandForbiddenChar ch)
      | none => .ok (commandLine command args ++ [newline]) := by
  rw [serialiseCommand, encodeArguments_eq, rejectForbidden, List.flatten_cons, List.find?_append]
  cases command.find? forbidden with
  | some ch => rfl
  | none =>
    cases args.flatten.find? forbidden with
    | some ch => rfl
    | none => rfl

theorem serialiseCommand_error_iff (command : List Char) (args : List (List Char)) :
    (∃ e, serialiseCommand command args = .error e) ↔
      ∃ part ∈ command :: args, ∃ ch ∈ part, forbidden ch := by
  have hsome : (((command :: args).flatten.find? forbidden).isSome = true) ↔
      ∃ part ∈ command :: args, ∃ ch ∈ part, forbidden ch := by
    simp only [List.find?_isSome, List.mem_flatten]
    constructor
    · rintro ⟨ch, ⟨part, hpart, hch⟩, hf⟩
      exact ⟨part, hpart, ch, hch, hf⟩
    · rintro ⟨part, hpart, ch, hch, hf⟩
      exact ⟨ch, ⟨part, hpart, hch⟩, hf⟩
  rw [← hsome, serialiseCommand_eq]
  cases (command :: args).flatten.find? forbidden <;> simp

theorem serialiseCommand_ok (h : serialiseCommand command args = .ok bytes) :
    bytes = commandLine command args ++ [newline] := by
  rw [serialiseCommand_eq] at h
  split at h
  · exact absurd h (by simp)
  · exact (Except.ok.inj h).symm

-- ---------------------------------------------------------------------------
-- The emitted line
-- ---------------------------------------------------------------------------

theorem scan_closed_arguments (args : List (List Char)) :
    scan .closed (args.flatMap quotedArgument) = some (args.map encode) := by
  induction args with
  | nil => rfl
  | cons arg args ih =>
    have hspace : isSpace (byte ' ') = true := by decide
    have hquote : isSpace (byte '"') = false := by decide
    have harg := scan_quoted_argument arg _ ih
    simp only [List.flatMap_cons, quotedArgument, List.cons_append, List.append_assoc,
      List.nil_append]
    simp [scan, hspace, hquote, harg]

/-- The command word ends where the arguments begin. -/
theorem scan_word_arguments (args : List (List Char)) :
    scan .word (args.flatMap quotedArgument) = some ([] :: args.map encode) := by
  have hclosed := scan_closed_arguments args
  cases args with
  | nil => rfl
  | cons arg args =>
    have hspace : isSpace (byte ' ') = true := by decide
    simp only [List.flatMap_cons, quotedArgument, List.cons_append, scan, hspace, if_true]
      at hclosed ⊢
    rw [hclosed]
    rfl

theorem scan_word_sound (h : scan .word bytes = some (word :: params)) :
    ∀ b ∈ word, isSpace b = false := by
  induction bytes generalizing word params with
  | nil =>
    simp only [scan, Option.some.injEq, List.cons.injEq] at h
    simp [← h.1]
  | cons b bytes ih =>
    rw [scan] at h
    split at h
    · simp only [Option.map_eq_some_iff, List.cons.injEq] at h
      obtain ⟨-, -, rfl, -⟩ := h
      simp
    · rename_i hb
      rw [Option.map_eq_some_iff] at h
      obtain ⟨_ | ⟨token, tokens⟩, hscan, heq⟩ := h
      · simp only [prepend, List.cons.injEq] at heq
        simpa [← heq.1] using hb
      · simp only [prepend, List.cons.injEq] at heq
        obtain ⟨rfl, -⟩ := heq
        simpa using ⟨by simpa using hb, ih hscan⟩

/-- The words the callers hand over as a command. -/
def WordShaped (command : List Char) : Prop :=
  ∀ ch ∈ command, ch ≠ ' ' ∧ forbidden ch = false

instance : DecidablePred WordShaped :=
  fun command => List.decidableBAll (fun ch => ch ≠ ' ' ∧ forbidden ch = false) command

/-- A command word the tokenizer can hold: not empty, and without the control
characters, which the comment over `serialise_command` has it reject. -/
def Printable (command : List Char) : Prop :=
  command ≠ [] ∧ ∀ ch ∈ command, 0x20 ≤ ch.toNat

instance : DecidablePred Printable :=
  fun command =>
    have := List.decidableBAll (fun ch : Char => 0x20 ≤ ch.toNat) command
    inferInstanceAs (Decidable (command ≠ [] ∧ ∀ ch ∈ command, 0x20 ≤ ch.toNat))

theorem noSpace_encode_iff (text : List Char) :
    (∀ b ∈ encode text, isSpace b = false) ↔ ∀ ch ∈ text, 0x20 < ch.toNat := by
  have hascii : ∀ b, isSpace b = true → b.toNat < 128 := by
    intro b hb
    have : b.toNat ≤ 0x20 := UInt8.le_iff_toNat_le.mp (by simpa [isSpace] using hb)
    omega
  have hbyte : ∀ ch : Char, ch.toNat < 128 ∧ isSpace (byte ch) = true ↔ ch.toNat ≤ 0x20 := by
    intro ch
    constructor
    · rintro ⟨hlt, hs⟩
      rw [← byte_toNat hlt]
      exact UInt8.le_iff_toNat_le.mp (by simpa [isSpace] using hs)
    · intro hle
      have hlt : ch.toNat < 128 := by omega
      refine ⟨hlt, ?_⟩
      rw [isSpace, decide_eq_true_eq, UInt8.le_iff_toNat_le, byte_toNat hlt]
      exact hle
  have h := not_congr (exists_mem_encode hascii text)
  simpa [hbyte] using h

theorem tokenise_commandLine_iff (hword : WordShaped command) (args : List (List Char)) :
    tokenise (commandLine command args) = some (encode command, args.map encode) ↔
      Printable command := by
  constructor
  · intro h
    unfold tokenise at h
    split at h
    · rename_i word params hscan
      split at h
      · exact absurd h (by simp)
      · rename_i hne
        obtain ⟨rfl, -⟩ := Prod.mk.inj (Option.some.inj h)
        have hspace := (noSpace_encode_iff command).mp (scan_word_sound hscan)
        refine ⟨?_, fun ch hch => (hspace ch hch).le⟩
        rintro rfl
        exact hne rfl
    · exact absurd h (by simp)
  · rintro ⟨hne, hctl⟩
    have hspace : ∀ ch ∈ command, 0x20 < ch.toNat := by
      intro ch hch
      refine lt_of_le_of_ne (hctl ch hch) ?_
      intro h
      exact (hword ch hch).1 (Char.toNat_inj.mp h.symm)
    have hscan := scan_word_append ((noSpace_encode_iff command).mpr hspace) _
      (scan_word_arguments args)
    have hne' : encode command ≠ [] := fun h => hne (encode_injective h)
    rw [tokenise, commandLine, hscan, List.append_nil]
    simp [hne']

theorem newline_mem_escapeChar (h : newline ∈ escapeChar ch) : ch = '\n' := by
  unfold escapeChar at h
  split at h
  · exact absurd h (by decide)
  · split at h
    · exact absurd h (by decide)
    · have hmem : newline ∈ encode [ch] := by simpa using h
      exact (List.mem_singleton.mp ((byte_mem_encode (by decide)).mp hmem)).symm

theorem newline_notMem_commandLine (h : ∀ part ∈ command :: args, '\n' ∉ part) :
    newline ∉ commandLine command args := by
  rw [List.forall_mem_cons] at h
  rw [commandLine, List.mem_append, not_or]
  constructor
  · exact fun hmem => h.1 ((byte_mem_encode (by decide)).mp hmem)
  · rw [List.mem_flatMap]
    rintro ⟨arg, harg, hmem⟩
    simp only [quotedArgument, List.mem_cons, List.mem_append, List.mem_flatMap, List.not_mem_nil,
      or_false] at hmem
    obtain heq | heq | ⟨ch, hch, hesc⟩ | heq := hmem
    · exact absurd heq (by decide)
    · exact absurd heq (by decide)
    · rw [newline_mem_escapeChar hesc] at hch
      exact h.2 arg harg hch
    · exact absurd heq (by decide)

theorem newline_notMem_of_ok (h : serialiseCommand command args = .ok bytes) :
    newline ∉ commandLine command args := by
  refine newline_notMem_commandLine ?_
  intro part hpart hmem
  obtain ⟨e, he⟩ := (serialiseCommand_error_iff command args).mpr
    ⟨part, hpart, '\n', hmem, by decide⟩
  rw [h] at he
  exact absurd he (by simp)

end EvoAudio.Mpd
