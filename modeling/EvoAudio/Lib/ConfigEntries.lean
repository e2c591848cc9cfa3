import EvoAudio.Lib.ConfigText

/-!
# Entries of configuration texts

Entries are a key with a value or a key with a block of entries. They are read from their
tokens and from no others (`parse_iff`), so a text that is written from parts is read as the
entries meant by it if and only if its values are plain.
-/

namespace ConfigText

variable {D : Dialect}

-- ---------------------------------------------------------------------------
-- Entries
-- ---------------------------------------------------------------------------

inductive Value where
  | bare (w : List Char)
  | quoted (w : List Char)
deriving DecidableEq, Repr

def Value.token : Value → Token
  | .bare w => .word w
  | .quoted w => .quoted w

inductive Entry where
  | leaf (key : List Char) (value : Value)
  | block (key : List Char) (entries : List Entry)

mutual
def Entry.tokens : Entry → List Token
  | .leaf key value => [.word key, value.token]
  | .block key entries => .word key :: .opens :: (tokensOf entries ++ [.closes])
def tokensOf : List Entry → List Token
  | [] => []
  | entry :: entries => entry.tokens ++ tokensOf entries
end

/-- The blocks that are open, the innermost first, each with its key and the entries in front of
it, and the entries of the innermost so far. -/
def parse : List (List Char × List Entry) → List Entry → List Token → Option (List Entry)
  | [], done, [] => some done
  | stack, done, .word key :: .opens :: toks => parse ((key, done) :: stack) [] toks
  | stack, done, .word key :: .word w :: toks => parse stack (done ++ [.leaf key (.bare w)]) toks
  | stack, done, .word key :: .quoted w :: toks =>
    parse stack (done ++ [.leaf key (.quoted w)]) toks
  | (key, outer) :: stack, done, .closes :: toks => parse stack (outer ++ [.block key done]) toks
  | _, _, _ => none

theorem tokensOf_append (a b : List Entry) : tokensOf (a ++ b) = tokensOf a ++ tokensOf b := by
  induction a with
  | nil => rfl
  | cons entry a ih => rw [List.cons_append, tokensOf, tokensOf, ih, List.append_assoc]

mutual
theorem parse_tokens (entry : Entry) (stack : List (List Char × List Entry)) (done : List Entry)
    (toks : List Token) :
    parse stack done (entry.tokens ++ toks) = parse stack (done ++ [entry]) toks := by
  cases entry with
  | leaf key value => cases value <;> simp [Entry.tokens, Value.token, parse]
  | block key entries =>
    have hinner := parse_tokensOf entries ((key, done) :: stack) [] (.closes :: toks)
    simpa [Entry.tokens, parse] using hinner
theorem parse_tokensOf (entries : List Entry) (stack : List (List Char × List Entry))
    (done : List Entry) (toks : List Token) :
    parse stack done (tokensOf entries ++ toks) = parse stack (done ++ entries) toks := by
  cases entries with
  | nil => simp [tokensOf]
  | cons entry entries =>
    rw [tokensOf, List.append_assoc, parse_tokens entry, parse_tokensOf entries,
      List.append_assoc, List.singleton_append]
end

/-- What has been read of the blocks that are open. -/
def openTokens : List (List Char × List Entry) → List Token
  | [] => []
  | (key, outer) :: stack => openTokens stack ++ (tokensOf outer ++ [.word key, .opens])

theorem tokens_of_parse (h : parse stack done toks = some entries) :
    tokensOf entries = openTokens stack ++ (tokensOf done ++ toks) := by
  induction stack, done, toks using parse.induct with
  | case1 done =>
    rw [parse] at h
    obtain rfl := Option.some.inj h
    simp [openTokens]
  | case2 stack done key toks ih =>
    rw [parse] at h
    simpa [openTokens, tokensOf] using ih h
  | case3 stack done key w toks ih =>
    rw [parse] at h
    simpa [tokensOf_append, tokensOf, Entry.tokens, Value.token] using ih h
  | case4 stack done key w toks ih =>
    rw [parse] at h
    simpa [tokensOf_append, tokensOf, Entry.tokens, Value.token] using ih h
  | case5 key outer stack done toks ih =>
    rw [parse] at h
    simpa [openTokens, tokensOf_append, tokensOf, Entry.tokens] using ih h
  | case6 stack done toks => simp [parse] at h

/-- Entries are read from their tokens and from no others. -/
theorem parse_iff : parse [] [] toks = some entries ↔ toks = tokensOf entries := by
  constructor
  · intro h
    exact (tokens_of_parse h).symm
  · rintro rfl
    have := parse_tokensOf entries [] [] []
    simpa [parse] using this

-- ---------------------------------------------------------------------------
-- Reading
-- ---------------------------------------------------------------------------

/-- One directive a line: a key with a quoted value, a key that opens a block, or the end of
one. Without the line breaks. -/
def directiveLines : List Token → Option (List Token)
  | [] => some []
  | .newline :: toks => directiveLines toks
  | .word key :: .quoted w :: .newline :: toks =>
    (directiveLines toks).map ([.word key, .quoted w] ++ ·)
  | .word key :: .opens :: .newline :: toks =>
    (directiveLines toks).map ([.word key, .opens] ++ ·)
  | .closes :: .newline :: toks => (directiveLines toks).map ([.closes] ++ ·)
  | _ => none

theorem filter_of_directiveLines (h : directiveLines toks = some found) :
    toks.filter (· ≠ .newline) = found := by
  induction toks using directiveLines.induct generalizing found with
  | case1 => simpa [directiveLines] using h
  | case2 toks ih =>
    rw [directiveLines] at h
    simpa using ih h
  | case3 key w toks ih =>
    rw [directiveLines] at h
    obtain ⟨found', h', rfl⟩ := Option.map_eq_some_iff.mp h
    simpa using ih h'
  | case4 key toks ih =>
    rw [directiveLines] at h
    obtain ⟨found', h', rfl⟩ := Option.map_eq_some_iff.mp h
    simpa using ih h'
  | case5 toks ih =>
    rw [directiveLines] at h
    obtain ⟨found', h', rfl⟩ := Option.map_eq_some_iff.mp h
    simpa using ih h'
  | case6 toks => simp [directiveLines] at h

variable (D) in
/-- Entries of which each directive has a line of its own. -/
def Dialect.readLines (text : List Char) : Option (List Entry) :=
  ((D.lex text).bind directiveLines).bind (parse [] [])

variable (D) in
def Dialect.read (text : List Char) : Option (List Entry) := (D.lex text).bind (parse [] [])

theorem readLines_iff : D.readLines text = some entries ↔
    ∃ toks, D.lex text = some toks ∧ directiveLines toks = some (tokensOf entries) := by
  simp only [Dialect.readLines, Option.bind_eq_some_iff, parse_iff]
  constructor
  · rintro ⟨_, ⟨toks, hlex, hlines⟩, rfl⟩
    exact ⟨toks, hlex, hlines⟩
  · rintro ⟨toks, hlex, hlines⟩
    exact ⟨_, ⟨toks, hlex, hlines⟩, rfl⟩

theorem read_iff : D.read text = some entries ↔ D.lex text = some (tokensOf entries) := by
  simp [Dialect.read, Option.bind_eq_some_iff, parse_iff]

theorem clean_nil : Clean [] := List.not_mem_nil

theorem Written.readLines_iff (h : Written D text toks values)
    (hlines : directiveLines toks = some (tokensOf entries)) :
    D.readLines text = some entries ↔ ∀ v ∈ values, D.Plain v := by
  rw [ConfigText.readLines_iff]
  constructor
  · rintro ⟨found, hlex, hfound⟩
    have hsame : found.filter (· ≠ .newline) = toks.filter (· ≠ .newline) ++ [] := by
      rw [filter_of_directiveLines hfound, filter_of_directiveLines hlines, List.append_nil]
    exact h.plain_of_lex (· ≠ .newline) (by simp) clean_nil (by rwa [List.append_nil]) hsame
  · intro hplain
    have hlex := h.lex hplain []
    rw [List.append_nil] at hlex
    exact ⟨toks, by rw [hlex]; simp [Dialect.lex, Dialect.lexFrom, Dialect.run, Mode.close], hlines⟩

theorem Written.read_iff (h : Written D text toks values) (hlast : Clean last)
    (htoks : tokensOf entries = toks ++ more) :
    D.read (text ++ last) = some entries ↔
      (∀ v ∈ values, D.Plain v) ∧ D.lex last = some more := by
  rw [ConfigText.read_iff, htoks]
  constructor
  · intro hlex
    have hsame : (toks ++ more).filter (fun _ => true) = toks.filter (fun _ => true) ++ more := by
      simp
    have hplain := h.plain_of_lex (fun _ => true) (fun _ => rfl) hlast hlex hsame
    rw [h.lex hplain] at hlex
    obtain ⟨more', hmore, heq⟩ := Option.map_eq_some_iff.mp hlex
    exact ⟨hplain, by rw [hmore, List.append_cancel_left heq]⟩
  · rintro ⟨hplain, hmore⟩
    rw [h.lex hplain, hmore, Option.map_some]

-- ---------------------------------------------------------------------------
-- Writing lines
-- ---------------------------------------------------------------------------

def quotedLine (lead : String) (v : List Char) : List Char :=
  lead.toList ++ '"' :: (v ++ "\"\n".toList)

variable (D) in
def Dialect.lineEnd : List Token := if D.lines then [.newline] else []

theorem run_lineEnd : D.run .between ['\n'] = (D.lineEnd, .between) := by
  simp [Dialect.run, Dialect.step, Dialect.outside, Dialect.lineEnd]

theorem Written.text (fixed : D.Fixed t toks) : Written D t toks [] := by
  simpa using Written.part fixed .nil

/-- A word at the end of a line. -/
theorem Written.wordLine {lead : String} (fixed : D.Fixed lead.toList toks) {w : List Char}
    (hne : w ≠ []) (hw : ∀ c ∈ w, delimits c = false ∧ c ≠ '\\') :
    Written D (lead.toList ++ (w ++ "\n".toList)) (toks ++ .word w :: D.lineEnd) [] := by
  have hstart : D.run .between w = ([], .word w) := by
    obtain ⟨c, v, rfl⟩ := List.exists_cons_of_ne_nil hne
    obtain ⟨⟨hc, -⟩, hv⟩ := List.forall_mem_cons.mp hw
    have hstep : D.step .between c = ([], .word [c]) := by
      simp only [delimits, Bool.or_eq_false_iff, beq_eq_false_iff_ne] at hc
      simp [Dialect.step, Dialect.outside, hc]
    simp [Dialect.run, hstep, run_word [c] fun c hc => (hv c hc).1]
  have hend : D.run (.word w) ['\n'] = (.word w :: D.lineEnd, .between) := by
    have houtside : D.outside '\n' = (D.lineEnd, .between) := if_pos rfl
    have hstep : D.step (.word w) '\n' = (.word w :: D.lineEnd, .between) := by
      rw [Dialect.step, if_pos (by decide), houtside]
    rw [Dialect.run, Dialect.run, hstep, List.append_nil]
  have hword : D.run .between (w ++ ['\n']) = (.word w :: D.lineEnd, .between) := by
    rw [run_append, hstart, hend, List.nil_append]
  have hquotes : '"' ∉ w ++ ['\n'] := by
    simp only [List.mem_append, List.mem_singleton, not_or]
    exact ⟨fun hmem => by simpa [delimits] using (hw _ hmem).1, by decide⟩
  have hbacks : '\\' ∉ w ++ ['\n'] := by
    simp only [List.mem_append, List.mem_singleton, not_or]
    exact ⟨fun hmem => (hw _ hmem).2 rfl, by decide⟩
  simpa using Written.part fixed (.part ⟨hquotes, hbacks, hword⟩ .nil)

theorem Written.line {lead : String} (fixed : D.Fixed lead.toList toks) (v : List Char) :
    Written D (quotedLine lead v) (toks ++ .quoted v :: D.lineEnd) [v] := by
  have hend : Written D ['\n'] D.lineEnd [] := by
    simpa using Written.part ⟨by decide, by decide, run_lineEnd⟩ .nil
  have := Written.part fixed (.value v hend)
  simpa [quotedLine] using this

end ConfigText
