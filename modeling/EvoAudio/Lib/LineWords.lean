import EvoAudio.Lib.Lines
import Mathlib.Data.List.DropRight

/-!
# Words on lines

An expression that skips white space and then reads a word reads it at the start of
the next line that is not blank. What it does from there is said of that line.
-/

namespace Lines

open Regex

/-- A text without white space. -/
structure Word (word : List Char) : Prop where
  ne_nil : word ≠ []
  noSpace : ∀ x ∈ word, Text.isWhitespace x = false

/-- What stands behind a word at the start of a line. -/
def leading (word line : List Char) : Option (List Char) :=
  Text.stripPrefix word (line.dropWhile Text.isWhitespace)

/-- The word is all that stands on the line. -/
def alone (word line : List Char) : Bool := Text.trim line == word

theorem Word.oneLine {word : List Char} (h : Word word) : '\n' ∉ word :=
  fun hmem => absurd (h.noSpace _ hmem) (by decide)

theorem Word.not_blank {word : List Char} (h : Word word) : blank word = false := by
  obtain ⟨x, hx⟩ := List.exists_mem_of_ne_nil word h.ne_nil
  exact not_blank_of_mem hx (h.noSpace x hx)

theorem Word.append {word more : List Char} (h : Word word)
    (hmore : ∀ x ∈ more, Text.isWhitespace x = false) : Word (word ++ more) where
  ne_nil := List.append_ne_nil_of_left_ne_nil h.ne_nil more
  noSpace := by
    intro x hx
    rcases List.mem_append.mp hx with hx | hx
    · exact h.noSpace x hx
    · exact hmore x hx

-- ---------------------------------------------------------------------------
-- Reading a word
-- ---------------------------------------------------------------------------

theorem stripPrefix_nil_left (text : List Char) : Text.stripPrefix [] text = some text :=
  Text.stripPrefix_append [] text

theorem stripPrefix_nil_right {word : List Char} (h : word ≠ []) :
    Text.stripPrefix word [] = none := by
  refine Text.stripPrefix_eq_none ?_
  rw [List.prefix_nil]
  exact h

theorem stripPrefix_cons_cons (y x : Char) (word text : List Char) :
    Text.stripPrefix (y :: word) (x :: text) =
      if y = x then Text.stripPrefix word text else none := by
  by_cases h : y = x <;> simp [Text.stripPrefix, List.cons_prefix_cons, h]

theorem stripPrefix_append_left (word more text : List Char) :
    Text.stripPrefix (word ++ more) text =
      (Text.stripPrefix word text).bind (Text.stripPrefix more) := by
  induction word generalizing text with
  | nil => rw [List.nil_append, stripPrefix_nil_left, Option.bind_some]
  | cons y word ih =>
    cases text with
    | nil => rw [stripPrefix_nil_right (by simp), stripPrefix_nil_right (by simp), Option.bind_none]
    | cons x text =>
      rw [List.cons_append, stripPrefix_cons_cons, stripPrefix_cons_cons, ih]
      split <;> simp

/-- A word on a line is not read past its newline. -/
theorem stripPrefix_behind {word : List Char} (h : '\n' ∉ word) (text : List Char) (line : Line)
    (rest : List Char) :
    Text.stripPrefix word (text ++ line.behind rest) =
      (Text.stripPrefix word text).map (· ++ line.behind rest) := by
  induction word generalizing text with
  | nil => rw [stripPrefix_nil_left, stripPrefix_nil_left, Option.map_some]
  | cons y word ih =>
    rw [List.mem_cons, not_or] at h
    cases text with
    | nil =>
      rw [stripPrefix_nil_right (by simp), List.nil_append, Line.behind]
      split
      · rw [stripPrefix_cons_cons, if_neg (Ne.symm h.1), Option.map_none]
      · rw [stripPrefix_nil_right (by simp), Option.map_none]
    | cons x text =>
      rw [List.cons_append, stripPrefix_cons_cons, stripPrefix_cons_cons, ih h.2]
      split <;> simp

theorem Word.stuck {β : Type} {k : Cursor → Option β} {r : List Atom} {word : List Char}
    (h : Word word) (lineStart : Bool) (x : Char) (xs : List Char) (hx : Text.isWhitespace x) :
    follow (lit word :: r) k ⟨lineStart, x :: xs⟩ = none := by
  obtain ⟨y, word, rfl⟩ := List.exists_cons_of_ne_nil h.ne_nil
  have hne : y ≠ x := by
    rintro rfl
    rw [h.noSpace y (List.mem_cons_self ..)] at hx
    cases hx
  rw [follow_lit, stripPrefix_cons_cons, if_neg hne, Option.bind_none]

theorem after_oneLine {word : List Char} (hne : word ≠ []) (h : '\n' ∉ word) (c : Cursor)
    (rest : List Char) : c.after word rest = ⟨false, rest⟩ := by
  have hlast : word.getLast? = some (word.getLast hne) := List.getLast?_eq_some_getLast _
  have hnl : word.getLast hne ≠ '\n' := fun heq => h (heq ▸ List.getLast_mem hne)
  rw [Cursor.after, hlast]
  simp [hnl]

section Follow

variable {β : Type} {k : Cursor → Option β} {r : List Atom} {word : List Char}
  {text rest : List Char} {line : Line}

/-- White space and a word: the word starts the next line. -/
theorem follow_word (h : Word word) (hnext : Next text line rest) (lineStart : Bool) :
    follow (.many Text.isWhitespace :: lit word :: r) k ⟨lineStart, text⟩ =
      (leading word line.text).bind fun more => follow r k ⟨false, more ++ line.behind rest⟩ := by
  rw [follow_many_of_stuck h.stuck, follow_lit, rest_skip, hnext.dropWhile_eq,
    stripPrefix_behind h.oneLine, leading]
  cases Text.stripPrefix word (line.text.dropWhile Text.isWhitespace) with
  | none => rfl
  | some more => simp [after_oneLine h.ne_nil h.oneLine]

theorem follow_word_blank (h : Word word) (hblank : text.dropWhile Text.isWhitespace = [])
    (lineStart : Bool) :
    follow (.many Text.isWhitespace :: lit word :: r) k ⟨lineStart, text⟩ = none := by
  rw [follow_many_of_stuck h.stuck, follow_lit, rest_skip, hblank, stripPrefix_nil_right h.ne_nil,
    Option.bind_none]

end Follow

-- ---------------------------------------------------------------------------
-- The rest of a line
-- ---------------------------------------------------------------------------

section Rest

variable {text rest more : List Char} {line : Line}

theorem leading_eq_some {word : List Char} (h : leading word line.text = some more) :
    line.text.dropWhile Text.isWhitespace = word ++ more :=
  Text.stripPrefix_eq_some h

theorem Next.oneLine_leading {word : List Char} (hnext : Next text line rest)
    (h : leading word line.text = some more) : '\n' ∉ more := by
  intro hmem
  have hdrop : '\n' ∈ line.text.dropWhile Text.isWhitespace := by
    rw [leading_eq_some h]
    exact List.mem_append_right _ hmem
  exact hnext.oneLine ((List.dropWhile_suffix _).subset hdrop)

theorem firstLine_behind (h : '\n' ∉ more) : firstLine (more ++ line.behind rest) = more := by
  rw [Line.behind]
  split
  · exact firstLine_append h rest
  · rw [List.append_nil]
    exact firstLine_last h

theorem newline_mem_behind (h : '\n' ∉ more) :
    '\n' ∈ more ++ line.behind rest ↔ line.ended = true := by
  rw [List.mem_append, Line.behind]
  cases line.ended <;> simp [h]

theorem solid_append_behind (hline : '\n' ∉ more) (hblank : blank more)
    (hlast : line.ended = false → rest = []) : solid (more ++ line.behind rest) = solid rest := by
  cases hended : line.ended with
  | true =>
    rw [Line.behind, hended]
    simp only [if_true]
    rw [solid_line hline, if_pos hblank]
  | false =>
    rw [Line.behind, hended, hlast hended]
    simp only [Bool.false_eq_true, if_false, List.append_nil]
    rw [solid_last hline, if_pos hblank, solid_nil]

/-- The rest of a line that is not blank is the next line. -/
theorem next_append_behind (hline : '\n' ∉ more) (hblank : blank more = false)
    (hlast : line.ended = false → rest = []) :
    Next (more ++ line.behind rest) ⟨more, line.ended⟩ rest := by
  have hne : more ≠ [] := by
    rintro rfl
    cases hblank
  cases hended : line.ended with
  | true =>
    have hbehind : line.behind rest = '\n' :: rest := by rw [Line.behind, hended, if_pos rfl]
    rw [hbehind]
    refine ⟨?_, hline, hblank, dropWhile_append_solid hblank _, ?_, by simp⟩
    · rw [solid_line hline, hblank]
      rfl
    · simp
      omega
  | false =>
    have hbehind : line.behind rest = [] := by
      rw [Line.behind, hended]
      rfl
    rw [hbehind, List.append_nil, hlast hended]
    refine ⟨?_, hline, hblank, ?_, ?_, fun _ => rfl⟩
    · rw [solid_last hline, hblank]
      rfl
    · simp [Line.behind]
    · exact List.length_pos_iff.mpr hne

/-- A line with another one behind it has its newline. -/
theorem Next.ended_before {next : Line} {far : List Char} (h : Next rest next far)
    (hlast : line.ended = false → rest = []) : line.ended = true := by
  rw [← Bool.not_eq_false]
  intro hopen
  have hshorter := h.shorter
  rw [hlast hopen] at hshorter
  exact absurd hshorter (Nat.not_lt_zero _)

/-- Behind a blank rest comes the line after it. -/
theorem Next.behind_blank {next : Line} {far : List Char} (h : Next rest next far)
    (hline : '\n' ∉ more) (hblank : blank more) (hlast : line.ended = false → rest = []) :
    Next (more ++ line.behind rest) next far := by
  have hbehind : line.behind rest = '\n' :: rest := by
    rw [Line.behind, h.ended_before hlast, if_pos rfl]
  have hnl : Text.isWhitespace '\n' = true := by decide
  refine ⟨?_, h.oneLine, h.notBlank, ?_, ?_, h.last⟩
  · rw [solid_append_behind hline hblank hlast]
    exact h.solid_eq
  · rw [hbehind, dropWhile_blank hblank, List.dropWhile_cons, if_pos hnl]
    exact h.dropWhile_eq
  · have hshorter := h.shorter
    rw [hbehind, List.length_append, List.length_cons]
    omega

theorem dropWhile_behind_blank (hblank : blank more)
    (h : rest.dropWhile Text.isWhitespace = []) :
    (more ++ line.behind rest).dropWhile Text.isWhitespace = [] := by
  have hnl : Text.isWhitespace '\n' = true := by decide
  rw [dropWhile_blank hblank, Line.behind]
  split
  · rw [List.dropWhile_cons, if_pos hnl, h]
  · rfl

end Rest

/-- Nothing, or the carriage return of a newline. -/
def endOfLine (more : List Char) : Bool := more.isEmpty || more == ['\r']

section Literal

variable {β : Type} {k : Cursor → Option β} {r : List Atom} {word more rest : List Char}
  {line : Line}

theorem follow_lit_behind (hne : word ≠ []) (h : '\n' ∉ word) (lineStart : Bool) :
    follow (lit word :: r) k ⟨lineStart, more ++ line.behind rest⟩ =
      (Text.stripPrefix word more).bind fun far =>
        follow r k ⟨false, far ++ line.behind rest⟩ := by
  rw [follow_lit, stripPrefix_behind h]
  cases Text.stripPrefix word more with
  | none => rfl
  | some far => simp [after_oneLine hne h]

theorem follow_newline_behind (h : '\n' ∉ more) (lineStart : Bool) :
    follow (lit ['\n'] :: r) k ⟨lineStart, more ++ line.behind rest⟩ =
      if more = [] ∧ line.ended then follow r k ⟨true, rest⟩ else none := by
  cases more with
  | nil =>
    rw [List.nil_append, Line.behind]
    cases line.ended with
    | false => exact follow_char_nil ..
    | true => simp [follow_char_cons]
  | cons x more =>
    rw [List.mem_cons, not_or] at h
    rw [List.cons_append, follow_char_cons, if_neg (Ne.symm h.1)]
    simp

/-- `\r?\n` -/
theorem follow_crNewline (h : '\n' ∉ more) (lineStart : Bool) :
    follow (optionalCr :: lit ['\n'] :: r) k ⟨lineStart, more ++ line.behind rest⟩ =
      if endOfLine more ∧ line.ended then follow r k ⟨true, rest⟩ else none := by
  rw [follow_optionalCr, follow_newline_behind h, follow_lit_behind (by simp) (by decide)]
  cases more with
  | nil => simp [endOfLine, Text.stripPrefix]
  | cons x more =>
    rw [List.mem_cons, not_or] at h
    by_cases hx : x = '\r'
    · subst hx
      rw [stripPrefix_cons_cons, if_pos rfl, stripPrefix_nil_left, Option.bind_some,
        follow_newline_behind h.2]
      simp [endOfLine]
    · rw [stripPrefix_cons_cons, if_neg (Ne.symm hx)]
      simp [endOfLine, hx]

end Literal

/-- Every text is a line and what is behind it. -/
theorem exists_line (text : List Char) :
    ∃ (line : Line) (rest : List Char), text = line.text ++ line.behind rest ∧
      '\n' ∉ line.text ∧ (line.ended = false → rest = []) := by
  obtain hline | ⟨line, rest, rfl, hline⟩ := line_cases text
  · exact ⟨⟨text, false⟩, [], by simp [Line.behind], hline, fun _ => rfl⟩
  · exact ⟨⟨line, true⟩, rest, rfl, hline, by simp⟩

-- ---------------------------------------------------------------------------
-- A word alone on its line
-- ---------------------------------------------------------------------------

theorem rdropWhile_append_blank (word : List Char) {more : List Char} (h : blank more) :
    (word ++ more).rdropWhile Text.isWhitespace = word.rdropWhile Text.isWhitespace := by
  induction more using List.reverseRecOn with
  | nil => rw [List.append_nil]
  | append_singleton more x ih =>
    rw [blank, List.all_append, Bool.and_eq_true] at h
    rw [← List.append_assoc, List.rdropWhile_concat_pos _ _ _ (by simpa using h.2), ih h.1]

theorem Word.rdropWhile {word : List Char} (h : Word word) :
    word.rdropWhile Text.isWhitespace = word := by
  rw [List.rdropWhile_eq_self_iff]
  intro hne
  rw [h.noSpace _ (List.getLast_mem hne)]
  exact Bool.false_ne_true

theorem alone_eq {word : List Char} (h : Word word) (line : List Char) :
    alone word line = (leading word line).any blank := by
  rw [Bool.eq_iff_iff, alone, beq_iff_eq, Text.trim, ← List.rdropWhile, leading]
  generalize line.dropWhile Text.isWhitespace = text
  constructor
  · rintro rfl
    have hsplit : text.rdropWhile Text.isWhitespace ++ text.rtakeWhile Text.isWhitespace = text :=
      List.rdropWhile_append_rtakeWhile
    have hstrip : Text.stripPrefix (text.rdropWhile Text.isWhitespace) text =
        some (text.rtakeWhile Text.isWhitespace) := by
      nth_rewrite 2 [← hsplit]
      exact Text.stripPrefix_append _ _
    rw [hstrip, Option.any_some, blank, List.all_eq_true]
    exact fun x hx => List.mem_rtakeWhile_imp hx
  · cases hstrip : Text.stripPrefix word text with
    | none => simp
    | some more =>
      intro hblank
      rw [Text.stripPrefix_eq_some hstrip, rdropWhile_append_blank word (by simpa using hblank),
        h.rdropWhile]

section Leading

variable {line word word' : List Char}

theorem leading_append (hword : Word word) (more : List Char) :
    leading word (word ++ more) = some more := by
  obtain ⟨x, word, rfl⟩ := List.exists_cons_of_ne_nil hword.ne_nil
  have hx : Text.isWhitespace x = false := hword.noSpace x (List.mem_cons_self ..)
  rw [leading, List.cons_append, List.dropWhile_cons, hx]
  exact Text.stripPrefix_append _ _

theorem prefix_of_leading (h : (leading word line).isSome) :
    word <+: line.dropWhile Text.isWhitespace := by
  obtain ⟨more, hmore⟩ := Option.isSome_iff_exists.mp h
  exact ⟨more, (Text.stripPrefix_eq_some hmore).symm⟩

/-- A line does not start with two words of which none starts the other. -/
theorem leading_eq_none (h : (leading word line).isSome)
    (hdiffer : ¬ (word <+: word' ∨ word' <+: word)) : leading word' line = none := by
  rw [← Option.not_isSome_iff_eq_none]
  exact fun h' => hdiffer (List.prefix_or_prefix_of_prefix (prefix_of_leading h)
    (prefix_of_leading h'))

theorem leading_of_alone (hword : Word word) (h : alone word line) :
    (leading word line).isSome := by
  rw [alone_eq hword] at h
  cases hlead : leading word line with
  | none => simp [hlead] at h
  | some more => rfl

theorem alone_eq_false (hword : Word word) (h : leading word line = none) :
    alone word line = false := by
  rw [alone_eq hword, h, Option.any_none]

theorem leading_of_blank (hword : Word word) (h : blank line) : leading word line = none := by
  have hdrop : line.dropWhile Text.isWhitespace = [] :=
    List.dropWhile_eq_nil_iff.mpr (List.all_eq_true.mp h)
  rw [leading, hdrop, stripPrefix_nil_right hword.ne_nil]

theorem not_blank_of_leading (hword : Word word) (h : (leading word line).isSome) :
    blank line = false := by
  rw [← Bool.not_eq_true]
  intro hblank
  rw [leading_of_blank hword hblank] at h
  cases h

theorem alone_unique (h : alone word line) (h' : alone word' line) : word = word' := by
  rw [alone, beq_iff_eq] at h h'
  exact h.symm.trans h'

end Leading

/-- The end of an expression matches a blank rest of a line, of an ended one
where it has to, and leaves the lines behind it. -/
structure Tail (tail : List Atom) (ok : Bool → Bool) (Q : Cursor → Prop) : Prop where
  first_eq : ∀ (lineStart : Bool) (more : List Char) (line : Line) (rest : List Char), '\n' ∉ more →
    (line.ended = false → rest = []) →
    if blank more ∧ ok line.ended then
      ∃ e, first tail ⟨lineStart, more ++ line.behind rest⟩ = some e ∧ Q e ∧
        solid e.rest = solid rest
    else first tail ⟨lineStart, more ++ line.behind rest⟩ = none

theorem tail_toNewline : Tail toNewline id fun e => e.lineStart = true where
  first_eq := by
    intro lineStart more line rest hline hlast
    have hend := first_toNewline lineStart (more ++ line.behind rest)
    simp only [firstLine_behind hline, newline_mem_behind hline] at hend
    rw [id_eq]
    split
    next hif =>
      rw [if_pos hif] at hend
      obtain ⟨rest', hfirst, hsolid, -⟩ := hend
      exact ⟨_, hfirst, rfl, hsolid.trans (solid_append_behind hline hif.1 hlast)⟩
    next hif =>
      rw [if_neg hif] at hend
      exact hend

theorem tail_toLineEnd :
    Tail toLineEnd (fun _ => true) fun e => e.rest = [] ∨ e.rest.head? = some '\n' where
  first_eq := by
    intro lineStart more line rest hline hlast
    have hend := first_toLineEnd lineStart (more ++ line.behind rest)
    rw [firstLine_behind hline] at hend
    simp only [and_true]
    split
    next hif =>
      rw [if_pos hif] at hend
      obtain ⟨lineStart', rest', hfirst, hsolid, hhead, -⟩ := hend
      exact ⟨_, hfirst, hhead, hsolid.trans (solid_append_behind hline hif hlast)⟩
    next hif =>
      rw [if_neg hif] at hend
      exact hend

section Tail

variable {tail : List Atom} {ok : Bool → Bool} {Q : Cursor → Prop} {key word text rest : List Char}
  {line : Line}

theorem first_alone (h : Word word) (htail : Tail tail ok Q) (hnext : Next text line rest)
    (lineStart : Bool) :
    if alone word line.text ∧ ok line.ended then
      ∃ e, first (.many Text.isWhitespace :: lit word :: tail) ⟨lineStart, text⟩ = some e ∧ Q e ∧
        solid e.rest = solid rest
    else first (.many Text.isWhitespace :: lit word :: tail) ⟨lineStart, text⟩ = none := by
  rw [first, follow_word h hnext, alone_eq h]
  cases hlead : leading word line.text with
  | none => simp
  | some more => exact htail.first_eq false more line rest (hnext.oneLine_leading hlead) hnext.last

theorem alone_append {values : List Char} (h : Word (key ++ values)) (line : List Char) :
    alone (key ++ values) line =
      ((leading key line).bind (Text.stripPrefix values)).any blank := by
  rw [alone_eq h, leading, stripPrefix_append_left, leading]

/-- One of some values and then a blank rest. -/
theorem first_values {values : List (List Char)} {more : List Char}
    (hvalues : ∀ value ∈ values, ∀ x ∈ value, Text.isWhitespace x = false)
    (htail : Tail tail ok Q) (hmore : '\n' ∉ more) (hlast : line.ended = false → rest = [])
    (lineStart : Bool) :
    if (values.any fun value => (Text.stripPrefix value more).any blank) ∧ ok line.ended then
      ∃ e, first (.oneOf values :: tail) ⟨lineStart, more ++ line.behind rest⟩ = some e ∧ Q e ∧
        solid e.rest = solid rest
    else first (.oneOf values :: tail) ⟨lineStart, more ++ line.behind rest⟩ = none := by
  induction values with
  | nil =>
    simp only [List.any_nil, Bool.false_eq_true, false_and, if_false]
    exact follow_oneOf_nil _
  | cons value values ih =>
    have hvalue := hvalues value (List.mem_cons_self ..)
    have hone : '\n' ∉ value := fun hmem => absurd (hvalue _ hmem) (by decide)
    have hrest := ih fun v hv => hvalues v (List.mem_cons_of_mem _ hv)
    rw [first] at hrest ⊢
    rw [follow_oneOf_cons, stripPrefix_behind hone, List.any_cons]
    cases hstrip : Text.stripPrefix value more with
    | none => simpa using hrest
    | some far =>
      have hfar : '\n' ∉ far := by
        rw [Text.stripPrefix_eq_some hstrip] at hmore
        exact fun hmem => hmore (List.mem_append_right _ hmem)
      simp only [Option.any_some, Option.map_some, Option.bind_some]
      obtain ⟨lineStart', hafter⟩ : ∃ lineStart', Cursor.after ⟨lineStart, more ++ line.behind rest⟩
          value (far ++ line.behind rest) = ⟨lineStart', far ++ line.behind rest⟩ := ⟨_, rfl⟩
      have hend := htail.first_eq lineStart' far line rest hfar hlast
      rw [hafter]
      by_cases hok : blank far ∧ ok line.ended
      · rw [if_pos hok] at hend
        obtain ⟨e, hfirst, hQ, hsolid⟩ := hend
        rw [first] at hfirst
        rw [if_pos (by simp [hok.1, hok.2]), hfirst]
        exact ⟨e, Option.some_or, hQ, hsolid⟩
      · rw [if_neg hok, first] at hend
        rw [hend, Option.none_or]
        simp only [Bool.or_eq_true, or_and_right, or_iff_right hok]
        exact hrest

/-- A word with one of some values behind it. -/
theorem first_oneOf (h : Word key) {values : List (List Char)}
    (hvalues : ∀ value ∈ values, ∀ x ∈ value, Text.isWhitespace x = false)
    (htail : Tail tail ok Q) (hnext : Next text line rest) (lineStart : Bool) :
    if (values.any fun value => alone (key ++ value) line.text) ∧ ok line.ended then
      ∃ e, first (.many Text.isWhitespace :: lit key :: .oneOf values :: tail) ⟨lineStart, text⟩ =
        some e ∧ Q e ∧ solid e.rest = solid rest
    else first (.many Text.isWhitespace :: lit key :: .oneOf values :: tail) ⟨lineStart, text⟩ =
      none := by
  have hany : (values.any fun value => alone (key ++ value) line.text) = values.any fun value =>
      ((leading key line.text).bind (Text.stripPrefix value)).any blank := by
    rw [Bool.eq_iff_iff, List.any_eq_true, List.any_eq_true]
    refine exists_congr fun value => and_congr_right fun hvalue => ?_
    rw [alone_append (h.append (hvalues value hvalue))]
  rw [hany, first, follow_word h hnext]
  cases hlead : leading key line.text with
  | none => simp
  | some more => exact first_values hvalues htail (hnext.oneLine_leading hlead) hnext.last false

/-- A key and a word behind it, on one line or on two. -/
def Spread (key word : List Char) (ok : Bool → Bool) : List Line → Prop
  | [line] => (leading key line.text).any (alone word) ∧ ok line.ended
  | [line, next] => alone key line.text ∧ alone word next.text ∧ ok next.ended
  | _ => False

theorem spread_cases {u : List Line} (h : Spread key word ok u) :
    (∃ line, u = [line] ∧ (leading key line.text).any (alone word) ∧ ok line.ended) ∨
      ∃ line next, u = [line, next] ∧ alone key line.text ∧ alone word next.text ∧
        ok next.ended := by
  rcases u with _ | ⟨line, _ | ⟨next, _ | ⟨_, _⟩⟩⟩
  · exact h.elim
  · exact .inl ⟨line, rfl, h⟩
  · exact .inr ⟨line, next, rfl, h⟩
  · exact h.elim

theorem alone_of_blank (h : Word word) (hblank : blank text) : alone word text = false :=
  alone_eq_false h (leading_of_blank h hblank)

theorem not_spread_prefix_nil {u : List Line} (hu : Spread key word ok u) : ¬ u <+: [] := by
  intro hnil
  obtain rfl := List.prefix_nil.mp hnil
  exact hu

/-- The line of the key decides where the word has to stand. -/
theorem spread_prefix_cons {u lines : List Line} (hu : Spread key word ok u)
    (hpre : u <+: line :: lines) :
    ((leading key line.text).any (alone word) ∧ ok line.ended) ∨
      (alone key line.text ∧ ∃ next, [next] <+: lines ∧ alone word next.text ∧ ok next.ended) := by
  obtain ⟨l, rfl, hone⟩ | ⟨l, next, rfl, hfirst, hsecond⟩ := spread_cases hu
  · obtain rfl := (List.cons_prefix_cons.mp hpre).1
    exact .inl hone
  · obtain ⟨rfl, hrest⟩ := List.cons_prefix_cons.mp hpre
    exact .inr ⟨hfirst, next, hrest, hsecond⟩

/-- Where an expression reads a key and a word behind it, it reads a spread pair. -/
theorem first_spread (hkey : Word key) (hword : Word word) (htail : Tail tail ok Q)
    (lineStart : Bool) (text : List Char) :
    (∃ u e, Spread key word ok u ∧
      first (.many Text.isWhitespace :: lit key :: .many Text.isWhitespace :: lit word :: tail)
        ⟨lineStart, text⟩ = some e ∧ Q e ∧ solid text = u ++ solid e.rest) ∨
    (first (.many Text.isWhitespace :: lit key :: .many Text.isWhitespace :: lit word :: tail)
        ⟨lineStart, text⟩ = none ∧ ∀ u, Spread key word ok u → ¬ u <+: solid text) := by
  obtain ⟨hnone, hblank⟩ | ⟨line, rest, hnext⟩ := next_cases text
  · refine .inr ⟨follow_word_blank hkey hblank lineStart, fun u hu => ?_⟩
    rw [hnone]
    exact not_spread_prefix_nil hu
  rw [first, follow_word hkey hnext, hnext.solid_eq]
  have hsplit := fun u (hu : Spread key word ok u) =>
    @spread_prefix_cons _ _ _ line u (solid rest) hu
  cases hlead : leading key line.text with
  | none =>
    refine .inr ⟨rfl, fun u hu hpre => ?_⟩
    rcases hsplit u hu hpre with ⟨hany, -⟩ | ⟨halone, -⟩
    · simp [hlead] at hany
    · simp [alone_eq hkey, hlead] at halone
  | some more =>
    have hline := hnext.oneLine_leading hlead
    have halone : alone key line.text = blank more := by
      rw [alone_eq hkey, hlead, Option.any_some]
    rw [hlead, Option.any_some, halone] at hsplit
    rw [Option.bind_some]
    cases hblank : blank more with
    | false =>
      rw [hblank] at hsplit
      have hend := first_alone hword htail (next_append_behind hline hblank hnext.last) false
      split at hend
      next hif =>
        obtain ⟨e, hfirst, hQ, hsolid⟩ := hend
        refine .inl ⟨[line], e, ?_, hfirst, hQ, by rw [hsolid]; rfl⟩
        rw [Spread, hlead]
        exact hif
      next hif =>
        refine .inr ⟨hend, fun u hu hpre => ?_⟩
        rcases hsplit u hu hpre with hone | ⟨htwo, -⟩
        · exact hif hone
        · cases htwo
    | true =>
      rw [alone_of_blank hword hblank] at hsplit
      obtain ⟨hrest, hws⟩ | ⟨next, far, hnext'⟩ := next_cases rest
      · refine .inr ⟨follow_word_blank hword (dropWhile_behind_blank hblank hws) false, ?_⟩
        intro u hu hpre
        rcases hsplit u hu hpre with ⟨hone, -⟩ | ⟨-, next, hpre, -⟩
        · cases hone
        · rw [hrest, List.prefix_nil] at hpre
          cases hpre
      · have hend := first_alone hword htail
          (hnext'.behind_blank hline hblank hnext.last) false
        split at hend
        next hif =>
          obtain ⟨e, hfirst, hQ, hsolid⟩ := hend
          refine .inl ⟨[line, next], e, ⟨?_, hif⟩, hfirst, hQ, ?_⟩
          · rw [halone, hblank]
          · rw [hnext'.solid_eq, hsolid]
            rfl
        next hif =>
          refine .inr ⟨hend, fun u hu hpre => ?_⟩
          rcases hsplit u hu hpre with ⟨hone, -⟩ | ⟨-, next', hpre, htwo⟩
          · cases hone
          · rw [hnext'.solid_eq] at hpre
            obtain rfl := (List.cons_prefix_cons.mp hpre).1
            exact hif htwo

end Tail

end Lines
