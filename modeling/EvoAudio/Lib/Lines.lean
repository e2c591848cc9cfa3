import EvoAudio.Lib.Regex
import Mathlib.Data.List.TakeWhile

/-!
# The lines of a text that are not blank

A text is cut at its newlines; the last line need not have one. White space of a
regular expression goes on over blank lines, so an expression that skips it sees
the lines that are not blank one after the other.
-/

namespace Lines

open Regex

structure Line where
  text : List Char
  /-- A newline follows. -/
  ended : Bool
  deriving DecidableEq, Repr

def lines : List Char → List Line
  | [] => []
  | x :: xs =>
    if x = '\n' then ⟨[], true⟩ :: lines xs
    else
      match lines xs with
      | [] => [⟨[x], false⟩]
      | line :: rest => ⟨x :: line.text, line.ended⟩ :: rest

def blank (text : List Char) : Bool := text.all Text.isWhitespace

/-- The lines that are not blank. -/
def solid (text : List Char) : List Line := (lines text).filter fun line => !blank line.text

def firstLine (text : List Char) : List Char := text.takeWhile (· != '\n')

/-- The texts of the lines that are not blank. -/
def content (text : List Char) : List (List Char) := (solid text).map Line.text

theorem not_blank_of_mem {line : List Char} {x : Char} (hmem : x ∈ line)
    (hx : Text.isWhitespace x = false) : blank line = false := by
  rw [blank, List.all_eq_false]
  exact ⟨x, hmem, by simp [hx]⟩

-- ---------------------------------------------------------------------------
-- Cutting a text
-- ---------------------------------------------------------------------------

theorem lines_append_newline {line : List Char} (h : '\n' ∉ line) (rest : List Char) :
    lines (line ++ '\n' :: rest) = ⟨line, true⟩ :: lines rest := by
  induction line with
  | nil => simp [lines]
  | cons x line ih =>
    rw [List.mem_cons, not_or] at h
    rw [List.cons_append, lines, if_neg (Ne.symm h.1), ih h.2]

theorem lines_last {line : List Char} (h : '\n' ∉ line) (hne : line ≠ []) :
    lines line = [⟨line, false⟩] := by
  induction line with
  | nil => exact absurd rfl hne
  | cons x line ih =>
    rw [List.mem_cons, not_or] at h
    rw [lines, if_neg (Ne.symm h.1)]
    cases line with
    | nil => rfl
    | cons y line => rw [ih h.2 (List.cons_ne_nil _ _)]

/-- A text is one line, or a line and the text behind its newline. -/
theorem line_cases (text : List Char) :
    '\n' ∉ text ∨ ∃ line rest, text = line ++ '\n' :: rest ∧ '\n' ∉ line := by
  induction text with
  | nil => exact .inl List.not_mem_nil
  | cons x text ih =>
    by_cases hx : x = '\n'
    · exact .inr ⟨[], text, by rw [hx]; rfl, List.not_mem_nil⟩
    · obtain hline | ⟨line, rest, rfl, hline⟩ := ih
      · refine .inl ?_
        rw [List.mem_cons, not_or]
        exact ⟨Ne.symm hx, hline⟩
      · refine .inr ⟨x :: line, rest, rfl, ?_⟩
        rw [List.mem_cons, not_or]
        exact ⟨Ne.symm hx, hline⟩

theorem solid_line {line : List Char} (h : '\n' ∉ line) (rest : List Char) :
    solid (line ++ '\n' :: rest) =
      if blank line then solid rest else ⟨line, true⟩ :: solid rest := by
  rw [solid, lines_append_newline h, List.filter_cons]
  cases hblank : blank line <;> simp [solid]

theorem solid_last {line : List Char} (h : '\n' ∉ line) :
    solid line = if blank line then [] else [⟨line, false⟩] := by
  by_cases hne : line = []
  · subst hne
    rfl
  · rw [solid, lines_last h hne, List.filter_cons]
    cases hblank : blank line <;> simp

@[simp] theorem solid_nil : solid [] = [] := rfl

@[simp] theorem solid_newline (rest : List Char) : solid ('\n' :: rest) = solid rest :=
  solid_line (List.not_mem_nil) rest

@[simp] theorem content_newline (rest : List Char) : content ('\n' :: rest) = content rest := by
  rw [content, solid_newline, content]

theorem content_append (text rest : List Char) :
    content (text ++ '\n' :: rest) = content text ++ content rest := by
  induction hn : text.length using Nat.strong_induction_on generalizing text with
  | _ n ih =>
    obtain hline | ⟨line, more, rfl, hline⟩ := line_cases text
    · rw [content, content, solid_line hline, solid_last hline]
      split <;> simp [content]
    · have hshorter : more.length < n := by
        simp only [List.length_append, List.length_cons] at hn
        omega
      have hmore := ih _ hshorter more rfl
      rw [content, content, List.append_assoc, List.cons_append, solid_line hline,
        solid_line hline]
      split
      · exact hmore
      · rw [List.map_cons, List.map_cons, List.cons_append]
        exact congrArg _ hmore

theorem content_concat_newline (text : List Char) : content (text ++ ['\n']) = content text := by
  rw [content_append]
  simp [content]

-- ---------------------------------------------------------------------------
-- The first line that is not blank
-- ---------------------------------------------------------------------------

/-- What follows the text of a line. -/
def Line.behind (line : Line) (rest : List Char) : List Char :=
  if line.ended then '\n' :: rest else []

/-- The first line of a text that is not blank, and the text behind it. -/
structure Next (text : List Char) (line : Line) (rest : List Char) : Prop where
  solid_eq : solid text = line :: solid rest
  oneLine : '\n' ∉ line.text
  notBlank : blank line.text = false
  dropWhile_eq :
    text.dropWhile Text.isWhitespace =
      line.text.dropWhile Text.isWhitespace ++ line.behind rest
  shorter : rest.length < text.length
  last : line.ended = false → rest = []

theorem dropWhile_blank {line : List Char} (h : blank line) (rest : List Char) :
    (line ++ rest).dropWhile Text.isWhitespace = rest.dropWhile Text.isWhitespace :=
  List.dropWhile_append_of_pos (List.all_eq_true.mp h)

theorem dropWhile_ne_nil {line : List Char} (h : blank line = false) :
    line.dropWhile Text.isWhitespace ≠ [] := by
  intro hnil
  rw [List.dropWhile_eq_nil_iff] at hnil
  have hall : blank line := List.all_eq_true.mpr hnil
  rw [hall] at h
  cases h

theorem dropWhile_append_solid {line : List Char} (h : blank line = false) (rest : List Char) :
    (line ++ rest).dropWhile Text.isWhitespace =
      line.dropWhile Text.isWhitespace ++ rest := by
  rw [List.dropWhile_append, if_neg]
  rw [List.isEmpty_iff]
  exact dropWhile_ne_nil h

theorem next_cases (text : List Char) :
    (solid text = [] ∧ text.dropWhile Text.isWhitespace = []) ∨
      ∃ line rest, Next text line rest := by
  induction hn : text.length using Nat.strong_induction_on generalizing text with
  | _ n ih =>
    obtain hline | ⟨line, rest, rfl, hline⟩ := line_cases text
    · cases hblank : blank text with
      | true =>
        refine .inl ⟨by rw [solid_last hline, if_pos hblank], ?_⟩
        exact List.dropWhile_eq_nil_iff.mpr (List.all_eq_true.mp hblank)
      | false =>
        refine .inr ⟨⟨text, false⟩, [], ?_, hline, hblank, by simp [Line.behind], ?_, fun _ => rfl⟩
        · rw [solid_last hline, hblank]
          rfl
        · exact List.length_pos_iff.mpr fun hnil => by simp [hnil, blank] at hblank
    · have hshorter : rest.length < (line ++ '\n' :: rest).length := by
        simp only [List.length_append, List.length_cons]
        omega
      cases hblank : blank line with
      | true =>
        have hnl : Text.isWhitespace '\n' = true := by decide
        have hdrop : (line ++ '\n' :: rest).dropWhile Text.isWhitespace =
            rest.dropWhile Text.isWhitespace := by
          rw [dropWhile_blank hblank, List.dropWhile_cons, if_pos hnl]
        have hsolid : solid (line ++ '\n' :: rest) = solid rest := by
          rw [solid_line hline, if_pos hblank]
        obtain ⟨hnone, hws⟩ | ⟨next, more, hnext⟩ := ih _ (hn ▸ hshorter) rest rfl
        · exact .inl ⟨hsolid.trans hnone, hdrop.trans hws⟩
        · exact .inr ⟨next, more, hsolid.trans hnext.solid_eq, hnext.oneLine, hnext.notBlank,
            hdrop.trans hnext.dropWhile_eq, Nat.lt_trans hnext.shorter hshorter, hnext.last⟩
      | false =>
        refine .inr ⟨⟨line, true⟩, rest, ?_, hline, hblank, ?_, hshorter, by simp⟩
        · rw [solid_line hline, hblank]
          rfl
        · exact dropWhile_append_solid hblank _

-- ---------------------------------------------------------------------------
-- White space up to the end of a line
-- ---------------------------------------------------------------------------

theorem firstLine_cons (x : Char) (xs : List Char) :
    firstLine (x :: xs) = if x = '\n' then [] else x :: firstLine xs := by
  rw [firstLine, List.takeWhile_cons]
  by_cases hx : x = '\n' <;> simp [hx, firstLine]

theorem firstLine_append {line : List Char} (h : '\n' ∉ line) (rest : List Char) :
    firstLine (line ++ '\n' :: rest) = line := by
  induction line with
  | nil => simp [firstLine_cons]
  | cons x line ih =>
    rw [List.mem_cons, not_or] at h
    rw [List.cons_append, firstLine_cons, if_neg (Ne.symm h.1), ih h.2]

theorem firstLine_last {line : List Char} (h : '\n' ∉ line) : firstLine line = line := by
  rw [firstLine, List.takeWhile_eq_self_iff]
  intro x hx
  have hne : x ≠ '\n' := fun heq => h (heq ▸ hx)
  simpa using hne

/-- A blank first line counts for nothing. -/
theorem solid_cons_blank {x : Char} {xs : List Char} (hx : Text.isWhitespace x)
    (h : blank (firstLine xs)) : solid (x :: xs) = solid xs := by
  by_cases hnl : x = '\n'
  · rw [hnl, solid_newline]
  · obtain hline | ⟨line, rest, rfl, hline⟩ := line_cases xs
    · rw [firstLine_last hline] at h
      have hline' : '\n' ∉ x :: xs := by
        rw [List.mem_cons, not_or]
        exact ⟨Ne.symm hnl, hline⟩
      have hblank : blank (x :: xs) := by
        rw [blank, List.all_cons, hx]
        exact h
      rw [solid_last hline, solid_last hline', if_pos h, if_pos hblank]
    · rw [firstLine_append hline] at h
      have hline' : '\n' ∉ x :: line := by
        rw [List.mem_cons, not_or]
        exact ⟨Ne.symm hnl, hline⟩
      have hblank : blank (x :: line) := by
        rw [blank, List.all_cons, hx]
        exact h
      rw [solid_line hline, ← List.cons_append, solid_line hline', if_pos h, if_pos hblank]

/-- `\s*\r?\n` goes on to the last newline of the blank lines. -/
def toNewline : List Atom := [.many Text.isWhitespace, optionalCr, lit ['\n']]

/-- `\s*$` stops before it, or at the end of the text. -/
def toLineEnd : List Atom := [.many Text.isWhitespace, .lineEnd]

theorem first_cr_newline (lineStart : Bool) (x : Char) (xs : List Char) :
    first [optionalCr, lit ['\n']] ⟨lineStart, x :: xs⟩ =
      if x = '\n' then some ⟨true, xs⟩
      else if x = '\r' then first [lit ['\n']] ⟨false, xs⟩ else none := by
  rw [first, follow_optionalCr_cons, follow_char_cons, first]
  by_cases hcr : x = '\r'
  · subst hcr
    simp
  · by_cases hnl : x = '\n'
    · subst hnl
      simp
    · simp [hcr, hnl]

theorem first_toNewline (lineStart : Bool) (text : List Char) :
    if blank (firstLine text) ∧ '\n' ∈ text then
      ∃ rest, first toNewline ⟨lineStart, text⟩ = some ⟨true, rest⟩ ∧ solid rest = solid text ∧
        rest.length < text.length
    else first toNewline ⟨lineStart, text⟩ = none := by
  induction text generalizing lineStart with
  | nil => simp [toNewline, first, follow_many_nil, follow_optionalCr_nil, follow_char_nil]
  | cons x xs ih =>
    have hstep : first toNewline ⟨lineStart, x :: xs⟩ =
        if Text.isWhitespace x then
          (first toNewline ⟨x == '\n', xs⟩).or (first [optionalCr, lit ['\n']] ⟨lineStart, x :: xs⟩)
        else first [optionalCr, lit ['\n']] ⟨lineStart, x :: xs⟩ := follow_many_cons ..
    rw [hstep, first_cr_newline, firstLine_cons]
    by_cases hnl : x = '\n'
    · subst hnl
      have hws : Text.isWhitespace '\n' = true := by decide
      simp only [hws, if_true, blank, List.all_nil, List.mem_cons, true_or, and_self,
        solid_newline, List.length_cons]
      have hxs := ih ('\n' == '\n')
      split at hxs
      next hblank =>
        obtain ⟨rest, hfirst, hsolid, hlength⟩ := hxs
        exact ⟨rest, by rw [hfirst, Option.some_or], hsolid, by omega⟩
      next hblank => exact ⟨xs, by rw [hxs, Option.none_or], rfl, by omega⟩
    · have hmem : '\n' ∈ x :: xs ↔ '\n' ∈ xs := by
        rw [List.mem_cons]
        exact ⟨fun h => h.resolve_left (Ne.symm hnl), .inr⟩
      simp only [hnl, if_false, hmem, List.length_cons]
      cases hws : Text.isWhitespace x with
      | false =>
        have hcr : x ≠ '\r' := by
          rintro rfl
          exact absurd hws (by decide)
        simp [blank, hws, hcr]
      | true =>
        have hblank : blank (x :: firstLine xs) = blank (firstLine xs) := by
          rw [blank, List.all_cons, hws, Bool.true_and, blank]
        have hxs := ih (x == '\n')
        rw [hblank]
        simp only [if_true]
        split at hxs
        next h =>
          obtain ⟨rest, hfirst, hsolid, hlength⟩ := hxs
          rw [if_pos h]
          exact ⟨rest, by rw [hfirst, Option.some_or],
            hsolid.trans (solid_cons_blank hws h.1).symm, by omega⟩
        next h =>
          rw [if_neg h, hxs, Option.none_or]
          split
          next hcr =>
            -- A newline right behind would have ended a blank line.
            cases xs with
            | nil => exact follow_char_nil ..
            | cons y ys =>
              rw [first, follow_char_cons, if_neg]
              rintro rfl
              exact h ⟨by simp [firstLine_cons, blank], List.mem_cons_self ..⟩
          next => rfl

theorem first_toLineEnd (lineStart : Bool) (text : List Char) :
    if blank (firstLine text) then
      ∃ lineStart' rest, first toLineEnd ⟨lineStart, text⟩ = some ⟨lineStart', rest⟩ ∧
        solid rest = solid text ∧ (rest = [] ∨ rest.head? = some '\n') ∧
        rest.length ≤ text.length
    else first toLineEnd ⟨lineStart, text⟩ = none := by
  induction text generalizing lineStart with
  | nil => exact ⟨lineStart, [], by simp [toLineEnd, first, follow_many_nil, follow_lineEnd]⟩
  | cons x xs ih =>
    have hstep : first toLineEnd ⟨lineStart, x :: xs⟩ =
        if Text.isWhitespace x then
          (first toLineEnd ⟨x == '\n', xs⟩).or (first [.lineEnd] ⟨lineStart, x :: xs⟩)
        else first [.lineEnd] ⟨lineStart, x :: xs⟩ := follow_many_cons ..
    have hend : first [.lineEnd] ⟨lineStart, x :: xs⟩ =
        if x = '\n' then some ⟨lineStart, x :: xs⟩ else none := by
      simp [first, follow_lineEnd]
    rw [hstep, hend, firstLine_cons]
    by_cases hnl : x = '\n'
    · subst hnl
      have hws : Text.isWhitespace '\n' = true := by decide
      simp only [hws, if_true, blank, List.all_nil, solid_newline, List.length_cons]
      have hxs := ih ('\n' == '\n')
      split at hxs
      next hblank =>
        obtain ⟨lineStart', rest, hfirst, hsolid, hhead, hlength⟩ := hxs
        exact ⟨lineStart', rest, by rw [hfirst, Option.some_or], hsolid, hhead, by omega⟩
      next hblank =>
        exact ⟨lineStart, '\n' :: xs, by rw [hxs, Option.none_or], solid_newline xs, .inr rfl,
          Nat.le_refl _⟩
    · simp only [hnl, if_false, List.length_cons]
      cases hws : Text.isWhitespace x with
      | false => simp [blank, hws]
      | true =>
        have hblank : blank (x :: firstLine xs) = blank (firstLine xs) := by
          rw [blank, List.all_cons, hws, Bool.true_and, blank]
        have hxs := ih (x == '\n')
        rw [hblank]
        simp only [if_true]
        split at hxs
        next h =>
          obtain ⟨lineStart', rest, hfirst, hsolid, hhead, hlength⟩ := hxs
          rw [if_pos h]
          exact ⟨lineStart', rest, by rw [hfirst, Option.some_or],
            hsolid.trans (solid_cons_blank hws h).symm, hhead, by omega⟩
        next h => rw [if_neg h, hxs, Option.none_or]

end Lines
