import EvoAudio.Lib.Lines
import EvoAudio.Lib.Edits

/-!
# Replacing lines by an expression

What `replace_all` makes of the lines that are not blank, by what the expression
matches at the start of a line: an expression that matches whole lines and is
replaced by nothing cuts them out, one that stops before a newline puts one line in
their place. Two such matches with only blank lines between them may end up on one line.
-/

namespace Lines

open Regex Edits

-- ---------------------------------------------------------------------------
-- Cutting lines out
-- ---------------------------------------------------------------------------

/-- The expression matches the units and ends at the start of a line. -/
structure Cuts (r : List Atom) (unit : List Line → Prop) : Prop where
  consumes : Consumes r
  anchored : Anchored r
  unit_of_some : ∀ text e, first r ⟨true, text⟩ = some e →
    e.lineStart = true ∧ ∃ u, unit u ∧ solid text = u ++ solid e.rest
  not_unit_of_none : ∀ text, blank (firstLine text) = false → first r ⟨true, text⟩ = none →
    ∀ u, unit u → ¬ u <+: solid text

theorem Cuts.edited {r : List Atom} {unit : List Line → Prop} (h : Cuts r unit)
    (text : List Char) :
    Edited unit (· = []) (solid text) (solid (replaceAll r [] text)) := by
  rw [replaceAll_eq]
  induction hn : text.length using Nat.strong_induction_on generalizing text with
  | _ n ih =>
    cases hfirst : first r ⟨true, text⟩ with
    | some e =>
      obtain ⟨lineStart, rest⟩ := e
      obtain ⟨rfl, u, hu, hsolid⟩ := h.unit_of_some text _ hfirst
      have hrest := ih _ (hn ▸ h.consumes _ _ hfirst) rest rfl
      rw [replaced_match h.consumes hfirst, hsolid]
      exact .cut (.one hu) hrest
    | none =>
      have hnone := fun hblank => h.not_unit_of_none text hblank hfirst
      obtain hline | ⟨line, rest, rfl, hline⟩ := line_cases text
      · rw [replaced_last h.consumes h.anchored hline hfirst]
        rw [firstLine_last hline, solid_last hline] at hnone
        rw [solid_last hline]
        split
        · exact .nil
        next hblank =>
          rw [if_neg hblank] at hnone
          exact .keep (hnone (Bool.eq_false_iff.mpr hblank)) .nil
      · have hrest := ih rest.length (by simp [← hn]; omega) rest rfl
        rw [replaced_line h.anchored hline hfirst, solid_line hline, solid_line hline]
        rw [firstLine_append hline, solid_line hline] at hnone
        split
        · exact hrest
        next hblank =>
          rw [if_neg hblank] at hnone
          exact .keep (hnone (Bool.eq_false_iff.mpr hblank)) hrest

-- ---------------------------------------------------------------------------
-- Putting one line in the place of others
-- ---------------------------------------------------------------------------

/-- The expression matches the units and ends before a newline or at the end. -/
structure Patches (r : List Atom) (unit : List (List Char) → Prop) : Prop where
  consumes : Consumes r
  anchored : Anchored r
  unit_of_some : ∀ text e, first r ⟨true, text⟩ = some e →
    (e.rest = [] ∨ e.rest.head? = some '\n') ∧ ∃ u, unit u ∧ content text = u ++ content e.rest
  not_unit_of_none : ∀ text, first r ⟨true, text⟩ = none → ∀ u, unit u → ¬ u <+: content text

/-- The replacement once or several times on one line. -/
def Repeated (replacement : List Char) (made : List (List Char)) : Prop :=
  ∃ n, made = [(List.replicate (n + 1) replacement).flatten]

theorem content_line {line : List Char} (h : '\n' ∉ line) (hblank : blank line = false)
    {rest : List Char} (hrest : rest = [] ∨ rest.head? = some '\n') :
    content (line ++ rest) = line :: content rest := by
  rcases hrest with rfl | hhead
  · rw [List.append_nil, content, solid_last h, hblank]
    rfl
  · obtain ⟨rest, rfl⟩ := List.head?_eq_some_iff.mp hhead
    rw [content, solid_line h, hblank, content, solid_newline]
    rfl

theorem content_single {line : List Char} (h : '\n' ∉ line) (hblank : blank line = false) :
    content line = [line] := by
  have hline := @content_line line h hblank [] (.inl rfl)
  rwa [List.append_nil] at hline

theorem flatten_replicate_oneLine {text : List Char} (h : '\n' ∉ text) (n : Nat) :
    '\n' ∉ (List.replicate n text).flatten := by
  intro hmem
  obtain ⟨line, hline, hx⟩ := List.mem_flatten.mp hmem
  exact h (List.eq_of_mem_replicate hline ▸ hx)

section Patches

variable {r : List Atom} {unit : List (List Char) → Prop} {replacement : List Char}

/-- What is made of the text behind a match: more matches on the same line, and
an edited rest that starts with the newline. -/
def Behind (r : List Atom) (unit : List (List Char) → Prop) (replacement : List Char)
    (c : Cursor) : Prop :=
  ∃ n s xs out, content c.rest = s ++ xs ∧ (s = [] ∨ Run unit s) ∧
    replaced r replacement c = (List.replicate n replacement).flatten ++ out ∧
    (out = [] ∨ out.head? = some '\n') ∧
    Edited unit (Repeated replacement) xs (content out)

theorem Patches.edited_of_behind (h : Patches r unit) (hline : '\n' ∉ replacement)
    (hblank : blank replacement = false) {text : List Char} {e : Cursor}
    (hfirst : first r ⟨true, text⟩ = some e) (hbehind : Behind r unit replacement e) :
    Edited unit (Repeated replacement) (content text)
      (content (replaced r replacement ⟨true, text⟩)) := by
  obtain ⟨-, u, hu, hcontent⟩ := h.unit_of_some text e hfirst
  obtain ⟨n, s, xs, out, hrest, hs, hout, hhead, hedit⟩ := hbehind
  have hrun : Run unit (u ++ s) := by
    rcases hs with rfl | hs
    · rw [List.append_nil]
      exact .one hu
    · exact .more hu hs
  have hmade : blank (List.replicate (n + 1) replacement).flatten = false := by
    rw [List.replicate_succ, List.flatten_cons, blank, List.all_append, ← blank, hblank,
      Bool.false_and]
  rw [replaced_match h.consumes hfirst, hout, hcontent, hrest, ← List.append_assoc,
    ← List.append_assoc, ← List.flatten_cons, ← List.replicate_succ,
    content_line (flatten_replicate_oneLine hline _) hmade hhead]
  exact .replace hrun ⟨n, rfl⟩ hedit

theorem Patches.behind_of_match (h : Patches r unit) {text : List Char} {e : Cursor}
    (hfirst : first r ⟨true, text⟩ = some e) (hbehind : Behind r unit replacement e) :
    Behind r unit replacement ⟨true, text⟩ := by
  obtain ⟨-, u, hu, hcontent⟩ := h.unit_of_some text e hfirst
  obtain ⟨n, s, xs, out, hrest, hs, hout, hhead, hedit⟩ := hbehind
  refine ⟨n + 1, u ++ s, xs, out, ?_, .inr ?_, ?_, hhead, hedit⟩
  · rw [hcontent, hrest, List.append_assoc]
  · rcases hs with rfl | hs
    · rw [List.append_nil]
      exact .one hu
    · exact .more hu hs
  · rw [replaced_match h.consumes hfirst, hout, List.replicate_succ, List.flatten_cons,
      List.append_assoc]

/-- Both places a match can start from, by how much text is left. -/
theorem Patches.edited_and_behind (h : Patches r unit) (hline : '\n' ∉ replacement)
    (hblank : blank replacement = false) (text : List Char) :
    Edited unit (Repeated replacement) (content text)
        (content (replaced r replacement ⟨true, text⟩)) ∧
      ∀ lineStart, (text = [] ∨ text.head? = some '\n') →
        Behind r unit replacement ⟨lineStart, text⟩ := by
  induction hn : text.length using Nat.strong_induction_on generalizing text with
  | _ n ih =>
    constructor
    · cases hfirst : first r ⟨true, text⟩ with
      | some e =>
        obtain ⟨hend, -⟩ := h.unit_of_some text e hfirst
        refine h.edited_of_behind hline hblank hfirst ?_
        exact (ih _ (hn ▸ h.consumes _ _ hfirst) e.rest rfl).2 e.lineStart hend
      | none =>
        have hnone := h.not_unit_of_none text hfirst
        obtain htext | ⟨line, rest, rfl, htext⟩ := line_cases text
        · rw [replaced_last h.consumes h.anchored htext hfirst]
          rw [content, solid_last htext] at hnone ⊢
          split
          · exact .nil
          next hblank =>
            rw [if_neg hblank] at hnone
            exact .keep hnone .nil
        · have hrest := (ih rest.length (by simp [← hn]; omega) rest rfl).1
          rw [replaced_line h.anchored htext hfirst, content, solid_line htext]
          rw [content, solid_line htext] at hnone ⊢
          split
          · exact hrest
          next hblank =>
            rw [if_neg hblank] at hnone
            exact .keep hnone hrest
    · rintro lineStart (rfl | hhead)
      · exact ⟨0, [], [], [], rfl, .inl rfl, replaced_nil h.consumes _, .inl rfl, .nil⟩
      · obtain ⟨rest, rfl⟩ := List.head?_eq_some_iff.mp hhead
        cases hfirst : first r ⟨lineStart, '\n' :: rest⟩ with
        | some e =>
          cases lineStart with
          | false => exact absurd (hfirst.symm.trans (h.anchored _)) (by simp)
          | true =>
            obtain ⟨hend, -⟩ := h.unit_of_some _ e hfirst
            refine h.behind_of_match hfirst ?_
            exact (ih _ (hn ▸ h.consumes _ _ hfirst) e.rest rfl).2 e.lineStart hend
        | none =>
          refine ⟨0, [], content rest, '\n' :: replaced r replacement ⟨true, rest⟩, ?_, .inl rfl,
            replaced_skip hfirst, .inr rfl, ?_⟩
          · rw [content_newline, List.nil_append]
          · rw [content_newline]
            exact (ih rest.length (by simp [← hn]) rest rfl).1

theorem Patches.edited (h : Patches r unit) (hline : '\n' ∉ replacement)
    (hblank : blank replacement = false) (text : List Char) :
    Edited unit (Repeated replacement) (content text) (content (replaceAll r replacement text)) :=
  (h.edited_and_behind hline hblank text).1

end Patches

end Lines
