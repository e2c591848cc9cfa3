import Mathlib.Data.List.Basic
import Mathlib.Tactic.Common

/-!
# Configuration texts

Words, double-quoted texts, braces, and comments that run from a `#` to the end of the
line, read character by character. In one dialect a line break is a token of its own, and a
quoted text ends on the line it begins on; in the other one it is white space.

A text is `Written` from parts with quoted values among them. It is read as the tokens
meant by it if and only if no value has a character that is special inside quotes
(`Written.lex`, `Written.plain_of_lex`).
-/

namespace ConfigText

inductive Token where
  | word (w : List Char)
  | quoted (w : List Char)
  | opens
  | closes
  | newline
deriving DecidableEq, Repr

/-- Where the lexer is, with what it has of the word or text it is in. -/
inductive Mode where
  | between
  | word (w : List Char)
  | quoted (w : List Char)
  | escaped (w : List Char)
  | comment
  | stuck
deriving DecidableEq, Repr

structure Dialect where
  /-- Whether lines count. -/
  lines : Bool
  /-- What a backslash and the character after it stand for. -/
  escape : Char → List Char
  short : ∀ c, (escape c).length ≤ 1
  quote : escape '"' = ['"']

def white (c : Char) : Bool := c == ' ' || c == '\t' || c == '\r' || c == '\x0c'

def delimits (c : Char) : Bool :=
  white c || c == '\n' || c == '#' || c == '"' || c == '{' || c == '}'

-- ---------------------------------------------------------------------------
-- Lexing
-- ---------------------------------------------------------------------------

variable (D : Dialect)

def Dialect.outside (c : Char) : List Token × Mode :=
  if c = '\n' then (if D.lines then [.newline] else [], .between)
  else if white c then ([], .between)
  else if c = '#' then ([], .comment)
  else if c = '"' then ([], .quoted [])
  else if c = '{' then ([.opens], .between)
  else if c = '}' then ([.closes], .between)
  else ([], .word [c])

def Dialect.step : Mode → Char → List Token × Mode
  | .between, c => D.outside c
  | .word w, c =>
    if delimits c then (.word w :: (D.outside c).1, (D.outside c).2) else ([], .word (w ++ [c]))
  | .quoted w, c =>
    if c = '"' then ([.quoted w], .between)
    else if c = '\\' then ([], .escaped w)
    else if c = '\n' ∧ D.lines then ([], .stuck)
    else ([], .quoted (w ++ [c]))
  | .escaped w, c => if c = '\n' ∧ D.lines then ([], .stuck) else ([], .quoted (w ++ D.escape c))
  | .comment, c => if c = '\n' then D.outside c else ([], .comment)
  | .stuck, _ => ([], .stuck)

def Dialect.run : Mode → List Char → List Token × Mode
  | m, [] => ([], m)
  | m, c :: text =>
    ((D.step m c).1 ++ (Dialect.run (D.step m c).2 text).1, (Dialect.run (D.step m c).2 text).2)

/-- What the end of the text makes of the mode it is met in. -/
def Mode.close : Mode → Option (List Token)
  | .between => some []
  | .comment => some []
  | .word w => some [.word w]
  | _ => none

def Dialect.lexFrom (m : Mode) (text : List Char) : Option (List Token) :=
  (D.run m text).2.close.map ((D.run m text).1 ++ ·)

def Dialect.lex (text : List Char) : Option (List Token) := D.lexFrom .between text

attribute [local grind =] Dialect.outside Dialect.step Dialect.run

variable {D}

theorem run_append (m : Mode) (a b : List Char) :
    D.run m (a ++ b) = ((D.run m a).1 ++ (D.run (D.run m a).2 b).1, (D.run (D.run m a).2 b).2) := by
  induction a generalizing m with
  | nil => rfl
  | cons c a ih => simp [Dialect.run, ih]

theorem lexFrom_append (m : Mode) (a b : List Char) :
    D.lexFrom m (a ++ b) = (D.lexFrom (D.run m a).2 b).map ((D.run m a).1 ++ ·) := by
  rw [Dialect.lexFrom, Dialect.lexFrom, run_append]
  cases (D.run (D.run m a).2 b).2.close <;> simp

theorem lexFrom_of_run (h : D.run m a = (toks, m')) (b : List Char) :
    D.lexFrom m (a ++ b) = (D.lexFrom m' b).map (toks ++ ·) := by
  rw [lexFrom_append, h]

theorem run_stuck (text : List Char) : D.run .stuck text = ([], .stuck) := by
  induction text with
  | nil => rfl
  | cons c text ih => simp [Dialect.run, Dialect.step, ih]

/-- A word that nothing delimits is read as one. -/
theorem run_word (w : List Char) (h : ∀ c ∈ v, delimits c = false) :
    D.run (.word w) v = ([], .word (w ++ v)) := by
  induction v generalizing w with
  | nil => simp [Dialect.run]
  | cons c v ih =>
    obtain ⟨hc, hv⟩ := List.forall_mem_cons.mp h
    simp [Dialect.run, Dialect.step, hc, ih _ hv]

-- ---------------------------------------------------------------------------
-- Quoted texts
-- ---------------------------------------------------------------------------

variable (D) in
/-- Nothing in the text is special between quotes. -/
def Dialect.Plain (v : List Char) : Prop :=
  '"' ∉ v ∧ '\\' ∉ v ∧ (D.lines = true → '\n' ∉ v)

instance (v : List Char) : Decidable (D.Plain v) :=
  inferInstanceAs (Decidable (_ ∧ _))

theorem plain_cons : D.Plain (c :: v) ↔
    c ≠ '"' ∧ c ≠ '\\' ∧ ¬(c = '\n' ∧ D.lines = true) ∧ D.Plain v := by
  simp only [Dialect.Plain, List.mem_cons, not_or, not_and, ne_comm]
  tauto

theorem run_quoted (w : List Char) (h : D.Plain v) :
    D.run (.quoted w) v = ([], .quoted (w ++ v)) := by
  induction v generalizing w with
  | nil => simp [Dialect.run]
  | cons c v ih =>
    obtain ⟨hquote, hback, hline, hv⟩ := plain_cons.mp h
    simp [Dialect.run, Dialect.step, hquote, hback, hline, ih _ hv]

/-- The text behind the open quote. -/
def Mode.inside : Mode → Option (List Char)
  | .quoted w => some w
  | .escaped w => some w
  | _ => none

theorem step_inside (hm : m.inside = some w) (c : Char) :
    D.step m c = ([.quoted w], .between) ∨ D.step m c = ([], .stuck) ∨
      ∃ m' w', D.step m c = ([], m') ∧ m'.inside = some w' ∧ w'.length ≤ w.length + 1 := by
  cases m with
  | quoted q =>
    obtain rfl := Option.some.inj hm
    rw [Dialect.step]
    split
    · exact .inl rfl
    · refine .inr ?_
      split
      · exact .inr ⟨_, _, rfl, rfl, Nat.le_succ _⟩
      · split
        · exact .inl rfl
        · exact .inr ⟨_, _, rfl, rfl, by simp⟩
  | escaped q =>
    obtain rfl := Option.some.inj hm
    refine .inr ?_
    rw [Dialect.step]
    split
    · exact .inl rfl
    · exact .inr ⟨_, _, rfl, rfl, by simpa using D.short c⟩
  | _ => cases hm

/-- From inside a quoted text the first token is this text, with no more characters than
have been read, and until it comes the lexer is inside or stuck. -/
theorem run_inside (v : List Char) (hm : m.inside = some w) :
    (∃ w' toks, (D.run m v).1 = .quoted w' :: toks ∧ w'.length < w.length + v.length) ∨
    ((D.run m v).1 = [] ∧ ((D.run m v).2 = .stuck ∨
      ∃ q, (D.run m v).2.inside = some q ∧ q.length ≤ w.length + v.length)) := by
  induction v generalizing m w with
  | nil => exact .inr ⟨rfl, .inr ⟨w, hm, Nat.le_refl _⟩⟩
  | cons c v ih =>
    rw [Dialect.run]
    rcases step_inside hm c with hstep | hstep | ⟨m', w', hstep, hm', hle⟩
    · refine .inl ⟨w, _, by rw [hstep]; rfl, ?_⟩
      rw [List.length_cons]
      omega
    · exact .inr (by simp [hstep, run_stuck])
    · simp only [hstep, List.nil_append, List.length_cons]
      rcases ih hm' with ⟨q, toks, hfirst, hlt⟩ | ⟨hnone, hstuck | ⟨q, hq, hle'⟩⟩
      · exact .inl ⟨q, toks, hfirst, by omega⟩
      · exact .inr ⟨hnone, .inl hstuck⟩
      · exact .inr ⟨hnone, .inr ⟨q, hq, by omega⟩⟩

/-- The lexer only waits for an escaped character behind a backslash. -/
theorem getLast?_of_escaped (hv : v ≠ []) (h : (D.run m v).2 = .escaped q) :
    v.getLast? = some '\\' := by
  induction v generalizing m with
  | nil => exact absurd rfl hv
  | cons c v ih =>
    rw [Dialect.run] at h
    cases v with
    | nil =>
      have hstep : (D.step m c).2 = .escaped q := h
      rw [List.getLast?_singleton, Option.some.injEq]
      by_contra hc
      have houtside : (D.outside c).2 ≠ .escaped q := by
        simp only [Dialect.outside]
        repeat' split
        all_goals simp
      cases m <;> simp only [Dialect.step] at hstep
      all_goals repeat' split at hstep
      all_goals simp_all
    | cons c' v =>
      rw [List.getLast?_cons_cons]
      exact ih (List.cons_ne_nil _ _) h

/-- Before the first quote of the text there is no backslash. -/
def Clean (text : List Char) : Prop := '\\' ∉ text.takeWhile (· ≠ '"')

theorem clean_append (hquote : '"' ∉ t) (hback : '\\' ∉ t) (h : Clean text) :
    Clean (t ++ text) := by
  have hnone : ∀ c ∈ t, decide (c ≠ '"') = true :=
    fun c hc => decide_eq_true (ne_of_mem_of_not_mem hc hquote)
  rw [Clean, List.takeWhile_append_of_pos hnone, List.mem_append, not_or]
  exact ⟨hback, h⟩

/-- The token of the quoted text that ends in a clean text has what comes before the quote. -/
theorem first_of_clean (w : List Char) (hclean : Clean text)
    (h : (D.run (.quoted w) text).1 = t :: toks) :
    t = .quoted (w ++ text.takeWhile (· ≠ '"')) := by
  induction text generalizing w with
  | nil => cases h
  | cons c text ih =>
    rw [Dialect.run, Dialect.step] at h
    by_cases hquote : c = '"'
    · rw [if_pos hquote] at h
      simp [← (List.cons.inj h).1, hquote]
    · have htake : (c :: text).takeWhile (· ≠ '"') = c :: text.takeWhile (· ≠ '"') := by
        simp [hquote]
      rw [Clean, htake, List.mem_cons, not_or] at hclean
      rw [if_neg hquote, if_neg (Ne.symm hclean.1)] at h
      rw [htake]
      split at h
      · simp [run_stuck] at h
      · simpa using ih (w ++ [c]) hclean.2 h

/-- Once a backslash has been read, the text read is not the text written: it is shorter, or
it runs on over the closing quote, and then it does not end in a backslash as the other does. -/
theorem first_of_escaped (hclean : Clean tail)
    (h : (D.run (.escaped a) (v ++ '"' :: tail)).1 = .quoted w :: toks) : w ≠ a ++ '\\' :: v := by
  rintro rfl
  rw [run_append] at h
  rcases run_inside (D := D) v (m := .escaped a) rfl with ⟨w', toks', hfirst, hlt⟩ | ⟨hnone, hmode⟩
  · rw [hfirst] at h
    obtain rfl := Token.quoted.inj (List.cons.inj h).1
    simp only [List.length_append, List.length_cons] at hlt
    omega
  · rw [hnone, List.nil_append] at h
    rcases hmode with hstuck | ⟨q, hq, hle⟩
    · simp [hstuck, run_stuck] at h
    · cases hafter : (D.run (.escaped a) v).2 with
      | quoted q' =>
        rw [hafter] at hq h
        obtain rfl := Option.some.inj hq
        rw [Dialect.run, Dialect.step, if_pos rfl] at h
        obtain rfl := Token.quoted.inj (List.cons.inj h).1
        simp only [List.length_append, List.length_cons] at hle
        omega
      | escaped q' =>
        have hlast : (a ++ '\\' :: v).getLast? = some '\\' := by
          cases v with
          | nil => simp
          | cons c v =>
            rw [List.getLast?_append, List.getLast?_cons_cons,
              getLast?_of_escaped (List.cons_ne_nil c v) hafter]
            rfl
        simp only [hafter, Dialect.run, Dialect.step, D.quote] at h
        have hw := Token.quoted.inj (first_of_clean _ hclean h)
        rw [hw, List.append_assoc, List.getLast?_append, List.singleton_append,
          List.getLast?_cons] at hlast
        cases hend : (tail.takeWhile (· ≠ '"')).getLast? with
        | none =>
          rw [hend, Option.getD_none, Option.some_or, Option.some.injEq] at hlast
          exact absurd hlast (by decide)
        | some c =>
          rw [hend, Option.getD_some, Option.some_or, Option.some.injEq] at hlast
          exact hclean (hlast ▸ List.mem_of_getLast? hend)
      | _ => simp [hafter, Mode.inside] at hq

/-- What is read as itself is plain. -/
theorem plain_of_first (hclean : Clean tail)
    (h : (D.run (.quoted a) (v ++ '"' :: tail)).1 = .quoted (a ++ v) :: toks) : D.Plain v := by
  induction v generalizing a with
  | nil => exact ⟨List.not_mem_nil, List.not_mem_nil, fun _ => List.not_mem_nil⟩
  | cons c v ih =>
    rw [List.cons_append, Dialect.run, Dialect.step] at h
    by_cases hquote : c = '"'
    · rw [if_pos hquote] at h
      have heq := Token.quoted.inj (List.cons.inj h).1
      simp at heq
    · rw [if_neg hquote] at h
      by_cases hback : c = '\\'
      · rw [if_pos hback, hback] at h
        exact absurd rfl (first_of_escaped hclean h)
      · rw [if_neg hback] at h
        by_cases hline : c = '\n' ∧ D.lines = true
        · rw [if_pos hline] at h
          simp [run_stuck] at h
        · rw [if_neg hline] at h
          refine plain_cons.mpr ⟨hquote, hback, hline, ih (a := a ++ [c]) ?_⟩
          simpa using h

-- ---------------------------------------------------------------------------
-- Written texts
-- ---------------------------------------------------------------------------

variable (D) in
/-- A text without quotes that is read as the tokens wherever it stands. -/
def Dialect.Fixed (t : List Char) (toks : List Token) : Prop :=
  '"' ∉ t ∧ '\\' ∉ t ∧ D.run .between t = (toks, .between)

instance (t : List Char) (toks : List Token) : Decidable (D.Fixed t toks) :=
  inferInstanceAs (Decidable (_ ∧ _))

/-- A text put together of fixed parts and of quoted values, with the tokens that are meant
by it and the values that stand in it. -/
inductive Written (D : Dialect) : List Char → List Token → List (List Char) → Prop where
  | nil : Written D [] [] []
  | part (fixed : D.Fixed t toks) (rest : Written D text toks' values) :
      Written D (t ++ text) (toks ++ toks') values
  | value (v : List Char) (rest : Written D text toks values) :
      Written D ('"' :: (v ++ '"' :: text)) (.quoted v :: toks) (v :: values)

theorem Written.append (h : Written D text toks values) (h' : Written D text' toks' values') :
    Written D (text ++ text') (toks ++ toks') (values ++ values') := by
  induction h with
  | nil => exact h'
  | part fixed _ ih =>
    rw [List.append_assoc, List.append_assoc]
    exact .part fixed ih
  | value v _ ih => simpa using Written.value v ih

theorem Written.clean (h : Written D text toks values) (hlast : Clean last) :
    Clean (text ++ last) := by
  induction h with
  | nil => exact hlast
  | part fixed _ ih =>
    rw [List.append_assoc]
    exact clean_append fixed.1 fixed.2.1 ih
  | value => simp [Clean]

theorem lex_quote (text : List Char) :
    D.lex ('"' :: text) = D.lexFrom (.quoted []) text := by
  have hrun : D.run .between ['"'] = ([], .quoted []) := by
    simp [Dialect.run, Dialect.step, Dialect.outside, white]
  have := lexFrom_of_run hrun text
  simpa [Dialect.lex] using this

theorem lexFrom_quoted (hv : D.Plain v) (text : List Char) :
    D.lexFrom (.quoted []) (v ++ '"' :: text) = (D.lex text).map (.quoted v :: ·) := by
  have hrun : D.run (.quoted v) ['"'] = ([.quoted v], .between) := by
    simp [Dialect.run, Dialect.step]
  rw [lexFrom_of_run (run_quoted [] hv), List.nil_append, ← List.singleton_append,
    lexFrom_of_run hrun]
  simp [Dialect.lex, Function.comp_def]

/-- Plain values are read as what is meant. -/
theorem Written.lex (h : Written D text toks values) (hplain : ∀ v ∈ values, D.Plain v)
    (last : List Char) : D.lex (text ++ last) = (D.lex last).map (toks ++ ·) := by
  induction h with
  | nil => simp
  | part fixed _ ih =>
    have hpart := lexFrom_of_run fixed.2.2
    rw [List.append_assoc]
    exact (hpart _).trans (by rw [← Dialect.lex, ih hplain]; simp [Function.comp_def])
  | value v _ ih =>
    obtain ⟨hv, hvalues⟩ := List.forall_mem_cons.mp hplain
    rw [List.cons_append, List.append_assoc, lex_quote, List.cons_append, lexFrom_quoted hv,
      ih hvalues]
    simp [Function.comp_def]

theorem exists_quoted (h : D.lexFrom (.quoted []) text = some toks) :
    ∃ w rest, (D.run (.quoted []) text).1 = .quoted w :: rest ∧
      ∃ rest', toks = .quoted w :: rest' := by
  rw [Dialect.lexFrom] at h
  rcases run_inside (D := D) text (m := .quoted []) rfl with ⟨w, rest, hfirst, -⟩ | ⟨-, hmode⟩
  · refine ⟨w, rest, hfirst, ?_⟩
    obtain ⟨ending, -, rfl⟩ := Option.map_eq_some_iff.mp h
    exact ⟨rest ++ ending, by rw [hfirst, List.cons_append]⟩
  · rcases hmode with hstuck | ⟨q, hq, -⟩
    · simp [hstuck, Mode.close] at h
    · cases hafter : (D.run (.quoted []) text).2 <;> simp_all [Mode.inside, Mode.close]

/-- If what is read is what is meant, up to tokens that do not count, every value is plain. -/
theorem Written.plain_of_lex (keep : Token → Bool) (hkeep : ∀ w, keep (.quoted w) = true)
    (h : Written D text toks values) (hlast : Clean last)
    (hlex : D.lex (text ++ last) = some found)
    (hfound : found.filter keep = toks.filter keep ++ more) : ∀ v ∈ values, D.Plain v := by
  induction h generalizing found with
  | nil => simp
  | part fixed _ ih =>
    rw [List.append_assoc, Dialect.lex, lexFrom_of_run fixed.2.2] at hlex
    obtain ⟨found', hlex', rfl⟩ := Option.map_eq_some_iff.mp hlex
    simp only [List.filter_append, List.append_assoc, List.append_cancel_left_eq] at hfound
    exact ih hlex' hfound
  | value v rest ih =>
    rw [List.cons_append, List.append_assoc, lex_quote, List.cons_append] at hlex
    have hv : D.Plain v := by
      obtain ⟨w, toks', hfirst, found', rfl⟩ := exists_quoted hlex
      simp only [List.filter_cons, hkeep, if_true, List.cons_append, List.cons.injEq,
        Token.quoted.injEq] at hfound
      rw [hfound.1] at hfirst
      exact plain_of_first (a := []) (rest.clean hlast) hfirst
    rw [lexFrom_quoted hv] at hlex
    obtain ⟨found', hlex', rfl⟩ := Option.map_eq_some_iff.mp hlex
    simp only [List.filter_cons, hkeep, if_true, List.cons_append, List.cons.injEq, true_and]
      at hfound
    exact List.forall_mem_cons.mpr ⟨hv, ih hlex' hfound⟩

-- ---------------------------------------------------------------------------
-- Comments
-- ---------------------------------------------------------------------------

/-- From inside a comment, or from outside it: there is nothing but white space and
comments, and the text ends inside a comment. -/
def endsInComment : Bool → List Char → Bool
  | inside, [] => inside
  | true, c :: text => endsInComment (c != '\n') text
  | false, c :: text =>
    if c == '\n' || white c then endsInComment false text
    else c == '#' && endsInComment true text

theorem mode_of_run (h : D.run m text = ([], .comment)) : m = .between ∨ m = .comment := by
  induction text generalizing m with
  | nil => exact .inr (congrArg Prod.snd h)
  | cons c text ih =>
    rw [Dialect.run, Prod.mk.injEq, List.append_eq_nil_iff] at h
    obtain ⟨⟨hstep, hrest⟩, hmode⟩ := h
    have hafter := ih (Prod.ext hrest hmode)
    cases m with
    | between => exact .inl rfl
    | comment => exact .inr rfl
    | stuck => simp [Dialect.step] at hafter
    | word w =>
      rw [Dialect.step] at hstep hafter
      split at hstep
      · cases hstep
      · next hdelimits => simp [hdelimits] at hafter
    | quoted w =>
      rw [Dialect.step] at hstep hafter
      by_cases hquote : c = '"'
      · simp [hquote] at hstep
      · rw [if_neg hquote] at hafter
        repeat' split at hafter
        all_goals simp at hafter
    | escaped w =>
      rw [Dialect.step] at hafter
      split at hafter <;> simp at hafter

theorem run_comment_iff (text : List Char) (hlines : D.lines = false) :
    (D.run .comment text = ([], .comment) ↔ endsInComment true text) ∧
      (D.run .between text = ([], .comment) ↔ endsInComment false text) := by
  induction text with
  | nil => simp [Dialect.run, endsInComment]
  | cons c text ih =>
    obtain ⟨hcomment, hbetween⟩ := ih
    constructor
    · by_cases hline : c = '\n'
      · simp [Dialect.run, Dialect.step, Dialect.outside, hline, hlines, endsInComment,
          hbetween]
      · have hne : (c != '\n') = true := bne_iff_ne.mpr hline
        simp [Dialect.run, Dialect.step, hline, endsInComment, hne, hcomment]
    · by_cases hwhite : (c == '\n' || white c) = true
      · have hstep : D.step .between c = ([], .between) := by
          rw [Dialect.step, Dialect.outside, hlines]
          by_cases hline : c = '\n' <;> simp_all
        simp [Dialect.run, hstep, endsInComment, hwhite, hbetween]
      · by_cases hhash : c = '#'
        · subst hhash
          have hstep : D.step .between '#' = ([], .comment) := by
            simp [Dialect.step, Dialect.outside, white]
          simp only [Dialect.run, hstep, endsInComment, hwhite, List.nil_append, Prod.eta]
          simpa using hcomment
        · have hends : endsInComment false (c :: text) = false := by
            simp [endsInComment, hwhite, hhash]
          rw [hends, Bool.false_eq_true, iff_false]
          intro h
          rw [Dialect.run, Prod.mk.injEq, List.append_eq_nil_iff] at h
          obtain ⟨⟨hstep, hrest⟩, hmode⟩ := h
          have hafter := mode_of_run (Prod.ext hrest hmode)
          simp only [Bool.or_eq_true, beq_iff_eq, not_or, Bool.not_eq_true] at hwhite
          simp only [Dialect.step, Dialect.outside, hwhite.1, hwhite.2, hhash, if_false,
            Bool.false_eq_true] at hstep hafter
          repeat' split at hafter
          all_goals simp_all

end ConfigText
