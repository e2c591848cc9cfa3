import EvoAudio.Lib.Text

/-!
# Regular expressions in multi-line mode

Sequences of literals, character classes and line anchors, matched as the
`regex` crate matches them in `(?m)` mode: the leftmost match, and of those the
one a backtracking search finds first, with greedy repetitions. An expression
that is matched again and again must not match the empty text.
-/

namespace Regex

/-- A place in a text: whether a line starts there, and the text behind it. -/
structure Cursor where
  lineStart : Bool
  rest : List Char
  deriving DecidableEq, Repr

inductive Atom where
  /-- One of some texts, the first that leads to a match. -/
  | oneOf (texts : List (List Char))
  /-- A character of the class. -/
  | one (p : Char → Bool)
  /-- As many characters of the class as lead to a match. -/
  | many (p : Char → Bool)
  | lineStart
  | lineEnd

abbrev lit (text : List Char) : Atom := .oneOf [text]

/-- `\r?` -/
abbrev optionalCr : Atom := .oneOf [['\r'], []]

/-- The place behind a text that was read from here. -/
def Cursor.after (c : Cursor) (text rest : List Char) : Cursor :=
  ⟨match text.getLast? with
    | some x => x == '\n'
    | none => c.lineStart, rest⟩

def manyEnds (p : Char → Bool) (lineStart : Bool) : List Char → List Cursor
  | [] => [⟨lineStart, []⟩]
  | x :: xs =>
    if p x then manyEnds p (x == '\n') xs ++ [⟨lineStart, x :: xs⟩] else [⟨lineStart, x :: xs⟩]

/-- Where an atom can end, in the order they are tried. -/
def Atom.ends : Atom → Cursor → List Cursor
  | .oneOf texts, c =>
    texts.filterMap fun text => (Text.stripPrefix text c.rest).map (c.after text)
  | .one p, c =>
    match c.rest with
    | x :: xs => if p x then [⟨x == '\n', xs⟩] else []
    | [] => []
  | .many p, c => manyEnds p c.lineStart c.rest
  | .lineStart, c => if c.lineStart then [c] else []
  | .lineEnd, c => if c.rest = [] ∨ c.rest.head? = some '\n' then [c] else []

/-- What the rest of the search makes of the first end that it accepts. -/
def follow {β : Type} : List Atom → (Cursor → Option β) → Cursor → Option β
  | [], k, c => k c
  | a :: r, k, c => (a.ends c).findSome? (follow r k)

/-- Where a match that starts here ends. -/
def first (r : List Atom) (c : Cursor) : Option Cursor := follow r some c

/-- `Regex::is_match` -/
def isMatch (r : List Atom) (lineStart : Bool) : List Char → Bool
  | [] => (first r ⟨lineStart, []⟩).isSome
  | x :: xs => (first r ⟨lineStart, x :: xs⟩).isSome || isMatch r (x == '\n') xs

/-- `Regex::replace_all` from a place on. The fuel bounds the characters. -/
def replaceFrom (r : List Atom) (replacement : List Char) : Nat → Cursor → List Char
  | 0, c => c.rest
  | fuel + 1, c =>
    match first r c with
    | some e => replacement ++ replaceFrom r replacement fuel e
    | none =>
      match c.rest with
      | [] => []
      | x :: xs => x :: replaceFrom r replacement fuel ⟨x == '\n', xs⟩

def replaceAll (r : List Atom) (replacement text : List Char) : List Char :=
  replaceFrom r replacement text.length ⟨true, text⟩

/-- The text of the one group of a match that starts here, by what stands before
the group and behind it. -/
def capture (before group behind : List Atom) : Cursor → Option (List Char) :=
  follow before fun start => follow group (fun stop => (first behind stop).map fun _ =>
    start.rest.take (start.rest.length - stop.rest.length)) start

/-- `Regex::captures`: the group of the leftmost match. -/
def captures (before group behind : List Atom) (lineStart : Bool) : List Char → Option (List Char)
  | [] => capture before group behind ⟨lineStart, []⟩
  | x :: xs =>
    match capture before group behind ⟨lineStart, x :: xs⟩ with
    | some text => some text
    | none => captures before group behind (x == '\n') xs

attribute [local grind =] Atom.ends follow replaceFrom captures

-- ---------------------------------------------------------------------------
-- Following a match
-- ---------------------------------------------------------------------------

section Follow

variable {β : Type} {k : Cursor → Option β} {r : List Atom}

theorem follow_append (r r' : List Atom) (k : Cursor → Option β) (c : Cursor) :
    follow (r ++ r') k c = follow r (follow r' k) c := by
  induction r generalizing c with
  | nil => rfl
  | cons a r ih =>
    simp only [List.cons_append, follow]
    congr 1
    funext c
    exact ih c

@[simp] theorem follow_nil (k : Cursor → Option β) (c : Cursor) : follow [] k c = k c := rfl

theorem follow_oneOf_cons (text : List Char) (texts : List (List Char)) (c : Cursor) :
    follow (.oneOf (text :: texts) :: r) k c =
      ((Text.stripPrefix text c.rest).bind fun rest => follow r k (c.after text rest)).or
        (follow (.oneOf texts :: r) k c) := by
  simp only [follow, Atom.ends]
  cases hstrip : Text.stripPrefix text c.rest with
  | none => simp [hstrip]
  | some rest =>
    simp only [List.filterMap_cons, hstrip, Option.map_some, List.findSome?_cons, Option.bind_some]
    cases follow r k (c.after text rest) <;> rfl

theorem follow_oneOf_nil (c : Cursor) : follow (.oneOf [] :: r) k c = none := rfl

theorem follow_lit (text : List Char) (c : Cursor) :
    follow (lit text :: r) k c =
      (Text.stripPrefix text c.rest).bind fun rest => follow r k (c.after text rest) := by
  rw [follow_oneOf_cons, follow_oneOf_nil, Option.or_none]

theorem follow_oneOf_pair (text text' : List Char) (c : Cursor) :
    follow (.oneOf [text, text'] :: r) k c =
      (follow (lit text :: r) k c).or (follow (lit text' :: r) k c) := by
  rw [follow_oneOf_cons, ← follow_lit text]

theorem stripPrefix_singleton (y x : Char) (xs : List Char) :
    Text.stripPrefix [y] (x :: xs) = if x = y then some xs else none := by
  by_cases hx : x = y
  · simp [hx, Text.stripPrefix, List.cons_prefix_cons]
  · simp [hx, Ne.symm hx, Text.stripPrefix, List.cons_prefix_cons]

theorem follow_char_nil (y : Char) (lineStart : Bool) :
    follow (lit [y] :: r) k ⟨lineStart, []⟩ = none := by
  rw [follow_lit]
  rfl

theorem follow_char_cons (y : Char) (lineStart : Bool) (x : Char) (xs : List Char) :
    follow (lit [y] :: r) k ⟨lineStart, x :: xs⟩ =
      if x = y then follow r k ⟨x == '\n', xs⟩ else none := by
  rw [follow_lit, stripPrefix_singleton]
  split
  next hx =>
    subst hx
    rfl
  next => rfl

theorem follow_optionalCr (c : Cursor) :
    follow (optionalCr :: r) k c = (follow (lit ['\r'] :: r) k c).or (follow r k c) := by
  have hstrip : Text.stripPrefix [] c.rest = some c.rest := Text.stripPrefix_append [] _
  have hempty : follow (.oneOf [[]] :: r) k c = follow r k c := by
    rw [follow_lit, hstrip]
    rfl
  rw [follow_oneOf_cons, hempty, follow_lit]

theorem follow_optionalCr_nil (lineStart : Bool) :
    follow (optionalCr :: r) k ⟨lineStart, []⟩ = follow r k ⟨lineStart, []⟩ := by
  rw [follow_optionalCr, follow_char_nil, Option.none_or]

theorem follow_optionalCr_cons (lineStart : Bool) (x : Char) (xs : List Char) :
    follow (optionalCr :: r) k ⟨lineStart, x :: xs⟩ =
      if x = '\r' then (follow r k ⟨false, xs⟩).or (follow r k ⟨lineStart, x :: xs⟩)
      else follow r k ⟨lineStart, x :: xs⟩ := by
  rw [follow_optionalCr, follow_char_cons]
  split
  next hx =>
    subst hx
    rfl
  next => rw [Option.none_or]

theorem follow_lineStart (c : Cursor) :
    follow (.lineStart :: r) k c = if c.lineStart then follow r k c else none := by
  rw [follow, Atom.ends]
  split <;> simp

theorem follow_lineEnd (c : Cursor) : follow (.lineEnd :: r) k c =
    if c.rest = [] ∨ c.rest.head? = some '\n' then follow r k c else none := by
  rw [follow, Atom.ends]
  split <;> simp

theorem follow_one (p : Char → Bool) (lineStart : Bool) (x : Char) (xs : List Char) :
    follow (.one p :: r) k ⟨lineStart, x :: xs⟩ =
      if p x then follow r k ⟨x == '\n', xs⟩ else none := by
  simp only [follow, Atom.ends]
  split <;> simp

theorem follow_many_nil (p : Char → Bool) (lineStart : Bool) :
    follow (.many p :: r) k ⟨lineStart, []⟩ = follow r k ⟨lineStart, []⟩ := by
  simp [follow, Atom.ends, manyEnds]

/-- A greedy repetition takes one more character first. -/
theorem follow_many_cons (p : Char → Bool) (lineStart : Bool) (x : Char) (xs : List Char) :
    follow (.many p :: r) k ⟨lineStart, x :: xs⟩ =
      if p x then
        (follow (.many p :: r) k ⟨x == '\n', xs⟩).or (follow r k ⟨lineStart, x :: xs⟩)
      else follow r k ⟨lineStart, x :: xs⟩ := by
  simp only [follow, Atom.ends, manyEnds]
  split
  · simp [List.findSome?_append]
  · simp

/-- The place behind a run of a class. -/
def skip (p : Char → Bool) (lineStart : Bool) : List Char → Cursor
  | [] => ⟨lineStart, []⟩
  | x :: xs => if p x then skip p (x == '\n') xs else ⟨lineStart, x :: xs⟩

@[simp] theorem rest_skip (p : Char → Bool) (lineStart : Bool) (text : List Char) :
    (skip p lineStart text).rest = text.dropWhile p := by
  induction text generalizing lineStart with
  | nil => rfl
  | cons x xs ih =>
    rw [skip, List.dropWhile_cons]
    split
    · exact ih _
    · rfl

theorem skip_eq (p : Char → Bool) (lineStart : Bool) (text : List Char) :
    skip p lineStart text = ⟨(skip p lineStart text).lineStart, text.dropWhile p⟩ := by
  rw [← rest_skip p lineStart text]

/-- A repetition takes the whole run when no match goes on inside it. -/
theorem follow_many_of_stuck {p : Char → Bool}
    (h : ∀ lineStart x xs, p x → follow r k ⟨lineStart, x :: xs⟩ = none) (lineStart : Bool)
    (text : List Char) :
    follow (.many p :: r) k ⟨lineStart, text⟩ = follow r k (skip p lineStart text) := by
  induction text generalizing lineStart with
  | nil => exact follow_many_nil ..
  | cons x xs ih =>
    rw [follow_many_cons, skip]
    split
    next hp => rw [ih, h lineStart x xs hp, Option.or_none]
    next => rfl

end Follow

-- ---------------------------------------------------------------------------
-- Replacing
-- ---------------------------------------------------------------------------

/-- A match takes at least one character. -/
def Consumes (r : List Atom) : Prop :=
  ∀ c e, first r c = some e → e.rest.length < c.rest.length

/-- Matches start at line starts only. -/
def Anchored (r : List Atom) : Prop := ∀ text, first r ⟨false, text⟩ = none

def Atom.minLength : Atom → Nat
  | .oneOf texts => (texts.map List.length).min?.getD 0
  | .one _ => 1
  | _ => 0

theorem length_manyEnds {p : Char → Bool} (h : e ∈ manyEnds p lineStart text) :
    e.rest.length ≤ text.length := by
  induction text generalizing lineStart with
  | nil =>
    obtain rfl := List.mem_singleton.mp h
    exact Nat.le_refl _
  | cons x xs ih =>
    rw [manyEnds] at h
    split at h
    · rcases List.mem_append.mp h with h | h
      · exact Nat.le_succ_of_le (ih h)
      · obtain rfl := List.mem_singleton.mp h
        exact Nat.le_refl _
    · obtain rfl := List.mem_singleton.mp h
      exact Nat.le_refl _

theorem Atom.length_ends {a : Atom} (h : e ∈ a.ends c) :
    e.rest.length + a.minLength ≤ c.rest.length := by
  cases a with
  | oneOf texts =>
    obtain ⟨text, htext, hstrip⟩ := List.mem_filterMap.mp h
    obtain ⟨rest, hrest, rfl⟩ := Option.map_eq_some_iff.mp hstrip
    have hmin : (texts.map List.length).min?.getD 0 ≤ text.length := by
      cases hmin : (texts.map List.length).min? with
      | none => exact Nat.zero_le _
      | some n => exact (List.min?_eq_some_iff.mp hmin).2 _ (List.mem_map_of_mem htext)
    rw [Text.stripPrefix_eq_some hrest, List.length_append]
    simp only [Cursor.after, Atom.minLength]
    omega
  | one p =>
    simp only [Atom.ends] at h
    split at h
    next x xs hrest =>
      split at h
      · obtain rfl := List.mem_singleton.mp h
        simp [Atom.minLength, hrest]
      · cases h
    · cases h
  | many p => exact length_manyEnds h
  | lineStart =>
    simp only [Atom.ends] at h
    split at h
    · obtain rfl := List.mem_singleton.mp h
      exact Nat.le_refl _
    · cases h
  | lineEnd =>
    simp only [Atom.ends] at h
    split at h
    · obtain rfl := List.mem_singleton.mp h
      exact Nat.le_refl _
    · cases h

theorem length_first {r : List Atom} (h : first r c = some e) :
    e.rest.length + (r.map Atom.minLength).sum ≤ c.rest.length := by
  induction r generalizing c with
  | nil =>
    cases h
    exact Nat.le_refl _
  | cons a r ih =>
    obtain ⟨mid, hmid, hrest⟩ := List.exists_of_findSome?_eq_some h
    have hfirst := Atom.length_ends hmid
    have hthen := ih hrest
    simp only [List.map_cons, List.sum_cons]
    omega

theorem minLength_le_sum {a : Atom} {r : List Atom} (h : a ∈ r) :
    a.minLength ≤ (r.map Atom.minLength).sum := by
  induction h with
  | head r =>
    rw [List.map_cons, List.sum_cons]
    omega
  | tail b _ ih =>
    rw [List.map_cons, List.sum_cons]
    omega

/-- A literal that is always read is a character at least. -/
theorem consumes_of_mem {word : List Char} {r : List Atom} (hne : word ≠ [])
    (h : lit word ∈ r) : Consumes r := by
  intro c e hfirst
  have hlength := length_first hfirst
  have hword : word.length ≤ (r.map Atom.minLength).sum := minLength_le_sum h
  have hpos := List.length_pos_iff.mpr hne
  omega

theorem anchored_lineStart (r : List Atom) : Anchored (.lineStart :: r) := by
  intro text
  rw [first, follow_lineStart]
  rfl

section Replace

variable {r : List Atom} {replacement : List Char}

theorem Consumes.first_nil (h : Consumes r) (lineStart : Bool) :
    first r ⟨lineStart, []⟩ = none := by
  cases hfirst : first r ⟨lineStart, []⟩ with
  | none => rfl
  | some e => exact absurd (h _ _ hfirst) (Nat.not_lt_zero _)

theorem replaceFrom_nil (h : Consumes r) (n : Nat) (lineStart : Bool) :
    replaceFrom r replacement n ⟨lineStart, []⟩ = [] := by
  cases n with
  | zero => rfl
  | succ n => simp [replaceFrom, h.first_nil]

/-- More fuel than characters changes nothing. -/
theorem replaceFrom_eq (h : Consumes r) {m n : Nat} {c : Cursor} (hm : c.rest.length ≤ m)
    (hn : c.rest.length ≤ n) :
    replaceFrom r replacement m c = replaceFrom r replacement n c := by
  induction m generalizing n c with
  | zero =>
    obtain ⟨lineStart, rest⟩ := c
    obtain rfl : rest = [] := List.length_eq_zero_iff.mp (Nat.le_zero.mp hm)
    rw [replaceFrom_nil h, replaceFrom_nil h]
  | succ m ih =>
    cases n with
    | zero =>
      obtain ⟨lineStart, rest⟩ := c
      obtain rfl : rest = [] := List.length_eq_zero_iff.mp (Nat.le_zero.mp hn)
      rw [replaceFrom_nil h, replaceFrom_nil h]
    | succ n =>
      simp only [replaceFrom]
      split
      next e hfirst =>
        have hlt := h _ _ hfirst
        rw [@ih n e (by omega) (by omega)]
      next hfirst =>
        split
        next => rfl
        next x xs hrest =>
          rw [hrest, List.length_cons] at hm hn
          rw [@ih n ⟨_, xs⟩ (Nat.le_of_succ_le_succ hm) (Nat.le_of_succ_le_succ hn)]

variable (r replacement) in
/-- The replacement from a place on, with the fuel it needs. -/
def replaced (c : Cursor) : List Char := replaceFrom r replacement c.rest.length c

theorem replaceAll_eq (text : List Char) :
    replaceAll r replacement text = replaced r replacement ⟨true, text⟩ := rfl

theorem replaced_match (h : Consumes r) (hfirst : first r c = some e) :
    replaced r replacement c = replacement ++ replaced r replacement e := by
  have hlt := h _ _ hfirst
  obtain ⟨n, hn⟩ := Nat.exists_eq_succ_of_ne_zero (Nat.ne_zero_of_lt hlt)
  rw [replaced, hn, replaceFrom, hfirst]
  dsimp only
  rw [@replaceFrom_eq _ _ h n e.rest.length e (by omega) (Nat.le_refl _), replaced]

theorem replaced_nil (h : Consumes r) (lineStart : Bool) :
    replaced r replacement ⟨lineStart, []⟩ = [] := replaceFrom_nil h ..

theorem replaced_skip (hfirst : first r ⟨lineStart, x :: xs⟩ = none) :
    replaced r replacement ⟨lineStart, x :: xs⟩ =
      x :: replaced r replacement ⟨x == '\n', xs⟩ := by
  simp only [replaced, List.length_cons, replaceFrom, hfirst]

/-- Inside a line nothing is replaced. -/
theorem replaced_inside (h : Anchored r) {line : List Char} (hline : '\n' ∉ line)
    (rest : List Char) :
    replaced r replacement ⟨false, line ++ rest⟩ =
      line ++ replaced r replacement ⟨false, rest⟩ := by
  induction line with
  | nil => rfl
  | cons x line ih =>
    rw [List.mem_cons, not_or] at hline
    obtain ⟨hx, hline⟩ := hline
    have hline' : (x == '\n') = false := beq_eq_false_iff_ne.mpr (Ne.symm hx)
    rw [List.cons_append, replaced_skip (h _), hline', ih hline, List.cons_append]

/-- A line where no match starts is kept. -/
theorem replaced_line (h : Anchored r) {line : List Char} (hline : '\n' ∉ line)
    (hfirst : first r ⟨true, line ++ '\n' :: rest⟩ = none) :
    replaced r replacement ⟨true, line ++ '\n' :: rest⟩ =
      line ++ '\n' :: replaced r replacement ⟨true, rest⟩ := by
  cases line with
  | nil => exact replaced_skip hfirst
  | cons x line =>
    rw [List.mem_cons, not_or] at hline
    obtain ⟨hx, hline⟩ := hline
    have hline' : (x == '\n') = false := beq_eq_false_iff_ne.mpr (Ne.symm hx)
    rw [List.cons_append] at hfirst ⊢
    rw [replaced_skip hfirst, hline', replaced_inside h hline, replaced_skip (h _)]
    rfl

/-- The same for a last line without a newline. -/
theorem replaced_last (hconsumes : Consumes r) (h : Anchored r) {line : List Char}
    (hline : '\n' ∉ line) (hfirst : first r ⟨true, line⟩ = none) :
    replaced r replacement ⟨true, line⟩ = line := by
  cases line with
  | nil => exact replaced_nil hconsumes true
  | cons x line =>
    rw [List.mem_cons, not_or] at hline
    obtain ⟨hx, hline⟩ := hline
    have hline' : (x == '\n') = false := beq_eq_false_iff_ne.mpr (Ne.symm hx)
    have hinside := @replaced_inside r replacement h line hline []
    rw [List.append_nil, replaced_nil hconsumes, List.append_nil] at hinside
    rw [replaced_skip hfirst, hline', hinside]

end Replace

-- ---------------------------------------------------------------------------
-- Capturing
-- ---------------------------------------------------------------------------

section Captures

variable {before group behind : List Atom} {line rest : List Char}

theorem captures_inside (h : ∀ text, capture before group behind ⟨false, text⟩ = none)
    (hline : '\n' ∉ line) :
    captures before group behind false (line ++ '\n' :: rest) =
      captures before group behind true rest := by
  induction line with
  | nil =>
    rw [List.nil_append, captures, h]
    rfl
  | cons x line ih =>
    rw [List.mem_cons, not_or] at hline
    have hx : (x == '\n') = false := beq_eq_false_iff_ne.mpr (Ne.symm hline.1)
    rw [List.cons_append, captures, h]
    dsimp only
    rw [hx, ih hline.2]

/-- A line where no match starts is passed over. -/
theorem captures_line (h : ∀ text, capture before group behind ⟨false, text⟩ = none)
    (hline : '\n' ∉ line)
    (hnone : capture before group behind ⟨true, line ++ '\n' :: rest⟩ = none) :
    captures before group behind true (line ++ '\n' :: rest) =
      captures before group behind true rest := by
  cases line with
  | nil =>
    rw [List.nil_append] at hnone ⊢
    rw [captures, hnone]
    rfl
  | cons x line =>
    rw [List.mem_cons, not_or] at hline
    have hx : (x == '\n') = false := beq_eq_false_iff_ne.mpr (Ne.symm hline.1)
    rw [List.cons_append] at hnone ⊢
    rw [captures, hnone]
    dsimp only
    rw [hx, captures_inside h hline.2]

theorem captures_match {text found : List Char}
    (h : capture before group behind ⟨true, text⟩ = some found) :
    captures before group behind true text = some found := by
  cases text with
  | nil => exact h
  | cons x text => rw [captures, h]

end Captures

end Regex
