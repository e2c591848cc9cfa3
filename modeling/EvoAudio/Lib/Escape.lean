import EvoAudio.Lib.Words

/-!
# Lines, fields and escapes

A table is a text of lines, a line a sequence of fields with blanks between
them. Characters that would break a field are written as a backslash and three
octal digits. White space that is not escaped still breaks it: `pieces` is what
a field falls into when its escape is split at white space.
-/

namespace Text

-- ---------------------------------------------------------------------------
-- Lines
-- ---------------------------------------------------------------------------

/-- A line without the carriage return before its newline. -/
def chomp (line : List Char) : List Char :=
  if line.getLast? = some '\r' then line.dropLast else line

/-- `str::lines`. A last line without a newline is kept as it is. -/
def lines (s : List Char) : List (List Char) :=
  let parts := s.splitOn '\n'
  parts.dropLast.map chomp ++ (parts.getLast?.filter (!·.isEmpty)).toList

/-- The text of the lines, each with its newline. -/
def unlines (table : List (List Char)) : List Char :=
  table.flatMap (· ++ ['\n'])

theorem lines_append_newline (h : '\n' ∉ line) :
    lines (line ++ '\n' :: rest) = chomp line :: lines rest := by
  obtain ⟨part, parts, hparts⟩ :=
    List.exists_cons_of_ne_nil (List.splitOn_ne_nil '\n' rest)
  simp only [lines, List.splitOn_append_cons_self_of_not_mem h, hparts]
  simp

theorem lines_unlines (h : ∀ line ∈ table, '\n' ∉ line) :
    lines (unlines table) = table.map chomp := by
  induction table with
  | nil => simp [unlines, lines]
  | cons line table ih =>
    rw [List.forall_mem_cons] at h
    have hsplit : unlines (line :: table) = line ++ '\n' :: unlines table := by
      simp [unlines]
    rw [hsplit, lines_append_newline h.1, ih h.2, List.map_cons]

theorem trim_ne_nil (h : c ∈ s) (hc : isWhitespace c = false) : trim s ≠ [] := by
  have hstart : c ∈ s.dropWhile isWhitespace := by
    rw [← List.takeWhile_append_dropWhile (p := isWhitespace) (l := s), List.mem_append] at h
    refine h.resolve_left fun htake => ?_
    have := List.mem_takeWhile_imp htake
    simp [hc] at this
  have hend : c ∈ (s.dropWhile isWhitespace).reverse.dropWhile isWhitespace := by
    have hrev := List.mem_reverse.mpr hstart
    rw [← List.takeWhile_append_dropWhile (p := isWhitespace)
      (l := (s.dropWhile isWhitespace).reverse), List.mem_append] at hrev
    refine hrev.resolve_left fun htake => ?_
    have := List.mem_takeWhile_imp htake
    simp [hc] at this
  intro htrim
  rw [trim, List.reverse_eq_nil_iff] at htrim
  rw [htrim] at hend
  cases hend

-- ---------------------------------------------------------------------------
-- Words
-- ---------------------------------------------------------------------------

theorem words_append_cons (hc : isWhitespace c) : words (s ++ c :: t) = words s ++ words t := by
  simp [words, List.splitOnP_append_cons s t hc]

@[simp] theorem words_nil : words [] = [] := by
  simp [words]

theorem words_of_solid (h : ∀ c ∈ s, isWhitespace c = false) (hs : s ≠ []) : words s = [s] := by
  simp [words, List.splitOnP_eq_singleton h, hs]

/-- The first word of a text that starts with it. -/
theorem words_cons_solid (hc : isWhitespace c = false) (s : List Char) :
    ∃ word rest, words (c :: s) = (c :: word) :: rest := by
  obtain ⟨part, parts, hparts⟩ :=
    List.exists_cons_of_ne_nil (List.splitOnP_ne_nil isWhitespace s)
  exact ⟨part, parts.filter (!·.isEmpty),
    by simp [words, List.splitOnP_cons_eq_if_modifyHead, hc, hparts]⟩

theorem words_blank_append (h : ∀ c ∈ gap, isWhitespace c) (s : List Char) :
    words (gap ++ s) = words s := by
  induction gap with
  | nil => rfl
  | cons c gap ih =>
    rw [List.forall_mem_cons] at h
    have hsplit := words_append_cons (s := []) (t := gap ++ s) h.1
    rw [List.nil_append, words_nil, List.nil_append] at hsplit
    exact hsplit.trans (ih h.2)

theorem trim_ne_nil_of_words (h : words s ≠ []) : trim s ≠ [] := by
  by_cases hblank : ∀ c ∈ s, isWhitespace c
  · have := words_blank_append hblank []
    rw [List.append_nil, words_nil] at this
    exact absurd this h
  · simp only [not_forall] at hblank
    obtain ⟨c, hmem, hc⟩ := hblank
    exact trim_ne_nil hmem (Bool.eq_false_iff.mpr hc)

theorem words_append_gap (h : ∀ c ∈ gap, isWhitespace c) (hgap : gap ≠ []) (s t : List Char) :
    words (s ++ (gap ++ t)) = words s ++ words t := by
  obtain ⟨c, gap, rfl⟩ := List.exists_cons_of_ne_nil hgap
  rw [List.forall_mem_cons] at h
  rw [List.cons_append, words_append_cons h.1, words_blank_append h.2]

theorem words_chomp (line : List Char) : words (chomp line) = words line := by
  unfold chomp
  split
  next hlast =>
    obtain ⟨start, rfl⟩ := List.getLast?_eq_some_iff.mp hlast
    simp [words_append_cons (show isWhitespace '\r' from rfl)]
  · rfl

/-- The text of the fields, with a blank between any two. -/
def unfields (fields : List (List Char)) : List Char :=
  [' '].intercalate fields

theorem words_unfields (fields : List (List Char)) :
    words (unfields fields) = fields.flatMap words := by
  induction fields with
  | nil => simp [unfields, List.intercalate]
  | cons field fields ih =>
    cases fields with
    | nil => simp [unfields, List.intercalate]
    | cons next fields =>
      have hsplit : unfields (field :: next :: fields) =
          field ++ ' ' :: unfields (next :: fields) := by
        simp [unfields, List.intercalate]
      rw [hsplit, words_append_cons (show isWhitespace ' ' from rfl), ih]
      rfl

theorem mem_unfields (h : c ∈ unfields fields) : c = ' ' ∨ ∃ field ∈ fields, c ∈ field := by
  induction fields with
  | nil => simp [unfields, List.intercalate] at h
  | cons field fields ih =>
    cases fields with
    | nil =>
      have hc : c ∈ field := by simpa [unfields, List.intercalate] using h
      exact .inr ⟨field, by simp, hc⟩
    | cons next fields =>
      have hsplit : unfields (field :: next :: fields) =
          field ++ ' ' :: unfields (next :: fields) := by
        simp [unfields, List.intercalate]
      rw [hsplit, List.mem_append, List.mem_cons] at h
      rcases h with h | rfl | h
      · exact .inr ⟨field, by simp, h⟩
      · exact .inl rfl
      · refine (ih h).imp_right ?_
        rintro ⟨field', hmem, hc⟩
        exact ⟨field', List.mem_cons_of_mem _ hmem, hc⟩

-- ---------------------------------------------------------------------------
-- Escapes
-- ---------------------------------------------------------------------------

def octalDigit (n : Nat) : Char := Char.ofNat ('0'.toNat + n % 8)

/-- A backslash and the three octal digits of a character below 256. -/
def octal (c : Char) : List Char :=
  ['\\', octalDigit (c.toNat / 64), octalDigit (c.toNat / 8), octalDigit c.toNat]

def escapeChar (esc : List Char) (c : Char) : List Char :=
  if c ∈ esc then octal c else [c]

/-- A text with the given characters as octal escapes. -/
def escape (esc s : List Char) : List Char := s.flatMap (escapeChar esc)

/-- The parts of a text between the white space that is not escaped. -/
def pieces (esc s : List Char) : List (List Char) :=
  (s.splitOnP fun c => isWhitespace c && c ∉ esc).filter (!·.isEmpty)

@[simp] theorem escape_nil : escape esc [] = [] := rfl

@[simp] theorem escape_cons : escape esc (c :: s) = escapeChar esc c ++ escape esc s := rfl

theorem escapeChar_of_mem (h : c ∈ esc) : escapeChar esc c = octal c := if_pos h

theorem escapeChar_of_notMem (h : c ∉ esc) : escapeChar esc c = [c] := if_neg h

theorem escapeChar_ne_nil : escapeChar esc c ≠ [] := by
  unfold escapeChar
  split <;> simp [octal]

theorem octalDigit_cases (n : Nat) :
    octalDigit n ∈ ['0', '1', '2', '3', '4', '5', '6', '7'] := by
  have hall : ∀ k < 8, Char.ofNat ('0'.toNat + k) ∈ ['0', '1', '2', '3', '4', '5', '6', '7'] := by
    decide
  exact hall _ (Nat.mod_lt _ (by omega))

theorem octal_solid (c : Char) : ∀ d ∈ octal c, isWhitespace d = false ∧ d ≠ '\n' := by
  have hdigit : ∀ n, isWhitespace (octalDigit n) = false ∧ octalDigit n ≠ '\n' := by
    intro n
    exact forall_of_all (p := fun d => isWhitespace d = false ∧ d ≠ '\n')
      (by decide) _ (octalDigit_cases n)
  simp only [octal, List.forall_mem_cons, List.not_mem_nil, IsEmpty.forall_iff, implies_true,
    and_true]
  exact ⟨⟨rfl, by decide⟩, hdigit _, hdigit _, hdigit _⟩

theorem newline_notMem_escape (h : '\n' ∈ esc) (s : List Char) : '\n' ∉ escape esc s := by
  intro hmem
  obtain ⟨c, -, hc⟩ := List.mem_flatMap.mp hmem
  unfold escapeChar at hc
  split at hc
  · exact (octal_solid c _ hc).2 rfl
  next hesc =>
    rw [List.mem_singleton] at hc
    exact hesc (hc ▸ h)

theorem escape_eq_nil : escape esc s = [] ↔ s = [] := by
  cases s with
  | nil => simp
  | cons c s => simp [escapeChar_ne_nil]

theorem escape_of_plain (h : ∀ c ∈ s, c ∉ esc) : escape esc s = s := by
  induction s with
  | nil => rfl
  | cons c s ih =>
    rw [List.forall_mem_cons] at h
    rw [escape_cons, escapeChar_of_notMem h.1, ih h.2, List.singleton_append]

/-- A text without a backslash is the escape of a text only if it needs none. -/
theorem escape_eq_iff (hback : '\\' ∉ t) (h : ∀ c ∈ t, c ∉ esc) : escape esc s = t ↔ s = t := by
  constructor
  · intro heq
    have hplain : ∀ c ∈ s, c ∉ esc := by
      intro c hc hesc
      refine hback (heq ▸ List.mem_flatMap.mpr ⟨c, hc, ?_⟩)
      simp [escapeChar_of_mem hesc, octal]
    rw [← heq, escape_of_plain hplain]
  · rintro rfl
    exact escape_of_plain h

/-- A run of characters that are no white space goes to the first part. -/
theorem splitOnP_solid_append {p : Char → Bool} (h : ∀ c ∈ run, p c = false) (s : List Char) :
    (run ++ s).splitOnP p = (s.splitOnP p).modifyHead (run ++ ·) := by
  induction run with
  | nil => cases hs : s.splitOnP p <;> simp [hs]
  | cons c run ih =>
    rw [List.forall_mem_cons] at h
    rw [List.cons_append, List.splitOnP_cons_eq_if_modifyHead, ih h.2]
    cases hs : s.splitOnP p <;> simp [h.1]

theorem splitOnP_escape (esc s : List Char) :
    (escape esc s).splitOnP isWhitespace =
      (s.splitOnP fun c => isWhitespace c && c ∉ esc).map (escape esc) := by
  induction s with
  | nil => simp
  | cons c s ih =>
    rw [escape_cons, List.splitOnP_cons_eq_if_modifyHead]
    by_cases hcut : (isWhitespace c && c ∉ esc) = true
    · rw [if_pos hcut]
      simp only [Bool.and_eq_true, decide_eq_true_eq] at hcut
      rw [escapeChar_of_notMem hcut.2, List.singleton_append,
        List.splitOnP_cons_eq_if_modifyHead, if_pos hcut.1, ih]
      rfl
    · have hsolid : ∀ d ∈ escapeChar esc c, isWhitespace d = false := by
        intro d hd
        unfold escapeChar at hd
        split at hd
        · exact (octal_solid c d hd).1
        next hesc =>
          rw [List.mem_singleton] at hd
          subst hd
          simpa [hesc] using hcut
      rw [if_neg hcut, splitOnP_solid_append hsolid, ih]
      cases hs : s.splitOnP fun c => isWhitespace c && c ∉ esc <;> simp

theorem words_escape (esc s : List Char) :
    words (escape esc s) = (pieces esc s).map (escape esc) := by
  have hempty : ∀ part : List Char, (escape esc part).isEmpty = part.isEmpty := by
    intro part
    rw [Bool.eq_iff_iff, List.isEmpty_iff, List.isEmpty_iff]
    exact escape_eq_nil
  rw [words, splitOnP_escape, List.filter_map, pieces]
  congr 2
  funext part
  simp [hempty]

theorem pieces_ne_nil (h : c ∈ s) (hc : isWhitespace c = false) : pieces esc s ≠ [] := by
  unfold pieces
  induction s with
  | nil => cases h
  | cons d s ih =>
    rw [List.splitOnP_cons_eq_if_modifyHead]
    split
    next hcut =>
      have hne : c ≠ d := by
        rintro rfl
        simp [hc] at hcut
      simpa using ih ((List.mem_cons.mp h).resolve_left hne)
    next =>
      obtain ⟨part, parts, hparts⟩ := List.exists_cons_of_ne_nil
        (List.splitOnP_ne_nil (fun c => isWhitespace c && c ∉ esc) s)
      rw [hparts]
      simp

/-- A field without unescaped white space stays in one piece. -/
theorem pieces_of_solid (h : ∀ c ∈ s, isWhitespace c → c ∈ esc) (hs : s ≠ []) :
    pieces esc s = [s] := by
  have hcut : ∀ c ∈ s, (isWhitespace c && c ∉ esc) = false := by
    intro c hc
    by_cases hw : isWhitespace c
    · simp [h c hc hw]
    · simp [hw]
  rw [pieces, List.splitOnP_eq_singleton hcut]
  simp [hs]

end Text
