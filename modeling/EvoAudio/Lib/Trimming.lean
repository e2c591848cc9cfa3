import EvoAudio.Lib.Escape
import EvoAudio.Lib.Segments

/-!
# Trimmed texts

Which texts have nothing to trim, and what is around the text that trimming
leaves: white space, which may be more or less without any change.
-/

namespace Text

/-- No white space at the start. -/
def Flush (s : List Char) : Prop := ∀ c ∈ s.head?, isWhitespace c = false

/-- No white space at either end. -/
def Trimmed (s : List Char) : Prop := Flush s ∧ Flush s.reverse

-- ---------------------------------------------------------------------------
-- The start of a text
-- ---------------------------------------------------------------------------

@[simp] theorem flush_nil : Flush [] := by simp [Flush]

@[simp] theorem flush_cons {c : Char} : Flush (c :: s) ↔ isWhitespace c = false := by simp [Flush]

theorem flush_iff {s : List Char} : Flush s ↔ s.dropWhile isWhitespace = s := by
  cases s with
  | nil => simp
  | cons c s =>
    rw [flush_cons]
    by_cases hc : isWhitespace c = true
    · have hshorter := (List.dropWhile_suffix isWhitespace (l := s)).length_le
      rw [List.dropWhile_cons_of_pos hc]
      refine iff_of_false (by simp [hc]) fun heq => ?_
      have := congrArg List.length heq
      simp only [List.length_cons] at this
      omega
    · rw [List.dropWhile_cons_of_neg hc]
      simpa using hc

theorem flush_dropWhile (s : List Char) : Flush (s.dropWhile isWhitespace) :=
  flush_iff.mpr (List.dropWhile_idempotent _ _)

theorem Flush.of_isPrefix (h : Flush s) (hst : t <+: s) : Flush t := by
  obtain ⟨rest, rfl⟩ := hst
  intro c hc
  exact h c (by simp [List.head?_append, Option.mem_def.mp hc])

theorem Flush.append (h : Flush s) (hne : s ≠ []) (t : List Char) : Flush (s ++ t) := by
  obtain ⟨c, rest, rfl⟩ := List.exists_cons_of_ne_nil hne
  exact h

-- ---------------------------------------------------------------------------
-- Trimming
-- ---------------------------------------------------------------------------

theorem trim_eq (s : List Char) : trim s = trimEnd (s.dropWhile isWhitespace) := rfl

theorem flush_trim (s : List Char) : Flush (trim s) :=
  (flush_dropWhile s).of_isPrefix (trimEnd_isPrefix _)

theorem flush_reverse_trimEnd (s : List Char) : Flush (trimEnd s).reverse := by
  rw [trimEnd, List.reverse_reverse]
  exact flush_dropWhile _

theorem trimmed_trim (s : List Char) : Trimmed (trim s) :=
  ⟨flush_trim s, flush_reverse_trimEnd _⟩

theorem trimEnd_eq_self (h : Flush s.reverse) : trimEnd s = s := by
  rw [trimEnd, flush_iff.mp h, List.reverse_reverse]

theorem trim_eq_trimEnd (h : Flush s) : trim s = trimEnd s := by
  rw [trim_eq, flush_iff.mp h]

theorem Trimmed.trim_eq (h : Trimmed s) : trim s = s := by
  rw [trim_eq_trimEnd h.1, trimEnd_eq_self h.2]

theorem trim_eq_self_iff {s : List Char} : trim s = s ↔ Trimmed s :=
  ⟨fun h => h ▸ trimmed_trim s, Trimmed.trim_eq⟩

theorem trim_eq_nil_iff {s : List Char} : trim s = [] ↔ ∀ c ∈ s, isWhitespace c := by
  rw [trim_eq, trimEnd_eq_nil_iff]
  constructor
  · intro h c hc
    have hnil : s.dropWhile isWhitespace = [] := by
      have hflush := flush_dropWhile s
      cases hdrop : s.dropWhile isWhitespace with
      | nil => rfl
      | cons d rest =>
        rw [hdrop, flush_cons] at hflush
        have hd := h d (hdrop ▸ List.mem_cons_self)
        simp [hflush] at hd
    exact List.dropWhile_eq_nil_iff.mp hnil c hc
  · intro h c hc
    exact h c ((List.dropWhile_suffix _).subset hc)

theorem Flush.trim_ne_nil (h : Flush s) (hne : s ≠ []) : trim s ≠ [] := by
  obtain ⟨c, rest, rfl⟩ := List.exists_cons_of_ne_nil hne
  rw [flush_cons] at h
  intro hblank
  simpa [h] using trim_eq_nil_iff.mp hblank c List.mem_cons_self

theorem trim_isInfix (s : List Char) : trim s <:+: s :=
  (trimEnd_isPrefix _).isInfix.trans (List.dropWhile_suffix _).isInfix

theorem mem_of_mem_trim (h : c ∈ trim s) : c ∈ s :=
  (List.dropWhile_suffix _).subset ((trimEnd_isPrefix _).subset h)

-- ---------------------------------------------------------------------------
-- White space around a text
-- ---------------------------------------------------------------------------

section White

variable {gap : List Char} (hgap : ∀ c ∈ gap, isWhitespace c)

include hgap

theorem trimEnd_append_white (s : List Char) : trimEnd (s ++ gap) = trimEnd s := by
  rw [trimEnd, List.reverse_append, List.dropWhile_append_of_pos (by simpa using hgap), trimEnd]

theorem trim_white_append (s : List Char) : trim (gap ++ s) = trim s := by
  rw [trim_eq, List.dropWhile_append_of_pos hgap, trim_eq]

theorem trim_append_white (s : List Char) : trim (s ++ gap) = trim s := by
  by_cases hs : s.dropWhile isWhitespace = []
  · have hwhite : ∀ c ∈ s ++ gap, isWhitespace c := by
      intro c hc
      rcases List.mem_append.mp hc with hc | hc
      · exact List.dropWhile_eq_nil_iff.mp hs c hc
      · exact hgap c hc
    rw [trim_eq_nil_iff.mpr hwhite, trim_eq s, hs]
    rfl
  · rw [trim_eq, List.dropWhile_append, if_neg (by simpa using hs), trimEnd_append_white hgap,
      trim_eq]

end White

theorem trim_append_space (s : List Char) : trim (s ++ [' ']) = trim s :=
  trim_append_white (List.forall_mem_singleton.mpr rfl) s

theorem trim_space_append (s : List Char) : trim (' ' :: s) = trim s :=
  @trim_white_append [' '] (List.forall_mem_singleton.mpr rfl) s

theorem exists_trimEnd (s : List Char) :
    ∃ back, s = trimEnd s ++ back ∧ ∀ c ∈ back, isWhitespace c := by
  refine ⟨(s.reverse.takeWhile isWhitespace).reverse, ?_, ?_⟩
  · rw [trimEnd, ← List.reverse_append, List.takeWhile_append_dropWhile, List.reverse_reverse]
  · intro c hc
    exact List.mem_takeWhile_imp (List.mem_reverse.mp hc)

/-- A text is what trimming leaves of it, with white space around. -/
theorem exists_trim (s : List Char) :
    ∃ front back, s = front ++ trim s ++ back ∧ (∀ c ∈ front, isWhitespace c) ∧
      ∀ c ∈ back, isWhitespace c := by
  obtain ⟨back, hback, hwhite⟩ := exists_trimEnd (s.dropWhile isWhitespace)
  refine ⟨s.takeWhile isWhitespace, back, ?_, fun c hc => List.mem_takeWhile_imp hc, hwhite⟩
  rw [List.append_assoc, trim_eq, ← hback, List.takeWhile_append_dropWhile]

@[simp] theorem trim_dropWhile (s : List Char) : trim (s.dropWhile isWhitespace) = trim s := by
  rw [trim_eq, List.dropWhile_idempotent, ← trim_eq]

@[simp] theorem trim_trimEnd (s : List Char) : trim (trimEnd s) = trim s := by
  obtain ⟨back, hs, hwhite⟩ := exists_trimEnd s
  conv_rhs => rw [hs]
  exact (trim_append_white hwhite _).symm

-- ---------------------------------------------------------------------------
-- Words
-- ---------------------------------------------------------------------------

theorem words_append_white {gap : List Char} (hgap : ∀ c ∈ gap, isWhitespace c) (s : List Char) :
    words (s ++ gap) = words s := by
  cases gap with
  | nil => rw [List.append_nil]
  | cons c gap =>
    have h := words_append_gap hgap (by simp) s []
    rwa [List.append_nil, words_nil, List.append_nil] at h

@[simp] theorem words_trim (s : List Char) : words (trim s) = words s := by
  obtain ⟨front, back, hs, hfront, hback⟩ := exists_trim s
  conv_rhs => rw [hs, List.append_assoc, words_blank_append hfront, words_append_white hback]

/-- The last word, when it is behind the last white space. -/
theorem words_concat (hc : isWhitespace c = true) (h : ∀ d ∈ word, isWhitespace d = false)
    (hne : word ≠ []) (s : List Char) : words (s ++ c :: word) = words s ++ [word] := by
  rw [words_append_cons hc, words_of_solid h hne]

/-- A character that is no white space is in one of the words. -/
theorem exists_word {s : List Char} (hc : c ∈ s) (h : isWhitespace c = false) :
    ∃ word ∈ words s, c ∈ word := by
  induction hn : s.length using Nat.strong_induction_on generalizing s with
  | _ n ih =>
    by_cases hsolid : ∀ d ∈ s, isWhitespace d = false
    · rw [words_of_solid hsolid (List.ne_nil_of_mem hc)]
      exact ⟨s, List.mem_singleton_self s, hc⟩
    · simp only [not_forall, Bool.not_eq_false] at hsolid
      obtain ⟨d, hd, hspace⟩ := hsolid
      obtain ⟨before, after, rfl⟩ := List.append_of_mem hd
      rw [List.length_append, List.length_cons] at hn
      rw [words_append_cons hspace]
      rcases List.mem_append.mp hc with hc | hc
      · obtain ⟨word, hword, hmem⟩ := ih before.length (by omega) hc rfl
        exact ⟨word, List.mem_append_left _ hword, hmem⟩
      · have hne : c ≠ d := fun heq => by simp [heq, hspace] at h
        have hc := (List.mem_cons.mp hc).resolve_left hne
        obtain ⟨word, hword, hmem⟩ := ih after.length (by omega) hc rfl
        exact ⟨word, List.mem_append_right _ hword, hmem⟩

-- ---------------------------------------------------------------------------
-- ASCII case
-- ---------------------------------------------------------------------------

theorem isUpper_iff {c : Char} : c.isUpper = true ↔ 65 ≤ c.toNat ∧ c.toNat ≤ 90 :=
  decide_eq_true_iff.trans (and_congr UInt32.le_iff_toNat_le UInt32.le_iff_toNat_le)

theorem isLower_iff {c : Char} : c.isLower = true ↔ 97 ≤ c.toNat ∧ c.toNat ≤ 122 :=
  (Bool.and_eq_true_iff).trans (and_congr (decide_eq_true_iff.trans UInt32.le_iff_toNat_le)
    (decide_eq_true_iff.trans UInt32.le_iff_toNat_le))

theorem isDigit_iff {c : Char} : c.isDigit = true ↔ 48 ≤ c.toNat ∧ c.toNat ≤ 57 :=
  (Bool.and_eq_true_iff).trans (and_congr (decide_eq_true_iff.trans UInt32.le_iff_toNat_le)
    (decide_eq_true_iff.trans UInt32.le_iff_toNat_le))

theorem isAlpha_iff {c : Char} : c.isAlpha = true ↔ c.isUpper = true ∨ c.isLower = true :=
  Bool.or_eq_true_iff

theorem isAlphanum_iff {c : Char} : c.isAlphanum = true ↔ c.isAlpha = true ∨ c.isDigit = true :=
  Bool.or_eq_true_iff

theorem toLower_of_not_isUpper {c : Char} (h : ¬ c.isUpper = true) : c.toLower = c :=
  dif_neg fun hrange => h (decide_eq_true hrange)

theorem toNat_toLower {c : Char} (h : c.isUpper = true) :
    c.toLower.toNat = c.toNat + 32 ∧ 65 ≤ c.toNat ∧ c.toNat ≤ 90 := by
  have hbounds := isUpper_iff.mp h
  refine ⟨?_, hbounds⟩
  have hlower : c.toLower.toNat = (c.val + 32).toNat :=
    congrArg Char.toNat (dif_pos (of_decide_eq_true h))
  have hsmall : c.val.toNat ≤ 90 := hbounds.2
  rw [hlower, UInt32.toNat_add]
  have : (32 : UInt32).toNat = 32 := rfl
  have : c.val.toNat = c.toNat := rfl
  omega

theorem isWhitespace_toLower (c : Char) : isWhitespace c.toLower = isWhitespace c := by
  by_cases hupper : c.isUpper = true
  · obtain ⟨hlower, hge, hle⟩ := toNat_toLower hupper
    rw [Bool.eq_iff_iff]
    simp only [isWhitespace, hlower, Bool.or_eq_true, Bool.and_eq_true, beq_iff_eq,
      decide_eq_true_eq]
    omega
  · rw [toLower_of_not_isUpper hupper]

theorem isDigit_toLower (c : Char) : c.toLower.isDigit = c.isDigit := by
  by_cases hupper : c.isUpper = true
  · obtain ⟨hlower, hge, hle⟩ := toNat_toLower hupper
    rw [Bool.eq_iff_iff, isDigit_iff, isDigit_iff, hlower]
    omega
  · rw [toLower_of_not_isUpper hupper]

theorem trim_asciiLower (s : List Char) : trim (asciiLower s) = asciiLower (trim s) := by
  have hwhite : isWhitespace ∘ Char.toLower = isWhitespace := funext isWhitespace_toLower
  simp only [trim, asciiLower, List.dropWhile_map, ← List.map_reverse, hwhite]

end Text
