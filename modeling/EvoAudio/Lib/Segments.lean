import EvoAudio.Lib.Words

/-!
# The last segment of a text

What trimming leaves of a text with a character in it that is not trimmed, and
the text before and behind the last occurrence of a separator: it is put together
again from the two, and the one before it is a prefix.
-/

namespace Text

-- ---------------------------------------------------------------------------
-- Trimming
-- ---------------------------------------------------------------------------

theorem trimEnd_isPrefix (s : List Char) : trimEnd s <+: s := by
  have hsuffix := List.dropWhile_suffix isWhitespace (l := s.reverse)
  simpa [trimEnd] using List.reverse_prefix.mpr hsuffix

theorem trimEnd_eq_nil_iff {s : List Char} : trimEnd s = [] ↔ ∀ c ∈ s, isWhitespace c := by
  simp [trimEnd]

theorem dropWhile_append_cons {p : Char → Bool} {c : Char} (hc : p c = false) (s t : List Char) :
    (s ++ c :: t).dropWhile p = s.dropWhile p ++ c :: t := by
  induction s with
  | nil => exact List.dropWhile_cons_of_neg (by simp [hc])
  | cons d s ih => by_cases hd : p d <;> simp [hd, ih]

/-- Nothing is trimmed across a character that is no white space. -/
theorem trim_append_cons {c : Char} (hc : isWhitespace c = false) (s t : List Char) :
    trim (s ++ c :: t) = s.dropWhile isWhitespace ++ c :: trimEnd t := by
  unfold trim trimEnd
  rw [dropWhile_append_cons hc, List.reverse_append, List.reverse_cons, List.append_assoc,
    List.singleton_append, dropWhile_append_cons hc]
  simp

theorem trimEndMatches_concat (c : Char) (s : List Char) :
    trimEndMatches c (s ++ [c]) = trimEndMatches c s := by
  simp [trimEndMatches]

theorem trimEndMatches_eq_self {c : Char} {s : List Char} (h : s.getLast? ≠ some c) :
    trimEndMatches c s = s := by
  unfold trimEndMatches
  cases hreverse : s.reverse with
  | nil => simpa using hreverse.symm
  | cons d rest =>
    have hd : d ≠ c := by
      rw [List.getLast?_eq_head?_reverse, hreverse] at h
      simpa using h
    rw [List.dropWhile_cons_of_neg (by simpa using hd), ← hreverse, List.reverse_reverse]

-- ---------------------------------------------------------------------------
-- Splitting
-- ---------------------------------------------------------------------------

theorem splitOnce_eq_append {sep s : List Char} (h : splitOnce sep s = some (before, after)) :
    s = before ++ sep ++ after := by
  induction s generalizing before with
  | nil => cases h
  | cons x s ih =>
    rw [splitOnce] at h
    split at h
    next hpre =>
      cases h
      obtain ⟨rest, hrest⟩ := hpre
      rw [← hrest, List.drop_left, List.nil_append]
    next =>
      obtain ⟨⟨before', after'⟩, hs, hsplit⟩ := Option.map_eq_some_iff.mp h
      cases hsplit
      rw [ih hs]
      rfl

theorem splitLast_isPrefix (h : splitLast sep s = some (before, after)) : before <+: s := by
  obtain ⟨⟨tail, head⟩, hs, hsplit⟩ := Option.map_eq_some_iff.mp h
  cases hsplit
  have happend := congrArg List.reverse (splitOnce_eq_append hs)
  simp only [List.reverse_reverse, List.reverse_append] at happend
  exact ⟨_, happend.symm⟩

theorem splitLastWhere_isPrefix {p : Char → Bool}
    (h : splitLastWhere p s = some (before, c, after)) : before <+: s := by
  unfold splitLastWhere at h
  split at h
  next => cases h
  next c' tail hdrop =>
    cases h
    have hsuffix : tail <:+ s.reverse :=
      (List.suffix_cons _ _).trans (hdrop ▸ List.dropWhile_suffix _)
    simpa using List.reverse_prefix.mpr hsuffix

theorem splitLast_append_cons {c : Char} {t : List Char} (h : c ∉ t) (s : List Char) :
    splitLast [c] (s ++ c :: t) = some (s, t) := by
  have hsplit := @splitOnce_of_notMem _ _ c [] t.reverse s.reverse (by simpa using h)
  simp only [List.nil_append] at hsplit
  simp [splitLast, hsplit]

/-- The text is put together again from what is before and behind the separator. -/
theorem splitLast_singleton_some {c : Char} (h : splitLast [c] s = some (before, after)) :
    s = before ++ c :: after ∧ c ∉ after := by
  obtain ⟨⟨tail, head⟩, hs, hsplit⟩ := Option.map_eq_some_iff.mp h
  cases hsplit
  obtain ⟨happend, hnot⟩ := splitOnce_singleton_some hs
  refine ⟨?_, by simpa using hnot⟩
  simpa using congrArg List.reverse happend

theorem splitLast_singleton_eq_none {c : Char} {s : List Char} :
    splitLast [c] s = none ↔ c ∉ s := by
  simp [splitLast, splitOnce_singleton_eq_none]

/-- A text without the separator lengthens the last segment. -/
theorem splitLast_append_of_notMem {c : Char} {t : List Char} (h : c ∉ t) (s : List Char) :
    splitLast [c] (s ++ t) = (splitLast [c] s).map fun cut => (cut.1, cut.2 ++ t) := by
  cases hcut : splitLast [c] s with
  | none =>
    have hs : c ∉ s := splitLast_singleton_eq_none.mp hcut
    exact splitLast_singleton_eq_none.mpr (by simp [hs, h])
  | some cut =>
    obtain ⟨rfl, hafter⟩ := splitLast_singleton_some hcut
    rw [List.append_assoc, List.cons_append, splitLast_append_cons (by simp [hafter, h])]
    rfl

/-- The last segment of a text with the separator is that of any longer text that
ends in it. -/
theorem splitLast_append_of_mem {c : Char} {t : List Char} (h : c ∈ t) (s : List Char) :
    splitLast [c] (s ++ t) = (splitLast [c] t).map fun cut => (s ++ cut.1, cut.2) := by
  cases hcut : splitLast [c] t with
  | none => exact absurd h (splitLast_singleton_eq_none.mp hcut)
  | some cut =>
    obtain ⟨rfl, hafter⟩ := splitLast_singleton_some hcut
    rw [← List.append_assoc, splitLast_append_cons hafter]
    rfl

end Text
