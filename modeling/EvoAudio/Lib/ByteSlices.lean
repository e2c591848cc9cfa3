import EvoAudio.Lib.Segments

/-!
# Slices at byte indices

Rust indexes a text by bytes, and a slice panics at an index that is within a
character. Here a text is cut at a byte index, with `none` where that is no
character boundary, and the indices that searches give are the lengths of what
they find before.
-/

namespace Text

/-- `str::len`. -/
def len (s : List Char) : Nat := (encode s).length

@[simp] theorem len_nil : len [] = 0 := rfl

@[simp] theorem len_cons : len (c :: s) = c.utf8Size + len s := by
  simp [len]

@[simp] theorem len_append : len (s ++ t) = len s + len t := by simp [len]

-- ---------------------------------------------------------------------------
-- Cutting
-- ---------------------------------------------------------------------------

/-- The text before a byte index and the text from there, `none` for an index
that is no character boundary. -/
def cutAt : List Char → Nat → Option (List Char × List Char)
  | s, 0 => some ([], s)
  | [], _ + 1 => none
  | c :: s, i + 1 =>
    if c.utf8Size ≤ i + 1 then
      (cutAt s (i + 1 - c.utf8Size)).map fun (before, after) => (c :: before, after)
    else none

/-- `s[..i]` -/
def sliceTo (s : List Char) (i : Nat) : Option (List Char) := (cutAt s i).map Prod.fst

/-- `s[i..]` -/
def sliceFrom (s : List Char) (i : Nat) : Option (List Char) := (cutAt s i).map Prod.snd

/-- `s[i..j]` -/
def slice (s : List Char) (i j : Nat) : Option (List Char) :=
  if i ≤ j then (sliceTo s j).bind (sliceFrom · i) else none

theorem cutAt_cons_add (c : Char) (s : List Char) (i : Nat) :
    cutAt (c :: s) (c.utf8Size + i) =
      (cutAt s i).map fun (before, after) => (c :: before, after) := by
  obtain ⟨n, hn⟩ : ∃ n, c.utf8Size + i = n + 1 :=
    Nat.exists_eq_add_one.mpr (Nat.add_pos_left c.utf8Size_pos i)
  have hi : n + 1 - c.utf8Size = i := by omega
  rw [hn, cutAt, if_pos (by omega), hi]

theorem cutAt_append (s t : List Char) (i : Nat) :
    cutAt (s ++ t) (len s + i) = (cutAt t i).map fun (before, after) => (s ++ before, after) := by
  induction s with
  | nil => simp
  | cons c s ih =>
    rw [len_cons, Nat.add_assoc, List.cons_append, cutAt_cons_add, ih, Option.map_map]
    rfl

/-- The length of a prefix is where the text is cut into it and the rest. -/
theorem cutAt_len (s t : List Char) : cutAt (s ++ t) (len s) = some (s, t) := by
  have h := cutAt_append s t 0
  rw [Nat.add_zero] at h
  rw [h]
  simp [cutAt]

theorem cutAt_one (c : Char) (s : List Char) :
    cutAt (c :: s) 1 = if c.utf8Size = 1 then some ([c], s) else none := by
  have hpos := c.utf8Size_pos
  by_cases hone : c.utf8Size = 1
  · rw [cutAt, if_pos (by omega), if_pos hone, hone]
    simp [cutAt]
  · rw [cutAt, if_neg (by omega), if_neg hone]

@[simp] theorem sliceTo_len (s t : List Char) : sliceTo (s ++ t) (len s) = some s := by
  rw [sliceTo, cutAt_len]
  rfl

@[simp] theorem sliceFrom_len (s t : List Char) : sliceFrom (s ++ t) (len s) = some t := by
  rw [sliceFrom, cutAt_len]
  rfl

/-- One byte behind a character is a boundary when it is one byte wide. -/
theorem sliceFrom_len_add_one (s : List Char) (c : Char) (t : List Char) :
    sliceFrom (s ++ c :: t) (len s + 1) = if c.utf8Size = 1 then some t else none := by
  rw [sliceFrom, cutAt_append, cutAt_one]
  split_ifs <;> rfl

theorem len_eq_zero {s : List Char} : len s = 0 ↔ s = [] := by
  cases s with
  | nil => simp
  | cons c s =>
    have := c.utf8Size_pos
    simp only [len_cons, List.cons_ne_nil, iff_false]
    omega

theorem length_le_len (s : List Char) : s.length ≤ len s := by
  induction s with
  | nil => exact Nat.le_refl 0
  | cons c s ih =>
    have := c.utf8Size_pos
    rw [List.length_cons, len_cons]
    omega

theorem slice_len (s t r : List Char) :
    slice (s ++ t ++ r) (len s) (len s + len t) = some t := by
  have hto := sliceTo_len (s ++ t) r
  rw [len_append] at hto
  rw [slice, if_pos (Nat.le_add_right _ _), hto]
  exact sliceFrom_len s t

-- ---------------------------------------------------------------------------
-- Searching for bytes
-- ---------------------------------------------------------------------------

/-- `iter().rposition(|&b| b == byte)`. -/
def rposition (b : UInt8) (bytes : List UInt8) : Option Nat :=
  (bytes.reverse.idxOf? b).map (bytes.length - 1 - ·)

theorem idxOf?_append_cons {b : UInt8} {bytes : List UInt8} (h : b ∉ bytes) (rest : List UInt8) :
    (bytes ++ b :: rest).idxOf? b = some bytes.length := by
  induction bytes with
  | nil => simp [List.idxOf?_cons]
  | cons b' bytes ih =>
    obtain ⟨hne, hnot⟩ := not_or.mp (List.mem_cons.not.mp h)
    have hbeq : (b' == b) = false := by simpa using Ne.symm hne
    rw [List.cons_append, List.idxOf?_cons, hbeq, ih hnot]
    rfl

/-- The last byte of an ASCII character is behind what is before its last
occurrence. -/
theorem rposition_encode {c : Char} (h : c.toNat < 128) (s : List Char) :
    rposition (byte c) (encode s) = (splitLast [c] s).map (len ·.1) := by
  cases hsplit : splitLast [c] s with
  | none =>
    have hnot : c ∉ s := splitLast_singleton_eq_none.mp hsplit
    rw [rposition, List.idxOf?_eq_none_iff.mpr (by simpa [byte_mem_encode h] using hnot)]
    rfl
  | some cut =>
    obtain ⟨before, after⟩ := cut
    obtain ⟨rfl, hnot⟩ := splitLast_singleton_some hsplit
    have hreverse : (encode (before ++ c :: after)).reverse =
        (encode after).reverse ++ byte c :: (encode before).reverse := by
      simp [utf8EncodeChar_ascii h]
    have hnot : byte c ∉ (encode after).reverse := by simpa [byte_mem_encode h] using hnot
    rw [rposition, hreverse, idxOf?_append_cons hnot]
    simp only [encode_append, encode_cons, utf8EncodeChar_ascii h, List.length_append,
      List.length_singleton, List.length_reverse, Option.map_some, Option.some.injEq, len]
    omega

theorem getLast?_encode {c : Char} (h : c.toNat < 128) (s : List Char) :
    (encode s).getLast? = some (byte c) ↔ s.getLast? = some c := by
  induction s using List.reverseRecOn with
  | nil => simp
  | append_singleton s d ih =>
    have hencode : encode (s ++ [d]) = encode s ++ String.utf8EncodeChar d := by simp
    rw [hencode]
    by_cases hd : d.toNat < 128
    · simp [utf8EncodeChar_ascii hd, byte_inj hd h]
    · have hne : d ≠ c := fun heq => hd (heq ▸ h)
      have hlast : String.utf8EncodeChar d ≠ [] := String.utf8EncodeChar_ne_nil
      simp only [List.getLast?_concat, Option.some.injEq, hne, iff_false]
      rw [List.getLast?_append_of_ne_nil _ hlast]
      intro heq
      have hhigh := utf8EncodeChar_high (Nat.not_lt.mp hd) _ (List.mem_of_getLast? heq)
      rw [byte_toNat h] at hhigh
      omega

-- ---------------------------------------------------------------------------
-- Searching for texts
-- ---------------------------------------------------------------------------

/-- `str::find` for a text. -/
def find (pattern s : List Char) : Option Nat := (splitOnce pattern s).map (len ·.1)

/-- `str::rfind` for a text. -/
def rfind (delim s : List Char) : Option Nat := (splitLast delim s).map (len ·.1)

/-- `str::rfind` for a class of characters. -/
def rfindWhere (p : Char → Bool) (s : List Char) : Option Nat := (splitLastWhere p s).map (len ·.1)

/-- `str::find` for a class of characters. -/
def findWhere (p : Char → Bool) (s : List Char) : Option Nat :=
  if s.any p then some (len (s.takeWhile (!p ·))) else none

theorem splitLast_eq_append {delim s : List Char} (h : splitLast delim s = some (before, after)) :
    s = before ++ delim ++ after := by
  obtain ⟨⟨tail, head⟩, hs, hsplit⟩ := Option.map_eq_some_iff.mp h
  cases hsplit
  have happend := congrArg List.reverse (splitOnce_eq_append hs)
  simpa using happend

/-- A separator of three characters, of which the middle one is not behind it. -/
theorem splitLast_of_notMem {a x b : Char} {after : List Char} (hb : b ≠ x) (h : x ∉ after)
    (before : List Char) :
    splitLast [a, x, b] (before ++ ([a, x, b] ++ after)) = some (before, after) := by
  have hsplit : splitOnce [b, x, a] (after.reverse ++ ([b, x, a] ++ before.reverse)) =
      some (after.reverse, before.reverse) := by
    refine splitOnce_first (by simp) fun t ht hsuffix hstart => ?_
    obtain ⟨y, t, rfl⟩ := List.exists_cons_of_ne_nil ht
    simp only [List.cons_append, List.cons_prefix_cons] at hstart
    cases t with
    | nil =>
      simp only [List.nil_append, List.cons_prefix_cons] at hstart
      exact hb hstart.2.1.symm
    | cons z t =>
      simp only [List.cons_append, List.cons_prefix_cons] at hstart
      have hz : z ∈ after.reverse := hsuffix.subset (by simp)
      exact h (hstart.2.1 ▸ List.mem_reverse.mp hz)
  have hreverse : (before ++ ([a, x, b] ++ after)).reverse =
      after.reverse ++ ([b, x, a] ++ before.reverse) := by simp
  have hsep : [a, x, b].reverse = [b, x, a] := rfl
  rw [splitLast, hsep, hreverse, hsplit]
  simp

theorem splitLastWhere_eq_some {p : Char → Bool} {s : List Char} :
    splitLastWhere p s = some (before, c, after) ↔
      s = before ++ c :: after ∧ p c = true ∧ ∀ d ∈ after, p d = false := by
  have hreverse : s =
      (s.reverse.dropWhile (!p ·)).reverse ++ (s.reverse.takeWhile (!p ·)).reverse := by
    rw [← List.reverse_append, List.takeWhile_append_dropWhile, List.reverse_reverse]
  unfold splitLastWhere
  constructor
  · intro h
    split at h
    next => cases h
    next c' rest hdrop =>
      cases h
      refine ⟨?_, ?_, ?_⟩
      · rw [hdrop] at hreverse
        simpa using hreverse
      · have hnot := List.head?_dropWhile_not (!p ·) s.reverse
        rw [hdrop] at hnot
        simpa using hnot
      · intro d hd
        have hd := List.mem_takeWhile_imp (List.mem_reverse.mp hd)
        simpa using hd
  · rintro ⟨rfl, hc, hafter⟩
    have hdrop : (before ++ c :: after).reverse.dropWhile (!p ·) = c :: before.reverse := by
      rw [List.reverse_append, List.reverse_cons, List.append_assoc, List.singleton_append,
        List.dropWhile_append_of_pos (by simpa using hafter)]
      exact List.dropWhile_cons_of_neg (by simp [hc])
    have htake : (before ++ c :: after).reverse.takeWhile (!p ·) = after.reverse := by
      rw [List.reverse_append, List.reverse_cons, List.append_assoc, List.singleton_append,
        List.takeWhile_append_of_pos (by simpa using hafter),
        List.takeWhile_cons_of_neg (by simp [hc]), List.append_nil]
    simp only [hdrop, htake, List.reverse_reverse]

/-- A text with such a character in it has a last one. -/
theorem exists_last {p : Char → Bool} {s : List Char} (hc : c ∈ s) (h : p c = true) :
    ∃ before d after, s = before ++ d :: after ∧ p d = true ∧ ∀ e ∈ after, p e = false := by
  cases hsplit : splitLastWhere p s with
  | none =>
    unfold splitLastWhere at hsplit
    split at hsplit
    next hnone =>
      have hnot := List.dropWhile_eq_nil_iff.mp hnone c (List.mem_reverse.mpr hc)
      simp [h] at hnot
    · cases hsplit
  | some cut => exact ⟨cut.1, cut.2.1, cut.2.2, splitLastWhere_eq_some.mp hsplit⟩

end Text
