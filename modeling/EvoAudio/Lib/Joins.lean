import EvoAudio.Lib.Trimming
import Mathlib.Data.List.Destutter
import Mathlib.Data.List.Sort

/-!
# Joined texts

Splitting a text that parts are joined in gives the parts again, when no
occurrence of the separator starts in a part. What is trimmed of such a text is
trimmed of its first and its last part. Parts that are sorted first, each once,
are joined to the same text in any order.
-/

namespace Text

variable {sep s p q : List Char}

/-- The parts with the separator behind each, and a last one without. -/
def joined (sep : List Char) (init : List (List Char)) (last : List Char) : List Char :=
  init.flatMap (· ++ sep) ++ last

theorem intercalate_concat (sep : List Char) (init : List (List Char)) (last : List Char) :
    sep.intercalate (init ++ [last]) = joined sep init last := by
  induction init with
  | nil => simp [joined, List.intercalate]
  | cons p init ih =>
    obtain ⟨next, rest, hcons⟩ : ∃ next rest, init ++ [last] = next :: rest :=
      List.exists_cons_of_ne_nil (by simp)
    rw [List.cons_append, hcons, List.intercalate_cons_cons, ← hcons, ih]
    simp [joined]

@[simp] theorem joined_nil (sep last : List Char) : joined sep [] last = last := rfl

@[simp] theorem joined_cons (sep p : List Char) (init : List (List Char)) (last : List Char) :
    joined sep (p :: init) last = p ++ (sep ++ joined sep init last) := by
  simp [joined]

-- ---------------------------------------------------------------------------
-- Occurrences
-- ---------------------------------------------------------------------------

theorem splitOnce_eq_none (hsep : sep ≠ []) : splitOnce sep s = none ↔ ¬ sep <:+: s := by
  induction s with
  | nil => simp [splitOnce, hsep]
  | cons c s ih =>
    rw [splitOnce, List.infix_cons_iff, not_or, ← ih]
    split
    next hstart => simp [hstart]
    next hstart => simp [hstart]

/-- A text is in two others around a character only when it is in one of them,
if the character is not in it. -/
theorem infix_append_cons {c : Char} {w before after : List Char} (hc : c ∉ w)
    (h : w <:+: before ++ c :: after) : w <:+: before ∨ w <:+: after := by
  rcases List.infix_append_iff.mp h with h | h | ⟨front, back, rfl, hfront, hback⟩
  · exact .inl h
  · rcases List.infix_cons_iff.mp h with h | h
    · cases w with
      | nil => exact .inr (List.nil_infix)
      | cons d w =>
        obtain ⟨rfl, -⟩ := List.cons_prefix_cons.mp h
        exact absurd List.mem_cons_self hc
    · exact .inr h
  · cases back with
    | nil => exact .inl (by simpa using hfront.isInfix)
    | cons d back =>
      obtain ⟨rfl, -⟩ := List.cons_prefix_cons.mp hback
      simp at hc

/-- The same around a word, if none of its characters is in the text. -/
theorem infix_append_word {word w after : List Char} (hne : word ≠ [])
    (hword : ∀ c ∈ word, c ∉ w) (before : List Char) (h : w <:+: before ++ (word ++ after)) :
    w <:+: before ∨ w <:+: after := by
  induction word generalizing before with
  | nil => exact absurd rfl hne
  | cons c word ih =>
    rw [List.forall_mem_cons] at hword
    rcases infix_append_cons hword.1 h with h | h
    · exact .inl h
    · cases word with
      | nil => exact .inr h
      | cons d word =>
        refine (ih (List.cons_ne_nil _ _) hword.2 [] h).imp_left fun hnil => ?_
        rw [List.infix_nil.mp hnil]
        exact List.nil_infix

/-- No occurrence of the separator starts in the text when one is behind it. -/
def Clear (sep p : List Char) : Prop :=
  ∀ t, t ≠ [] → t <:+ p → ∀ rest, ¬ sep <+: t ++ (sep ++ rest)

theorem Clear.of_isSuffix (h : Clear sep p) (hq : q <:+ p) : Clear sep q :=
  fun t ht hsuffix => h t ht (hsuffix.trans hq)

theorem clear_singleton {c : Char} (h : c ∉ p) : Clear [c] p := by
  intro t ht hsuffix rest hstart
  obtain ⟨d, t, rfl⟩ := List.exists_cons_of_ne_nil ht
  obtain ⟨rfl, -⟩ := List.cons_prefix_cons.mp hstart
  exact h (hsuffix.subset List.mem_cons_self)

/-- A word between two blanks: an occurrence may share the second of them. -/
theorem clear_word (word : List Char) (hword : ' ' ∉ word)
    (h : ¬ ' ' :: (word ++ [' ']) <:+: p ++ [' ']) : Clear (' ' :: (word ++ [' '])) p := by
  intro t ht hsuffix rest hstart
  obtain ⟨d, t, rfl⟩ := List.exists_cons_of_ne_nil ht
  have hjoin : d :: t ++ (' ' :: (word ++ [' ']) ++ rest) =
      (d :: t ++ [' ']) ++ (word ++ (' ' :: rest)) := by simp
  rw [hjoin] at hstart
  rcases Nat.lt_or_ge t.length word.length with hshort | hlong
  · -- the blank of the text is in the word
    have hword' := (List.prefix_append word [' ']).trans (List.cons_prefix_cons.mp hstart).2
    have hlength : (t ++ [' ']).length ≤ word.length := by
      rw [List.length_append, List.length_singleton]
      exact hshort
    have hin : t ++ [' '] <+: word :=
      List.prefix_of_prefix_length_le (List.prefix_append _ _) hword' hlength
    exact hword (hin.subset (by simp))
  · have hin : ' ' :: (word ++ [' ']) <+: d :: t ++ [' '] :=
      List.prefix_of_prefix_length_le hstart (List.prefix_append _ _) (by simpa using hlong)
    exact h (hin.isInfix.trans (List.suffix_append_self_iff.mpr hsuffix).isInfix)

-- ---------------------------------------------------------------------------
-- Splitting
-- ---------------------------------------------------------------------------

theorem splitOnce_clear (hsep : sep ≠ []) (h : Clear sep p) (rest : List Char) :
    splitOnce sep (p ++ (sep ++ rest)) = some (p, rest) :=
  splitOnce_first hsep fun t ht hsuffix => h t ht hsuffix rest

theorem splitOnceCi_clear (hsep : sep ≠ []) (hlower : asciiLower sep = sep)
    (h : Clear sep (asciiLower p)) (rest : List Char) :
    splitOnceCi sep (p ++ (sep ++ rest)) = some (p, rest) := by
  have hsplit := splitOnce_clear hsep h (asciiLower rest)
  have hjoin : asciiLower (p ++ (sep ++ rest)) = asciiLower p ++ (sep ++ asciiLower rest) := by
    conv_rhs => rw [← hlower]
    simp [asciiLower]
  rw [splitOnceCi, hjoin, hsplit]
  simp [asciiLower]

theorem splitBy_joined {once : List Char → Option (List Char × List Char)}
    {init : List (List Char)} {last : List Char}
    (hinit : ∀ p ∈ init, ∀ rest, once (p ++ (sep ++ rest)) = some (p, rest))
    (hlast : once last = none) (hfuel : init.length ≤ fuel) :
    splitBy once fuel (joined sep init last) = init ++ [last] := by
  induction init generalizing fuel with
  | nil => cases fuel <;> simp [splitBy, hlast]
  | cons p init ih =>
    obtain ⟨fuel, rfl⟩ := Nat.exists_eq_add_one.mpr (Nat.lt_of_lt_of_le (Nat.succ_pos _) hfuel)
    rw [List.forall_mem_cons] at hinit
    rw [joined_cons, splitBy, hinit.1]
    dsimp only
    rw [ih hinit.2 (by simpa using hfuel), List.cons_append]

theorem length_init_le (hsep : sep ≠ []) (init : List (List Char)) (last : List Char) :
    init.length ≤ (joined sep init last).length := by
  have hpos := List.length_pos_iff.mpr hsep
  induction init with
  | nil => simp
  | cons p init ih =>
    simp only [joined_cons, List.length_append, List.length_cons]
    omega

theorem split_joined {init : List (List Char)} {last : List Char} (hsep : sep ≠ [])
    (hinit : ∀ p ∈ init, Clear sep p) (hlast : splitOnce sep last = none) :
    split sep (joined sep init last) = init ++ [last] :=
  splitBy_joined (fun p hp => splitOnce_clear hsep (hinit p hp)) hlast (length_init_le hsep _ _)

theorem splitCi_joined {init : List (List Char)} {last : List Char} (hsep : sep ≠ [])
    (hlower : asciiLower sep = sep) (hinit : ∀ p ∈ init, Clear sep (asciiLower p))
    (hlast : splitOnceCi sep last = none) :
    splitCi sep (joined sep init last) = init ++ [last] :=
  splitBy_joined (fun p hp => splitOnceCi_clear hsep hlower (hinit p hp)) hlast
    (length_init_le hsep _ _)

/-- The end of a separator is the start of the parts behind it. -/
theorem joined_cons_sep (c : Char) (gap p : List Char) (init : List (List Char))
    (last : List Char) :
    joined (c :: gap) (p :: init) last = joined [c] (p :: init.map (gap ++ ·)) (gap ++ last) := by
  induction init generalizing p with
  | nil => simp
  | cons q init ih =>
    rw [joined_cons, ih, List.map_cons, joined_cons]
    simp

theorem mem_joined {c : Char} {init : List (List Char)} {last : List Char}
    (h : c ∈ joined sep init last) : c ∈ sep ∨ ∃ p ∈ init ++ [last], c ∈ p := by
  induction init with
  | nil => exact .inr ⟨last, by simp, h⟩
  | cons p init ih =>
    rw [joined_cons, List.mem_append, List.mem_append] at h
    rcases h with h | h | h
    · exact .inr ⟨p, by simp, h⟩
    · exact .inl h
    · refine (ih h).imp_right ?_
      rintro ⟨q, hq, hc⟩
      exact ⟨q, List.mem_cons_of_mem _ hq, hc⟩

/-- A text is in a joined one only when it is in one of the parts with a blank
before and behind it, if the parts are joined by a word it has nothing of. -/
theorem not_infix_joined (word : List Char) {w : List Char} (hne : word ≠ [])
    (hword : ∀ c ∈ word, c ∉ w) {init : List (List Char)} {last : List Char}
    (hinit : ∀ p ∈ init, ¬ w <:+: ' ' :: (p ++ [' '])) (hlast : ¬ w <:+: ' ' :: last) :
    ¬ w <:+: ' ' :: joined (' ' :: (word ++ [' '])) init last := by
  induction init with
  | nil => exact hlast
  | cons p init ih =>
    rw [List.forall_mem_cons] at hinit
    have hjoin : ' ' :: joined (' ' :: (word ++ [' '])) (p :: init) last =
        ' ' :: (p ++ [' ']) ++ (word ++ ' ' :: joined (' ' :: (word ++ [' '])) init last) := by
      simp
    rw [hjoin]
    intro h
    rcases infix_append_word hne hword _ h with h | h
    · exact hinit.1 h
    · exact ih hinit.2 h

-- ---------------------------------------------------------------------------
-- Trimming
-- ---------------------------------------------------------------------------

theorem dropWhile_append_of_ne_blank (h : trim p ≠ []) (s : List Char) :
    (p ++ s).dropWhile isWhitespace = p.dropWhile isWhitespace ++ s := by
  rw [List.dropWhile_append, if_neg]
  intro hempty
  rw [List.isEmpty_iff] at hempty
  exact h (by rw [trim_eq, hempty]; rfl)

theorem trimEnd_append_of_ne_blank (h : trim s ≠ []) (p : List Char) :
    trimEnd (p ++ s) = p ++ trimEnd s := by
  rw [trimEnd, List.reverse_append, List.dropWhile_append, if_neg]
  · simp [trimEnd]
  · intro hempty
    rw [List.isEmpty_iff, List.dropWhile_eq_nil_iff] at hempty
    exact h (trim_eq_nil_iff.mpr (by simpa using hempty))

/-- Only the first and the last part are trimmed. -/
theorem trim_joined {mid : List (List Char)} {last : List Char} (hfirst : trim p ≠ [])
    (hlast : trim last ≠ []) :
    trim (joined sep (p :: mid) last) =
      joined sep (p.dropWhile isWhitespace :: mid) (trimEnd last) := by
  rw [joined_cons, trim_eq, dropWhile_append_of_ne_blank hfirst, joined_cons, joined, joined,
    ← List.append_assoc, ← List.append_assoc, trimEnd_append_of_ne_blank hlast]
  simp

-- ---------------------------------------------------------------------------
-- Sorting
-- ---------------------------------------------------------------------------

section Sorted

variable {α : Type} [DecidableEq α] (r : α → α → Prop) [DecidableRel r] [Std.Total r] [IsTrans α r]
  [Std.Antisymm r] {l l' : List α}

theorem mem_destutter_insertionSort {a : α} :
    a ∈ (l.insertionSort r).destutter (· ≠ ·) ↔ a ∈ l := by
  rw [(List.pairwise_insertionSort r l).destutter_eq_dedup, List.mem_dedup, List.mem_insertionSort]

/-- What is sorted, each once, is told by what is in the list. -/
theorem destutter_insertionSort_congr (h : ∀ a, a ∈ l ↔ a ∈ l') :
    (l.insertionSort r).destutter (· ≠ ·) = (l'.insertionSort r).destutter (· ≠ ·) := by
  have hsorted := List.pairwise_insertionSort r l
  have hsorted' := List.pairwise_insertionSort r l'
  rw [hsorted.destutter_eq_dedup, hsorted'.destutter_eq_dedup]
  have hperm : (l.insertionSort r).dedup.Perm (l'.insertionSort r).dedup := by
    rw [List.perm_ext_iff_of_nodup (List.nodup_dedup _) (List.nodup_dedup _)]
    intro a
    rw [List.mem_dedup, List.mem_dedup, List.mem_insertionSort, List.mem_insertionSort, h]
  exact hperm.eq_of_pairwise' (hsorted.sublist (List.dedup_sublist _))
    (hsorted'.sublist (List.dedup_sublist _))

end Sorted

/-- The order of texts by their bytes. -/
def Before (s t : List Char) : Prop := encode s ≤ encode t

instance : DecidableRel Before := fun s t => inferInstanceAs (Decidable (encode s ≤ encode t))

instance : Std.Total Before := ⟨fun s t => List.le_total (encode s) (encode t)⟩

instance : IsTrans (List Char) Before := ⟨fun _ _ _ => List.le_trans⟩

instance : Std.Antisymm Before := ⟨fun _ _ h h' => encode_injective (List.le_antisymm h h')⟩

end Text
