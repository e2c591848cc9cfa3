import EvoAudio.Lib.Joins
import EvoAudio.Names.Credits

/-!
# The key of a credit of several artists

The artists of a credit are joined by `; `, ` & ` or ` and `. Its key does not
tell in which order and by which of these, nor how often an artist is named,
when the names have none of the marks that credits are taken apart at, and one
of them has something to make a key of.
-/

namespace EvoAudio.Names

open Text (joined)

variable {u : Unicode} {s part first last joiner : List Char} {parts mid : List (List Char)}

-- ---------------------------------------------------------------------------
-- Texts without marks
-- ---------------------------------------------------------------------------

/-- None of the marks that a name is cleaned at. -/
def Unmarked (s : List Char) : Prop := ∀ c ∈ s, c ∉ "|/,()[]".toList

instance : Decidable (Unmarked s) := List.decidableBAll _ s

theorem Unmarked.trim (h : Unmarked s) : Unmarked (Text.trim s) :=
  fun c hc => h c (Text.mem_of_mem_trim hc)

theorem stripGroups_of_unmarked (h : Unmarked s) (fuel : Nat) :
    stripGroups fuel s = Text.trimEnd s := by
  have hgroup : stripGroup (Text.trimEnd s) = none := by
    have hnone : trailingGroup (Text.trimEnd s) = none := by
      cases hlast : (Text.trimEnd s).getLast? with
      | none => rw [List.getLast?_eq_none_iff.mp hlast]; rfl
      | some close =>
        have hclose := h close ((Text.trimEnd_isPrefix s).subset (List.mem_of_getLast? hlast))
        refine trailingGroup_eq_none hlast ?_
        cases hopening : opening close with
        | none => rfl
        | some opener =>
          rcases opening_some hopening with ⟨rfl, -⟩ | ⟨rfl, -⟩ <;> exact absurd hclose (by decide)
    rw [stripGroup, hnone]
    split <;> rfl
  cases fuel with
  | zero => rfl
  | succ fuel => rw [stripGroups, hgroup]

theorem stripTrailingParentheticals_of_unmarked (h : Unmarked s) :
    stripTrailingParentheticals s = Text.trim s := by
  rw [stripTrailingParentheticals, stripGroups_of_unmarked h.trim,
    Text.trimEnd_eq_self (Text.trimmed_trim s).2]

theorem collapseSelfSlash_of_unmarked (h : Unmarked s) : collapseSelfSlash u s = s := by
  have hslash : '/' ∉ s := fun hmem => h _ hmem (by decide)
  rw [collapseSelfSlash, Text.splitOnce_singleton_eq_none.mpr hslash]

theorem reorderLastFirst_of_unmarked (h : Unmarked s) : reorderLastFirst s = s := by
  have hcomma : ',' ∉ s := fun hmem => h _ hmem (by decide)
  rw [reorderLastFirst, Text.splitOnce_singleton_eq_none.mpr hcomma]

theorem cleanPart_of_unmarked (h : Unmarked s) : cleanPart u s = Text.trim s := by
  rw [cleanPart, stripTrailingParentheticals_of_unmarked h, collapseSelfSlash_of_unmarked h.trim,
    reorderLastFirst_of_unmarked h.trim]

theorem structural_of_unmarked (h : Unmarked s) : structural u (Text.trim s) = Text.trim s := by
  have hpipe : '|' ∉ s := fun hmem => h _ hmem (by decide)
  rw [structural, withoutWatermark_trim hpipe, stripTrailingParentheticals_of_unmarked h.trim,
    Text.trim_trim, collapseSelfSlash_of_unmarked h.trim]

-- ---------------------------------------------------------------------------
-- Joined names
-- ---------------------------------------------------------------------------

def joiners : List (List Char) := ["; ".toList, " & ".toList, " and ".toList]

/-- A name that can be told from the joiners before and behind it. -/
@[mk_iff]
structure Joinable (part : List Char) : Prop where
  named : Text.trim part ≠ []
  marks : Unmarked part
  semicolon : ';' ∉ part
  ampersand : ¬ " & ".toList <:+: ' ' :: (part ++ [' '])
  word : ¬ " and ".toList <:+: Text.asciiLower (part ++ [' '])

instance : Decidable (Joinable part) := decidable_of_iff _ (joinable_iff part).symm

theorem Joinable.clear_ampersand (h : Joinable part) : Text.Clear " & ".toList part :=
  Text.clear_word ['&'] (by decide) fun hin =>
    h.ampersand (hin.trans (List.suffix_cons _ _).isInfix)

theorem Joinable.clear_word (h : Joinable part) :
    Text.Clear " and ".toList (Text.asciiLower part) := by
  refine Text.clear_word "and".toList (by decide) fun hin => h.word ?_
  simpa [Text.asciiLower] using hin

theorem nonBlank_congr {pieces : List (List Char)}
    (hpieces : pieces.map Text.trim = parts.map Text.trim) (h : ∀ p ∈ parts, Text.trim p ≠ []) :
    nonBlank pieces = parts.map Text.trim := by
  rw [nonBlank, hpieces, List.filter_eq_self]
  simpa using h

/-- Splitting at a mark that none of the names has. -/
theorem splitOn_marked {c : Char} (hc : c ≠ ' ') (hnot : ∀ p ∈ first :: mid ++ [last], c ∉ p)
    (hnamed : ∀ p ∈ first :: mid ++ [last], Text.trim p ≠ []) :
    splitOn (Text.trim (joined [c, ' '] (first :: mid) last)) [c] =
      some ((first :: mid ++ [last]).map Text.trim) := by
  have hjoin : Text.trim (joined [c, ' '] (first :: mid) last) =
      joined [c] (first.dropWhile Text.isWhitespace :: mid.map ([' '] ++ ·))
        ([' '] ++ Text.trimEnd last) := by
    rw [Text.trim_joined (hnamed first (by simp)) (hnamed last (by simp))]
    exact Text.joined_cons_sep c [' '] _ _ _
  have hlast : Text.splitOnce [c] ([' '] ++ Text.trimEnd last) = none := by
    refine Text.splitOnce_singleton_eq_none.mpr fun hmem => hnot last (by simp) ?_
    exact (Text.trimEnd_isPrefix last).subset (by simpa [hc] using hmem)
  have hclear : ∀ p ∈ first.dropWhile Text.isWhitespace :: mid.map ([' '] ++ ·),
      Text.Clear [c] p := by
    rw [List.forall_mem_cons, List.forall_mem_map]
    refine ⟨(Text.clear_singleton (hnot first (by simp))).of_isSuffix
      (List.dropWhile_suffix _), fun p hp => Text.clear_singleton ?_⟩
    simpa [hc] using hnot p (by simp [hp])
  have hfound : (Text.splitOnce [c] (joined [c]
      (first.dropWhile Text.isWhitespace :: mid.map ([' '] ++ ·))
      ([' '] ++ Text.trimEnd last))).isSome := by
    rw [Text.joined_cons, Text.splitOnce_clear (by simp) (hclear _ List.mem_cons_self)]
    rfl
  have hblank : nonBlank (first.dropWhile Text.isWhitespace :: mid.map ([' '] ++ ·) ++
      [[' '] ++ Text.trimEnd last]) = (first :: mid ++ [last]).map Text.trim :=
    nonBlank_congr (by simp [Text.trim_space_append]) hnamed
  rw [hjoin, splitOn, if_pos hfound, Text.split_joined (by simp) hclear hlast, hblank]

section Split

variable (h : ∀ p ∈ first :: mid ++ [last], Joinable p)

include h

theorem named_of_joinable : ∀ p ∈ first :: mid ++ [last], Text.trim p ≠ [] :=
  fun p hp => (h p hp).named

theorem trim_joined_of_joinable (joiner : List Char) :
    Text.trim (joined joiner (first :: mid) last) =
      joined joiner (first.dropWhile Text.isWhitespace :: mid) (Text.trimEnd last) :=
  Text.trim_joined (h first (by simp)).named (h last (by simp)).named

theorem nonBlank_trimmed :
    nonBlank (first.dropWhile Text.isWhitespace :: mid ++ [Text.trimEnd last]) =
      (first :: mid ++ [last]).map Text.trim :=
  nonBlank_congr (by simp) (named_of_joinable h)

theorem splitCollab_semicolon :
    splitCollab (Text.trim (joined "; ".toList (first :: mid) last)) =
      some ((first :: mid ++ [last]).map Text.trim) := by
  have hon := splitOn_marked (by decide) (fun p hp => (h p hp).semicolon) (named_of_joinable h)
  rw [splitCollab]
  change Option.or (splitOn (Text.trim (joined [';', ' '] _ _)) [';']) _ = _
  rw [hon, Option.some_or]

/-- A joiner without a semicolon leaves none to split at. -/
theorem splitOn_semicolon_eq_none (hjoiner : ';' ∉ joiner) :
    splitOn (Text.trim (joined joiner (first :: mid) last)) ";".toList = none := by
  have hnone : Text.splitOnce [';'] (Text.trim (joined joiner (first :: mid) last)) = none := by
    refine Text.splitOnce_singleton_eq_none.mpr fun hmem => ?_
    rcases Text.mem_joined (Text.mem_of_mem_trim hmem) with hmem | ⟨p, hp, hmem⟩
    · exact hjoiner hmem
    · exact (h p hp).semicolon hmem
  change splitOn _ [';'] = none
  rw [splitOn, hnone]
  rfl

theorem splitCollab_ampersand :
    splitCollab (Text.trim (joined " & ".toList (first :: mid) last)) =
      some ((first :: mid ++ [last]).map Text.trim) := by
  have hlast : Text.splitOnce " & ".toList (Text.trimEnd last) = none := by
    refine (Text.splitOnce_eq_none (by decide)).mpr fun hin => ?_
    refine (h last (by simp)).ampersand (hin.trans ?_)
    exact ((Text.trimEnd_isPrefix last).trans (List.prefix_append _ _)).isInfix.trans
      (List.suffix_cons _ _).isInfix
  have hclear : ∀ p ∈ first.dropWhile Text.isWhitespace :: mid, Text.Clear " & ".toList p := by
    rw [List.forall_mem_cons]
    exact ⟨(h first (by simp)).clear_ampersand.of_isSuffix (List.dropWhile_suffix _),
      fun p hp => (h p (by simp [hp])).clear_ampersand⟩
  have hfound : (Text.splitOnce " & ".toList (joined " & ".toList
      (first.dropWhile Text.isWhitespace :: mid) (Text.trimEnd last))).isSome := by
    rw [Text.joined_cons, Text.splitOnce_clear (by decide) (hclear _ List.mem_cons_self)]
    rfl
  rw [splitCollab, splitOn_semicolon_eq_none h (by decide), Option.none_or,
    trim_joined_of_joinable h, splitOn, if_pos hfound, Text.split_joined (by decide) hclear hlast,
    nonBlank_trimmed h, Option.some_or]

/-- No ` & ` comes about around the word. -/
theorem splitOn_ampersand_eq_none :
    splitOn (Text.trim (joined " and ".toList (first :: mid) last)) " & ".toList = none := by
  have hinit : ∀ p ∈ first :: mid, ¬ " & ".toList <:+: ' ' :: (p ++ [' ']) :=
    fun p hp => (h p (List.mem_append_left _ hp)).ampersand
  have hlast : ¬ " & ".toList <:+: ' ' :: last := fun hin =>
    (h last (by simp)).ampersand (hin.trans (List.prefix_append (' ' :: last) [' ']).isInfix)
  have hnot := Text.not_infix_joined "and".toList (by decide) (Text.forall_of_all rfl)
    hinit hlast
  have hnone : Text.splitOnce " & ".toList
      (Text.trim (joined " and ".toList (first :: mid) last)) = none := by
    refine (Text.splitOnce_eq_none (by decide)).mpr fun hin => hnot (hin.trans ?_)
    exact (Text.trim_isInfix _).trans (List.suffix_cons _ _).isInfix
  rw [splitOn, hnone]
  rfl

theorem splitCollab_word :
    splitCollab (Text.trim (joined " and ".toList (first :: mid) last)) =
      some ((first :: mid ++ [last]).map Text.trim) := by
  have hlast : Text.splitOnceCi " and ".toList (Text.trimEnd last) = none := by
    rw [Text.splitOnceCi, (Text.splitOnce_eq_none (by decide)).mpr, Option.map_none]
    intro hin
    refine (h last (by simp)).word (hin.trans ?_)
    exact (((Text.trimEnd_isPrefix last).trans (List.prefix_append _ _)).map _).isInfix
  have hclear : ∀ p ∈ first.dropWhile Text.isWhitespace :: mid,
      Text.Clear " and ".toList (Text.asciiLower p) := by
    rw [List.forall_mem_cons]
    exact ⟨(h first (by simp)).clear_word.of_isSuffix ((List.dropWhile_suffix _).map _),
      fun p hp => (h p (by simp [hp])).clear_word⟩
  have hfound : (Text.splitOnceCi " and ".toList (joined " and ".toList
      (first.dropWhile Text.isWhitespace :: mid) (Text.trimEnd last))).isSome := by
    rw [Text.joined_cons,
      Text.splitOnceCi_clear (by decide) (by decide) (hclear _ List.mem_cons_self)]
    rfl
  have htwo : ¬ ((first :: mid ++ [last]).map Text.trim).length < 2 := by simp
  rw [splitCollab, splitOn_semicolon_eq_none h (by decide), Option.none_or,
    splitOn_ampersand_eq_none h, Option.none_or, trim_joined_of_joinable h, splitOnCi,
    if_pos hfound, Text.splitCi_joined (by decide) (by decide) hclear hlast, nonBlank_trimmed h]
  dsimp only
  rw [if_neg htwo, Option.some_or]

theorem splitCollab_joined (hjoiner : joiner ∈ joiners) :
    splitCollab (Text.trim (joined joiner (first :: mid) last)) =
      some ((first :: mid ++ [last]).map Text.trim) := by
  simp only [joiners, List.mem_cons, List.not_mem_nil, or_false] at hjoiner
  rcases hjoiner with rfl | rfl | rfl
  · exact splitCollab_semicolon h
  · exact splitCollab_ampersand h
  · exact splitCollab_word h

end Split

-- ---------------------------------------------------------------------------
-- Keys
-- ---------------------------------------------------------------------------

/-- The keys of the names, without those that have none. -/
def nameKeys (u : Unicode) (parts : List (List Char)) : List (List Char) :=
  (parts.map fun part => foldAlnum u (Text.trim part)).filter (!·.isEmpty)

/-- The key of a credit, of the keys of its names. -/
def creditKey (keys : List (List Char)) : List Char :=
  " & ".toList.intercalate ((keys.insertionSort Text.Before).destutter (· ≠ ·))

theorem creditKey_congr {keys keys' : List (List Char)} (h : ∀ k, k ∈ keys ↔ k ∈ keys') :
    creditKey keys = creditKey keys' := by
  rw [creditKey, creditKey, Text.destutter_insertionSort_congr Text.Before h]

theorem collabFoldKey_of_splitCollab (h : splitCollab s = some parts)
    {keys : List (List Char)} (hkeys : ∀ k, k ∈ keys ↔
      k ∈ (parts.map fun part => foldAlnum u (cleanPart u part)).filter (!·.isEmpty))
    (hne : keys ≠ []) : collabFoldKey u s = some (creditKey keys) := by
  have hfolded : ¬ ((parts.map fun part => foldAlnum u (cleanPart u part)).filter
      (!·.isEmpty)).isEmpty = true := by
    obtain ⟨k, hk⟩ := List.exists_mem_of_ne_nil keys hne
    rw [List.isEmpty_iff]
    exact List.ne_nil_of_mem ((hkeys k).mp hk)
  rw [collabFoldKey, h, Option.bind_eq_bind, Option.bind_some, creditKey_congr hkeys]
  exact if_neg hfolded

/-- Several names that can be joined, and one of them has a key. -/
structure Credit (u : Unicode) (parts : List (List Char)) : Prop where
  several : 2 ≤ parts.length
  joinable : ∀ p ∈ parts, Joinable p
  keyed : nameKeys u parts ≠ []

theorem Credit.of_perm (h : Credit u parts) {others : List (List Char)}
    (hperm : others.Perm parts) : Credit u others where
  several := hperm.length_eq ▸ h.several
  joinable p hp := h.joinable p (hperm.mem_iff.mp hp)
  keyed hnil := by
    have hkeys : (nameKeys u others).Perm (nameKeys u parts) := (hperm.map _).filter _
    exact h.keyed (List.nil_perm.mp (hnil ▸ hkeys))

theorem unmarked_joined (hparts : ∀ p ∈ parts ++ [last], Joinable p) (hjoiner : joiner ∈ joiners) :
    Unmarked (joined joiner parts last) := by
  intro c hc
  rcases Text.mem_joined hc with hc | ⟨p, hp, hc⟩
  · have hplain : ∀ joiner ∈ joiners, Unmarked joiner := by decide
    exact hplain joiner hjoiner c hc
  · exact (hparts p hp).marks c hc

theorem exists_mid_last (first : List Char) {rest : List (List Char)} (h : rest ≠ []) :
    ∃ mid last, first :: rest = first :: mid ++ [last] :=
  ⟨rest.dropLast, rest.getLast h, by rw [List.cons_append, List.dropLast_append_getLast]⟩

theorem Credit.exists_joined (h : Credit u parts) :
    ∃ first mid last, parts = first :: mid ++ [last] := by
  have hlength := h.several
  cases parts with
  | nil => simp at hlength
  | cons first rest =>
    refine ⟨first, exists_mid_last first ?_⟩
    rintro rfl
    simp at hlength

theorem artistFoldKey_joined (h : Credit u parts) (hjoiner : joiner ∈ joiners) :
    artistFoldKey u (joiner.intercalate parts) = creditKey (nameKeys u parts) := by
  obtain ⟨first, mid, last, rfl⟩ := h.exists_joined
  have hsplit := splitCollab_joined h.joinable hjoiner
  have hblank : Text.trim (joined joiner (first :: mid) last) ≠ [] := by
    intro hnil
    have hnone : splitCollab [] = none := by decide
    rw [hnil, hnone] at hsplit
    cases hsplit
  have hclean : ((first :: mid ++ [last]).map Text.trim).map
      (fun part => foldAlnum u (cleanPart u part)) =
        (first :: mid ++ [last]).map fun part => foldAlnum u (Text.trim part) := by
    rw [List.map_map]
    refine List.map_congr_left fun p hp => ?_
    rw [Function.comp_apply, cleanPart_of_unmarked (h.joinable p hp).marks.trim, Text.trim_trim]
  have hcollab := collabFoldKey_of_splitCollab (u := u) hsplit (fun k => by rw [hclean, nameKeys])
    h.keyed
  rw [Text.intercalate_concat, artistFoldKey, if_neg (by simpa using hblank),
    structural_of_unmarked (unmarked_joined h.joinable hjoiner), hcollab]

/-- Names count up to their keys, in any order and however often. -/
theorem artistFoldKey_unordered (u : Unicode) (parts : List (List Char)) (h : Credit u parts) :
    ∀ joiner ∈ joiners, ∀ joiner' ∈ joiners, ∀ others,
      others.Perm parts ∨ Credit u others ∧ (∀ k, k ∈ nameKeys u others ↔ k ∈ nameKeys u parts) →
        artistFoldKey u (joiner'.intercalate others) =
          artistFoldKey u (joiner.intercalate parts) := by
  rintro joiner hjoiner joiner' hjoiner' others hothers
  have hcredit : Credit u others ∧ ∀ k, k ∈ nameKeys u others ↔ k ∈ nameKeys u parts := by
    rcases hothers with hperm | hothers
    · have hkeys : (nameKeys u others).Perm (nameKeys u parts) := (hperm.map _).filter _
      exact ⟨h.of_perm hperm, fun _ => hkeys.mem_iff⟩
    · exact hothers
  rw [artistFoldKey_joined hcredit.1 hjoiner', artistFoldKey_joined h hjoiner,
    creditKey_congr hcredit.2]

theorem artistFoldKey_unordered_duet :
    artistFoldKey Unicode.ascii "Nick Cave and Kylie Minogue".toList =
      artistFoldKey Unicode.ascii "Kylie Minogue; nick  CAVE; Nick Cave".toList := by
  have hthrice : nameKeys Unicode.ascii
      ["Kylie Minogue".toList, "nick  CAVE".toList, "Nick Cave".toList] =
        ["kylie minogue".toList, "nick cave".toList, "nick cave".toList] := by decide
  have htwice : nameKeys Unicode.ascii ["Nick Cave".toList, "Kylie Minogue".toList] =
      ["nick cave".toList, "kylie minogue".toList] := by decide
  refine artistFoldKey_unordered Unicode.ascii
    ["Kylie Minogue".toList, "nick  CAVE".toList, "Nick Cave".toList]
    ⟨by decide, by decide, by decide⟩ "; ".toList (by decide) " and ".toList (by decide)
    ["Nick Cave".toList, "Kylie Minogue".toList]
    (.inr ⟨⟨by decide, by decide, by decide⟩, fun k => ?_⟩)
  rw [hthrice, htwice, List.mem_cons, List.mem_cons, List.mem_cons, List.mem_cons, List.mem_cons]
  tauto

/-- A name without letters and digits has no key, nor has a blank one, and a
joiner at the end of a credit is a part of its last name. -/
theorem key_of_symbols_tells_joiner :
    (¬ ∀ parts : List (List Char), 2 ≤ parts.length →
        (∀ p ∈ parts, Text.trim p ≠ [] ∧ (∀ c ∈ p, c ∉ ";&|/,()[]".toList) ∧
          ¬ "and".toList <:+: Text.asciiLower p) →
        ∀ joiner ∈ joiners, ∀ joiner' ∈ joiners, ∀ others, others.Perm parts →
          artistFoldKey Unicode.ascii (joiner'.intercalate others) =
            artistFoldKey Unicode.ascii (joiner.intercalate parts)) ∧
      ∀ parts ∈ [["A", " "], ["A", "[B]"], ["A &", "B"]],
        artistFoldKey Unicode.ascii (" and ".toList.intercalate (parts.map String.toList)) ≠
          artistFoldKey Unicode.ascii ("; ".toList.intercalate (parts.map String.toList)) := by
  constructor
  · intro hsame
    have hparts : ∀ p ∈ ["!!!".toList, "???".toList], Text.trim p ≠ [] ∧
        (∀ c ∈ p, c ∉ ";&|/,()[]".toList) ∧ ¬ "and".toList <:+: Text.asciiLower p := by
      rw [List.forall_mem_cons, List.forall_mem_singleton]
      exact ⟨⟨by decide, Text.forall_of_all rfl, by decide⟩,
        ⟨by decide, Text.forall_of_all rfl, by decide⟩⟩
    have heq := hsame _ (by decide) hparts "; ".toList (by decide) " and ".toList (by decide) _
      (List.Perm.refl _)
    exact absurd heq (by decide +kernel)
  · decide +kernel

end EvoAudio.Names
