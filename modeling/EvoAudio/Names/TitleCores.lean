import EvoAudio.Lib.ByteSlices
import EvoAudio.Names.Brackets
import EvoAudio.Names.TitleSlices
import Mathlib.Logic.Relation

/-!
# The core of a title

What `clean_album_title` leaves of a title: the text before the mark of a disc
that it ends in, if it does, and then before the qualifiers of editions. It is
taken once. A title whose core ends in a mark or a qualifier again is one that a
second cleaning changes.
-/

namespace EvoAudio.Names

open Relation (ReflTransGen)

variable {title rest core before inner tail label digits : List Char} {opener close space : Char}

-- ---------------------------------------------------------------------------
-- Marks and qualifiers
-- ---------------------------------------------------------------------------

def dashes : List String := [" - ", " – ", " — "]

/-- A label and a number in one word. -/
structure Glued (label digits : List Char) : Prop where
  labelled : isDiscLabel (Text.asciiLower label) = true
  numbered : digits ≠ []
  decimal : digits.all Char.isDigit = true

/-- A title that ends in the mark of a disc, and the text before the mark. -/
inductive EndsInDisc : List Char → List Char → Prop
  | bracket {before inner : List Char} {opener close : Char} (h : opening close = some opener)
      (hnot : opener ∉ inner) (hmark : (parseDiscGroup (Text.trim inner)).isSome) :
      EndsInDisc (before ++ opener :: (inner ++ [close])) (Text.trimEnd before)
  | dash {before tail : List Char} {delim : String} (h : delim ∈ dashes)
      (hmark : (parseDiscGroup (Text.trim tail)).isSome) :
      EndsInDisc (before ++ (delim.toList ++ tail)) (Text.trimEnd before)
  | glued {before label digits : List Char} {space : Char} (h : Text.isWhitespace space = true)
      (hnarrow : space.utf8Size = 1) (hword : Glued label digits) :
      EndsInDisc (before ++ space :: (label ++ digits)) (Text.trimEnd before)

/-- A title that ends in the qualifier of an edition, and the text before it. -/
inductive EndsInEdition : List Char → List Char → Prop
  | bracket {before inner : List Char} {opener close : Char} (h : opening close = some opener)
      (hnot : opener ∉ inner) (hqualifier : isEditionQualifier (Text.trim inner) = true) :
      EndsInEdition (before ++ opener :: (inner ++ [close])) (Text.trimEnd before)

/-- What is left of a title before a mark and the qualifiers before the mark. -/
def CoreOf (title core : List Char) : Prop :=
  ∃ titled, (EndsInDisc title titled ∨ titled = title ∧ ∀ rest, ¬ EndsInDisc title rest) ∧
    ReflTransGen EndsInEdition titled core ∧ ∀ rest, ¬ EndsInEdition core rest

/-- The title has no mark and no qualifier at its end, or it is made of them. -/
def Settled (title : List Char) : Prop :=
  Sliceable title ∧ (CoreOf title title ∨ CoreOf title [])

-- ---------------------------------------------------------------------------
-- What a mark is made of
-- ---------------------------------------------------------------------------

/-- The characters of disc labels and numbers. -/
def isMarkChar (c : Char) : Bool := c.isAlphanum || c == '.' || c == '+'

theorem mem_trimEndMatches {c : Char} {s : List Char} (h : d ∈ s) :
    d = c ∨ d ∈ Text.trimEndMatches c s := by
  rw [← List.mem_reverse, ← List.takeWhile_append_dropWhile (p := (· == c)) (l := s.reverse),
    List.mem_append] at h
  rcases h with h | h
  · exact .inl (by simpa using List.mem_takeWhile_imp h)
  · exact .inr (List.mem_reverse.mpr h)

theorem isDiscLabel_chars (h : isDiscLabel label = true) : ∀ c ∈ label, c.isAlpha = true := by
  simp only [isDiscLabel, List.any_cons, List.any_nil, Bool.or_false, Bool.or_eq_true,
    beq_iff_eq] at h
  rcases h with rfl | rfl | rfl | rfl | rfl | rfl <;> exact Text.forall_of_all rfl

theorem parseU32_chars {s : List Char} (h : (Text.parseU32 s).isSome) :
    ∃ digits, (s = digits ∨ s = '+' :: digits) ∧ digits ≠ [] ∧ ∀ c ∈ digits, c.isDigit = true := by
  unfold Text.parseU32 at h
  dsimp only at h
  split at h
  next hdigits =>
    refine ⟨(Text.stripPrefix ['+'] s).getD s, ?_, hdigits.1, by simpa using hdigits.2.1⟩
    cases hstrip : Text.stripPrefix ['+'] s with
    | none => exact .inl rfl
    | some digits => exact .inr (Text.stripPrefix_eq_some hstrip)
  · cases h

/-- A mark is a label and a number, and may say of how many. -/
theorem parseDiscGroup_words (h : (parseDiscGroup inner).isSome) :
    ∃ label number rest, Text.words (Text.asciiLower inner) = label :: number :: rest ∧
      isDiscLabel (Text.trimEndMatches '.' label) = true ∧ (Text.parseU32 number).isSome ∧
      (rest = [] ∨ ∃ total, rest = ["of".toList, total] ∧ (Text.parseU32 total).isSome) := by
  unfold parseDiscGroup at h
  split at h
  next label rest hwords =>
    split at h
    · cases h
    next hlabel =>
      have hlabel : isDiscLabel (Text.trimEndMatches '.' label) = true := by simpa using hlabel
      split at h
      next number => exact ⟨label, number, [], hwords, hlabel, h, .inl rfl⟩
      next number word total =>
        split at h
        next htotal =>
          exact ⟨label, number, [word, total], hwords, hlabel, h,
            .inr ⟨total, by rw [htotal.1], htotal.2⟩⟩
        · cases h
      · cases h
  · cases h

theorem isMarkChar_of_parseU32 {s : List Char} (h : (Text.parseU32 s).isSome) (hc : c ∈ s) :
    isMarkChar c = true := by
  obtain ⟨digits, hs, -, hdigits⟩ := parseU32_chars h
  have hdigit : c ∈ digits → isMarkChar c = true := by
    intro hc
    simp [isMarkChar, Char.isAlphanum, hdigits c hc]
  rcases hs with rfl | rfl
  · exact hdigit hc
  · rcases List.mem_cons.mp hc with rfl | hc
    · rfl
    · exact hdigit hc

theorem parseDiscGroup_chars (h : (parseDiscGroup inner).isSome) (hc : c ∈ inner)
    (hspace : Text.isWhitespace c = false) : isMarkChar c = true := by
  by_cases hupper : c.isUpper = true
  · have halnum : c.isAlphanum = true :=
      Text.isAlphanum_iff.mpr (.inl (Text.isAlpha_iff.mpr (.inl hupper)))
    simp [isMarkChar, halnum]
  · have hlower : c.toLower = c := Text.toLower_of_not_isUpper hupper
    have hmem : c ∈ Text.asciiLower inner := List.mem_map.mpr ⟨c, hc, hlower⟩
    obtain ⟨word, hword, hc⟩ := Text.exists_word hmem hspace
    obtain ⟨label, number, rest, hwords, hlabel, hnumber, hrest⟩ := parseDiscGroup_words h
    rw [hwords] at hword
    rcases List.mem_cons.mp hword with rfl | hword
    · rcases mem_trimEndMatches (c := '.') hc with rfl | hc
      · rfl
      · simp [isMarkChar, Char.isAlphanum, isDiscLabel_chars hlabel c hc]
    · rcases List.mem_cons.mp hword with rfl | hword
      · exact isMarkChar_of_parseU32 hnumber hc
      · rcases hrest with rfl | ⟨total, rfl, htotal⟩
        · cases hword
        · rcases List.mem_cons.mp hword with rfl | hword
          · have hof : ∀ c ∈ "of".toList, isMarkChar c = true := Text.forall_of_all rfl
            exact hof c hc
          · cases List.mem_singleton.mp hword
            exact isMarkChar_of_parseU32 htotal hc

theorem parseDiscGroup_trim (s : List Char) : parseDiscGroup (Text.trim s) = parseDiscGroup s := by
  rw [parseDiscGroup, parseDiscGroup, ← Text.trim_asciiLower, Text.words_trim]

/-- The last word of a mark is a number. -/
theorem parseDiscGroup_last (h : (parseDiscGroup inner).isSome)
    (hwords : Text.words (Text.asciiLower inner) = start ++ [word]) :
    (Text.parseU32 word).isSome := by
  obtain ⟨label, number, rest, hmark, -, hnumber, hrest⟩ := parseDiscGroup_words h
  have hlast : (label :: number :: rest).getLast? = some word := by
    rw [← hmark, hwords, List.getLast?_concat]
  rcases hrest with rfl | ⟨total, rfl, htotal⟩
  · cases hlast
    exact hnumber
  · cases hlast
    exact htotal

/-- A mark has a white space between its words. -/
theorem exists_white_of_mark (h : (parseDiscGroup inner).isSome) :
    ∃ c ∈ inner, Text.isWhitespace c = true := by
  by_contra hnone
  have hsolid : ∀ c ∈ Text.asciiLower inner, Text.isWhitespace c = false := by
    intro c hc
    obtain ⟨d, hd, rfl⟩ := List.mem_map.mp hc
    rw [Text.isWhitespace_toLower, Bool.eq_false_iff]
    exact fun hwhite => hnone ⟨d, hd, hwhite⟩
  obtain ⟨label, number, rest, hwords, -⟩ := parseDiscGroup_words h
  by_cases hempty : Text.asciiLower inner = []
  · rw [hempty, Text.words_nil] at hwords
    cases hwords
  · rw [Text.words_of_solid hsolid hempty] at hwords
    cases hwords

theorem not_white_of_alphanum {c : Char} (h : c.isAlphanum = true) :
    Text.isWhitespace c = false := by
  rw [Bool.eq_false_iff]
  intro hwhite
  simp only [Text.isWhitespace, Bool.or_eq_true, Bool.and_eq_true, beq_iff_eq,
    decide_eq_true_eq] at hwhite
  rw [Text.isAlphanum_iff, Text.isAlpha_iff, Text.isUpper_iff, Text.isLower_iff,
    Text.isDigit_iff] at h
  omega

-- ---------------------------------------------------------------------------
-- The strippers take marks and qualifiers
-- ---------------------------------------------------------------------------

theorem stripParenDiscSuffix_eq_some (h : stripParenDiscSuffix title = some rest) :
    EndsInDisc title rest := by
  unfold stripParenDiscSuffix at h
  split at h
  next before inner close hgroup =>
    split at h
    next hmark =>
      cases h
      obtain ⟨opener, hopener, hnot, rfl⟩ := trailingGroup_eq_some.mp hgroup
      exact .bracket hopener hnot hmark
    · cases h
  · cases h

theorem stripDashDiscSuffix_eq_some (h : stripDashDiscSuffix title = some rest) :
    EndsInDisc title rest := by
  obtain ⟨delim, hdelim, h⟩ := List.exists_of_findSome?_eq_some h
  split at h
  next before tail hsplit =>
    split at h
    next hmark =>
      cases h
      rw [Text.splitLast_eq_append hsplit, List.append_assoc]
      exact .dash hdelim hmark
    · cases h
  · cases h

theorem stripGluedDiscSuffix_eq_some (h : stripGluedDiscSuffix title = some (some rest)) :
    EndsInDisc title rest := by
  unfold stripGluedDiscSuffix at h
  split at h
  · cases h
  next before space tail hsplit =>
    obtain ⟨rfl, hspace, hsolid⟩ := Text.splitLastWhere_eq_some.mp hsplit
    split at h
    · cases h
    next hnarrow =>
      dsimp only at h
      split at h
      next hglued =>
        cases h
        have hdigit : (fun c => !Char.isDigit c) ∘ Char.toLower = fun c => !c.isDigit :=
          funext fun c => congrArg _ (Text.isDigit_toLower c)
        rw [Text.asciiLower, List.takeWhile_map, List.dropWhile_map, hdigit] at hglued
        simp only [Bool.and_eq_true, Bool.not_eq_true', List.isEmpty_eq_false_iff, ne_eq,
          List.map_eq_nil_iff] at hglued
        obtain ⟨⟨⟨-, hne⟩, hdigits⟩, hlabel⟩ := hglued
        have hdigits : (tail.dropWhile fun c => !c.isDigit).all Char.isDigit = true := by
          simpa [Text.isDigit_toLower] using hdigits
        have hglue := @EndsInDisc.glued before _ _ _ hspace (by simpa using hnarrow)
          ⟨hlabel, hne, hdigits⟩
        rwa [List.takeWhile_append_dropWhile] at hglue
      · cases h

/-- What is taken from the end of a title is a mark. -/
theorem stripTrailingDiscSuffix_cases (h : stripTrailingDiscSuffix title = some rest)
    (htitle : Text.trimEnd title = title) : EndsInDisc title rest ∨ rest = title := by
  unfold stripTrailingDiscSuffix at h
  dsimp only at h
  rw [htitle] at h
  split at h
  · cases h
    exact .inr rfl
  · split at h
    next hstrip =>
      cases h
      rcases Option.or_eq_some_iff.mp hstrip with hparen | ⟨-, hdash⟩
      · exact .inl (stripParenDiscSuffix_eq_some hparen)
      · exact .inl (stripDashDiscSuffix_eq_some hdash)
    next =>
      obtain ⟨glued, hglued, rfl⟩ := Option.map_eq_some_iff.mp h
      cases glued with
      | none => exact .inr rfl
      | some rest => exact .inl (stripGluedDiscSuffix_eq_some hglued)

def isDash (c : Char) : Bool := c == '-' || c == '–' || c == '—'

theorem toList_of_dash {delim : String} (h : delim ∈ dashes) :
    ∃ x, delim.toList = [' ', x, ' '] ∧ isDash x = true := by
  simp only [dashes, List.mem_cons, List.not_mem_nil, or_false] at h
  rcases h with rfl | rfl | rfl
  · exact ⟨'-', rfl, rfl⟩
  · exact ⟨'–', rfl, rfl⟩
  · exact ⟨'—', rfl, rfl⟩

theorem not_dash_of_mark (h : (parseDiscGroup tail).isSome) : ∀ c ∈ tail, isDash c = false := by
  intro c hc
  rw [Bool.eq_false_iff]
  intro hdash
  have hother : Text.isWhitespace c = false ∧ isMarkChar c = false := by
    simp only [isDash, Bool.or_eq_true, beq_iff_eq] at hdash
    rcases hdash with (rfl | rfl) | rfl <;> decide
  simp [parseDiscGroup_chars h hc hother.1] at hother

/-- There is one way to end in a mark behind a dash. -/
theorem dash_unique {delim delim' : String} (hdelim : delim ∈ dashes) (hdelim' : delim' ∈ dashes)
    (htail : (parseDiscGroup tail).isSome) (htail' : (parseDiscGroup tail').isSome)
    (heq : before ++ (delim.toList ++ tail) = before' ++ (delim'.toList ++ tail')) :
    before = before' := by
  obtain ⟨x, hx, hdash⟩ := toList_of_dash hdelim
  obtain ⟨x', hx', hdash'⟩ := toList_of_dash hdelim'
  have hcut {before tail : List Char} {x : Char} (hdash : isDash x = true)
      (htail : (parseDiscGroup tail).isSome) :
      Text.splitLastWhere isDash (before ++ ([' ', x, ' '] ++ tail)) =
        some (before ++ [' '], x, ' ' :: tail) := by
    refine Text.splitLastWhere_eq_some.mpr ⟨by simp, hdash, ?_⟩
    rw [List.forall_mem_cons]
    exact ⟨rfl, not_dash_of_mark htail⟩
  have hsame := @hcut before tail x hdash htail
  rw [← hx, heq, hx', hcut hdash' htail', Option.some.injEq, Prod.mk.injEq] at hsame
  exact (List.append_cancel_right hsame.1).symm

theorem stripDashDiscSuffix_dash {delim : String} (hdelim : delim ∈ dashes)
    (hmark : (parseDiscGroup (Text.trim tail)).isSome) :
    stripDashDiscSuffix (before ++ (delim.toList ++ tail)) = some (Text.trimEnd before) := by
  have htail : (parseDiscGroup tail).isSome := by rwa [parseDiscGroup_trim] at hmark
  have hsplit : Text.splitLast delim.toList (before ++ (delim.toList ++ tail)) =
      some (before, tail) := by
    obtain ⟨x, hx, hdash⟩ := toList_of_dash hdelim
    have hspace : ' ' ≠ x := by
      rintro rfl
      cases hdash
    rw [hx]
    refine Text.splitLast_of_notMem hspace (fun hmem => ?_) before
    simp [not_dash_of_mark htail x hmem] at hdash
  cases hstrip : stripDashDiscSuffix (before ++ (delim.toList ++ tail)) with
  | none =>
    have hnone := List.findSome?_eq_none_iff.mp hstrip delim hdelim
    simp [hsplit, hmark] at hnone
  | some rest =>
    obtain ⟨delim', hdelim', hfound⟩ := List.exists_of_findSome?_eq_some hstrip
    split at hfound
    next before' tail' hsplit' =>
      split at hfound
      next hmark' =>
        cases hfound
        have htail' : (parseDiscGroup tail').isSome := by rwa [parseDiscGroup_trim] at hmark'
        have heq := Text.splitLast_eq_append hsplit'
        rw [List.append_assoc] at heq
        rw [dash_unique hdelim hdelim' htail htail' heq]
      · cases hfound
    · cases hfound

theorem not_isDigit_of_isAlpha {c : Char} (h : c.isAlpha = true) : ¬ c.isDigit = true := by
  intro hdigit
  rw [Text.isAlpha_iff, Text.isUpper_iff, Text.isLower_iff] at h
  rw [Text.isDigit_iff] at hdigit
  omega

theorem Glued.chars (h : Glued label digits) : ∀ c ∈ label ++ digits, c.isAlphanum = true := by
  intro c hc
  rcases List.mem_append.mp hc with hc | hc
  · by_cases hupper : c.isUpper = true
    · exact Text.isAlphanum_iff.mpr (.inl (Text.isAlpha_iff.mpr (.inl hupper)))
    · have hmem : c ∈ Text.asciiLower label :=
        List.mem_map.mpr ⟨c, hc, Text.toLower_of_not_isUpper hupper⟩
      exact Text.isAlphanum_iff.mpr (.inl (isDiscLabel_chars h.labelled c hmem))
  · exact Text.isAlphanum_iff.mpr (.inr (List.all_eq_true.mp h.decimal c hc))

theorem Glued.solid (h : Glued label digits) : ∀ c ∈ label ++ digits, Text.isWhitespace c = false :=
  fun c hc => not_white_of_alphanum (h.chars c hc)

/-- It is no number. -/
theorem Glued.not_number (h : Glued label digits) :
    ¬ (Text.parseU32 (Text.asciiLower (label ++ digits))).isSome := by
  intro hnumber
  obtain ⟨number, hnumber, -, hall⟩ := parseU32_chars hnumber
  have hlower : Text.asciiLower (label ++ digits) =
      Text.asciiLower label ++ Text.asciiLower digits := by simp [Text.asciiLower]
  have hlabel : Text.asciiLower label ≠ [] := by
    intro hempty
    have hnone := h.labelled
    rw [hempty] at hnone
    exact absurd hnone (by decide)
  obtain ⟨c, rest, hcons⟩ := List.exists_cons_of_ne_nil hlabel
  have halpha : c.isAlpha = true := isDiscLabel_chars h.labelled c (hcons ▸ List.mem_cons_self)
  rw [hlower, hcons, List.cons_append] at hnumber
  rcases hnumber with hnumber | hnumber
  · have hdigit : c.isDigit = true := hall c (hnumber ▸ List.mem_cons_self)
    exact not_isDigit_of_isAlpha halpha hdigit
  · rw [(List.cons.inj hnumber).1] at halpha
    exact absurd halpha (by decide)

theorem opening_markChar (hc : isMarkChar c = true) : opening c = none := by
  cases hopening : opening c with
  | none => rfl
  | some opener =>
    rcases opening_some hopening with ⟨rfl, -⟩ | ⟨rfl, -⟩ <;> exact absurd hc (by decide)

/-- The word behind the last white space of a mark is a number. -/
theorem stripDashDiscSuffix_glued (h : Glued label digits)
    (hspace : Text.isWhitespace space = true) :
    stripDashDiscSuffix (before ++ space :: (label ++ digits)) = none := by
  refine List.findSome?_eq_none_iff.mpr fun delim hdelim => ?_
  split
  next before' tail hsplit =>
    refine if_neg fun hmark => ?_
    rw [parseDiscGroup_trim] at hmark
    obtain ⟨c, hc, hwhite⟩ := exists_white_of_mark hmark
    obtain ⟨start, space', word, rfl, hspace', hsolid⟩ := Text.exists_last hc hwhite
    have hcut : before ++ space :: (label ++ digits) =
        (before' ++ delim.toList ++ start) ++ space' :: word := by
      rw [Text.splitLast_eq_append hsplit]
      simp
    -- the title has one last white space, so the word is the glued one
    have hsame := Text.splitLastWhere_eq_some.mpr ⟨hcut, hspace', hsolid⟩
    rw [Text.splitLastWhere_eq_some.mpr ⟨rfl, hspace, h.solid⟩] at hsame
    cases hsame
    have hwords : Text.words (Text.asciiLower (start ++ space :: (label ++ digits))) =
        Text.words (Text.asciiLower start) ++ [Text.asciiLower (label ++ digits)] := by
      have hlower : Text.asciiLower (start ++ space :: (label ++ digits)) =
          Text.asciiLower start ++ space.toLower :: Text.asciiLower (label ++ digits) := by
        simp [Text.asciiLower]
      rw [hlower]
      refine Text.words_concat (by rwa [Text.isWhitespace_toLower]) (fun c hc => ?_) ?_ _
      · obtain ⟨d, hd, rfl⟩ := List.mem_map.mp hc
        rw [Text.isWhitespace_toLower, h.solid d hd]
      · simp [Text.asciiLower, h.numbered]
    exact h.not_number (parseDiscGroup_last hmark hwords)
  · rfl

theorem stripGluedDiscSuffix_glued (h : Glued label digits)
    (hspace : Text.isWhitespace space = true) (hnarrow : space.utf8Size = 1) :
    stripGluedDiscSuffix (before ++ space :: (label ++ digits)) =
      some (some (Text.trimEnd before)) := by
  have hlower : Text.asciiLower (label ++ digits) =
      Text.asciiLower label ++ Text.asciiLower digits := by simp [Text.asciiLower]
  have hlabel : ∀ c ∈ Text.asciiLower label, (!c.isDigit) = true := by
    intro c hc
    simpa using not_isDigit_of_isAlpha (isDiscLabel_chars h.labelled c hc)
  obtain ⟨d, rest, rfl⟩ := List.exists_cons_of_ne_nil h.numbered
  have hdigits : ∀ c ∈ d :: rest, c.isDigit = true := List.all_eq_true.mp h.decimal
  have hhead : ¬ (!d.toLower.isDigit) = true := by
    simp [Text.isDigit_toLower, hdigits d List.mem_cons_self]
  have htake : (Text.asciiLower (label ++ d :: rest)).takeWhile (!·.isDigit) =
      Text.asciiLower label := by
    have hstop : (Text.asciiLower (d :: rest)).takeWhile (!·.isDigit) = [] :=
      List.takeWhile_cons_of_neg hhead
    rw [hlower, List.takeWhile_append_of_pos hlabel, hstop, List.append_nil]
  have hdrop : (Text.asciiLower (label ++ d :: rest)).dropWhile (!·.isDigit) =
      Text.asciiLower (d :: rest) := by
    rw [hlower, List.dropWhile_append_of_pos hlabel]
    exact List.dropWhile_cons_of_neg hhead
  have hne : Text.asciiLower label ≠ [] := by
    intro hempty
    have hnone := h.labelled
    rw [hempty] at hnone
    exact absurd hnone (by decide)
  have hall : (Text.asciiLower (d :: rest)).all Char.isDigit = true := by
    rw [List.all_eq_true]
    intro c hc
    obtain ⟨e, he, rfl⟩ := List.mem_map.mp hc
    rw [Text.isDigit_toLower, hdigits e he]
  rw [stripGluedDiscSuffix, Text.splitLastWhere_eq_some.mpr ⟨rfl, hspace, h.solid⟩]
  dsimp only
  have hcons : Text.asciiLower (d :: rest) ≠ [] := List.cons_ne_nil _ _
  rw [if_neg (by simp [hnarrow]), htake, hdrop, if_pos]
  simp only [List.isEmpty_eq_false_iff.mpr hne, List.isEmpty_eq_false_iff.mpr hcons, hall,
    h.labelled]
  rfl

theorem stripParenDiscSuffix_of_last (hlast : title.getLast? = some c) (hc : isMarkChar c = true) :
    stripParenDiscSuffix title = none := by
  rw [stripParenDiscSuffix, trailingGroup_eq_none hlast (opening_markChar hc)]

theorem ne_nil_of_mark (h : (parseDiscGroup inner).isSome) : inner ≠ [] := by
  obtain ⟨c, hc, -⟩ := exists_white_of_mark h
  exact List.ne_nil_of_mem hc

theorem stripParenDiscSuffix_bracket (h : opening close = some opener) (hnot : opener ∉ inner)
    (hmark : (parseDiscGroup (Text.trim inner)).isSome) :
    stripParenDiscSuffix (before ++ opener :: (inner ++ [close])) = some (Text.trimEnd before) := by
  rw [stripParenDiscSuffix, trailingGroup_eq_some.mpr ⟨opener, h, hnot, rfl⟩]
  exact if_pos hmark

theorem stripTrailingDiscSuffix_of_long (htitle : Text.trimEnd title = title)
    (hlength : 3 ≤ title.length) :
    stripTrailingDiscSuffix title =
      match (stripParenDiscSuffix title).or (stripDashDiscSuffix title) with
      | some stripped => some stripped
      | none => (stripGluedDiscSuffix title).map (·.getD title) := by
  have hlong : ¬ (Text.encode title).length < 3 :=
    Nat.not_lt.mpr (Nat.le_trans hlength (Text.length_le_len title))
  rw [stripTrailingDiscSuffix, htitle]
  exact if_neg hlong

/-- A title that ends in a mark is stripped of it. -/
theorem EndsInDisc.strip (h : EndsInDisc title rest) (htitle : Text.trimEnd title = title) :
    stripTrailingDiscSuffix title = some rest := by
  cases h with
  | @bracket before inner opener close hopener hnot hmark =>
    have hinner : inner ≠ [] := by
      rw [parseDiscGroup_trim] at hmark
      exact ne_nil_of_mark hmark
    have hlength : 3 ≤ (before ++ opener :: (inner ++ [close])).length := by
      have := List.length_pos_iff.mpr hinner
      simp only [List.length_append, List.length_cons, List.length_nil]
      omega
    rw [stripTrailingDiscSuffix_of_long htitle hlength,
      stripParenDiscSuffix_bracket hopener hnot hmark]
    rfl
  | @dash before tail delim hdelim hmark =>
    have htail : (parseDiscGroup tail).isSome := by rwa [parseDiscGroup_trim] at hmark
    obtain ⟨c, hlast⟩ :=
      Option.isSome_iff_exists.mp (List.getLast?_isSome.mpr (ne_nil_of_mark htail))
    have hlast' : (before ++ (delim.toList ++ tail)).getLast? = some c := by
      rw [List.getLast?_append_of_ne_nil _ (by simp [ne_nil_of_mark htail]),
        List.getLast?_append_of_ne_nil _ (ne_nil_of_mark htail), hlast]
    have hsolid : Text.isWhitespace c = false := by
      have hflush := Text.flush_reverse_trimEnd (before ++ (delim.toList ++ tail))
      rw [htitle] at hflush
      exact hflush c (by rw [List.head?_reverse, hlast', Option.mem_def])
    have hc := parseDiscGroup_chars htail (List.mem_of_getLast? hlast) hsolid
    have hlength : 3 ≤ (before ++ (delim.toList ++ tail)).length := by
      obtain ⟨x, hx, -⟩ := toList_of_dash hdelim
      simp only [hx, List.length_append, List.length_cons, List.length_nil]
      omega
    rw [stripTrailingDiscSuffix_of_long htitle hlength, stripParenDiscSuffix_of_last hlast' hc,
      stripDashDiscSuffix_dash hdelim hmark]
    rfl
  | @glued before label digits space hspace hnarrow hword =>
    obtain ⟨c, hlast⟩ := Option.isSome_iff_exists.mp (List.getLast?_isSome.mpr hword.numbered)
    have hlast' : (before ++ space :: (label ++ digits)).getLast? = some c := by
      rw [List.getLast?_append_of_ne_nil _ (by simp), List.getLast?_cons,
        List.getLast?_append_of_ne_nil _ hword.numbered, hlast]
      rfl
    have hc : isMarkChar c = true := by
      simp [isMarkChar, hword.chars c (List.mem_append_right _ (List.mem_of_getLast? hlast))]
    have hlabel : label ≠ [] := by
      rintro rfl
      exact absurd hword.labelled (by decide)
    have hlength : 3 ≤ (before ++ space :: (label ++ digits)).length := by
      have := List.length_pos_iff.mpr hlabel
      have := List.length_pos_iff.mpr hword.numbered
      simp only [List.length_append, List.length_cons]
      omega
    rw [stripTrailingDiscSuffix_of_long htitle hlength, stripParenDiscSuffix_of_last hlast' hc,
      stripDashDiscSuffix_glued hword hspace, stripGluedDiscSuffix_glued hword hspace hnarrow]
    rfl

-- ---------------------------------------------------------------------------
-- The core
-- ---------------------------------------------------------------------------

theorem stripOneTrailingEdition_eq_some (htitle : Text.trimEnd title = title) :
    stripOneTrailingEdition title = some rest ↔ EndsInEdition title rest := by
  unfold stripOneTrailingEdition
  dsimp only
  rw [htitle]
  constructor
  · intro h
    split at h
    · cases h
    · split at h
      next before inner close hgroup =>
        split at h
        next hqualifier =>
          cases h
          obtain ⟨opener, hopener, hnot, rfl⟩ := trailingGroup_eq_some.mp hgroup
          exact .bracket hopener hnot hqualifier
        · cases h
      · cases h
  · intro h
    cases h with
    | @bracket before inner opener close hopener hnot hqualifier =>
      have hinner : inner ≠ [] := by
        rintro rfl
        exact absurd hqualifier (by decide +kernel)
      have hlength : 3 ≤ (before ++ opener :: (inner ++ [close])).length := by
        have := List.length_pos_iff.mpr hinner
        simp only [List.length_append, List.length_cons, List.length_nil]
        omega
      have hlong : ¬ (Text.encode (before ++ opener :: (inner ++ [close]))).length < 3 :=
        Nat.not_lt.mpr (Nat.le_trans hlength (Text.length_le_len _))
      rw [if_neg hlong, trailingGroup_eq_some.mpr ⟨opener, hopener, hnot, rfl⟩]
      exact if_pos hqualifier

/-- What is before a qualifier is shorter, and trimmed at its end. -/
theorem EndsInEdition.leaves (h : EndsInEdition title rest) :
    rest <+: title ∧ rest.length < title.length ∧ Text.trimEnd rest = rest := by
  cases h with
  | @bracket before inner opener close hopener hnot hqualifier =>
    refine ⟨(Text.trimEnd_isPrefix before).trans (List.prefix_append _ _), ?_,
      Text.trimEnd_trimEnd _⟩
    have := Text.length_trimEnd_le before
    simp only [List.length_append, List.length_cons]
    omega

theorem EndsInEdition.unique (h : EndsInEdition title rest) (h' : EndsInEdition title rest') :
    rest = rest' := by
  have hgroup {rest : List Char} (h : EndsInEdition title rest) : ∃ before inner close,
      trailingGroup title = some (before, inner, close) ∧ rest = Text.trimEnd before := by
    cases h with
    | @bracket before inner opener close hopener hnot hqualifier =>
      exact ⟨before, inner, close, trailingGroup_eq_some.mpr ⟨opener, hopener, hnot, rfl⟩, rfl⟩
  obtain ⟨before, inner, close, hgroup₁, rfl⟩ := hgroup h
  obtain ⟨before', inner', close', hgroup₂, rfl⟩ := hgroup h'
  cases hgroup₁.symm.trans hgroup₂
  rfl

theorem EndsInDisc.leaves (h : EndsInDisc title rest) :
    rest <+: title ∧ Text.trimEnd rest = rest := by
  cases h with
  | bracket =>
    exact ⟨(Text.trimEnd_isPrefix _).trans (List.prefix_append _ _), Text.trimEnd_trimEnd _⟩
  | dash =>
    exact ⟨(Text.trimEnd_isPrefix _).trans (List.prefix_append _ _), Text.trimEnd_trimEnd _⟩
  | glued =>
    exact ⟨(Text.trimEnd_isPrefix _).trans (List.prefix_append _ _), Text.trimEnd_trimEnd _⟩

/-- The loop takes the qualifiers until there is none. -/
theorem stripEditions_spec (htitle : Text.trimEnd title = title) (hfuel : title.length ≤ fuel) :
    ReflTransGen EndsInEdition title (stripEditions fuel title) ∧
      ∀ rest, ¬ EndsInEdition (stripEditions fuel title) rest := by
  induction fuel generalizing title with
  | zero =>
    obtain rfl := List.eq_nil_of_length_eq_zero (Nat.le_zero.mp hfuel)
    refine ⟨.refl, fun rest h => ?_⟩
    exact absurd h.leaves.2.1 (Nat.not_lt_zero _)
  | succ fuel ih =>
    rw [stripEditions]
    cases hstrip : stripOneTrailingEdition title with
    | none =>
      refine ⟨.refl, fun rest h => ?_⟩
      rw [(stripOneTrailingEdition_eq_some htitle).mpr h] at hstrip
      cases hstrip
    | some rest =>
      have hends := (stripOneTrailingEdition_eq_some htitle).mp hstrip
      obtain ⟨hsteps, hnone⟩ := ih hends.leaves.2.2 (by have := hends.leaves.2.1; omega)
      exact ⟨.head hends hsteps, hnone⟩

/-- A title without qualifier is what every way of taking qualifiers ends in. -/
theorem editions_unique (h : ReflTransGen EndsInEdition title core)
    (h' : ReflTransGen EndsInEdition title core') (hnone : ∀ rest, ¬ EndsInEdition core rest)
    (hnone' : ∀ rest, ¬ EndsInEdition core' rest) : core = core' := by
  have hstay {a b : List Char} (hsteps : ReflTransGen EndsInEdition a b)
      (hnone : ∀ rest, ¬ EndsInEdition a rest) : a = b := by
    rcases Relation.ReflTransGen.cases_head hsteps with heq | ⟨c, hac, -⟩
    · exact heq
    · exact absurd hac (hnone c)
  have hunique : Relator.RightUnique EndsInEdition := fun _ _ _ => EndsInEdition.unique
  rcases Relation.ReflTransGen.total_of_right_unique hunique h h' with hsteps | hsteps
  · exact hstay hsteps hnone
  · exact (hstay hsteps hnone').symm

theorem coreOf_iff (htitle : Text.trimEnd title = title)
    (h : stripTrailingDiscSuffix title = some titled) :
    CoreOf title core ↔ core = stripTrailingEditionQualifier titled := by
  have hcases := stripTrailingDiscSuffix_cases h htitle
  have htitled : Text.trimEnd titled = titled := by
    rcases hcases with hends | rfl
    · exact hends.leaves.2
    · exact htitle
  obtain ⟨hsteps, hnone⟩ := stripEditions_spec htitled (Nat.le_refl _)
  have hstrip : stripTrailingEditionQualifier titled = stripEditions titled.length titled := by
    rw [stripTrailingEditionQualifier, htitled]
  rw [hstrip]
  constructor
  · rintro ⟨titled', hdisc, hsteps', hnone'⟩
    obtain rfl : titled' = titled := by
      rcases hdisc with hends | ⟨rfl, hplain⟩
      · exact Option.some.inj ((hends.strip htitle).symm.trans h)
      · exact (hcases.resolve_left (hplain titled)).symm
    exact editions_unique hsteps' hsteps hnone' hnone
  · rintro rfl
    refine ⟨titled, ?_, hsteps, hnone⟩
    rcases hcases with hends | rfl
    · exact .inl hends
    · by_cases hdisc : ∃ rest, EndsInDisc titled rest
      · obtain ⟨rest, hends⟩ := hdisc
        rw [hends.strip htitle, Option.some.injEq] at h
        exact .inl (h ▸ hends)
      · exact .inr ⟨rfl, fun rest hends => hdisc ⟨rest, hends⟩⟩

theorem CoreOf.isPrefix (h : CoreOf title core) : core <+: title := by
  obtain ⟨titled, hdisc, hsteps, -⟩ := h
  have htitled : titled <+: title := by
    rcases hdisc with hends | ⟨rfl, -⟩
    · exact hends.leaves.1
    · exact List.prefix_refl _
  refine List.IsPrefix.trans ?_ htitled
  induction hsteps with
  | refl => exact List.prefix_refl _
  | tail _ hends ih => exact hends.leaves.1.trans ih

theorem CoreOf.trimEnd (h : CoreOf title core) (htitle : Text.trimEnd title = title) :
    Text.trimEnd core = core := by
  obtain ⟨titled, hdisc, hsteps, -⟩ := h
  rcases Relation.ReflTransGen.cases_tail hsteps with rfl | ⟨before, -, hends⟩
  · rcases hdisc with hends | ⟨rfl, -⟩
    · exact hends.leaves.2
    · exact htitle
  · exact hends.leaves.2.2

theorem CoreOf.trimmed (h : CoreOf title core) (htitle : Text.Trimmed title) :
    Text.Trimmed core := by
  refine ⟨htitle.1.of_isPrefix h.isPrefix, ?_⟩
  rw [← h.trimEnd (Text.trimEnd_eq_self htitle.2)]
  exact Text.flush_reverse_trimEnd core

/-- What a title is cleaned to is its core, or all of it when there is none. -/
theorem cleanAlbumTitle_eq_some (u : Unicode) (htitle : Text.Trimmed title) (hne : title ≠ []) :
    cleanAlbumTitle u title = some cleaned ↔
      Sliceable title ∧ ∃ core, CoreOf title core ∧
        cleaned = u.nfc (if core = [] then title else core) := by
  have htrimEnd := Text.trimEnd_eq_self htitle.2
  rw [cleanAlbumTitle, htitle.trim_eq, if_neg (by simpa using hne), Option.map_eq_some_iff]
  have hslice := stripTrailingDiscSuffix_isSome_iff title
  rw [htrimEnd] at hslice
  rw [← hslice]
  have hblank {core : List Char} (h : CoreOf title core) :
      (Text.trim core).isEmpty = true ↔ core = [] := by
    rw [List.isEmpty_iff]
    refine ⟨fun hempty => ?_, fun hempty => by rw [hempty]; rfl⟩
    by_contra hcore
    exact (htitle.1.of_isPrefix h.isPrefix).trim_ne_nil hcore hempty
  constructor
  · rintro ⟨titled, htitled, rfl⟩
    have hcore := (coreOf_iff htrimEnd htitled).mpr rfl
    refine ⟨by rw [htitled]; rfl, _, hcore, ?_⟩
    simp only [hblank hcore]
  · rintro ⟨hsome, core, hcore, rfl⟩
    obtain ⟨titled, htitled⟩ := Option.isSome_iff_exists.mp hsome
    obtain rfl := (coreOf_iff htrimEnd htitled).mp hcore
    refine ⟨titled, htitled, ?_⟩
    simp only [hblank hcore]

-- ---------------------------------------------------------------------------
-- Cleaning twice
-- ---------------------------------------------------------------------------

section Twice

variable {u : Unicode}
  (hclosed : ∀ s start, start <+: u.nfc s → u.nfc start = start)
  (htrimmed : ∀ s, Text.Trimmed s → Text.Trimmed (u.nfc s))
  (hne : ∀ s, u.nfc s = [] → s = [])

include hclosed in
/-- A title in normal form is cleaned to itself when it is settled. -/
theorem cleanAlbumTitle_eq_self_iff {s : List Char} (htitle : Text.Trimmed (u.nfc s))
    (hne : u.nfc s ≠ []) :
    cleanAlbumTitle u (u.nfc s) = some (u.nfc s) ↔ Settled (u.nfc s) := by
  rw [cleanAlbumTitle_eq_some u htitle hne, Settled, and_congr_right_iff]
  intro hslice
  have hnfc {core : List Char} (hcore : CoreOf (u.nfc s) core) :
      u.nfc (if core = [] then u.nfc s else core) = if core = [] then u.nfc s else core := by
    split_ifs
    · exact hclosed s _ (List.prefix_refl _)
    · exact hclosed s core hcore.isPrefix
  constructor
  · rintro ⟨core, hcore, heq⟩
    rw [hnfc hcore] at heq
    split_ifs at heq with hempty
    · exact .inr (hempty ▸ hcore)
    · exact .inl (heq ▸ hcore)
  · rintro (hcore | hcore)
    · exact ⟨u.nfc s, hcore, by rw [hnfc hcore, if_neg hne]⟩
    · exact ⟨[], hcore, by rw [hnfc hcore, if_pos rfl]⟩

theorem settled_nil : Settled [] :=
  ⟨.inl (by decide), .inl ((@coreOf_iff [] [] [] rfl rfl).mpr rfl)⟩

include hclosed htrimmed hne in
/-- `nfc` leaves a prefix of what it gives as it is, and no text that it gives is
blank or has white space at its ends when the text it is given does not. -/
theorem cleanAlbumTitle_idempotent_iff (raw : List Char) :
    (∀ title, cleanAlbumTitle u raw = some title → cleanAlbumTitle u title = some title) ↔
      (Sliceable (Text.trim raw) → ∀ core, CoreOf (Text.trim raw) core →
        Settled (u.nfc (if core = [] then Text.trim raw else core))) := by
  have hraw := Text.trimmed_trim raw
  by_cases hblank : Text.trim raw = []
  · have hnil : u.nfc [] = [] := hclosed [] [] (List.nil_prefix)
    refine iff_of_true (fun title htitle => ?_) fun _ core hcore => ?_
    · have hclean : cleanAlbumTitle u raw = some [] := by simp [cleanAlbumTitle, hblank]
      rw [hclean, Option.some.injEq] at htitle
      rw [← htitle]
      rfl
    · rw [hblank] at hcore ⊢
      rw [List.prefix_nil.mp hcore.isPrefix, if_pos rfl, hnil]
      exact settled_nil
  · have htrim : cleanAlbumTitle u raw = cleanAlbumTitle u (Text.trim raw) := by
      rw [cleanAlbumTitle, cleanAlbumTitle, Text.trim_trim]
    have hstands {core : List Char} (hcore : CoreOf (Text.trim raw) core) :
        Text.Trimmed (if core = [] then Text.trim raw else core) ∧
          (if core = [] then Text.trim raw else core) ≠ [] := by
      split_ifs with hempty
      · exact ⟨hraw, hblank⟩
      · exact ⟨hcore.trimmed hraw, hempty⟩
    rw [htrim]
    constructor
    · intro hidempotent hslice core hcore
      obtain ⟨htitle, hne'⟩ := hstands hcore
      refine (cleanAlbumTitle_eq_self_iff hclosed (htrimmed _ htitle) fun h => hne' (hne _ h)).mp ?_
      exact hidempotent _ ((cleanAlbumTitle_eq_some u hraw hblank).mpr ⟨hslice, core, hcore, rfl⟩)
    · intro hsettled title htitle
      obtain ⟨hslice, core, hcore, rfl⟩ := (cleanAlbumTitle_eq_some u hraw hblank).mp htitle
      obtain ⟨htitle, hne'⟩ := hstands hcore
      exact (cleanAlbumTitle_eq_self_iff hclosed (htrimmed _ htitle) fun h => hne' (hne _ h)).mpr
        (hsettled hslice core hcore)

end Twice

theorem cleanAlbumTitle_idempotent_deluxe :
    cleanAlbumTitle Unicode.ascii "Album (Deluxe Edition) (Disc 1)".toList = some "Album".toList ∧
      cleanAlbumTitle Unicode.ascii "Album".toList = some "Album".toList := by
  have hclean : cleanAlbumTitle Unicode.ascii "Album (Deluxe Edition) (Disc 1)".toList =
      some "Album".toList := by decide +kernel
  refine ⟨hclean, (cleanAlbumTitle_idempotent_iff (fun _ _ _ => rfl) (fun _ h => h) (fun _ h => h)
    "Album (Deluxe Edition) (Disc 1)".toList).mpr ?_ _ hclean⟩
  intro _ core hcore
  have htrim : Text.trim "Album (Deluxe Edition) (Disc 1)".toList =
      "Album (Deluxe Edition) (Disc 1)".toList := by decide +kernel
  have hdisc : stripTrailingDiscSuffix "Album (Deluxe Edition) (Disc 1)".toList =
      some "Album (Deluxe Edition)".toList := by decide +kernel
  rw [htrim] at hcore
  obtain rfl := (coreOf_iff (by decide +kernel) hdisc).mp hcore
  have hcore' : stripTrailingEditionQualifier "Album (Deluxe Edition)".toList = "Album".toList := by
    decide +kernel
  have hplain : stripTrailingDiscSuffix "Album".toList = some "Album".toList := by decide +kernel
  rw [hcore', if_neg (by decide)]
  have hslice := (stripTrailingDiscSuffix_isSome_iff "Album".toList).mp (by rw [hplain]; rfl)
  exact ⟨hslice, .inl ((coreOf_iff (by decide +kernel) hplain).mpr (by decide +kernel))⟩

/-- The qualifier of the edition is behind the mark of the disc. -/
theorem mark_before_edition_is_cleaned_later :
    ¬ ∀ raw title : List Char, cleanAlbumTitle Unicode.ascii raw = some title →
      cleanAlbumTitle Unicode.ascii title = some title := by
  intro hidempotent
  have hfirst : cleanAlbumTitle Unicode.ascii "Album (Disc 1) (Deluxe Edition)".toList =
      some "Album (Disc 1)".toList := by decide +kernel
  have hsecond : cleanAlbumTitle Unicode.ascii "Album (Disc 1)".toList = some "Album".toList := by
    decide +kernel
  have hsame := hidempotent _ _ hfirst
  rw [hsecond] at hsame
  exact absurd hsame (by decide)

end EvoAudio.Names
