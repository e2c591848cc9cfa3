import EvoAudio.Lib.ByteSlices
import EvoAudio.Names.CreditKeys

/-!
# The key of a displayed name

What is displayed for a tag is taken apart and cleaned once more when a key is
made of it. The key is the one of the tag when the names are left as they are by
that: several names are displayed with commas between them, which is the form in
which a sorted name is written, unless the first of the names is of several words.
-/

namespace EvoAudio.Names

open Text (joined Trimmed)

variable {u : Unicode} {s raw : List Char} {names keys : List (List Char)}

-- ---------------------------------------------------------------------------
-- Normal forms
-- ---------------------------------------------------------------------------

/-- The marks that a tag is taken apart at and no normal form changes. -/
def marks : List Char := "|()[], ".toList

/-- What the tables say about marks, white space and plain ASCII text. -/
structure Unicode.Lawful (u : Unicode) : Prop where
  /-- Nothing composes with a mark or across one. -/
  nfc_mark : ∀ c ∈ marks, ∀ s t, u.nfc (s ++ c :: t) = u.nfc s ++ c :: u.nfc t
  mem_nfc : ∀ c ∈ marks, ∀ s, c ∈ u.nfc s ↔ c ∈ s
  nfc_eq_nil : ∀ s, u.nfc s = [] ↔ s = []
  trim_nfc : ∀ s, Text.trim (u.nfc s) = u.nfc (Text.trim s)
  trimEnd_nfc : ∀ s, Text.trimEnd (u.nfc s) = u.nfc (Text.trimEnd s)
  nfc_ascii : ∀ s, (∀ c ∈ s, c.toNat < 128) → u.nfc s = s
  nfd_ascii : ∀ s, (∀ c ∈ s, c.toNat < 128) → u.nfd s = s
  isAlphanumeric_ascii : ∀ c, c.toNat < 128 → u.isAlphanumeric c = c.isAlphanum
  lowerChar_ascii : ∀ c, c.toNat < 128 → u.lowerChar c = [c.toLower]
  /-- No letter is an `&` in lower case. -/
  lowerChar_letter : ∀ c, u.isAlphanumeric c = true → '&' ∉ u.lowerChar c

theorem Unicode.ascii_lawful : Unicode.ascii.Lawful where
  nfc_mark _ _ _ _ := rfl
  mem_nfc _ _ _ := Iff.rfl
  nfc_eq_nil _ := Iff.rfl
  trim_nfc _ := rfl
  trimEnd_nfc _ := rfl
  nfc_ascii _ _ := rfl
  nfd_ascii _ _ := rfl
  isAlphanumeric_ascii _ _ := rfl
  lowerChar_ascii _ _ := rfl
  lowerChar_letter c hc := by
    intro hmem
    have hlower : '&' = c.toLower := List.mem_singleton.mp hmem
    by_cases hupper : c.isUpper = true
    · have hnat := Text.toNat_toLower hupper
      rw [← hlower] at hnat
      have : '&'.toNat = 38 := rfl
      omega
    · rw [Text.toLower_of_not_isUpper hupper] at hlower
      subst hlower
      exact absurd hc (by decide)

-- ---------------------------------------------------------------------------
-- Keys
-- ---------------------------------------------------------------------------

theorem creditKey_singleton (key : List Char) : creditKey [key] = key := by
  simp [creditKey]

/-- The key of several names has the sign that none of theirs has. -/
theorem mem_creditKey {k k' : List Char} (hk : k ∈ keys) (hk' : k' ∈ keys) (hne : k ≠ k') :
    '&' ∈ creditKey keys := by
  rw [← Text.mem_destutter_insertionSort Text.Before] at hk hk'
  rw [creditKey]
  cases hlist : (keys.insertionSort Text.Before).destutter (· ≠ ·) with
  | nil => simp [hlist] at hk
  | cons first rest =>
    cases rest with
    | nil =>
      rw [hlist, List.mem_singleton] at hk hk'
      exact absurd (hk.trans hk'.symm) hne
    | cons second rest =>
      rw [List.intercalate_cons_cons]
      simp

/-- The keys of the names are what the key of the credit falls into at the sign. -/
theorem split_creditKey (hnot : ∀ k ∈ keys, '&' ∉ k) (hne : keys ≠ []) :
    Text.split " & ".toList (creditKey keys) =
      (keys.insertionSort Text.Before).destutter (· ≠ ·) := by
  have hsorted : ∀ k ∈ (keys.insertionSort Text.Before).destutter (· ≠ ·), '&' ∉ k :=
    fun k hk => hnot k ((Text.mem_destutter_insertionSort Text.Before).mp hk)
  rw [creditKey]
  rcases List.eq_nil_or_concat ((keys.insertionSort Text.Before).destutter (· ≠ ·)) with
    hnil | ⟨init, last, hlist⟩
  · obtain ⟨k, hk⟩ := List.exists_mem_of_ne_nil keys hne
    rw [← Text.mem_destutter_insertionSort Text.Before, hnil] at hk
    cases hk
  · rw [hlist, List.concat_eq_append] at hsorted ⊢
    rw [Text.intercalate_concat]
    refine Text.split_joined (by decide) (fun k hk => ?_) ?_
    · refine Text.clear_word ['&'] (by decide) fun hin => hsorted k (by simp [hk]) ?_
      simpa using hin.subset (a := '&') (by simp)
    · refine (Text.splitOnce_eq_none (by decide)).mpr fun hin => hsorted last (by simp) ?_
      exact hin.subset (by decide)

theorem creditKey_eq_iff {keys' : List (List Char)} (hnot : ∀ k ∈ keys, '&' ∉ k)
    (hnot' : ∀ k ∈ keys', '&' ∉ k) (hne : keys ≠ []) (hne' : keys' ≠ []) :
    creditKey keys = creditKey keys' ↔ ∀ k, k ∈ keys ↔ k ∈ keys' := by
  refine ⟨fun h k => ?_, creditKey_congr⟩
  have hsplit := congrArg (Text.split " & ".toList) h
  rw [split_creditKey hnot hne, split_creditKey hnot' hne'] at hsplit
  rw [← Text.mem_destutter_insertionSort Text.Before, hsplit,
    Text.mem_destutter_insertionSort Text.Before]

section Fold

variable (hu : u.Lawful)

include hu

theorem foldAlnum_nil : foldAlnum u [] = [] := by
  rw [foldAlnum, hu.nfd_ascii [] (by simp)]
  rfl

theorem ampersand_notMem_foldChars (spaced : Bool) (s : List Char) :
    '&' ∉ foldChars u spaced s := by
  induction s generalizing spaced with
  | nil => simp [foldChars]
  | cons c s ih =>
    rw [foldChars]
    split_ifs with hmark halpha hspaced
    · exact ih spaced
    · rw [List.mem_append, not_or]
      exact ⟨hu.lowerChar_letter c halpha, ih _⟩
    · exact ih true
    · simpa using ih true

theorem ampersand_notMem_foldAlnum (s : List Char) : '&' ∉ foldAlnum u s := by
  have hnot := ampersand_notMem_foldChars hu true (u.nfd s)
  rw [foldAlnum]
  split
  · exact fun hmem => hnot (List.dropLast_subset _ hmem)
  · exact hnot

theorem foldAlnum_ascii (h : ∀ c ∈ s, c.toNat < 128) :
    foldAlnum u s = foldAlnum Unicode.ascii s := by
  have hchars (spaced) : foldChars u spaced s = foldChars Unicode.ascii spaced s := by
    induction s generalizing spaced with
    | nil => rfl
    | cons c s ih =>
      rw [List.forall_mem_cons] at h
      simp only [foldChars, hu.isAlphanumeric_ascii c h.1, hu.lowerChar_ascii c h.1, ih h.2]
      rfl
  rw [foldAlnum, foldAlnum, hu.nfd_ascii s h, hchars]
  rfl

end Fold

-- ---------------------------------------------------------------------------
-- The names of a credit
-- ---------------------------------------------------------------------------

/-- The names that a credit of several is displayed with. -/
def contributors (u : Unicode) (s : List Char) : Option (List (List Char)) := do
  let parts ← splitCollab s
  let clean := (parts.map fun part => Text.trim (cleanPart u part)).filter (!·.isEmpty)
  let unique := dedupeByKey (foldAlnum u) [] clean
  if unique.isEmpty then none else some unique

theorem collapseCollab_eq (u : Unicode) (s : List Char) :
    collapseCollab u s = (contributors u s).map (", ".toList.intercalate ·) := by
  unfold collapseCollab contributors
  cases splitCollab s with
  | none => rfl
  | some parts =>
    simp only [Option.bind_eq_bind, Option.bind_some]
    split_ifs <;> rfl

theorem contributors_eq_none (h : splitCollab s = none) : contributors u s = none := by
  rw [contributors, h]
  rfl

/-- Trimmed names that all have keys of their own. -/
structure Apart (u : Unicode) (names : List (List Char)) : Prop where
  some : names ≠ []
  trimmed : ∀ name ∈ names, Trimmed name
  keyed : ∀ name ∈ names, foldAlnum u name ≠ []
  once : names.Pairwise fun a b => foldAlnum u a ≠ foldAlnum u b

theorem contributors_apart (h : contributors u s = some names) : Apart u names := by
  simp only [contributors, Option.bind_eq_bind, Option.bind_eq_some_iff] at h
  obtain ⟨parts, -, h⟩ := h
  split at h
  · cases h
  next hunique =>
    cases h
    refine ⟨by simpa using hunique, fun name hname => ?_, fun name hname => ?_,
      (dedupeByKey_pairwise _ _ _).1⟩
    · obtain ⟨part, -, rfl⟩ := List.mem_map.mp (List.mem_filter.mp (mem_of_mem_dedupeByKey hname)).1
      exact Text.trimmed_trim _
    · exact (mem_map_dedupeByKey.mp (List.mem_map_of_mem hname)).2.1

section Apart

variable {first second name : List Char} {rest : List (List Char)} (hu : u.Lawful)

include hu

theorem Apart.ne_nil (h : Apart u names) (hname : name ∈ names) : name ≠ [] := by
  rintro rfl
  exact h.keyed [] hname (foldAlnum_nil hu)

theorem Apart.trim_ne_nil (h : Apart u names) (hname : name ∈ names) : Text.trim name ≠ [] := by
  rw [(h.trimmed name hname).trim_eq]
  exact h.ne_nil hu hname

theorem Apart.trim_nfc (h : Apart u names) (hname : name ∈ names) :
    Text.trim (u.nfc name) = u.nfc name := by
  rw [hu.trim_nfc, (h.trimmed name hname).trim_eq]

/-- Nothing is trimmed of names that are joined. -/
theorem Apart.joined_trimmed (h : Apart u (first :: rest)) :
    Trimmed (", ".toList.intercalate (first :: rest)) := by
  cases rest with
  | nil => simpa using h.trimmed first List.mem_cons_self
  | cons second rest =>
    obtain ⟨mid, last, hlist⟩ := exists_mid_last first (List.cons_ne_nil second rest)
    have hlast : last ∈ first :: second :: rest := by rw [hlist]; simp
    refine Text.trim_eq_self_iff.mp ?_
    rw [hlist, Text.intercalate_concat, Text.trim_joined (h.trim_ne_nil hu List.mem_cons_self)
      (h.trim_ne_nil hu hlast), Text.flush_iff.mp (h.trimmed first List.mem_cons_self).1,
      Text.trimEnd_eq_self (h.trimmed last hlast).2]

end Apart

/-- The key and the display of a credit are made of the same names. -/
theorem collabFoldKey_eq (hu : u.Lawful) (s : List Char) :
    collabFoldKey u s =
      (contributors u s).map fun names => creditKey (names.map (foldAlnum u)) := by
  cases hparts : splitCollab s with
  | none =>
    rw [contributors_eq_none hparts, collabFoldKey, hparts]
    rfl
  | some parts =>
    have hclean (part) : Text.trim (cleanPart u part) = cleanPart u part :=
      (cleanPart_trimmed u part).trim_eq
    obtain ⟨unique, hunique⟩ : ∃ unique, dedupeByKey (foldAlnum u) []
        ((parts.map fun part => Text.trim (cleanPart u part)).filter (!·.isEmpty)) = unique :=
      ⟨_, rfl⟩
    have hcontributors : contributors u s = if unique.isEmpty then none else some unique := by
      rw [contributors, hparts, Option.bind_eq_bind, Option.bind_some, ← hunique]
    have hkeys (k) : k ∈ unique.map (foldAlnum u) ↔
        k ∈ (parts.map fun part => foldAlnum u (cleanPart u part)).filter (!·.isEmpty) := by
      rw [← hunique, mem_map_dedupeByKey]
      simp only [hclean, List.mem_map, List.mem_filter, Bool.not_eq_true',
        List.isEmpty_eq_false_iff, List.not_mem_nil, not_false_iff, and_true]
      constructor
      · rintro ⟨⟨_, ⟨⟨part, hpart, rfl⟩, -⟩, rfl⟩, hk⟩
        exact ⟨⟨part, hpart, rfl⟩, hk⟩
      · rintro ⟨⟨part, hpart, rfl⟩, hk⟩
        refine ⟨⟨_, ⟨⟨part, hpart, rfl⟩, fun hnil => hk ?_⟩, rfl⟩, hk⟩
        rw [hnil, foldAlnum_nil hu]
    cases unique with
    | nil =>
      have hfolded : (parts.map fun part => foldAlnum u (cleanPart u part)).filter
          (!·.isEmpty) = [] :=
        List.eq_nil_iff_forall_not_mem.mpr fun k hk => by simpa using (hkeys k).mpr hk
      rw [hcontributors, collabFoldKey, hparts, Option.bind_eq_bind, Option.bind_some, hfolded]
      rfl
    | cons first rest =>
      rw [hcontributors, collabFoldKey_of_splitCollab hparts hkeys (by simp)]
      rfl

-- ---------------------------------------------------------------------------
-- A tag and what is displayed for it
-- ---------------------------------------------------------------------------

/-- The names that are left of a tag. -/
def creditNames (u : Unicode) (s : List Char) : List (List Char) :=
  (contributors u s).getD [reorderLastFirst s]

/-- The names with commas between them. -/
def creditLine (u : Unicode) (s : List Char) : List Char :=
  ", ".toList.intercalate (creditNames u s)

theorem creditNames_of_none (h : contributors u s = none) :
    creditNames u s = [reorderLastFirst s] := by
  rw [creditNames, h, Option.getD_none]

theorem creditNames_of_some (h : contributors u s = some names) : creditNames u s = names := by
  rw [creditNames, h, Option.getD_some]

theorem creditLine_of_none (h : contributors u s = none) : creditLine u s = reorderLastFirst s := by
  rw [creditLine, creditNames_of_none h, List.intercalate_singleton]

theorem preprocessArtist_eq (h : Text.trim raw ≠ []) :
    preprocessArtist u raw = creditLine u (structural u (Text.trim raw)) := by
  rw [preprocessArtist, if_neg (by simpa using h), collapseCollab_eq]
  cases hnames : contributors u (structural u (Text.trim raw)) with
  | none => rw [creditLine_of_none hnames, Option.map_none]
  | some names => rw [creditLine, creditNames_of_some hnames, Option.map_some]

/-- The key of one name that is cleaned. -/
def nameKey (u : Unicode) (s : List Char) : List Char :=
  if s.isEmpty then [] else canonicalizeVariousArtistsFold (foldAlnum u s)

theorem artistFoldKey_eq (hu : u.Lawful) (h : Text.trim raw ≠ []) :
    artistFoldKey u raw =
      match contributors u (structural u (Text.trim raw)) with
      | some names => creditKey (names.map (foldAlnum u))
      | none => nameKey u (reorderLastFirst (structural u (Text.trim raw))) := by
  rw [artistFoldKey, if_neg (by simpa using h), collabFoldKey_eq hu]
  cases contributors u (structural u (Text.trim raw)) <;> rfl

-- ---------------------------------------------------------------------------
-- Several names
-- ---------------------------------------------------------------------------

theorem nfc_intercalate (hu : u.Lawful) (names : List (List Char)) :
    u.nfc (", ".toList.intercalate names) = ", ".toList.intercalate (names.map u.nfc) := by
  have hblank (s) : u.nfc (' ' :: s) = ' ' :: u.nfc s := by
    have h := hu.nfc_mark ' ' (by decide) [] s
    rwa [(hu.nfc_eq_nil []).mpr rfl, List.nil_append, List.nil_append] at h
  have hcomma (s t) : u.nfc (s ++ ", ".toList ++ t) = u.nfc s ++ ", ".toList ++ u.nfc t := by
    have h := hu.nfc_mark ',' (by decide) s (' ' :: t)
    rw [hblank] at h
    simpa using h
  induction names with
  | nil => simpa using (hu.nfc_eq_nil []).mpr rfl
  | cons first names ih =>
    cases names with
    | nil => simp
    | cons second names =>
      rw [List.intercalate_cons_cons, hcomma, ih]
      exact (List.intercalate_cons_cons).symm

/-- Names that are left as they are where they are displayed with commas. -/
structure Untouched (u : Unicode) (names : List (List Char)) : Prop where
  settled : structural u (", ".toList.intercalate (names.map u.nfc)) =
    ", ".toList.intercalate (names.map u.nfc)
  semicolon : ';' ∉ ", ".toList.intercalate (names.map u.nfc)
  ampersand : ¬ " & ".toList <:+: ", ".toList.intercalate (names.map u.nfc)
  word : ¬ " and ".toList <:+: Text.asciiLower (", ".toList.intercalate (names.map u.nfc))
  comma : ∀ name ∈ names, ',' ∉ name
  clean : ∀ name ∈ names, foldAlnum u (cleanPart u (u.nfc name)) = foldAlnum u name

section Several

variable {first second : List Char} {rest : List (List Char)} (hu : u.Lawful)
  (hapart : Apart u (first :: second :: rest)) (huntouched : Untouched u (first :: second :: rest))

theorem splitCollab_of_untouched (huntouched : Untouched u names) :
    splitCollab (", ".toList.intercalate (names.map u.nfc)) =
      splitOnComma (", ".toList.intercalate (names.map u.nfc)) := by
  have hsemicolon : splitOn (", ".toList.intercalate (names.map u.nfc)) ";".toList = none := by
    change splitOn _ [';'] = none
    rw [splitOn, Text.splitOnce_singleton_eq_none.mpr huntouched.semicolon]
    rfl
  have hampersand : splitOn (", ".toList.intercalate (names.map u.nfc)) " & ".toList = none := by
    rw [splitOn, (Text.splitOnce_eq_none (by decide)).mpr huntouched.ampersand]
    rfl
  have hword : splitOnCi (", ".toList.intercalate (names.map u.nfc)) " and ".toList = none := by
    rw [splitOnCi, Text.splitOnceCi, (Text.splitOnce_eq_none (by decide)).mpr huntouched.word]
    rfl
  rw [splitCollab, hsemicolon, hampersand, hword, Option.none_or, Option.none_or, Option.none_or]

include hu hapart

theorem trim_shown : Text.trim (", ".toList.intercalate ((first :: second :: rest).map u.nfc)) =
    ", ".toList.intercalate ((first :: second :: rest).map u.nfc) := by
  rw [← nfc_intercalate hu, hu.trim_nfc, (hapart.joined_trimmed hu).trim_eq]

include huntouched

theorem splitOnComma_shown :
    splitOnComma (", ".toList.intercalate ((first :: second :: rest).map u.nfc)) =
      if (u.nfc first).any Text.isWhitespace then some ((first :: second :: rest).map u.nfc)
      else none := by
  obtain ⟨mid, last, hlist⟩ := exists_mid_last (u.nfc first)
    (List.cons_ne_nil (u.nfc second) (rest.map u.nfc))
  have hshown : (first :: second :: rest).map u.nfc = u.nfc first :: mid ++ [last] := hlist
  have hcomma : ∀ p ∈ u.nfc first :: mid ++ [last], ',' ∉ p := by
    rw [← hshown, List.forall_mem_map]
    exact fun name hname hmem =>
      huntouched.comma name hname ((hu.mem_nfc ',' (by decide) name).mp hmem)
  have htrim : ∀ p ∈ u.nfc first :: mid ++ [last], Text.trim p = p := by
    rw [← hshown, List.forall_mem_map]
    exact fun name hname => hapart.trim_nfc hu hname
  have hnamed : ∀ p ∈ u.nfc first :: mid ++ [last], Text.trim p ≠ [] := by
    intro p hp
    rw [htrim p hp]
    rw [← hshown] at hp
    obtain ⟨name, hname, rfl⟩ := List.mem_map.mp hp
    exact fun hnil => hapart.ne_nil hu hname ((hu.nfc_eq_nil name).mp hnil)
  have hsplit := splitOn_marked (c := ',') (by decide) hcomma hnamed
  have hjoin : Text.trim (joined [',', ' '] (u.nfc first :: mid) last) =
      ", ".toList.intercalate ((first :: second :: rest).map u.nfc) := by
    rw [← trim_shown hu hapart, hshown, Text.intercalate_concat]
    rfl
  have hmap : (u.nfc first :: mid ++ [last]).map Text.trim = u.nfc first :: mid ++ [last] :=
    (List.map_congr_left htrim).trans (List.map_id _)
  rw [hjoin, hmap, ← hshown] at hsplit
  obtain ⟨tail, hhead⟩ : ∃ tail, Text.splitOnce [',']
      (", ".toList.intercalate ((first :: second :: rest).map u.nfc)) =
        some (u.nfc first, tail) := by
    have hfirst : ',' ∉ u.nfc first := hcomma _ (by simp)
    have h := @Text.splitOnce_of_notMem _ _ ',' [] _
      (' ' :: ", ".toList.intercalate ((second :: rest).map u.nfc)) hfirst
    refine ⟨_, Eq.trans ?_ h⟩
    rw [List.map_cons, List.map_cons, List.intercalate_cons_cons]
    simp
  rw [splitOn, if_pos (by rw [hhead]; rfl), Option.some.injEq] at hsplit
  rw [splitOnComma, hhead]
  dsimp only
  rw [hapart.trim_nfc hu List.mem_cons_self, hsplit]

/-- The key of the text that several names are displayed as. -/
theorem artistFoldKey_shown :
    artistFoldKey u (", ".toList.intercalate ((first :: second :: rest).map u.nfc)) =
      if (u.nfc first).any Text.isWhitespace then
        creditKey ((first :: second :: rest).map (foldAlnum u))
      else nameKey u (reorderLastFirst
        (", ".toList.intercalate ((first :: second :: rest).map u.nfc))) := by
  have hne : Text.trim (", ".toList.intercalate ((first :: second :: rest).map u.nfc)) ≠ [] := by
    rw [trim_shown hu hapart, List.map_cons, List.map_cons, List.intercalate_cons_cons]
    simp
  have hclean : ((first :: second :: rest).map u.nfc).map
      (fun part => foldAlnum u (cleanPart u part)) =
        (first :: second :: rest).map (foldAlnum u) := by
    rw [List.map_map]
    exact List.map_congr_left huntouched.clean
  have hkeyed : ((first :: second :: rest).map (foldAlnum u)).filter (!·.isEmpty) =
      (first :: second :: rest).map (foldAlnum u) := by
    rw [List.filter_eq_self, List.forall_mem_map]
    simpa using hapart.keyed
  have hcollab : collabFoldKey u (", ".toList.intercalate ((first :: second :: rest).map u.nfc)) =
      if (u.nfc first).any Text.isWhitespace then
        some (creditKey ((first :: second :: rest).map (foldAlnum u)))
      else none := by
    have hsplit := (splitCollab_of_untouched huntouched).trans
      (splitOnComma_shown hu hapart huntouched)
    split_ifs at hsplit with hwide
    · rw [if_pos hwide]
      exact collabFoldKey_of_splitCollab hsplit (fun k => by rw [hclean, hkeyed]) (by simp)
    · rw [if_neg hwide, collabFoldKey, hsplit]
      rfl
  rw [artistFoldKey, if_neg (by simpa using hne), trim_shown hu hapart, huntouched.settled, hcollab]
  split_ifs <;> rfl

end Several

-- ---------------------------------------------------------------------------
-- Nothing left
-- ---------------------------------------------------------------------------

theorem structural_eq_nil_iff {s : List Char} :
    structural u s = [] ↔ stripTrailingParentheticals (withoutWatermark s) = [] := by
  rw [structural]
  constructor
  · intro h
    unfold collapseSelfSlash at h
    split at h
    · exact h
    · split_ifs at h with hslash hside
      · exact h
      · exact h
      · exact absurd (.inl h) hside
      · exact h
  · intro h
    rw [h]
    rfl

theorem artistFoldKey_of_nothing (h : structural u (Text.trim s) = []) :
    artistFoldKey u s = [] := by
  rw [artistFoldKey, h]
  have hnone : collabFoldKey u [] = none := by
    rw [collabFoldKey, show splitCollab [] = none by decide]
    rfl
  rw [hnone]
  split_ifs <;> rfl

section Nothing

variable (hu : u.Lawful)

include hu

theorem withoutWatermark_nfc (s : List Char) :
    withoutWatermark (u.nfc s) = u.nfc (withoutWatermark s) := by
  have hpipe : '|' ∈ marks := by decide
  unfold withoutWatermark
  cases hsplit : Text.splitOnce ['|'] s with
  | none =>
    have hnot := Text.splitOnce_singleton_eq_none.mp hsplit
    rw [Text.splitOnce_singleton_eq_none.mpr fun hmem => hnot ((hu.mem_nfc '|' hpipe s).mp hmem)]
  | some cut =>
    obtain ⟨head, tail⟩ := cut
    obtain ⟨rfl, hnot⟩ := Text.splitOnce_singleton_some hsplit
    have hcut := @Text.splitOnce_of_notMem _ _ '|' [] (u.nfc head) (u.nfc tail)
      fun hmem => hnot ((hu.mem_nfc '|' hpipe head).mp hmem)
    rw [List.nil_append] at hcut
    rw [hu.nfc_mark '|' hpipe, hcut]
    exact hu.trim_nfc head

theorem stripGroup_nfc {shorter : List Char} (h : stripGroup s = some shorter) :
    stripGroup (u.nfc s) = some (u.nfc shorter) := by
  unfold stripGroup at h
  split at h
  · cases h
  next hlong =>
    split at h
    next before inner close hgroup =>
      split at h
      · cases h
      next hflat =>
        cases h
        obtain ⟨opener, hopener, hnot, rfl⟩ := trailingGroup_eq_some.mp hgroup
        have hmarks : opener ∈ marks ∧ close ∈ marks := by
          rcases opening_some hopener with ⟨rfl, rfl⟩ | ⟨rfl, rfl⟩ <;> decide
        have hnfc : u.nfc (before ++ opener :: (inner ++ [close])) =
            u.nfc before ++ opener :: (u.nfc inner ++ [close]) := by
          rw [hu.nfc_mark opener hmarks.1, hu.nfc_mark close hmarks.2,
            (hu.nfc_eq_nil []).mpr rfl]
        -- a group that is long enough has something before or in it, in any form
        have hlong' :
            ¬ (Text.encode (u.nfc before ++ opener :: (u.nfc inner ++ [close]))).length < 3 := by
          refine Nat.not_lt.mpr (Nat.le_trans ?_ (Text.length_le_len _))
          have hsome : u.nfc before ≠ [] ∨ u.nfc inner ≠ [] := by
            by_contra hnone
            simp only [not_or, not_not, hu.nfc_eq_nil] at hnone
            rw [hnone.1, hnone.2] at hlong
            rcases opening_some hopener with ⟨rfl, rfl⟩ | ⟨rfl, rfl⟩ <;> exact hlong (by decide)
          have hpos : 0 < (u.nfc before).length + (u.nfc inner).length := by
            rcases hsome with hsome | hsome <;> have := List.length_pos_iff.mpr hsome <;> omega
          simp only [List.length_append, List.length_cons, List.length_nil]
          omega
        rw [hnfc, stripGroup, if_neg hlong', trailingGroup_eq_some.mpr ⟨opener, hopener,
          fun hmem => hnot ((hu.mem_nfc opener hmarks.1 inner).mp hmem), rfl⟩]
        dsimp only
        rw [if_neg fun hmem => hflat ((hu.mem_nfc close hmarks.2 inner).mp hmem), hu.trimEnd_nfc]
    · cases h

theorem stripGroups_nfc (h : stripGroups fuel s = []) (hs : s.length ≤ fuel)
    (hfuel : (u.nfc s).length ≤ fuel') : stripGroups fuel' (u.nfc s) = [] := by
  induction fuel generalizing s fuel' with
  | zero =>
    obtain rfl := List.eq_nil_of_length_eq_zero (Nat.le_zero.mp hs)
    rw [(hu.nfc_eq_nil []).mpr rfl]
    cases fuel' <;> rfl
  | succ fuel ih =>
    rw [stripGroups] at h
    split at h
    next shorter hstrip =>
      have hnfc := stripGroup_nfc hu hstrip
      rw [← hu.trimEnd_nfc] at hnfc
      have hshorter := stripGroup_length hstrip
      have hshorter' := stripGroup_length hnfc
      have := Text.length_trimEnd_le s
      have := Text.length_trimEnd_le (u.nfc s)
      obtain ⟨fuel', rfl⟩ : ∃ n, fuel' = n + 1 := Nat.exists_eq_add_one.mpr (by omega)
      rw [stripGroups, hnfc]
      exact ih h (by omega) (by omega)
    next hnone =>
      have hblank : Text.trimEnd (u.nfc s) = [] := by
        rw [hu.trimEnd_nfc, h, hu.nfc_eq_nil]
      cases fuel' with
      | zero => exact hblank
      | succ fuel' =>
        rw [stripGroups, hblank]
        rfl

theorem structural_nfc_of_nothing (h : structural u s = []) : structural u (u.nfc s) = [] := by
  rw [structural_eq_nil_iff] at h ⊢
  rw [withoutWatermark_nfc hu, stripTrailingParentheticals, hu.trim_nfc]
  exact stripGroups_nfc hu h (Nat.le_refl _) (Nat.le_refl _)

end Nothing

-- ---------------------------------------------------------------------------
-- One name
-- ---------------------------------------------------------------------------

section One

variable (hu : u.Lawful)

include hu

theorem creditLine_eq_nil_iff : creditLine u s = [] ↔ s = [] := by
  constructor
  · intro h
    cases hnames : contributors u s with
    | some names =>
      have happart := contributors_apart hnames
      obtain ⟨first, rest, rfl⟩ := List.exists_cons_of_ne_nil happart.some
      rw [creditLine, creditNames_of_some hnames] at h
      cases rest with
      | nil => exact absurd (by simpa using h) (happart.ne_nil hu List.mem_cons_self)
      | cons second rest =>
        rw [List.intercalate_cons_cons] at h
        simp at h
    | none =>
      rw [creditLine_of_none hnames] at h
      unfold reorderLastFirst at h
      split at h
      · exact h
      · dsimp only at h
        split_ifs at h
        · simp at h
        · exact h
  · rintro rfl
    rw [creditLine_of_none (contributors_eq_none (by decide))]
    rfl

theorem creditLine_trimmed (h : Trimmed s) : Trimmed (creditLine u s) := by
  cases hnames : contributors u s with
  | some names =>
    have happart := contributors_apart hnames
    obtain ⟨first, rest, rfl⟩ := List.exists_cons_of_ne_nil happart.some
    rw [creditLine, creditNames_of_some hnames]
    exact happart.joined_trimmed hu
  | none =>
    rw [creditLine_of_none hnames]
    exact reorderLastFirst_trimmed h

/-- The name of compilations is displayed as it is. -/
theorem artistFoldKey_various :
    artistFoldKey u (u.nfc "Various Artists".toList) = "various artists".toList := by
  have hascii : ∀ c ∈ "Various Artists".toList, c.toNat < 128 := Text.forall_of_all rfl
  have hunmarked : Unmarked "Various Artists".toList := Text.forall_of_all rfl
  have htrim : Text.trim "Various Artists".toList = "Various Artists".toList := by decide
  have hstructural := structural_of_unmarked (u := u) hunmarked
  have hnone : contributors u "Various Artists".toList = none :=
    contributors_eq_none (by decide)
  rw [hu.nfc_ascii _ hascii, artistFoldKey_eq hu (by decide), hstructural, htrim, hnone]
  dsimp only
  rw [nameKey, reorderLastFirst_of_unmarked hunmarked, if_neg (by decide),
    foldAlnum_ascii hu hascii]
  decide

theorem nameKey_eq (s : List Char) :
    nameKey u s = canonicalizeVariousArtistsFold (foldAlnum u s) := by
  rw [nameKey]
  split
  next hempty =>
    rw [List.isEmpty_iff.mp hempty, foldAlnum_nil hu]
    decide
  next => rfl

theorem ampersand_notMem_nameKey (s : List Char) : '&' ∉ nameKey u s := by
  rw [nameKey_eq hu, canonicalizeVariousArtistsFold]
  split
  · decide
  · exact ampersand_notMem_foldAlnum hu s

end One

theorem canonicalize_eq_iff {folded key : List Char} (hkey : isVariousArtists key = false) :
    canonicalizeVariousArtistsFold folded = key ↔ folded = key := by
  rw [canonicalizeVariousArtistsFold]
  split
  next hvarious =>
    refine iff_of_false ?_ ?_
    · rintro rfl
      exact absurd hkey (by decide)
    · rintro rfl
      rw [hkey] at hvarious
      cases hvarious
  next => rfl

-- ---------------------------------------------------------------------------
-- Any tag
-- ---------------------------------------------------------------------------

/-- Displayed, and cleaned once more, the names are names of the same keys. -/
def Kept (u : Unicode) (names : List (List Char)) : Prop :=
  ∀ k, k ∈ (creditNames u (structural u
      (u.nfc (", ".toList.intercalate names)))).map (foldAlnum u) ↔ k ∈ names.map (foldAlnum u)

/-- The names of a tag are kept, or are displayed as the name of compilations,
which a single name that stands for it is. -/
def Steady (u : Unicode) (s : List Char) : Prop :=
  if isVariousArtists (foldAlnum u (creditLine u s)) then
    ∃ name, creditNames u s = [name] ∧
      (contributors u s = none ∨ foldAlnum u name = "various artists".toList)
  else Kept u (creditNames u s)

/-- The key of several names has a sign that no key of one has. -/
theorem creditKey_ne_of_notMem {first second k : List Char} {rest : List (List Char)}
    (hapart : Apart u (first :: second :: rest)) (hk : '&' ∉ k) :
    k ≠ creditKey ((first :: second :: rest).map (foldAlnum u)) := by
  rintro rfl
  refine hk (mem_creditKey (List.mem_map_of_mem List.mem_cons_self)
    (List.mem_map_of_mem (List.mem_cons_of_mem _ List.mem_cons_self)) ?_)
  exact (List.pairwise_cons.mp hapart.once).1 second List.mem_cons_self

theorem creditNames_cases (s : List Char) :
    (∃ first second rest, contributors u s = some (first :: second :: rest)) ∨
      ∃ name, creditNames u s = [name] := by
  cases hnames : contributors u s with
  | none => exact .inr ⟨_, creditNames_of_none hnames⟩
  | some names =>
    have hapart := contributors_apart hnames
    obtain ⟨first, rest, rfl⟩ := List.exists_cons_of_ne_nil hapart.some
    cases rest with
    | nil => exact .inr ⟨first, creditNames_of_some hnames⟩
    | cons second rest => exact .inl ⟨first, second, rest, rfl⟩

section Display

variable (hu : u.Lawful)

include hu

theorem artistDisplayForm_eq (h : structural u (Text.trim raw) ≠ []) :
    artistDisplayForm u raw =
      if isVariousArtists (foldAlnum u (creditLine u (structural u (Text.trim raw)))) then
        u.nfc "Various Artists".toList
      else u.nfc (creditLine u (structural u (Text.trim raw))) := by
  have hblank : Text.trim raw ≠ [] := by
    intro hnil
    exact h (by rw [hnil]; rfl)
  have hline : creditLine u (structural u (Text.trim raw)) ≠ [] :=
    fun hnil => h ((creditLine_eq_nil_iff hu).mp hnil)
  rw [artistDisplayForm, if_neg (by simpa using hblank), preprocessArtist_eq hblank,
    if_neg (by simpa using hline)]
  split_ifs <;> rfl

theorem ampersand_notMem_keys (names : List (List Char)) :
    ∀ k ∈ names.map (foldAlnum u), '&' ∉ k := by
  rw [List.forall_mem_map]
  exact fun name _ => ampersand_notMem_foldAlnum hu name

/-- The key of a text is the one of some names when the names it is taken apart
into have the same keys. -/
theorem artistFoldKey_eq_iff_kept (htrim : Trimmed (", ".toList.intercalate names))
    (hne : ", ".toList.intercalate names ≠ [])
    (hnames : (∃ first second rest, names = first :: second :: rest ∧ Apart u names) ∨
      ∃ name, names = [name] ∧ isVariousArtists (foldAlnum u name) = false) :
    artistFoldKey u (u.nfc (", ".toList.intercalate names)) = creditKey (names.map (foldAlnum u)) ↔
      Kept u names := by
  have hshown : Text.trim (u.nfc (", ".toList.intercalate names)) =
      u.nfc (", ".toList.intercalate names) := by rw [hu.trim_nfc, htrim.trim_eq]
  have hblank : Text.trim (u.nfc (", ".toList.intercalate names)) ≠ [] := by
    rw [hshown]
    exact fun hnil => hne ((hu.nfc_eq_nil _).mp hnil)
  rw [artistFoldKey_eq hu hblank, hshown, Kept]
  cases hagain : contributors u (structural u (u.nfc (", ".toList.intercalate names))) with
  | some again =>
    have hsome : names ≠ [] := by
      rintro rfl
      exact hne rfl
    rw [creditNames_of_some hagain]
    exact creditKey_eq_iff (ampersand_notMem_keys hu again) (ampersand_notMem_keys hu names)
      (by simpa using (contributors_apart hagain).some) (by simpa using hsome)
  | none =>
    rw [creditNames_of_none hagain, List.map_singleton]
    dsimp only
    rcases hnames with ⟨first, second, rest, rfl, hapart⟩ | ⟨name, rfl, hvarious⟩
    · refine iff_of_false
        (creditKey_ne_of_notMem hapart (ampersand_notMem_nameKey hu _)) fun hsame => ?_
      have hfirst := (hsame (foldAlnum u first)).mpr (by simp)
      have hsecond := (hsame (foldAlnum u second)).mpr (by simp)
      rw [List.mem_singleton] at hfirst hsecond
      exact (List.pairwise_cons.mp hapart.once).1 second List.mem_cons_self
        (hfirst.trans hsecond.symm)
    · rw [nameKey_eq hu, List.map_singleton, creditKey_singleton, canonicalize_eq_iff hvarious]
      simp only [List.mem_singleton]
      exact ⟨fun h k => by rw [h], fun h => (h _).mp rfl⟩

theorem displayed_of_nothing (h : structural u (Text.trim raw) = []) :
    artistFoldKey u (artistDisplayForm u raw) = artistFoldKey u raw := by
  rw [artistFoldKey_of_nothing h]
  by_cases hblank : Text.trim raw = []
  · rw [artistDisplayForm, if_pos (by simpa using hblank)]
    rfl
  · have hnothing : preprocessArtist u raw = [] := by
      rw [preprocessArtist_eq hblank, h]
      exact (creditLine_eq_nil_iff hu).mpr rfl
    rw [artistDisplayForm, if_neg (by simpa using hblank), if_pos (by simpa using hnothing)]
    refine artistFoldKey_of_nothing ?_
    rw [hu.trim_nfc, Text.trim_trim]
    exact structural_nfc_of_nothing hu h

/-- The key of a tag that one name is left of. -/
theorem artistFoldKey_of_single {name : List Char} (h : Text.trim raw ≠ [])
    (hname : creditNames u (structural u (Text.trim raw)) = [name]) :
    artistFoldKey u raw =
      if contributors u (structural u (Text.trim raw)) = none then
        canonicalizeVariousArtistsFold (foldAlnum u name)
      else foldAlnum u name := by
  rw [artistFoldKey_eq hu h]
  cases hnames : contributors u (structural u (Text.trim raw)) with
  | none =>
    rw [creditNames_of_none hnames, List.cons.injEq] at hname
    rw [if_pos rfl, ← hname.1]
    exact nameKey_eq hu _
  | some names =>
    rw [creditNames_of_some hnames] at hname
    rw [if_neg (by simp), hname]
    exact creditKey_singleton _

/-- A single name is displayed in its normal form, or as the name of compilations. -/
theorem displayed_of_single {name : List Char} (h : structural u (Text.trim raw) ≠ [])
    (hname : creditNames u (structural u (Text.trim raw)) = [name]) :
    artistFoldKey u (artistDisplayForm u raw) = artistFoldKey u raw ↔
      Steady u (structural u (Text.trim raw)) := by
  have hblank : Text.trim raw ≠ [] := by
    intro hnil
    exact h (by rw [hnil]; rfl)
  have hline : creditLine u (structural u (Text.trim raw)) = name := by
    rw [creditLine, hname, List.intercalate_singleton]
  rw [artistDisplayForm_eq hu h, artistFoldKey_of_single hu hblank hname, Steady, hline, hname]
  cases hvarious : isVariousArtists (foldAlnum u name) with
  | true =>
    rw [if_pos rfl, if_pos rfl, artistFoldKey_various hu]
    split
    next hnone =>
      rw [canonicalizeVariousArtistsFold, if_pos hvarious]
      exact iff_of_true rfl ⟨name, rfl, .inl hnone⟩
    next hsome =>
      constructor
      · intro hkey
        exact ⟨name, rfl, .inr hkey.symm⟩
      · rintro ⟨_, hsame, hnone | hkey⟩
        · exact absurd hnone hsome
        · rw [(List.cons.inj hsame).1, hkey]
  | false =>
    have htrim : Trimmed (", ".toList.intercalate [name]) := by
      rw [List.intercalate_singleton, ← hline]
      exact creditLine_trimmed hu (structural_trimmed u _)
    have hne : ", ".toList.intercalate [name] ≠ [] := by
      rw [List.intercalate_singleton, ← hline]
      exact fun hnil => h ((creditLine_eq_nil_iff hu).mp hnil)
    have hkey := artistFoldKey_eq_iff_kept hu htrim hne (.inr ⟨name, rfl, hvarious⟩)
    rw [List.intercalate_singleton, List.map_singleton, creditKey_singleton] at hkey
    have hsame : canonicalizeVariousArtistsFold (foldAlnum u name) = foldAlnum u name :=
      (canonicalize_eq_iff hvarious).mpr rfl
    rw [if_neg (by simp), hsame, ite_self, if_neg (by simp)]
    exact hkey

/-- Several names are displayed with commas, or as the name of compilations. -/
theorem displayed_of_several {first second : List Char} {rest : List (List Char)}
    (h : structural u (Text.trim raw) ≠ [])
    (hnames : contributors u (structural u (Text.trim raw)) = some (first :: second :: rest)) :
    artistFoldKey u (artistDisplayForm u raw) = artistFoldKey u raw ↔
      Steady u (structural u (Text.trim raw)) := by
  have hapart := contributors_apart hnames
  have hblank : Text.trim raw ≠ [] := by
    intro hnil
    exact h (by rw [hnil]; rfl)
  have hkey : artistFoldKey u raw = creditKey ((first :: second :: rest).map (foldAlnum u)) := by
    rw [artistFoldKey_eq hu hblank, hnames]
  rw [hkey, artistDisplayForm_eq hu h, Steady, creditNames_of_some hnames]
  split
  · rw [artistFoldKey_various hu]
    refine iff_of_false (creditKey_ne_of_notMem hapart (by decide)) ?_
    rintro ⟨name, hname, -⟩
    simp at hname
  · have hne : creditLine u (structural u (Text.trim raw)) ≠ [] :=
      fun hnil => h ((creditLine_eq_nil_iff hu).mp hnil)
    have hline : creditLine u (structural u (Text.trim raw)) =
        ", ".toList.intercalate (first :: second :: rest) := by
      rw [creditLine, creditNames_of_some hnames]
    rw [hline] at hne ⊢
    exact artistFoldKey_eq_iff_kept hu (hapart.joined_trimmed hu) hne
      (.inl ⟨first, second, rest, rfl, hapart⟩)

/-- Names without further marks are kept when the comma behind the first is not
the one of a sorted name. -/
theorem kept_iff_of_untouched {first second : List Char} {rest : List (List Char)}
    (hapart : Apart u (first :: second :: rest))
    (huntouched : Untouched u (first :: second :: rest)) :
    Kept u (first :: second :: rest) ↔ (u.nfc first).any Text.isWhitespace = true := by
  have hne : ", ".toList.intercalate (first :: second :: rest) ≠ [] := by
    rw [List.intercalate_cons_cons]
    simp
  rw [← artistFoldKey_eq_iff_kept hu (hapart.joined_trimmed hu) hne
    (.inl ⟨first, second, rest, rfl, hapart⟩), nfc_intercalate hu,
    artistFoldKey_shown hu hapart huntouched]
  split
  next hwide => exact iff_of_true rfl hwide
  next hwide =>
    exact iff_of_false (creditKey_ne_of_notMem hapart (ampersand_notMem_nameKey hu _)) hwide

theorem steady_nil : Steady u [] := by
  have hnames : creditNames u [] = [[]] := by
    rw [creditNames_of_none (contributors_eq_none (by decide))]
    rfl
  have hnfc : u.nfc [] = [] := (hu.nfc_eq_nil []).mpr rfl
  have hline : creditLine u [] = [] := (creditLine_eq_nil_iff hu).mpr rfl
  rw [Steady, hline, foldAlnum_nil hu, if_neg (by decide), Kept, hnames,
    List.intercalate_singleton, hnfc]
  change ∀ k, k ∈ (creditNames u []).map (foldAlnum u) ↔ k ∈ [[]].map (foldAlnum u)
  rw [hnames]
  exact fun k => Iff.rfl

end Display

end EvoAudio.Names
