import EvoAudio.Names.Brackets

/-!
# The contributors of a credit

What `split_artist_credit` gives for any credit: a list that is not empty, of
names that are not blank and that all have keys of their own. A watermark does
not change it, nor the key and the display form, unless the credit is one of the
acts that are not split: these are taken as they are, with the watermark.
-/

namespace EvoAudio.Names

open Text (Flush Trimmed flush_trim trimmed_trim)

variable {u : Unicode}

-- ---------------------------------------------------------------------------
-- Cleaning
-- ---------------------------------------------------------------------------

theorem stripGroup_isPrefix (h : stripGroup s = some shorter) : shorter <+: s := by
  unfold stripGroup at h
  split at h
  · cases h
  · split at h
    next before inner close hgroup =>
      split at h
      · cases h
      · cases h
        exact (Text.trimEnd_isPrefix _).trans (trailingGroup_isPrefix hgroup)
    · cases h

theorem stripGroups_isPrefix (fuel : Nat) (s : List Char) : stripGroups fuel s <+: s := by
  induction fuel generalizing s with
  | zero => exact Text.trimEnd_isPrefix s
  | succ fuel ih =>
    rw [stripGroups]
    split
    next shorter h =>
      exact (ih shorter).trans ((stripGroup_isPrefix h).trans (Text.trimEnd_isPrefix s))
    next => exact Text.trimEnd_isPrefix s

theorem trimEnd_stripGroups (fuel : Nat) (s : List Char) :
    Text.trimEnd (stripGroups fuel s) = stripGroups fuel s := by
  induction fuel generalizing s with
  | zero => exact Text.trimEnd_trimEnd s
  | succ fuel ih =>
    rw [stripGroups]
    split
    next shorter h => exact ih shorter
    next => exact Text.trimEnd_trimEnd s

theorem stripTrailingParentheticals_trimmed (s : List Char) :
    Trimmed (stripTrailingParentheticals s) := by
  have hflush := (flush_trim s).of_isPrefix (stripGroups_isPrefix (Text.trim s).length _)
  refine Text.trim_eq_self_iff.mp ?_
  rw [stripTrailingParentheticals, Text.trim_eq_trimEnd hflush, trimEnd_stripGroups]

theorem collapseSelfSlash_trimmed (h : Trimmed s) : Trimmed (collapseSelfSlash u s) := by
  unfold collapseSelfSlash
  split
  · exact h
  · split_ifs
    · exact h
    · exact h
    · exact trimmed_trim _
    · exact h

theorem reorderLastFirst_trimmed (h : Trimmed s) : Trimmed (reorderLastFirst s) := by
  unfold reorderLastFirst
  split
  · exact h
  next head tail hsplit =>
    dsimp only
    split_ifs with hflip
    · simp only [Bool.and_eq_true, Bool.not_eq_true', List.isEmpty_eq_false_iff] at hflip
      refine ⟨(flush_trim tail).append hflip.2 _, ?_⟩
      rw [List.reverse_append, List.reverse_cons, List.append_assoc]
      exact (trimmed_trim head).2.append (by simpa using hflip.1.2) _
    · exact h

theorem structural_trimmed (u : Unicode) (s : List Char) : Trimmed (structural u s) :=
  collapseSelfSlash_trimmed (stripTrailingParentheticals_trimmed _)

theorem cleanPart_trimmed (u : Unicode) (s : List Char) : Trimmed (cleanPart u s) :=
  reorderLastFirst_trimmed (collapseSelfSlash_trimmed (stripTrailingParentheticals_trimmed _))

theorem mem_of_mem_dedupeByKey {key : List Char → List Char}
    (h : item ∈ dedupeByKey key seen items) : item ∈ items := by
  induction items generalizing seen with
  | nil => cases h
  | cons first items ih =>
    rw [dedupeByKey] at h
    split at h
    · exact List.mem_cons_of_mem _ (ih h)
    · rcases List.mem_cons.mp h with rfl | h
      · exact List.mem_cons_self
      · exact List.mem_cons_of_mem _ (ih h)

/-- The keys that are left: those that are not empty and were not seen before. -/
theorem mem_map_dedupeByKey {key : List Char → List Char} {k : List Char} :
    k ∈ (dedupeByKey key seen items).map key ↔ k ∈ items.map key ∧ k ≠ [] ∧ k ∉ seen := by
  induction items generalizing seen with
  | nil => simp [dedupeByKey]
  | cons first items ih =>
    rw [dedupeByKey]
    split
    next hold =>
      rw [ih, List.map_cons, List.mem_cons]
      simp only [Bool.or_eq_true, List.isEmpty_iff, decide_eq_true_eq] at hold
      refine and_congr_left fun hk => ⟨.inr, fun h => h.resolve_left ?_⟩
      rintro rfl
      exact hold.elim hk.1 hk.2
    next hnew =>
      rw [List.map_cons, List.mem_cons, ih, List.map_cons, List.mem_cons, List.mem_cons]
      simp only [Bool.or_eq_true, List.isEmpty_iff, decide_eq_true_eq, not_or] at hnew
      by_cases hfirst : k = key first
      · simp [hfirst, hnew]
      · simp [hfirst]

/-- Each key is there once, and none of those that were seen before. -/
theorem dedupeByKey_pairwise (key : List Char → List Char) (seen items : List (List Char)) :
    (dedupeByKey key seen items).Pairwise (fun a b => key a ≠ key b) ∧
      ∀ item ∈ dedupeByKey key seen items, key item ∉ seen := by
  induction items generalizing seen with
  | nil => simp [dedupeByKey]
  | cons first items ih =>
    rw [dedupeByKey]
    split
    · exact ih seen
    next hnew =>
      obtain ⟨hpairs, hunseen⟩ := ih (key first :: seen)
      refine ⟨List.pairwise_cons.mpr ⟨fun b hb heq => ?_, hpairs⟩, ?_⟩
      · exact hunseen b hb (heq ▸ List.mem_cons_self)
      · rw [List.forall_mem_cons]
        refine ⟨fun hseen => hnew (by simp [hseen]), fun item hitem hseen => ?_⟩
        exact hunseen item hitem (List.mem_cons_of_mem _ hseen)

theorem collapseCollab_flush (h : collapseCollab u s = some display) :
    Flush display ∧ display ≠ [] := by
  simp only [collapseCollab, Option.bind_eq_bind, Option.bind_eq_some_iff] at h
  obtain ⟨parts, -, h⟩ := h
  split at h
  · cases h
  next hunique =>
    cases h
    obtain ⟨first, rest, hcons⟩ := List.exists_cons_of_ne_nil (by simpa using hunique)
    have hmem := mem_of_mem_dedupeByKey (hcons ▸ List.mem_cons_self)
    obtain ⟨hfirst, hne⟩ := List.mem_filter.mp hmem
    obtain ⟨part, -, rfl⟩ := List.mem_map.mp hfirst
    have hne : Text.trim (cleanPart u part) ≠ [] := by simpa using hne
    rw [hcons]
    cases rest with
    | nil => simpa [List.intercalate] using ⟨flush_trim _, hne⟩
    | cons second rest =>
      rw [List.intercalate_cons_cons, List.append_assoc]
      exact ⟨(flush_trim _).append hne _, by simp [hne]⟩

theorem preprocessArtist_flush (raw : List Char) : Flush (preprocessArtist u raw) := by
  unfold preprocessArtist
  dsimp only
  split
  · exact Text.flush_nil
  · split
    next display h => exact (collapseCollab_flush h).1
    next => exact (reorderLastFirst_trimmed (structural_trimmed u _)).1

-- ---------------------------------------------------------------------------
-- The list of contributors
-- ---------------------------------------------------------------------------

theorem splitArtistCredit_ne_nil (h : Text.trim raw ≠ []) : splitArtistCredit u raw ≠ [] := by
  rw [splitArtistCredit, if_neg (by simpa using h)]
  split
  · simp
  · split
    · simp
    next parts hparts =>
      dsimp only
      split_ifs with hempty
      · simp
      · simpa using hempty

theorem splitArtistCredit_pairwise (u : Unicode) (raw : List Char) :
    (splitArtistCredit u raw).Pairwise fun a b => artistFoldKey u a ≠ artistFoldKey u b := by
  rw [splitArtistCredit]
  split
  · exact .nil
  · split
    · exact List.pairwise_singleton _ _
    · split
      · exact List.pairwise_singleton _ _
      · dsimp only
        split
        · exact List.pairwise_singleton _ _
        · exact (dedupeByKey_pairwise _ _ _).1

theorem artistDisplayForm_ne_blank (hnfc : ∀ s, Text.trim s ≠ [] → Text.trim (u.nfc s) ≠ [])
    (h : Text.trim raw ≠ []) : Text.trim (artistDisplayForm u raw) ≠ [] := by
  unfold artistDisplayForm
  dsimp only
  rw [if_neg (by simpa using h)]
  split_ifs with hempty hvarious
  · exact hnfc _ (by simpa using h)
  · exact hnfc _ (by decide)
  · exact hnfc _ ((preprocessArtist_flush raw).trim_ne_nil (by simpa using hempty))

/-- By recursion on the parts of the credit. -/
theorem splitArtistCredit_ne_blank (hnfc : ∀ s, Text.trim s ≠ [] → Text.trim (u.nfc s) ≠ [])
    (raw : List Char) : ∀ member ∈ splitArtistCredit u raw, Text.trim member ≠ [] := by
  have hdisplay (raw : List Char) (h : ¬ (Text.trim raw).isEmpty = true) :
      Text.trim (artistDisplayForm u (Text.trim raw)) ≠ [] :=
    artistDisplayForm_ne_blank hnfc (by simpa using h)
  fun_induction splitArtistCredit u raw with
  | case1 raw hempty => simp
  | case2 raw hempty hknown =>
    simp only [List.mem_singleton, forall_eq]
    exact hnfc _ (by simpa using hempty)
  | case3 raw hempty hknown hparts =>
    simp only [List.mem_singleton, forall_eq]
    exact hdisplay raw hempty
  | case4 raw hempty hknown parts hparts members hnone =>
    simp only [List.mem_singleton, forall_eq]
    exact hdisplay raw hempty
  | case5 raw hempty hknown parts hparts members hsome ih =>
    intro member hmember
    obtain ⟨part, -, hpart⟩ := List.mem_flatMap.mp (mem_of_mem_dedupeByKey hmember)
    exact ih part member hpart

/-- The recursion is on shorter credits, and its loop over trailing brackets
goes on to the last of them. -/
theorem splitArtistCredit_total (u : Unicode)
    (hnfc : ∀ s, Text.trim s ≠ [] → Text.trim (u.nfc s) ≠ []) (raw : List Char) :
    (∀ parts, creditParts u (Text.trim raw) = some parts →
        ∀ part ∈ parts, part.length < raw.length) ∧
      stripGroup (stripTrailingParentheticals raw) = none ∧
      (Text.trim raw ≠ [] → splitArtistCredit u raw ≠ []) ∧
      (∀ member ∈ splitArtistCredit u raw, Text.trim member ≠ []) ∧
      (splitArtistCredit u raw).Pairwise fun a b => artistFoldKey u a ≠ artistFoldKey u b :=
  ⟨fun _ hparts part hpart =>
      Nat.lt_of_lt_of_le (creditParts_shorter hparts part hpart) (Text.length_trim_le raw),
    stripGroup_stripGroups (Nat.le_refl _), splitArtistCredit_ne_nil,
    splitArtistCredit_ne_blank hnfc raw, splitArtistCredit_pairwise u raw⟩

theorem splitArtistCredit_total_ascii :
    Text.trim "Nick Cave & Kylie Minogue".toList ≠ [] ∧
      splitArtistCredit Unicode.ascii "Nick Cave & Kylie Minogue".toList ≠ [] := by
  have hblank : Text.trim "Nick Cave & Kylie Minogue".toList ≠ [] := by decide
  exact ⟨hblank, (splitArtistCredit_total Unicode.ascii (fun _ h => h) _).2.2.1 hblank⟩

-- ---------------------------------------------------------------------------
-- Watermarks
-- ---------------------------------------------------------------------------

def watermarked (raw w : List Char) : List Char := raw ++ " | ".toList ++ w

section Watermark

variable {raw w : List Char}

theorem trim_watermarked (raw w : List Char) :
    Text.trim (watermarked raw w) =
      (raw ++ [' ']).dropWhile Text.isWhitespace ++ '|' :: Text.trimEnd (' ' :: w) := by
  have hsplit : watermarked raw w = (raw ++ [' ']) ++ '|' :: (' ' :: w) := by simp [watermarked]
  rw [hsplit, Text.trim_append_cons (by decide)]

theorem withoutWatermark_watermarked (hraw : '|' ∉ raw) :
    withoutWatermark (Text.trim (watermarked raw w)) = Text.trim raw := by
  have hnot : '|' ∉ (raw ++ [' ']).dropWhile Text.isWhitespace := by
    intro hmem
    have hmem := (List.dropWhile_suffix _).subset hmem
    simp [hraw] at hmem
  have hsplit := @Text.splitOnce_of_notMem _ _ '|' [] _ (Text.trimEnd (' ' :: w)) hnot
  rw [List.nil_append] at hsplit
  have hhead : Text.trim ((raw ++ [' ']).dropWhile Text.isWhitespace) = Text.trim raw := by
    rw [Text.trim_eq, List.dropWhile_idempotent, ← Text.trim_eq, Text.trim_append_space]
  rw [withoutWatermark, trim_watermarked, hsplit]
  exact hhead

theorem withoutWatermark_trim (hraw : '|' ∉ raw) :
    withoutWatermark (Text.trim raw) = Text.trim raw := by
  have hnone := Text.splitOnce_singleton_eq_none.mpr fun hmem => hraw (Text.mem_of_mem_trim hmem)
  rw [withoutWatermark, hnone]

theorem structural_watermarked (u : Unicode) (w : List Char) (hraw : '|' ∉ raw) :
    structural u (Text.trim (watermarked raw w)) = structural u (Text.trim raw) := by
  rw [structural, structural, withoutWatermark_watermarked hraw, withoutWatermark_trim hraw]

theorem mem_trim_watermarked (raw w : List Char) : '|' ∈ Text.trim (watermarked raw w) := by
  simp [trim_watermarked]

theorem trim_watermarked_ne_nil (raw w : List Char) : Text.trim (watermarked raw w) ≠ [] :=
  List.ne_nil_of_mem (mem_trim_watermarked raw w)

theorem trim_ne_nil_of_preprocessArtist (h : preprocessArtist u raw ≠ []) : Text.trim raw ≠ [] := by
  intro hblank
  simp [preprocessArtist, hblank] at h

section Key

variable (hraw : '|' ∉ raw) (hblank : Text.trim raw ≠ [])

include hraw hblank

theorem artistFoldKey_watermarked :
    artistFoldKey u (watermarked raw w) = artistFoldKey u raw := by
  simp only [artistFoldKey, structural_watermarked u w hraw, List.isEmpty_iff, hblank,
    trim_watermarked_ne_nil]

theorem preprocessArtist_watermarked :
    preprocessArtist u (watermarked raw w) = preprocessArtist u raw := by
  simp only [preprocessArtist, structural_watermarked u w hraw, List.isEmpty_iff, hblank,
    trim_watermarked_ne_nil]

theorem isKnownSingleAct_watermarked :
    isKnownSingleAct u (watermarked raw w) = isKnownSingleAct u raw := by
  rw [isKnownSingleAct, isKnownSingleAct, artistFoldKey_watermarked hraw hblank]

end Key

theorem artistDisplayForm_watermarked (hraw : '|' ∉ raw) (hclean : preprocessArtist u raw ≠ []) :
    artistDisplayForm u (watermarked raw w) = artistDisplayForm u raw := by
  have hblank := trim_ne_nil_of_preprocessArtist hclean
  simp only [artistDisplayForm, preprocessArtist_watermarked hraw hblank, List.isEmpty_iff, hblank,
    trim_watermarked_ne_nil, hclean, if_false]

theorem artistDisplayForm_trim (u : Unicode) (raw : List Char) :
    artistDisplayForm u (Text.trim raw) = artistDisplayForm u raw := by
  have hpre : preprocessArtist u (Text.trim raw) = preprocessArtist u raw := by
    rw [preprocessArtist, preprocessArtist, Text.trim_trim]
  rw [artistDisplayForm, artistDisplayForm, hpre, Text.trim_trim]

@[simp] theorem isKnownSingleAct_trim (u : Unicode) (raw : List Char) :
    isKnownSingleAct u (Text.trim raw) = isKnownSingleAct u raw := by
  rw [isKnownSingleAct, isKnownSingleAct, artistFoldKey_trim]

theorem splitArtistCredit_of_known (hblank : Text.trim raw ≠ [])
    (hknown : isKnownSingleAct u raw = true) :
    splitArtistCredit u raw = [u.nfc (Text.trim raw)] := by
  rw [splitArtistCredit, if_neg (by simpa using hblank), if_pos (by simpa using hknown)]

theorem splitArtistCredit_of_unknown (hblank : Text.trim raw ≠ [])
    (hknown : isKnownSingleAct u raw = false) :
    splitArtistCredit u raw =
      match creditParts u (Text.trim raw) with
      | none => [artistDisplayForm u raw]
      | some parts =>
        let members := dedupeByKey (artistFoldKey u) [] (parts.flatMap (splitArtistCredit u))
        if members.isEmpty then [artistDisplayForm u raw] else members := by
  rw [splitArtistCredit, if_neg (by simpa using hblank), if_neg (by simpa using hknown),
    artistDisplayForm_trim]
  split
  next hparts => rw [hparts]
  next parts hparts =>
    have hattach : (parts.attach.flatMap fun part => splitArtistCredit u part.1) =
        parts.flatMap (splitArtistCredit u) := by
      rw [List.flatMap_subtype (fun _ _ => rfl), List.unattach_attach]
    rw [hparts, hattach]

/-- A credit that is split is so without its watermark. -/
theorem splitArtistCredit_watermarked (hraw : '|' ∉ raw) (hclean : preprocessArtist u raw ≠ [])
    (hknown : isKnownSingleAct u raw = false) :
    splitArtistCredit u (watermarked raw w) = splitArtistCredit u raw := by
  have hblank := trim_ne_nil_of_preprocessArtist hclean
  have hknown' := (isKnownSingleAct_watermarked (w := w) hraw hblank).trans hknown
  have hparts : creditParts u (Text.trim (watermarked raw w)) = creditParts u (Text.trim raw) := by
    rw [creditParts, creditParts, structural_watermarked u w hraw]
  rw [splitArtistCredit_of_unknown (trim_watermarked_ne_nil raw w) hknown',
    splitArtistCredit_of_unknown hblank hknown, hparts, artistDisplayForm_watermarked hraw hclean]

/-- `nfc` neither makes nor loses a `|`. -/
theorem watermark_invariant_iff (u : Unicode) (hnfc : ∀ s, '|' ∈ u.nfc s ↔ '|' ∈ s)
    (raw w : List Char) (hraw : '|' ∉ raw) (hclean : preprocessArtist u raw ≠ []) :
    (artistFoldKey u (watermarked raw w) = artistFoldKey u raw ∧
        artistDisplayForm u (watermarked raw w) = artistDisplayForm u raw ∧
        splitArtistCredit u (watermarked raw w) = splitArtistCredit u raw) ↔
      isKnownSingleAct u raw = false := by
  have hblank := trim_ne_nil_of_preprocessArtist hclean
  constructor
  · rintro ⟨-, -, hsplit⟩
    by_contra hact
    have hknown : isKnownSingleAct u raw = true := by simpa using hact
    have hknown' := (isKnownSingleAct_watermarked (w := w) hraw hblank).trans hknown
    rw [splitArtistCredit_of_known (trim_watermarked_ne_nil raw w) hknown',
      splitArtistCredit_of_known hblank hknown, List.cons.injEq] at hsplit
    -- the act of the one keeps the watermark
    have hmem := (hnfc _).mpr (mem_trim_watermarked raw w)
    rw [hsplit.1, hnfc] at hmem
    exact hraw (Text.mem_of_mem_trim hmem)
  · intro hknown
    exact ⟨artistFoldKey_watermarked hraw hblank, artistDisplayForm_watermarked hraw hclean,
      splitArtistCredit_watermarked hraw hclean hknown⟩

/-- The acts of a list are compared by their characters, one after the other. -/
theorem any_ofList_cons {f : List Char → List Char} {key l : List Char} {rest : List String}
    (hact : (f l == key) = false) (hrest : (rest.any fun act => f act.toList == key) = false) :
    ((String.ofList l :: rest).any fun act => f act.toList == key) = false := by
  rw [List.any_cons, String.toList_ofList, hact, hrest]
  rfl

theorem isKnownSingleAct_bruno : isKnownSingleAct Unicode.ascii "Bruno Mars".toList = false := by
  have hkey : artistFoldKey Unicode.ascii "Bruno Mars".toList = "bruno mars".toList := by
    decide +kernel
  have hacts : (knownSingleActs.any fun act =>
      artistFoldKey Unicode.ascii act.toList == "bruno mars".toList) = false := by
    unfold knownSingleActs
    repeat refine any_ofList_cons (by decide +kernel) ?_
    rfl
  simp only [isKnownSingleAct, hkey, hacts, Bool.and_false]

theorem watermark_invariant_bruno :
    splitArtistCredit Unicode.ascii (watermarked "Bruno Mars".toList "www.RNBxBeatz.com".toList) =
      splitArtistCredit Unicode.ascii "Bruno Mars".toList :=
  ((watermark_invariant_iff Unicode.ascii (fun _ => Iff.rfl) "Bruno Mars".toList
    "www.RNBxBeatz.com".toList (by decide) (by decide +kernel)).mpr isKnownSingleAct_bruno).2.2

/-- The act is known, and its watermark is taken for a part of its name. -/
theorem single_act_keeps_watermark :
    ¬ ∀ raw w : List Char, '|' ∉ raw → preprocessArtist Unicode.ascii raw ≠ [] →
      artistFoldKey Unicode.ascii (watermarked raw w) = artistFoldKey Unicode.ascii raw ∧
        artistDisplayForm Unicode.ascii (watermarked raw w) =
          artistDisplayForm Unicode.ascii raw ∧
        splitArtistCredit Unicode.ascii (watermarked raw w) =
          splitArtistCredit Unicode.ascii raw := by
  intro hinvariant
  have hknown : isKnownSingleAct Unicode.ascii "Hall & Oates".toList = true := by decide +kernel
  have hknown' : isKnownSingleAct Unicode.ascii
      (watermarked "Hall & Oates".toList "www.junk.com".toList) = true := by decide +kernel
  have hsplit := (hinvariant "Hall & Oates".toList "www.junk.com".toList (by decide)
    (by decide +kernel)).2.2
  rw [splitArtistCredit_of_known (trim_watermarked_ne_nil _ _) hknown',
    splitArtistCredit_of_known (by decide) hknown] at hsplit
  exact absurd hsplit (by decide)

end Watermark

end EvoAudio.Names
