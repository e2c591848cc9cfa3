import EvoAudio.Boot.Edits

/-!
# What an apply and a clear leave of the boot configuration

An apply should leave one managed block, with the overlay it was given, and every
line it has to keep; a clear should take the managed blocks out and nothing else. Both do
exactly when no line is read as part of a block, or of a key and its word, that
it does not belong to.
-/

namespace EvoAudio.Boot

open Regex Lines Edits

-- ---------------------------------------------------------------------------
-- The new block
-- ---------------------------------------------------------------------------

section NewBlock

variable {overlay : List Char}

def newBlock (overlay : List Char) : List Char :=
  evoI2sBannerLine ++ (overlayKey ++ overlay ++ ['\n'])

def evoBanner : List Char := bannerOf "evo".toList

theorem evoI2sBannerLine_eq : evoI2sBannerLine = evoBanner ++ ['\n'] := by decide

theorem evoBanner_oneLine : '\n' ∉ evoBanner := by decide

theorem banner_evoBanner : banner evoBanner := by decide +kernel

theorem oneLine_overlay (hword : Word overlay) : '\n' ∉ overlayKey ++ overlay :=
  (word_overlayKey.append hword.noSpace).oneLine

theorem not_blank_overlay (hword : Word overlay) : blank (overlayKey ++ overlay) = false :=
  (word_overlayKey.append hword.noSpace).not_blank

theorem newBlock_eq (overlay : List Char) :
    newBlock overlay = evoBanner ++ '\n' :: (overlayKey ++ overlay ++ ['\n']) := by
  rw [newBlock, evoI2sBannerLine_eq, List.append_assoc]
  rfl

theorem content_newBlock (hword : Word overlay) :
    content (newBlock overlay) = [evoBanner, overlayKey ++ overlay] := by
  have hbanner := content_single evoBanner_oneLine (not_blank_of_banner banner_evoBanner)
  have hoverlay := content_single (oneLine_overlay hword) (not_blank_overlay hword)
  rw [newBlock_eq, content_append, content_concat_newline, hbanner, hoverlay]
  rfl

theorem inLine_of_word (hword : Word overlay) : ∀ x ∈ overlay, inLine x := by
  intro x hx
  have hspace := hword.noSpace x hx
  rw [inLine, Bool.and_eq_true, bne_iff_ne, bne_iff_ne]
  constructor
  · rintro rfl
    exact absurd hspace (by decide)
  · rintro rfl
    exact absurd hspace (by decide)

/-- The token of the new block. -/
theorem token_newBlock (hword : Word overlay) : token ⟨true, newBlock overlay⟩ = some overlay := by
  have hnext : Next (overlayKey ++ overlay ++ ['\n']) ⟨overlayKey ++ overlay, true⟩ [] :=
    @next_append_behind [] (overlayKey ++ overlay) ⟨[], true⟩ (oneLine_overlay hword)
      (not_blank_overlay hword) (by simp)
  have htoken := @token_eq ⟨evoBanner, true⟩ _ _ _ evoBanner_oneLine hnext
  have hall := inLine_of_word hword
  have hdrop : overlay.dropWhile inLine = [] := List.dropWhile_eq_nil_iff.mpr hall
  have htake : overlay.takeWhile inLine = overlay := List.takeWhile_eq_self_iff.mpr hall
  obtain ⟨x, hx⟩ := List.exists_cons_of_ne_nil hword.ne_nil
  have hhead : overlay.head?.any inLine := by
    obtain ⟨rest, hrest⟩ := hx
    rw [hrest]
    exact hall x (by rw [hrest]; exact List.mem_cons_self ..)
  rw [if_pos ⟨banner_evoBanner, rfl⟩, leading_append word_overlayKey, Option.bind_some, hdrop,
    htake, if_pos ⟨hhead, rfl, rfl⟩] at htoken
  rw [newBlock_eq]
  exact htoken

theorem trim_word (hword : Word overlay) : Text.trim overlay = overlay := by
  have halone : alone overlay overlay := by
    have hlead := leading_append hword []
    rw [List.append_nil] at hlead
    rw [alone_eq hword, hlead]
    rfl
  rwa [alone, beq_iff_eq] at halone

end NewBlock

-- ---------------------------------------------------------------------------
-- Reading the active overlay
-- ---------------------------------------------------------------------------

/-- A text is empty or ends with a newline. -/
def Ended (text : List Char) : Prop := text = [] ∨ text.getLast? = some '\n'

theorem ended_closed (text : List Char) : Ended (closed text) := by
  rw [closed]
  split
  next h => exact .inr h
  next => exact .inr (by simp)

theorem Ended.tail {line more : List Char} (h : Ended (line ++ '\n' :: more)) : Ended more := by
  cases more with
  | nil => exact .inl rfl
  | cons x more =>
    rcases h with hnil | hlast
    · simp at hnil
    · refine .inr ?_
      rw [List.getLast?_append_of_ne_nil _ (List.cons_ne_nil _ _), List.getLast?_cons_cons] at hlast
      exact hlast

/-- No token is read before the new block where no other block stands. -/
theorem captures_newBlock {overlay body : List Char} (hword : Word overlay) (h : Ended body)
    (hnone : pairs banner overlayLine (content body) = 0) :
    captures blockHead [.one inLine, .many inLine] [optionalCr, lit ['\n']] true
      (body ++ '\n' :: newBlock overlay) = some overlay := by
  induction hn : body.length using Nat.strong_induction_on generalizing body with
  | _ n ih =>
    obtain hline | ⟨line, more, rfl, hline⟩ := line_cases body
    · obtain rfl : body = [] := by
        rcases h with rfl | hlast
        · rfl
        · exact absurd (List.mem_of_mem_getLast? hlast) hline
      rw [captures_line token_inside List.not_mem_nil]
      · exact captures_match (token_newBlock hword)
      · cases htoken : token ⟨true, [] ++ '\n' :: newBlock overlay⟩ with
        | none => exact htoken
        | some found =>
          have hbanner := (@block_of_token ⟨[], true⟩ _ _ List.not_mem_nil htoken).1
          exact absurd hbanner (by decide +kernel)
    · have hmore := h.tail
      rw [content_append] at hnone
      have hrest : pairs banner overlayLine (content more) = 0 := by
        have hle := @pairs_le_append _ banner overlayLine (content line) (content more)
        omega
      have hshorter : more.length < n := by
        simp only [List.length_append, List.length_cons] at hn
        omega
      rw [List.append_assoc, List.cons_append, captures_line token_inside hline]
      · exact ih _ hshorter hmore hrest rfl
      · cases htoken : token ⟨true, line ++ '\n' :: (more ++ '\n' :: newBlock overlay)⟩ with
        | none => exact htoken
        | some found =>
          obtain ⟨hbanner, next, far, hnext, hoverlay⟩ :=
            @block_of_token ⟨line, true⟩ _ _ hline htoken
          have hcontent :
              content more ++ content (newBlock overlay) = next.text :: content far := by
            rw [← content_append, content, hnext.solid_eq]
            rfl
          have hfirst := content_single hline (not_blank_of_banner hbanner)
          rw [content_newBlock hword] at hcontent
          cases hlines : content more with
          | nil =>
            rw [hlines, List.nil_append, List.cons.injEq] at hcontent
            rw [← hcontent.1, overlayLine_of_banner banner_evoBanner] at hoverlay
            cases hoverlay
          | cons second lines =>
            rw [hlines, List.cons_append, List.cons.injEq] at hcontent
            rw [hlines, hfirst, hcontent.1] at hnone
            have hpos := @pairs_pos_of_head _ banner overlayLine _ _ hbanner hoverlay lines
            exact absurd hnone (Nat.ne_of_gt hpos)

-- ---------------------------------------------------------------------------
-- Applying and clearing
-- ---------------------------------------------------------------------------

/-- What an apply and a clear should do to a text. -/
structure TouchesBlockOnly (text overlay out : List Char) : Prop where
  active : extractActiveOverlay out = overlay
  oneBlock : blocks out = 1
  kept : (((outside (solid text)).map Line.text).filter (guarded overlay)).Sublist (content out)
  cleared : blocks (composeClearText text) = 0
  clearKept : ((outside (solid text)).map Line.text).Sublist (content (composeClearText text))

/-- No line of the text is read as part of what it does not belong to. -/
structure Apart (text overlay : List Char) : Prop where
  /-- The text does not end in a block without its newline. -/
  closed : pairs (banner ∘ Line.text) openOverlay (solid text) = 0
  /-- Outside the blocks no banner stands before an overlay line, -/
  cleared : pairs (banner ∘ Line.text) (overlayLine ∘ Line.text) (outside (solid text)) = 0
  /-- also when the duplicates are left out. -/
  applied : pairs (banner ∘ Line.text) (overlayLine ∘ Line.text)
    (others overlay (outside (solid text))) = 0
  /-- No `dtoverlay=` without a value stands before the overlay on a line of its own. -/
  keyed : pairs (bareOverlay ∘ Line.text) (endedToken overlay) (outside (solid text)) = 0
  /-- No bare comment sign stands before a parameter that is on. -/
  uncommented : ∀ param : Param, pairs (bareHash ∘ Line.text) (alone param.on ∘ Line.text)
    (others overlay (outside (solid text))) = 0

section Frame

variable {text overlay : List Char}

theorem composeApplyText_eq (h : validateOverlayToken overlay = .ok ()) :
    composeApplyText text overlay =
      .ok (closed (applyBody text overlay) ++ '\n' :: newBlock overlay) := by
  rw [composeApplyText, h]
  rfl

theorem content_apply (hword : Word overlay) (body : List Char) :
    content (closed body ++ '\n' :: newBlock overlay) =
      content body ++ [evoBanner, overlayKey ++ overlay] := by
  rw [content_append, content_closed, content_newBlock hword]

theorem overlayLine_newBlock (hword : Word overlay) : overlayLine (overlayKey ++ overlay) := by
  have hdrop : overlay.dropWhile inLine = [] :=
    List.dropWhile_eq_nil_iff.mpr (inLine_of_word hword)
  rw [overlayLine, leading_append word_overlayKey, Option.any_some, hdrop]
  rfl

theorem bareOverlay_newBlock (hword : Word overlay) :
    bareOverlay (overlayKey ++ overlay) = false := by
  rw [bareOverlay, alone_eq word_overlayKey, leading_append word_overlayKey]
  exact hword.not_blank

theorem bareHash_newBlock (overlay : List Char) : bareHash (overlayKey ++ overlay) = false := by
  refine alone_eq_false word_hash (leading_hash_of_overlayKey ?_)
  rw [leading_append word_overlayKey]
  rfl

theorem blocks_apply (hword : Word overlay) (body : List Char) :
    blocks (closed body ++ '\n' :: newBlock overlay) =
      pairs banner overlayLine (content body) + 1 := by
  have hhead : ∀ line ∈ [evoBanner, overlayKey ++ overlay].head?,
      overlayLine line = false := by
    rintro line hline
    cases hline
    exact overlayLine_of_banner banner_evoBanner
  have hnew : pairs banner overlayLine [evoBanner, overlayKey ++ overlay] = 1 := by
    simp [pairs, banner_evoBanner, overlayLine_newBlock hword]
  rw [blocks, content_apply hword, pairs_append hhead, hnew]

theorem edited_strip (text : List Char) :
    Edited Block (· = []) (solid text) (solid (stripManagedBlock text)) :=
  cuts_managedBlockRegex.edited text

theorem edited_duplicates (hword : Word overlay) (text : List Char) :
    Edited (Spread overlayKey overlay id) (· = []) (solid text)
      (solid (stripDuplicateDtoverlayLines text overlay)) :=
  (cuts_duplicateRegex hword).edited text

theorem ensures_applyBody (text overlay : List Char) :
    Ensures (content (stripDuplicateDtoverlayLines (stripManagedBlock text) overlay))
      (content (applyBody text overlay)) := ensures _

/-- The duplicates that are left out are no lines that have to be kept. -/
theorem filter_guarded_others (overlay : List Char) (lines : List Line) :
    ((others overlay lines).map Line.text).filter (guarded overlay) =
      (lines.map Line.text).filter (guarded overlay) := by
  induction lines with
  | nil => rfl
  | cons line lines ih =>
    rw [others, List.filter_cons]
    split
    next =>
      rw [List.map_cons, List.map_cons, List.filter_cons, List.filter_cons, ← others, ih]
    next hdropped =>
      rw [Bool.not_eq_true, Bool.not_eq_false', Bool.and_eq_true] at hdropped
      have hguard : guarded overlay line.text = false := by
        rw [guarded, hdropped.1, Bool.not_true, Bool.false_and]
      rw [← others, ih, List.map_cons, List.filter_cons, hguard]
      rfl

theorem touches_of_apart (hword : Word overlay) (h : Apart text overlay) :
    TouchesBlockOnly text overlay
      (closed (applyBody text overlay) ++ '\n' :: newBlock overlay) := by
  have hstrip : solid (stripManagedBlock text) = outside (solid text) :=
    eq_outside (edited_strip text) h.closed
  have hdup : solid (stripDuplicateDtoverlayLines (stripManagedBlock text) overlay) =
      others overlay (outside (solid text)) := by
    have hedit := edited_duplicates hword (stripManagedBlock text)
    rw [hstrip] at hedit
    exact eq_others hedit h.keyed
  have hens := ensures_applyBody text overlay
  rw [content, hdup] at hens
  have hnone : pairs banner overlayLine (content (applyBody text overlay)) = 0 := by
    rw [hens.blocks_eq, pairs_map]
    exact h.applied
  refine ⟨?_, ?_, ?_, ?_, ?_⟩
  · have hclosed : pairs banner overlayLine (content (closed (applyBody text overlay))) = 0 := by
      rw [content_closed]
      exact hnone
    rw [extractActiveOverlay, captures_newBlock hword (ended_closed _) hclosed]
    exact trim_word hword
  · rw [blocks_apply hword, hnone]
  · have hkept := hens.filter_guarded (fun param => by rw [pairs_map]; exact h.uncommented param)
      overlay
    rw [filter_guarded_others] at hkept
    rw [content_apply hword]
    exact hkept.trans (List.sublist_append_left _ _)
  · rw [composeClearText, blocks, content, hstrip, pairs_map]
    exact h.cleared
  · rw [composeClearText, content, hstrip]

/-- A kind of lines that have to be kept does not get fewer. -/
theorem countP_kept (f : List Char → Bool) {lines : List Line} {out : List (List Char)}
    (hf : ∀ line, f line → guarded overlay line)
    (h : ((lines.map Line.text).filter (guarded overlay)).Sublist out) :
    lines.countP (f ∘ Line.text) ≤ out.countP f := by
  have hcount : ((lines.map Line.text).filter (guarded overlay)).countP f =
      lines.countP (f ∘ Line.text) := by
    rw [List.countP_filter, List.countP_map]
    refine List.countP_congr fun line _ => ?_
    rw [Function.comp_apply, Function.comp_apply, Bool.and_eq_true]
    exact ⟨And.left, fun hline => ⟨hline, hf _ hline⟩⟩
  rw [← hcount]
  exact h.countP_le

theorem countP_newBlock {f : List Char → Bool} (hword : Word overlay) (body : List Char)
    (hbanner : f evoBanner = false) (hoverlay : f (overlayKey ++ overlay) = false) :
    (content (closed body ++ '\n' :: newBlock overlay)).countP f = (content body).countP f := by
  rw [content_apply hword, List.countP_append]
  simp [hbanner, hoverlay]

theorem apart_of_touches (hvalid : validateOverlayToken overlay = .ok ())
    (h : TouchesBlockOnly text overlay
      (closed (applyBody text overlay) ++ '\n' :: newBlock overlay)) :
    Apart text overlay := by
  have hword := word_of_valid hvalid
  -- A clear that leaves no block leaves no open one.
  have hcleared := h.cleared
  rw [composeClearText, blocks, content] at hcleared
  have hclosed : pairs (banner ∘ Line.text) openOverlay (solid text) = 0 := by
    have hle := pairs_open_le (edited_strip text)
    omega
  have hstrip : solid (stripManagedBlock text) = outside (solid text) :=
    eq_outside (edited_strip text) hclosed
  rw [hstrip, pairs_map] at hcleared
  have hedit := edited_duplicates hword (stripManagedBlock text)
  have hens := ensures_applyBody text overlay
  rw [hstrip] at hedit
  rw [content] at hens
  generalize solid (stripDuplicateDtoverlayLines (stripManagedBlock text) overlay) = lines
    at hedit hens
  -- A key that is read together with the next line would be missing.
  have hkeyed :
      pairs (bareOverlay ∘ Line.text) (endedToken overlay) (outside (solid text)) = 0 := by
    have hlost := countP_bareOverlay_duplicates hword (ne_overlayKey_of_valid hvalid) hedit
    have hkept := countP_kept bareOverlay (fun _ => guarded_of_bareOverlay hword) h.kept
    have hcount := hens.countP_bareOverlay
    rw [countP_newBlock hword _ (bareOverlay_of_hash (hash_of_banner banner_evoBanner))
      (bareOverlay_newBlock hword)] at hkept
    rw [List.countP_map] at hcount
    omega
  have hothers := eq_others hedit hkeyed
  subst hothers
  refine ⟨hclosed, hcleared, ?_, hkeyed, ?_⟩
  · have hone := h.oneBlock
    rw [blocks_apply hword, hens.blocks_eq, pairs_map] at hone
    omega
  · have hkept := countP_kept bareHash (fun _ => guarded_of_bareHash) h.kept
    have hcount := hens.countP_bareHash
    rw [countP_newBlock hword _ (bareHash_of_banner banner_evoBanner)
      (bareHash_newBlock overlay)] at hkept
    rw [List.countP_map, pairs_map, pairs_map] at hcount
    have hfewer : (others overlay (outside (solid text))).countP (bareHash ∘ Line.text) ≤
        (outside (solid text)).countP (bareHash ∘ Line.text) :=
      List.filter_sublist.countP_le
    intro param
    cases param <;> omega

/-- An apply and a clear touch the managed block only, exactly where no line of the text
is read as part of what it does not belong to. -/
theorem composeApplyText_touchesBlockOnly_iff (text overlay : List Char)
    (hvalid : validateOverlayToken overlay = .ok ()) :
    (∃ out, composeApplyText text overlay = .ok out ∧ TouchesBlockOnly text overlay out) ↔
      Apart text overlay := by
  rw [composeApplyText_eq hvalid]
  constructor
  · rintro ⟨out, hout, htouches⟩
    cases hout
    exact apart_of_touches hvalid htouches
  · intro h
    exact ⟨_, rfl, touches_of_apart (word_of_valid hvalid) h⟩

end Frame

/-- A configuration of the predecessor, with carriage returns and blank lines. -/
def migrated : List Char :=
  ("[all]\r\n#dtparam=i2c_arm=on\r\ndtparam=audio=off\r\n\r\n" ++
    "#### Volumio i2s setting below: do not alter ####\r\n" ++
    "dtoverlay=hifiberry-dac\r\ndtoverlay=iqaudio-dac\r\nenable_uart=1").toList

theorem solid_migrated : solid migrated =
    [⟨"[all]\r".toList, true⟩, ⟨"#dtparam=i2c_arm=on\r".toList, true⟩,
      ⟨"dtparam=audio=off\r".toList, true⟩,
      ⟨"#### Volumio i2s setting below: do not alter ####\r".toList, true⟩,
      ⟨"dtoverlay=hifiberry-dac\r".toList, true⟩, ⟨"dtoverlay=iqaudio-dac\r".toList, true⟩,
      ⟨"enable_uart=1".toList, false⟩] := by
  unfold migrated
  rw [String.toList_append, String.toList_append]
  repeat rw [String.toList_ofList]
  decide +kernel

theorem touchesBlockOnly_migrated :
    validateOverlayToken "iqaudio-dac".toList = .ok () ∧
      ∃ out, composeApplyText migrated "iqaudio-dac".toList = .ok out ∧
        TouchesBlockOnly migrated "iqaudio-dac".toList out := by
  refine ⟨by decide, (composeApplyText_touchesBlockOnly_iff _ _ (by decide)).mpr ?_⟩
  refine ⟨?_, ?_, ?_, ?_, fun param => ?_⟩
  all_goals rw [solid_migrated]
  · decide +kernel
  · decide +kernel
  · decide +kernel
  · decide +kernel
  · cases param <;> decide +kernel

/-- A managed block at the end of the text, without its newline. -/
def openBlock : List Char :=
  "#### evo i2s setting below: do not alter ####\ndtoverlay=hifiberry-dac".toList

/-- The open block stays, a second one is appended, and the old overlay is the active one. -/
theorem open_block_stays_active :
    validateOverlayToken "iqaudio-dac".toList = .ok () ∧
      (composeApplyText openBlock "iqaudio-dac".toList).map extractActiveOverlay =
        .ok "hifiberry-dac".toList ∧
      composeClearText openBlock = openBlock ∧
      ¬ ∃ out, composeApplyText openBlock "iqaudio-dac".toList = .ok out ∧
        TouchesBlockOnly openBlock "iqaudio-dac".toList out := by
  refine ⟨by decide, by decide +kernel, by decide +kernel, ?_⟩
  rintro ⟨out, -, htouches⟩
  exact absurd htouches.cleared (by decide +kernel)

end EvoAudio.Boot
