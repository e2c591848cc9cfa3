import EvoAudio.Boot.Frame
import EvoAudio.Lib.MatchWeight

/-!
# Applying the same overlay again

An apply strips the block that the one before has written, and not the blank line that was
put in front of it. Everything else that an apply does to its own result makes it lighter:
blocks and duplicates are cut out, comment signs go, and a switched-off parameter weighs
more than one that is on. So the second result is the first only if nothing is done to it, and
then it has a blank line more.
-/

namespace EvoAudio.Boot

open Regex Lines Edits

-- ---------------------------------------------------------------------------
-- The weight of the edits
-- ---------------------------------------------------------------------------

/-- White space weighs nothing, and `0` more than `on`. -/
def heaviness (c : Char) : Nat :=
  if Text.isWhitespace c then 0 else if c = '0' then 3 else 1

abbrev heavy (text : List Char) : Nat := weight heaviness text

theorem heavy_blank {text : List Char} (h : blank text) : heavy text = 0 := by
  induction text with
  | nil => rfl
  | cons x text ih =>
    rw [blank, List.all_cons, Bool.and_eq_true] at h
    rw [heavy, weight_cons, heaviness, if_pos h.1]
    exact (Nat.zero_add _).trans (ih h.2)

theorem heavy_pos {x : Char} {text : List Char} (hmem : x ∈ text)
    (hx : Text.isWhitespace x = false) : 0 < heavy text := by
  obtain ⟨before, after, rfl⟩ := List.append_of_mem hmem
  have hpos : 0 < heaviness x := by
    rw [heaviness, hx]
    simp only [Bool.false_eq_true, if_false]
    split <;> decide
  simp only [heavy, weight_append, weight_cons]
  omega

/-- What is put in has less than what is matched at the least. -/
theorem heavier_matches :
    heavy [] < (managedBlockRegex.map (Regex.Atom.minWeight heaviness)).sum ∧
      0 < (lit overlayKey).minWeight heaviness ∧ ∀ param : Param,
        heavy param.on < ((uncommentRegex param).map (Regex.Atom.minWeight heaviness)).sum ∧
          heavy param.on < ((offToOnRegex param).map (Regex.Atom.minWeight heaviness)).sum := by
  refine ⟨by decide, by decide, fun param => ?_⟩
  cases param <;> decide

theorem lighter_stripManagedBlock (text : List Char) :
    Lighter heaviness text (stripManagedBlock text) :=
  lighter_replaceAll cuts_managedBlockRegex.consumes heavier_matches.1 text

theorem lighter_duplicates {overlay : List Char} (hword : Word overlay) (text : List Char) :
    Lighter heaviness text (stripDuplicateDtoverlayLines text overlay) := by
  refine lighter_replaceAll (cuts_duplicateRegex hword).consumes ?_ text
  have hkey := heavier_matches.2.1
  simp only [duplicateRegex, List.map_cons, List.sum_cons, weight_nil]
  omega

theorem lighter_params (text : List Char) : Lighter heaviness text
    (dtparamPairs.foldl (fun out (pat, repl) => replaceAll pat repl out) text) := by
  have huncomment : ∀ (param : Param) text,
      Lighter heaviness text (replaceAll (uncommentRegex param) param.on text) := fun param =>
    lighter_replaceAll (patches_uncommentRegex param).consumes (heavier_matches.2.2 param).1
  have hoff : ∀ (param : Param) text,
      Lighter heaviness text (replaceAll (offToOnRegex param) param.on text) := fun param =>
    lighter_replaceAll (patches_offToOnRegex param).consumes (heavier_matches.2.2 param).2
  exact (((huncomment .i2cArm _).trans (huncomment .i2s _)).trans (hoff .i2cArm _)).trans
    (hoff .i2s _)

-- ---------------------------------------------------------------------------
-- Stripping the block of the last apply
-- ---------------------------------------------------------------------------

variable {overlay : List Char}

theorem first_line_inj {line line' rest rest' : List Char} (h : '\n' ∉ line) (h' : '\n' ∉ line')
    (heq : line ++ '\n' :: rest = line' ++ '\n' :: rest') : line = line' ∧ rest = rest' := by
  have hline := congrArg firstLine heq
  rw [firstLine_append h, firstLine_append h'] at hline
  subst hline
  exact ⟨rfl, List.cons.inj (List.append_cancel_left heq) |>.2⟩

theorem newBlock_dropWhile (overlay : List Char) :
    (newBlock overlay).dropWhile Text.isWhitespace = newBlock overlay := by
  rw [newBlock_eq]
  rfl

/-- The overlay line of a block that begins in a text is not the one of the new block behind
it. -/
theorem behind_block {body far : List Char} {next : Line} (h : Ended body)
    (hnext : Next (body ++ newBlock overlay) next far) (hoverlay : overlayLine next.text)
    (hended : next.ended) :
    ∃ more, far = more ++ newBlock overlay ∧ Ended more ∧ heavy more ≤ heavy body ∧
      more.length ≤ body.length := by
  have hdrop := hnext.dropWhile_eq
  rw [Line.behind, if_pos hended] at hdrop
  have hnext' : '\n' ∉ next.text.dropWhile Text.isWhitespace :=
    fun hmem => hnext.oneLine ((List.dropWhile_suffix _).subset hmem)
  cases hblank : blank body with
  | true =>
    rw [dropWhile_blank hblank, newBlock_dropWhile, newBlock_eq] at hdrop
    obtain ⟨hline, -⟩ := first_line_inj evoBanner_oneLine hnext' hdrop
    rw [overlayLine, leading, ← hline] at hoverlay
    exact absurd hoverlay (by decide)
  | false =>
    rw [dropWhile_append_solid hblank] at hdrop
    have hsuffix : body.dropWhile Text.isWhitespace <:+ body := List.dropWhile_suffix _
    have hne := dropWhile_ne_nil hblank
    have hlast : (body.dropWhile Text.isWhitespace).getLast? = some '\n' := by
      obtain ⟨before, hbefore⟩ := hsuffix
      rcases h with rfl | hlast
      · exact absurd rfl hne
      · rw [← hbefore, List.getLast?_append_of_ne_nil _ hne] at hlast
        exact hlast
    obtain hline | ⟨line, more, hlines, hline⟩ := line_cases (body.dropWhile Text.isWhitespace)
    · exact absurd (List.mem_of_mem_getLast? hlast) hline
    · rw [hlines] at hdrop hlast hsuffix
      rw [List.append_assoc, List.cons_append] at hdrop
      obtain ⟨-, hfar⟩ := first_line_inj hline hnext' hdrop
      obtain ⟨before, hbody⟩ := hsuffix
      refine ⟨more, hfar.symm, Ended.tail (.inr hlast), ?_, ?_⟩
      · rw [← hbody]
        simp only [heavy, weight_append, weight_cons]
        omega
      · rw [← hbody]
        simp only [List.length_append, List.length_cons]
        omega

theorem first_newBlock (hword : Word overlay) :
    first managedBlockRegex ⟨true, newBlock overlay⟩ = some ⟨true, []⟩ := by
  have hnext : Next (overlayKey ++ overlay ++ ['\n']) ⟨overlayKey ++ overlay, true⟩ [] :=
    @next_append_behind [] (overlayKey ++ overlay) ⟨[], true⟩ (oneLine_overlay hword)
      (not_blank_overlay hword) (by simp)
  have hfirst := @first_managedBlockRegex ⟨evoBanner, true⟩ _ _ _ evoBanner_oneLine hnext
  rw [if_pos ⟨⟨banner_evoBanner, rfl⟩, overlayLine_newBlock hword, rfl⟩] at hfirst
  rw [newBlock_eq]
  exact hfirst

/-- Stripping leaves what stands in front of the new block, or makes it lighter. -/
theorem lighter_strip_newBlock (hword : Word overlay) {body : List Char} (h : Ended body) :
    Lighter heaviness body (replaced managedBlockRegex [] ⟨true, body ++ newBlock overlay⟩) := by
  have hconsumes := cuts_managedBlockRegex.consumes
  induction hn : body.length using Nat.strongRecOn generalizing body with
  | ind n ih =>
    obtain hline | ⟨line, rest, rfl, hline⟩ := line_cases body
    · obtain rfl : body = [] := by
        rcases h with rfl | hlast
        · rfl
        · exact absurd (List.mem_of_mem_getLast? hlast) hline
      rw [List.nil_append, replaced_match hconsumes (first_newBlock hword), replaced_nil hconsumes]
      exact .inl rfl
    · have hshorter : rest.length < n := by
        simp only [List.length_append, List.length_cons] at hn
        omega
      have hkeep : first managedBlockRegex ⟨true, line ++ '\n' :: (rest ++ newBlock overlay)⟩ = none →
          Lighter heaviness (line ++ '\n' :: rest)
            (replaced managedBlockRegex [] ⟨true, line ++ '\n' :: (rest ++ newBlock overlay)⟩) := by
        intro hfirst
        rw [replaced_line cuts_managedBlockRegex.anchored hline hfirst]
        rcases ih _ hshorter h.tail rfl with hsame | hlt
        · exact .inl (by rw [hsame])
        · refine .inr ?_
          simp only [weight_append, weight_cons]
          omega
      rw [List.append_assoc, List.cons_append]
      obtain ⟨-, hblank⟩ | ⟨next, far, hnext⟩ := next_cases (rest ++ newBlock overlay)
      · exact hkeep (@first_managedBlockRegex_blank ⟨line, true⟩ _ hline hblank)
      · have hfirst := @first_managedBlockRegex ⟨line, true⟩ _ _ _ hline hnext
        split at hfirst
        next hblock =>
          obtain ⟨more, rfl, hmore, hweight, hlength⟩ :=
            behind_block h.tail hnext hblock.2.1 hblock.2.2
          have hrest := (ih more.length (by omega) hmore rfl).le
          obtain ⟨tail, htail⟩ := exists_of_banner hblock.1.1
          have hhash : '#' ∈ line := by
            change line = _ at htail
            rw [htail]
            exact List.mem_cons_self
          have hpos : 0 < heavy line := heavy_pos hhash (by decide)
          change first managedBlockRegex ⟨true, line ++ '\n' :: (rest ++ newBlock overlay)⟩ = _ at hfirst
          simp only [heavy] at hpos hweight
          refine .inr ?_
          rw [replaced_match hconsumes hfirst, List.nil_append, weight_append, weight_cons]
          omega
        next => exact hkeep hfirst

-- ---------------------------------------------------------------------------
-- The label of the parameters
-- ---------------------------------------------------------------------------

/-- The line that is written in front of parameters that were missing. -/
def label : List Char := "# evo: I2S DAC — enable SoC I2C + I2S (do not remove)".toList

def labels (text : List Char) : Nat := (content text).countP (· == label)

/-- No search takes the label for a line of its own. -/
theorem label_foreign :
    (∀ param : Param, alone param.on label = false ∧ commentedOn param label = false ∧
      paramLine param label = false) ∧
    bareHash label = false ∧ banner label = false ∧ overlayLine label = false ∧
    bareOverlay label = false ∧ leading overlayKey label = none ∧ ' ' ∈ Text.trim label := by
  unfold label
  rw [String.toList_ofList]
  refine ⟨fun param => ?_, by decide⟩
  cases param <;> decide

theorem not_label_of {f : List Char → Bool} {line : List Char} (hlabel : f label = false)
    (h : f line) : (line == label) = false := by
  rw [beq_eq_false_iff_ne]
  rintro rfl
  rw [hlabel] at h
  cases h

theorem not_label_of_commented (param : Param) {u : List (List Char)} (h : Commented param u) :
    ∀ line ∈ u, (line == label) = false := by
  obtain ⟨hon, hcommented, -⟩ := label_foreign.1 param
  obtain ⟨line, rfl, hline⟩ | ⟨line, next, rfl, hline, hnext⟩ := commented_cases h
  · intro x hx
    obtain rfl := List.mem_singleton.mp hx
    exact not_label_of (f := commentedOn param) hcommented hline
  · intro x hx
    rcases List.mem_cons.mp hx with rfl | hx
    · exact not_label_of (f := bareHash) label_foreign.2.1 hline
    · obtain rfl := List.mem_singleton.mp hx
      exact not_label_of hon hnext

theorem not_label_of_switchedOff (param : Param) {u : List (List Char)} (h : SwitchedOff param u) :
    ∀ line ∈ u, (line == label) = false := by
  obtain ⟨line, rfl, hline⟩ := switchedOff_cases h
  intro x hx
  obtain rfl := List.mem_singleton.mp hx
  exact not_label_of (f := paramLine param) (label_foreign.1 param).2.2 hline

theorem labels_le_params (text : List Char) :
    labels text ≤
      labels (dtparamPairs.foldl (fun out (pat, repl) => replaceAll pat repl out) text) := by
  have huncomment : ∀ (param : Param) text,
      labels text ≤ labels (replaceAll (uncommentRegex param) param.on text) := fun param text =>
    ((patches_uncommentRegex param).edited (word_on param).oneLine (word_on param).not_blank
      text).le_countP fun _ => not_label_of_commented param
  have hoff : ∀ (param : Param) text,
      labels text ≤ labels (replaceAll (offToOnRegex param) param.on text) := fun param text =>
    ((patches_offToOnRegex param).edited (word_on param).oneLine (word_on param).not_blank
      text).le_countP fun _ => not_label_of_switchedOff param
  exact Nat.le_trans (Nat.le_trans (Nat.le_trans (huncomment .i2cArm _) (huncomment .i2s _))
    (hoff .i2cArm _)) (hoff .i2s _)

theorem labels_eq (text : List Char) : labels text = (solid text).countP (·.text == label) := by
  rw [labels, content, List.countP_map]
  rfl

theorem labels_le_strip (text : List Char) : labels text ≤ labels (stripManagedBlock text) := by
  rw [labels_eq, labels_eq]
  refine (edited_strip text).le_countP fun u hu => ?_
  obtain ⟨-, -, hnotBanner, hnotOverlay, -⟩ := label_foreign
  obtain ⟨line, next, rfl, hbanner, hoverlay, -⟩ := block_cases hu
  intro x hx
  rcases List.mem_cons.mp hx with rfl | hx
  · exact not_label_of (f := banner) hnotBanner hbanner
  · obtain rfl := List.mem_singleton.mp hx
    exact not_label_of (f := overlayLine) hnotOverlay hoverlay

theorem labels_le_duplicates (hword : Word overlay) (text : List Char) :
    labels text ≤ labels (stripDuplicateDtoverlayLines text overlay) := by
  rw [labels_eq, labels_eq]
  refine (edited_duplicates hword text).le_countP fun u hu => ?_
  obtain ⟨-, -, -, -, hbare, hlead, hspace⟩ := label_foreign
  obtain ⟨line, rfl, hone, -⟩ | ⟨line, next, rfl, hkey, htoken, -⟩ := spread_cases hu
  · intro x hx
    obtain rfl := List.mem_singleton.mp hx
    refine not_label_of (f := standalone overlay) ?_ hone
    rw [standalone, hlead]
    rfl
  · intro x hx
    rcases List.mem_cons.mp hx with rfl | hx
    · exact not_label_of (f := bareOverlay) hbare hkey
    · obtain rfl := List.mem_singleton.mp hx
      refine not_label_of (f := alone overlay) ?_ htoken
      rw [alone, beq_eq_false_iff_ne]
      intro heq
      rw [heq] at hspace
      exact absurd (hword.noSpace _ hspace) (by decide)

/-- Parameters are added with a label, or the text is left as it is. -/
theorem ensure_cases (text : List Char) :
    ensureRaspberryPiI2cI2sDtparams text =
        dtparamPairs.foldl (fun out (pat, repl) => replaceAll pat repl out) text ∨
      labels text < labels (ensureRaspberryPiI2cI2sDtparams text) := by
  have hle := labels_le_params text
  rw [ensureRaspberryPiI2cI2sDtparams]
  generalize dtparamPairs.foldl (fun out (pat, repl) => replaceAll pat repl out) text = out at hle
  generalize isMatch (hasRegex .i2cArm) true out = hasI2c
  generalize isMatch (hasRegex .i2s) true out = hasI2s
  split
  · right
    have hadded : ∀ i2c i2s : Bool, 0 < labels (paramsLabel ++
        (if i2c then Param.i2cArm.on ++ ['\n'] else []) ++
          (if i2s then Param.i2s.on ++ ['\n'] else [])) := by
      decide
    have hmore := hadded (!hasI2c) (!hasI2s)
    unfold labels at hmore hle ⊢
    rw [List.append_assoc, List.append_assoc, List.cons_append, content_append, content_closed,
      List.countP_append]
    rw [List.append_assoc] at hmore
    omega
  · exact .inl rfl

-- ---------------------------------------------------------------------------
-- Applying twice
-- ---------------------------------------------------------------------------

theorem closed_of_ended {text : List Char} (h : Ended text) (hne : text ≠ []) : closed text = text :=
  if_pos (h.resolve_left hne)

theorem heavy_closed (text : List Char) : heavy (closed text) = heavy text := by
  have hnewline : heaviness '\n' = 0 := by decide
  rw [closed]
  split
  · rfl
  · simp [heavy, hnewline]

/-- The text that another apply leaves in front of the block is not the same again. -/
theorem applyBody_again (hword : Word overlay) (body : List Char) :
    closed (applyBody (body ++ '\n' :: newBlock overlay) overlay) ≠ body := by
  intro hsame
  have hnewline : heaviness '\n' = 0 := by decide
  have hagain : body ++ '\n' :: newBlock overlay = (body ++ ['\n']) ++ newBlock overlay := by simp
  have hended : Ended (body ++ ['\n']) := .inr (by simp)
  rw [applyBody] at hsame
  rcases ensure_cases (stripDuplicateDtoverlayLines
    (stripManagedBlock (body ++ '\n' :: newBlock overlay)) overlay) with hensure | hensure
  · have hlighter := ((lighter_strip_newBlock hword hended).trans
      (lighter_duplicates hword _)).trans (lighter_params _)
    rw [← hagain, ← replaceAll_eq] at hlighter
    rw [hensure] at hsame
    rcases hlighter with hunchanged | hlt
    · rw [stripManagedBlock, hunchanged, closed_of_ended hended (by simp)] at hsame
      exact absurd (congrArg List.length hsame) (by simp)
    · have hweight := congrArg heavy hsame
      rw [heavy_closed] at hweight
      simp only [heavy, weight_append, weight_cons, weight_nil, hnewline, stripManagedBlock]
        at hweight hlt
      omega
  · have hstrip := labels_le_strip (body ++ '\n' :: newBlock overlay)
    have hdup := labels_le_duplicates hword (stripManagedBlock (body ++ '\n' :: newBlock overlay))
    have hbody : labels body ≤ labels (body ++ '\n' :: newBlock overlay) := by
      rw [labels, labels, content_append, List.countP_append]
      exact Nat.le_add_right _ _
    have hclosed := congrArg labels hsame
    rw [labels, content_closed, ← labels] at hclosed
    omega

/-- What an apply should do, and what it should do to its own result. -/
structure Converges (text overlay out : List Char) : Prop where
  applied : composeApplyText text overlay = .ok out
  again : composeApplyText out overlay = .ok out
  declared : (content out).countP (standalone overlay) = 1

theorem valid_of_apply {text out : List Char} (h : composeApplyText text overlay = .ok out) :
    validateOverlayToken overlay = .ok () := by
  cases hvalid : validateOverlayToken overlay with
  | ok => rfl
  | error e =>
    rw [composeApplyText, hvalid] at h
    cases h

/-- No apply leaves its own result as it is: each adds a blank line, or takes away more. -/
theorem composeApplyText_never_converges (text overlay : List Char) :
    ¬∃ out, Converges text overlay out := by
  rintro ⟨out, happlied, hagain, -⟩
  have hvalid := valid_of_apply happlied
  rw [composeApplyText_eq hvalid] at happlied hagain
  obtain rfl := Except.ok.inj happlied
  have hbody := List.append_cancel_right (Except.ok.inj hagain)
  exact applyBody_again (word_of_valid hvalid) _ hbody

def plainSample : List Char := "enable_uart=1\n".toList

/-- The sample as it was applied, with so much in front of the block. -/
def appliedSample (gap : List Char) : List Char :=
  plainSample ++ '\n' :: paramsLabel ++ "dtparam=i2c_arm=on\ndtparam=i2s=on\n".toList ++ gap ++
    newBlock "hifiberry-dac".toList

theorem appliedSample_eq :
    (composeApplyText plainSample "hifiberry-dac".toList).toOption = some (appliedSample ['\n']) ∧
      (composeApplyText (appliedSample ['\n']) "hifiberry-dac".toList).toOption =
        some (appliedSample ['\n', '\n']) := by
  decide +kernel

/-- The second apply puts another blank line in front of the block. -/
theorem not_converges_plainSample : ¬∃ out, Converges plainSample "hifiberry-dac".toList out := by
  rintro ⟨out, happlied, hagain, -⟩
  obtain ⟨hfirst, hsecond⟩ := appliedSample_eq
  rw [happlied] at hfirst
  obtain rfl := Option.some.inj hfirst
  rw [hagain] at hsecond
  exact absurd (Option.some.inj hsecond) (by simp [appliedSample])

end EvoAudio.Boot
