import EvoAudio.Boot.Kinds

/-!
# What each edit of the boot configuration makes of its lines

Stripping leaves the lines outside the managed blocks, or more when the last block
has no newline; duplicates are cut out; the parameter edits put lines in the place
of others and keep the rest.
-/

namespace EvoAudio.Boot

open Regex Lines Edits

-- ---------------------------------------------------------------------------
-- The managed blocks
-- ---------------------------------------------------------------------------

/-- An overlay line at the end of a text without a newline. -/
def openOverlay (line : Line) : Bool := overlayLine line.text && !line.ended

theorem outside_block {line next : Line} (hbanner : banner line.text)
    (hoverlay : overlayLine next.text) (rest : List Line) :
    outside (line :: next :: rest) = outside rest := by
  rw [outside, hbanner, hoverlay]
  rfl

theorem outside_run {s : List Line} (h : Run Block s) (rest : List Line) :
    outside (s ++ rest) = outside rest := by
  have hblock : ∀ u, Block u → ∀ rest, outside (u ++ rest) = outside rest := by
    intro u hu rest
    obtain ⟨line, next, rfl, hbanner, hoverlay, -⟩ := block_cases hu
    exact outside_block hbanner hoverlay rest
  induction h with
  | one hu => exact hblock _ hu rest
  | more hu _ ih => rw [List.append_assoc, hblock _ hu, ih]

theorem eq_outside {lines lines' : List Line} (h : Edited Block (· = []) lines lines')
    (hclosed : pairs (banner ∘ Line.text) openOverlay lines = 0) : lines' = outside lines := by
  induction h with
  | nil => rfl
  | @keep line lines lines' hkeep _ ih =>
    have hrest : pairs (banner ∘ Line.text) openOverlay lines = 0 := by
      rw [pairs_cons] at hclosed
      omega
    rw [ih hrest]
    cases lines with
    | nil => rfl
    | cons next lines =>
      rw [outside, if_neg]
      rw [Bool.and_eq_true]
      rintro ⟨hbanner, hoverlay⟩
      cases hended : next.ended with
      | true => exact hkeep [line, next] ⟨hbanner, hoverlay, hended⟩ ⟨lines, rfl⟩
      | false =>
        have hopen : openOverlay next := by
          rw [openOverlay, hoverlay, hended]
          rfl
        have hpos := @pairs_pos_of_head _ (banner ∘ Line.text) openOverlay _ _ hbanner hopen lines
        omega
  | @replace s m lines lines' hrun hm _ ih =>
    have hrest := @pairs_le_append _ (banner ∘ Line.text) openOverlay s lines
    rw [hm, outside_run hrun, List.nil_append, ih (by omega)]

/-- An open block stays, whatever is stripped. -/
theorem pairs_open_le {lines lines' : List Line} (h : Edited Block (· = []) lines lines') :
    pairs (banner ∘ Line.text) openOverlay lines ≤
      pairs banner overlayLine (lines'.map Line.text) := by
  rw [pairs_map]
  refine Nat.le_trans (h.pairs_le ?_ ?_ ?_) (pairs_mono ?_ _)
  · rintro u hu rfl
    exact hu
  · intro u hu x hx
    obtain ⟨line, next, rfl, hbanner, -, hended⟩ := block_cases hu
    rcases List.mem_cons.mp hx with rfl | hx
    · rw [openOverlay, overlayLine_of_banner hbanner, Bool.false_and]
    · obtain rfl := List.mem_singleton.mp hx
      rw [openOverlay, hended, Bool.not_true, Bool.and_false]
  · intro u hu x hx
    obtain ⟨line, next, rfl, -, hoverlay, -⟩ := block_cases hu
    obtain rfl : next = x := by simpa using hx
    rw [Function.comp_apply, ← Bool.not_eq_true]
    intro hbanner
    rw [overlayLine_of_banner hbanner] at hoverlay
    cases hoverlay
  · intro line hline
    rw [openOverlay, Bool.and_eq_true] at hline
    exact hline.1

-- ---------------------------------------------------------------------------
-- Duplicates
-- ---------------------------------------------------------------------------

section Duplicates

variable {overlay : List Char} {lines lines' : List Line}

/-- The lines that are not a duplicate of the overlay line. -/
def others (overlay : List Char) (lines : List Line) : List Line :=
  lines.filter fun line => !(standalone overlay line.text && line.ended)

/-- The overlay on a line of its own. -/
def endedToken (overlay : List Char) (line : Line) : Bool :=
  alone overlay line.text && line.ended

theorem eq_others (h : Edited (Spread overlayKey overlay id) (· = []) lines lines')
    (happart : pairs (bareOverlay ∘ Line.text) (endedToken overlay) lines = 0) :
    lines' = others overlay lines := by
  refine h.eq_filter ?_ ?_ happart
  · intro line hline
    rw [Bool.not_eq_false', Bool.and_eq_true] at hline
    exact hline
  · intro u hu
    obtain ⟨line, rfl, hone⟩ | ⟨line, next, rfl, hkey, htoken⟩ := spread_cases hu
    · refine .inr fun x hx => ?_
      obtain rfl := List.mem_singleton.mp hx
      rw [Bool.not_eq_false', Bool.and_eq_true]
      exact hone
    · have hnext : endedToken overlay next := by
        rw [endedToken, Bool.and_eq_true]
        exact htoken
      have hline : (bareOverlay ∘ Line.text) line := hkey
      exact .inl (pairs_pos_of_head hline hnext [])

/-- Every `dtoverlay=` that is read together with the next line is lost. -/
theorem countP_bareOverlay_duplicates (hword : Word overlay) (hne : overlay ≠ overlayKey)
    (h : Edited (Spread overlayKey overlay id) (· = []) lines lines') :
    lines'.countP (bareOverlay ∘ Line.text) +
        pairs (bareOverlay ∘ Line.text) (endedToken overlay) lines ≤
      lines.countP (bareOverlay ∘ Line.text) := by
  refine h.countP_add_pairs_le ?_ ?_ ?_
  · intro a b ha hb
    rw [endedToken, Bool.and_eq_true] at hb
    exact ⟨ha, hb⟩
  · intro u hu zs
    obtain ⟨line, rfl, hone, -⟩ | ⟨line, next, rfl, hkey, htoken, -⟩ := spread_cases hu
    · have hline := bareOverlay_of_standalone hword hone
      simp [pairs_cons, hline]
    · have hnext : bareOverlay next.text = false := by
        rw [← Bool.not_eq_true]
        exact fun hnext => hne (alone_unique htoken hnext)
      have hline : bareOverlay line.text = true := hkey
      rw [List.cons_append, List.cons_append, List.nil_append, pairs_cons, pairs_cons]
      simp only [Function.comp_apply, hline, hnext, List.countP_cons, List.countP_nil,
        Bool.false_and, Bool.false_eq_true, if_false, if_true]
      split <;> omega
  · rintro m rfl x hx
    cases hx

end Duplicates

-- ---------------------------------------------------------------------------
-- Parameters
-- ---------------------------------------------------------------------------

section Params

variable {param : Param} {xs ys : List (List Char)}

theorem commented_cases {u : List (List Char)} (h : Commented param u) :
    (∃ line, u = [line] ∧ commentedOn param line) ∨
      ∃ line next, u = [line, next] ∧ bareHash line ∧ alone param.on next := by
  rcases u with _ | ⟨line, _ | ⟨next, _ | ⟨_, _⟩⟩⟩
  · exact h.elim
  · exact .inl ⟨line, rfl, h⟩
  · exact .inr ⟨line, next, rfl, h⟩
  · exact h.elim

theorem switchedOff_cases {u : List (List Char)} (h : SwitchedOff param u) :
    ∃ line, u = [line] ∧ paramLine param line := by
  rcases u with _ | ⟨line, _ | ⟨_, _⟩⟩
  · exact h.elim
  · exact ⟨line, rfl, paramLine_of_off h⟩
  · exact h.elim

/-- The line that is put in the place of others is a line of the parameter. -/
theorem repeated_cases {m : List (List Char)} (h : Repeated param.on m) :
    ∃ line, m = [line] ∧ paramLine param line := by
  obtain ⟨n, rfl⟩ := h
  refine ⟨_, rfl, ?_⟩
  rw [List.replicate_succ, List.flatten_cons, Param.on, List.append_assoc, paramLine,
    leading_append (word_key param)]
  rfl

theorem forall_repeated {m : List (List Char)} {f : List Char → Bool}
    (hf : ∀ line, paramLine param line → f line = false) (h : Repeated param.on m) :
    ∀ line ∈ m, f line = false := by
  obtain ⟨line, rfl, hline⟩ := repeated_cases h
  intro x hx
  obtain rfl := List.mem_singleton.mp hx
  exact hf _ hline

/-- One of the two edits of a parameter. -/
def Switches (param : Param) (xs ys : List (List Char)) : Prop :=
  Edited (Commented param) (Repeated param.on) xs ys ∨
    Edited (SwitchedOff param) (Repeated param.on) xs ys

section Pairs

variable {p q : List Char → Bool}

theorem repeated_apart (hp : ∀ line, paramLine param line → p line = false)
    (hq : ∀ line, paramLine param line → q line = false) :
    ∀ m, Repeated param.on m → m ≠ [] ∧ ∀ x ∈ m, p x = false ∧ q x = false := by
  intro m hm
  refine ⟨?_, fun x hx => ⟨forall_repeated hp hm x hx, forall_repeated hq hm x hx⟩⟩
  obtain ⟨line, rfl, -⟩ := repeated_cases hm
  exact List.cons_ne_nil _ _

/-- Switching on a commented parameter keeps the pairs that have no part in it. -/
theorem pairs_commented (h : Edited (Commented param) (Repeated param.on) xs ys)
    (hp : ∀ line, paramLine param line → p line = false)
    (hq : ∀ line, paramLine param line → q line = false)
    (hcommented : ∀ line, commentedOn param line → p line = false)
    (hhash : ∀ line, (leading ['#'] line).isSome → q line = false) :
    pairs p q ys = pairs p q xs := by
  refine Nat.le_antisymm (h.pairs_ge (repeated_apart hp hq)) (h.pairs_le ?_ ?_ ?_)
  · rintro u hu rfl
    exact hu
  · intro u hu x hx
    obtain ⟨line, rfl, hline⟩ | ⟨line, next, rfl, hline, hnext⟩ := commented_cases hu
    · obtain rfl := List.mem_singleton.mp hx
      exact hhash _ (hash_of_commentedOn hline)
    · rcases List.mem_cons.mp hx with rfl | hx
      · exact hhash _ (leading_of_alone word_hash hline)
      · obtain rfl := List.mem_singleton.mp hx
        exact hq _ (paramLine_of_on hnext)
  · intro u hu x hx
    obtain ⟨line, rfl, hline⟩ | ⟨line, next, rfl, -, hnext⟩ := commented_cases hu
    · obtain rfl : line = x := by simpa using hx
      exact hcommented _ hline
    · obtain rfl : next = x := by simpa using hx
      exact hp _ (paramLine_of_on hnext)

theorem pairs_switchedOff (h : Edited (SwitchedOff param) (Repeated param.on) xs ys)
    (hp : ∀ line, paramLine param line → p line = false)
    (hq : ∀ line, paramLine param line → q line = false) : pairs p q ys = pairs p q xs := by
  refine Nat.le_antisymm (h.pairs_ge (repeated_apart hp hq)) (h.pairs_le ?_ ?_ ?_)
  · rintro u hu rfl
    exact hu
  · intro u hu x hx
    obtain ⟨line, rfl, hline⟩ := switchedOff_cases hu
    obtain rfl := List.mem_singleton.mp hx
    exact hq _ hline
  · intro u hu x hx
    obtain ⟨line, rfl, hline⟩ := switchedOff_cases hu
    obtain rfl : line = x := by simpa using hx
    exact hp _ hline

end Pairs

theorem Switches.blocks_eq (h : Switches param xs ys) :
    pairs banner overlayLine ys = pairs banner overlayLine xs := by
  rcases h with h | h
  · exact pairs_commented h (fun _ => banner_of_param) (fun _ => overlayLine_of_param)
      (fun _ => banner_of_commentedOn) fun _ => overlayLine_of_hash
  · exact pairs_switchedOff h (fun _ => banner_of_param) fun _ => overlayLine_of_param

/-- Lines of another kind than the parameters do not get more. -/
theorem Switches.countP_le {f : List Char → Bool} (h : Switches param xs ys)
    (hf : ∀ line, paramLine param line → f line = false) : ys.countP f ≤ xs.countP f := by
  rcases h with h | h
  · exact h.countP_le fun m hm => forall_repeated hf hm
  · exact h.countP_le fun m hm => forall_repeated hf hm

/-- Every comment sign that is read together with the next line is lost. -/
theorem countP_bareHash_commented
    (h : Edited (Commented param) (Repeated param.on) xs ys) :
    ys.countP bareHash + pairs bareHash (alone param.on) xs ≤ xs.countP bareHash := by
  refine h.countP_add_pairs_le (fun a b ha hb => ⟨ha, hb⟩) ?_
    fun m hm => forall_repeated (fun _ => bareHash_of_param) hm
  intro u hu zs
  obtain ⟨line, rfl, hline⟩ | ⟨line, next, rfl, hline, hnext⟩ := commented_cases hu
  · have hline' := bareHash_of_commentedOn hline
    simp [pairs_cons, hline']
  · have hnext' := bareHash_of_param (paramLine_of_on hnext)
    rw [List.cons_append, List.cons_append, List.nil_append, pairs_cons, pairs_cons]
    simp only [hline, hnext', List.countP_cons, List.countP_nil, Bool.false_and,
      Bool.false_eq_true, if_false, if_true]
    split <;> omega

theorem key_apart_key : ¬ (Param.i2cArm.key <+: Param.i2s.key ∨
    Param.i2s.key <+: Param.i2cArm.key) := by decide

theorem on_i2s_of_i2cArm {line : List Char} (h : paramLine .i2cArm line) :
    alone Param.i2s.on line = false := by
  rw [← Bool.not_eq_true]
  intro hon
  have hi2s := paramLine_of_on hon
  rw [paramLine, leading_eq_none h key_apart_key] at hi2s
  cases hi2s

theorem on_of_hash {line : List Char} (h : (leading ['#'] line).isSome) :
    alone param.on line = false := by
  rw [← Bool.not_eq_true]
  intro hon
  have hparam := paramLine_of_on hon
  rw [paramLine_of_hash h] at hparam
  cases hparam

/-- Switching on the one parameter leaves the comment signs before the other. -/
theorem pairs_i2s_eq (h : Edited (Commented .i2cArm) (Repeated Param.i2cArm.on) xs ys) :
    pairs bareHash (alone Param.i2s.on) ys = pairs bareHash (alone Param.i2s.on) xs :=
  pairs_commented h (fun _ => bareHash_of_param) (fun _ => on_i2s_of_i2cArm)
    (fun _ => bareHash_of_commentedOn) fun _ => on_of_hash

section Guarded

variable {overlay : List Char}

theorem guarded_of_dtparamLine {line : List Char} (h : dtparamLine line) :
    guarded overlay line = false := by
  rw [guarded, h, Bool.not_true, Bool.and_false]

theorem filter_guarded_commented
    (h : Edited (Commented param) (Repeated param.on) xs ys)
    (hpairs : pairs bareHash (alone param.on) xs = 0) :
    (xs.filter (guarded overlay)).Sublist ys := by
  refine h.filter_sublist ?_ hpairs
  intro u hu
  obtain ⟨line, rfl, hline⟩ | ⟨line, next, rfl, hline, hnext⟩ := commented_cases hu
  · refine .inr fun x hx => ?_
    obtain rfl := List.mem_singleton.mp hx
    exact guarded_of_dtparamLine (dtparamLine_of_commentedOn hline)
  · exact .inl (pairs_pos_of_head hline hnext [])

theorem filter_guarded_switchedOff
    (h : Edited (SwitchedOff param) (Repeated param.on) xs ys) :
    (xs.filter (guarded overlay)).Sublist ys := by
  have hnone : pairs bareHash (fun _ => false) xs = 0 := pairs_eq_zero_of_no_q fun _ _ => rfl
  refine h.filter_sublist ?_ hnone
  intro u hu
  obtain ⟨line, rfl, hline⟩ := switchedOff_cases hu
  refine .inr fun x hx => ?_
  obtain rfl := List.mem_singleton.mp hx
  exact guarded_of_dtparamLine (dtparamLine_of_param hline)

end Guarded

end Params

-- ---------------------------------------------------------------------------
-- All parameter edits
-- ---------------------------------------------------------------------------

/-- A line that is no part of a block and is not read together with another. -/
def inert (line : List Char) : Bool :=
  !banner line && !overlayLine line && !bareHash line && !bareOverlay line

theorem content_closed (text : List Char) : content (closed text) = content text := by
  rw [closed]
  split
  · rfl
  · exact content_concat_newline text

theorem inert_params (i2c i2s : Bool) :
    ∀ line ∈ content (paramsLabel ++ (if i2c then Param.i2cArm.on ++ ['\n'] else []) ++
      (if i2s then Param.i2s.on ++ ['\n'] else [])), inert line := by
  refine List.all_eq_true.mp ?_
  cases i2c <;> cases i2s <;> decide +kernel

theorem content_ensure (text : List Char) :
    ∃ added, content (ensureRaspberryPiI2cI2sDtparams text) =
        content (dtparamPairs.foldl (fun out (pat, repl) => replaceAll pat repl out) text) ++
          added ∧
      ∀ line ∈ added, inert line := by
  rw [ensureRaspberryPiI2cI2sDtparams]
  generalize dtparamPairs.foldl (fun out (pat, repl) => replaceAll pat repl out) text = out
  generalize isMatch (hasRegex .i2cArm) true out = hasI2c
  generalize isMatch (hasRegex .i2s) true out = hasI2s
  split
  · refine ⟨_, ?_, inert_params (!hasI2c) (!hasI2s)⟩
    rw [List.append_assoc, List.append_assoc, List.cons_append, content_append, content_closed,
      List.append_assoc]
  · exact ⟨[], (List.append_nil _).symm, by simp⟩

/-- The four edits one after the other, and the lines behind them. -/
theorem exists_steps (text : List Char) :
    ∃ a b c d added,
      Edited (Commented .i2cArm) (Repeated Param.i2cArm.on) (content text) a ∧
      Edited (Commented .i2s) (Repeated Param.i2s.on) a b ∧
      Edited (SwitchedOff .i2cArm) (Repeated Param.i2cArm.on) b c ∧
      Edited (SwitchedOff .i2s) (Repeated Param.i2s.on) c d ∧
      content (ensureRaspberryPiI2cI2sDtparams text) = d ++ added ∧
      ∀ line ∈ added, inert line := by
  have huncomment : ∀ param text, Edited (Commented param) (Repeated param.on) (content text)
      (content (replaceAll (uncommentRegex param) param.on text)) := fun param =>
    (patches_uncommentRegex param).edited (word_on param).oneLine (word_on param).not_blank
  have hoff : ∀ param text, Edited (SwitchedOff param) (Repeated param.on) (content text)
      (content (replaceAll (offToOnRegex param) param.on text)) := fun param =>
    (patches_offToOnRegex param).edited (word_on param).oneLine (word_on param).not_blank
  obtain ⟨added, hcontent, hadded⟩ := content_ensure text
  exact ⟨_, _, _, _, added, huncomment .i2cArm _, huncomment .i2s _, hoff .i2cArm _, hoff .i2s _,
    hcontent, hadded⟩

/-- What the parameter edits do to blocks, to bare keys and comment signs, and to
the lines that have to be kept. -/
structure Ensures (xs ys : List (List Char)) : Prop where
  blocks_eq : pairs banner overlayLine ys = pairs banner overlayLine xs
  countP_bareOverlay : ys.countP bareOverlay ≤ xs.countP bareOverlay
  countP_bareHash : ys.countP bareHash + pairs bareHash (alone Param.i2cArm.on) xs +
    pairs bareHash (alone Param.i2s.on) xs ≤ xs.countP bareHash
  filter_guarded : (∀ param : Param, pairs bareHash (alone param.on) xs = 0) →
    ∀ overlay, (xs.filter (guarded overlay)).Sublist ys

theorem inert_iff {line : List Char} : inert line ↔ banner line = false ∧
    overlayLine line = false ∧ bareHash line = false ∧ bareOverlay line = false := by
  simp [inert, and_assoc]

theorem filter_sublist_trans {α : Type} {f : α → Bool} {xs ys zs : List α}
    (h : (xs.filter f).Sublist ys) (h' : (ys.filter f).Sublist zs) : (xs.filter f).Sublist zs := by
  have hfilter := h.filter f
  rw [List.filter_filter] at hfilter
  simp only [Bool.and_self] at hfilter
  exact hfilter.trans h'

theorem ensures (text : List Char) :
    Ensures (content text) (content (ensureRaspberryPiI2cI2sDtparams text)) := by
  obtain ⟨a, b, c, d, added, ha, hb, hc, hd, hcontent, hadded⟩ := exists_steps text
  have hcount : ∀ f : List Char → Bool, (∀ line, inert line → f line = false) →
      (d ++ added).countP f = d.countP f := by
    intro f hf
    have hnone : added.countP f = 0 := by
      rw [List.countP_eq_zero]
      exact fun line hline => by simp [hf line (hadded line hline)]
    rw [List.countP_append, hnone, Nat.add_zero]
  rw [hcontent]
  refine ⟨?_, ?_, ?_, ?_⟩
  · have hadded' : pairs banner overlayLine added = 0 :=
      pairs_eq_zero_of_no_q fun line hline => (inert_iff.mp (hadded line hline)).2.1
    have hhead : ∀ line ∈ added.head?, overlayLine line = false :=
      fun line hline => (inert_iff.mp (hadded line (List.mem_of_mem_head? hline))).2.1
    calc pairs banner overlayLine (d ++ added)
      _ = pairs banner overlayLine d := by rw [pairs_append hhead, hadded', Nat.add_zero]
      _ = pairs banner overlayLine c := Switches.blocks_eq (.inr hd)
      _ = pairs banner overlayLine b := Switches.blocks_eq (.inr hc)
      _ = pairs banner overlayLine a := Switches.blocks_eq (.inl hb)
      _ = pairs banner overlayLine (content text) := Switches.blocks_eq (.inl ha)
  · rw [hcount _ fun line hline => (inert_iff.mp hline).2.2.2]
    have hparam : ∀ param line, paramLine param line → bareOverlay line = false :=
      fun _ _ => bareOverlay_of_param
    calc d.countP bareOverlay
      _ ≤ c.countP bareOverlay := Switches.countP_le (.inr hd) (hparam _)
      _ ≤ b.countP bareOverlay := Switches.countP_le (.inr hc) (hparam _)
      _ ≤ a.countP bareOverlay := Switches.countP_le (.inl hb) (hparam _)
      _ ≤ (content text).countP bareOverlay := Switches.countP_le (.inl ha) (hparam _)
  · rw [hcount _ fun line hline => (inert_iff.mp hline).2.2.1]
    have hparam : ∀ param line, paramLine param line → bareHash line = false :=
      fun _ _ => bareHash_of_param
    have hd' := Switches.countP_le (.inr hd) (hparam _)
    have hc' := Switches.countP_le (.inr hc) (hparam _)
    have hb' := countP_bareHash_commented hb
    have ha' := countP_bareHash_commented ha
    rw [pairs_i2s_eq ha] at hb'
    omega
  · intro hpairs overlay
    have hb' : pairs bareHash (alone Param.i2s.on) a = 0 := by
      rw [pairs_i2s_eq ha]
      exact hpairs .i2s
    have hab := filter_sublist_trans (filter_guarded_commented ha (hpairs .i2cArm))
      (@filter_guarded_commented _ _ _ overlay hb hb')
    have hcd := filter_sublist_trans (filter_sublist_trans hab (filter_guarded_switchedOff hc))
      (filter_guarded_switchedOff hd)
    exact hcd.trans (List.sublist_append_left _ _)

end EvoAudio.Boot
