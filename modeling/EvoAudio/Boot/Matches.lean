import EvoAudio.Boot.Config
import EvoAudio.Lib.LineEdits

/-!
# What the expressions of the boot configuration match

Each expression by the lines that are not blank: the managed block is a banner with
an ended overlay line behind it, a duplicate or a commented parameter is
one line, or a key and a word that stand alone on two.
-/

namespace EvoAudio.Boot

open Regex Lines Edits

-- ---------------------------------------------------------------------------
-- The managed block
-- ---------------------------------------------------------------------------

def bannerOf (owner : List Char) : List Char :=
  bannerOpening ++ (owner ++ bannerNotice)

/-- The banner of either owner, up to a carriage return. -/
def banner (line : List Char) : Bool :=
  (Text.stripPrefix (bannerOf "evo".toList) line).any endOfLine ||
    (Text.stripPrefix (bannerOf "Volumio".toList) line).any endOfLine

/-- A `dtoverlay=` line with any value. -/
def overlayLine (line : List Char) : Bool :=
  (leading overlayKey line).any fun value => endOfLine (value.dropWhile inLine)

/-- A banner and an ended overlay line behind it. -/
def Block : List Line → Prop
  | [line, next] => banner line.text ∧ overlayLine next.text ∧ next.ended
  | _ => False

theorem block_cases {u : List Line} (h : Block u) :
    ∃ line next, u = [line, next] ∧ banner line.text ∧ overlayLine next.text ∧ next.ended := by
  rcases u with _ | ⟨line, _ | ⟨next, _ | ⟨_, _⟩⟩⟩
  · exact h.elim
  · exact h.elim
  · exact ⟨line, next, rfl, h⟩
  · exact h.elim

theorem word_overlayKey : Word overlayKey := ⟨by decide, Text.forall_of_all (by decide)⟩

section BlockHead

variable {β : Type} {k : Cursor → Option β} {line : Line} {rest : List Char}

theorem notMem_of_stripPrefix {word text more : List Char} {x : Char} (h : x ∉ text)
    (hstrip : Text.stripPrefix word text = some more) : x ∉ more := by
  rw [Text.stripPrefix_eq_some hstrip] at h
  exact fun hmem => h (List.mem_append_right _ hmem)

theorem or_if (a b ended : Bool) (found : Option β) :
    (if a ∧ ended then found else none).or (if b ∧ ended then found else none) =
      if (a || b) ∧ ended then found else none := by
  cases a <;> cases b <;> cases ended <;> simp

/-- A text that stays on one line. -/
abbrev Piece (word : List Char) : Prop := word ≠ [] ∧ '\n' ∉ word

section Pieces

variable {r : List Atom} {opening owner other notice text : List Char}

theorem follow_notice (hnotice : Piece notice) (htext : '\n' ∉ text) (lineStart : Bool) :
    follow (lit notice :: optionalCr :: lit ['\n'] :: r) k
        ⟨lineStart, text ++ line.behind rest⟩ =
      if (Text.stripPrefix notice text).any endOfLine ∧ line.ended then follow r k ⟨true, rest⟩
      else none := by
  rw [follow_lit_behind hnotice.1 hnotice.2]
  cases hstrip : Text.stripPrefix notice text with
  | none => simp
  | some more => exact follow_crNewline (notMem_of_stripPrefix htext hstrip) false

theorem follow_owner (howner : Piece owner) (hnotice : Piece notice) (htext : '\n' ∉ text)
    (lineStart : Bool) :
    follow (lit owner :: lit notice :: optionalCr :: lit ['\n'] :: r) k
        ⟨lineStart, text ++ line.behind rest⟩ =
      if (Text.stripPrefix (owner ++ notice) text).any endOfLine ∧ line.ended then
        follow r k ⟨true, rest⟩
      else none := by
  rw [follow_lit_behind howner.1 howner.2, stripPrefix_append_left]
  cases hstrip : Text.stripPrefix owner text with
  | none => simp
  | some far => exact follow_notice hnotice (notMem_of_stripPrefix htext hstrip) false

theorem follow_opening (hopening : Piece opening) (howner : Piece owner) (hother : Piece other)
    (hnotice : Piece notice) (htext : '\n' ∉ text) (lineStart : Bool) :
    follow (lit opening :: .oneOf [owner, other] :: lit notice :: optionalCr :: lit ['\n'] :: r) k
        ⟨lineStart, text ++ line.behind rest⟩ =
      if ((Text.stripPrefix (opening ++ (owner ++ notice)) text).any endOfLine ||
          (Text.stripPrefix (opening ++ (other ++ notice)) text).any endOfLine) ∧ line.ended then
        follow r k ⟨true, rest⟩
      else none := by
  rw [follow_lit_behind hopening.1 hopening.2, stripPrefix_append_left, stripPrefix_append_left]
  cases hstrip : Text.stripPrefix opening text with
  | none => simp
  | some more =>
    have hmore := notMem_of_stripPrefix htext hstrip
    simp only [Option.bind_some]
    rw [follow_oneOf_pair, follow_owner howner hnotice hmore, follow_owner hother hnotice hmore]
    exact or_if ..

end Pieces

/-- The head of a block reads the banner and then the key of the next line. -/
theorem follow_blockHead (hline : '\n' ∉ line.text) :
    follow blockHead k ⟨true, line.text ++ line.behind rest⟩ =
      if banner line.text ∧ line.ended then
        follow [.many Text.isWhitespace, lit overlayKey] k ⟨true, rest⟩
      else none := by
  rw [blockHead, follow_lineStart, if_pos rfl]
  exact follow_opening (by decide) (by decide) (by decide) (by decide) hline true

end BlockHead

section Value

variable {line : Line} {value rest : List Char}

theorem inLine_stuck (lineStart : Bool) (x : Char) (xs : List Char) (hx : inLine x) :
    first [optionalCr, lit ['\n']] ⟨lineStart, x :: xs⟩ = none := by
  rw [inLine, Bool.and_eq_true, bne_iff_ne, bne_iff_ne] at hx
  rw [first_cr_newline, if_neg hx.2, if_neg hx.1]

theorem dropWhile_inLine_behind (value : List Char) (line : Line) (rest : List Char) :
    (value ++ line.behind rest).dropWhile inLine =
      value.dropWhile inLine ++ line.behind rest := by
  have hbehind : (line.behind rest).dropWhile inLine = line.behind rest := by
    rw [Line.behind]
    split
    · rw [List.dropWhile_cons, if_neg (by decide)]
    · rfl
  rw [List.dropWhile_append]
  split
  next hnil => rw [hbehind, List.isEmpty_iff.mp hnil, List.nil_append]
  next => rfl

theorem notMem_dropWhile {x : Char} {text : List Char} (h : x ∉ text) (p : Char → Bool) :
    x ∉ text.dropWhile p :=
  fun hmem => h ((List.dropWhile_suffix p).subset hmem)

/-- The value of an overlay line, up to its end. -/
theorem first_value (hvalue : '\n' ∉ value) (lineStart : Bool) :
    first [.many inLine, optionalCr, lit ['\n']] ⟨lineStart, value ++ line.behind rest⟩ =
      if endOfLine (value.dropWhile inLine) ∧ line.ended then some ⟨true, rest⟩ else none := by
  rw [first, follow_many_of_stuck inLine_stuck, skip_eq, dropWhile_inLine_behind]
  exact follow_crNewline (notMem_dropWhile hvalue inLine) _

end Value

section FirstBlock

variable {line next : Line} {rest far : List Char}

theorem first_managedBlockRegex_blank (hline : '\n' ∉ line.text)
    (hrest : rest.dropWhile Text.isWhitespace = []) :
    first managedBlockRegex ⟨true, line.text ++ line.behind rest⟩ = none := by
  rw [first, managedBlockRegex, follow_append, follow_blockHead hline,
    follow_word_blank word_overlayKey hrest, ite_self]

theorem first_managedBlockRegex (hline : '\n' ∉ line.text) (hnext : Next rest next far) :
    first managedBlockRegex ⟨true, line.text ++ line.behind rest⟩ =
      if (banner line.text ∧ line.ended) ∧ overlayLine next.text ∧ next.ended then
        some ⟨true, far⟩
      else none := by
  have hvalue : follow [.many Text.isWhitespace, lit overlayKey]
      (follow [.many inLine, optionalCr, lit ['\n']] some) ⟨true, rest⟩ =
        if overlayLine next.text ∧ next.ended then some ⟨true, far⟩ else none := by
    rw [follow_word word_overlayKey hnext, overlayLine]
    cases hlead : leading overlayKey next.text with
    | none => simp
    | some value => exact first_value (hnext.oneLine_leading hlead) false
  rw [first, managedBlockRegex, follow_append, follow_blockHead hline, hvalue]
  simp only [ite_and]

end FirstBlock

theorem exists_of_banner {line : List Char} (h : banner line) :
    ∃ rest, line = '#' :: '#' :: rest := by
  have hsplit : ∀ owner, (Text.stripPrefix (bannerOf owner) line).any endOfLine →
      ∃ rest, line = '#' :: '#' :: rest := by
    intro owner howner
    cases hstrip : Text.stripPrefix (bannerOf owner) line with
    | none => simp [hstrip] at howner
    | some more => exact ⟨_, Text.stripPrefix_eq_some hstrip⟩
  rw [banner, Bool.or_eq_true] at h
  exact h.elim (hsplit _) (hsplit _)

theorem not_blank_of_banner {line : List Char} (h : banner line) : blank line = false := by
  obtain ⟨rest, rfl⟩ := exists_of_banner h
  exact @not_blank_of_mem _ '#' (List.mem_cons_self ..) (by decide)

theorem cuts_managedBlockRegex : Cuts managedBlockRegex Block where
  consumes := @consumes_of_mem bannerOpening _ (by decide) (.tail _ (.head _))
  anchored := anchored_lineStart _
  unit_of_some := by
    intro text e hfirst
    obtain ⟨line, rest, rfl, hline, hlast⟩ := exists_line text
    obtain ⟨-, hblank⟩ | ⟨next, far, hnext⟩ := next_cases rest
    · rw [first_managedBlockRegex_blank hline hblank] at hfirst
      cases hfirst
    · rw [first_managedBlockRegex hline hnext] at hfirst
      split at hfirst
      next hif =>
        cases hfirst
        refine ⟨rfl, [line, next], ⟨hif.1.1, hif.2⟩, ?_⟩
        rw [(next_append_behind hline (not_blank_of_banner hif.1.1) hlast).solid_eq,
          hnext.solid_eq]
        rfl
      next => cases hfirst
  not_unit_of_none := by
    intro text hblank hfirst u hu hpre
    obtain ⟨a, b, rfl, hbanner, hoverlay⟩ := block_cases hu
    obtain ⟨line, rest, rfl, hline, hlast⟩ := exists_line text
    rw [firstLine_behind hline] at hblank
    rw [(next_append_behind hline hblank hlast).solid_eq, List.cons_prefix_cons] at hpre
    obtain ⟨rfl, hpre⟩ := hpre
    obtain ⟨hrest, -⟩ | ⟨next, far, hnext⟩ := next_cases rest
    · rw [hrest, List.prefix_nil] at hpre
      cases hpre
    · rw [hnext.solid_eq] at hpre
      obtain rfl := (List.cons_prefix_cons.mp hpre).1
      have hended := hnext.ended_before hlast
      rw [first_managedBlockRegex hline hnext, if_pos ⟨⟨hbanner, hended⟩, hoverlay⟩] at hfirst
      cases hfirst

-- ---------------------------------------------------------------------------
-- Reading the block
-- ---------------------------------------------------------------------------

/-- The token of a block that starts here. -/
def token : Cursor → Option (List Char) :=
  capture blockHead [.one inLine, .many inLine] [optionalCr, lit ['\n']]

theorem token_inside (text : List Char) : token ⟨false, text⟩ = none := by
  rw [token, capture, blockHead, follow_lineStart]
  rfl

theorem take_length_sub (xs ys rest : List Char) :
    (xs ++ ys ++ rest).take ((xs ++ ys ++ rest).length - (ys ++ rest).length) = xs := by
  rw [List.append_assoc, List.length_append, Nat.add_sub_cancel]
  exact List.take_left

theorem captured_value {line : Line} {value rest : List Char} (hvalue : '\n' ∉ value) :
    follow [.one inLine, .many inLine]
        (fun stop => (first [optionalCr, lit ['\n']] stop).map fun _ =>
          (value ++ line.behind rest).take ((value ++ line.behind rest).length - stop.rest.length))
        ⟨false, value ++ line.behind rest⟩ =
      if value.head?.any inLine ∧ endOfLine (value.dropWhile inLine) ∧ line.ended then
        some (value.takeWhile inLine)
      else none := by
  cases value with
  | nil =>
    rw [List.nil_append, Line.behind]
    cases line.ended with
    | false => simp [follow, Atom.ends]
    | true => simp [follow_one, inLine]
  | cons x value =>
    rw [List.mem_cons, not_or] at hvalue
    rw [List.cons_append, follow_one]
    cases hx : inLine x with
    | false => simp [hx]
    | true =>
      have hstuck : ∀ lineStart y ys, inLine y →
          follow [] (fun stop => (first [optionalCr, lit ['\n']] stop).map fun _ =>
            (x :: (value ++ line.behind rest)).take
              ((x :: (value ++ line.behind rest)).length - stop.rest.length))
            ⟨lineStart, y :: ys⟩ = none := by
        intro lineStart y ys hy
        rw [follow_nil, inLine_stuck lineStart y ys hy, Option.map_none]
      rw [if_pos rfl, follow_many_of_stuck hstuck, follow_nil, skip_eq, dropWhile_inLine_behind,
        first, follow_crNewline (notMem_dropWhile hvalue.2 inLine), List.dropWhile_cons, hx,
        if_pos rfl, List.takeWhile_cons, hx, if_pos rfl]
      simp only [List.head?_cons, Option.any_some, hx, true_and]
      split
      next =>
        have htake := take_length_sub (x :: value.takeWhile inLine) (value.dropWhile inLine)
          (line.behind rest)
        rw [List.cons_append, List.takeWhile_append_dropWhile] at htake
        exact congrArg some htake
      next => rfl

section Token

variable {line next : Line} {rest far : List Char}

theorem token_blank (hline : '\n' ∉ line.text) (hrest : rest.dropWhile Text.isWhitespace = []) :
    token ⟨true, line.text ++ line.behind rest⟩ = none := by
  rw [token, capture, follow_blockHead hline, follow_word_blank word_overlayKey hrest, ite_self]

theorem token_eq (hline : '\n' ∉ line.text) (hnext : Next rest next far) :
    token ⟨true, line.text ++ line.behind rest⟩ =
      if banner line.text ∧ line.ended then
        (leading overlayKey next.text).bind fun value =>
          if value.head?.any inLine ∧ endOfLine (value.dropWhile inLine) ∧ next.ended then
            some (value.takeWhile inLine)
          else none
      else none := by
  rw [token, capture, follow_blockHead hline, follow_word word_overlayKey hnext]
  cases hlead : leading overlayKey next.text with
  | none => rfl
  | some value =>
    simp only [Option.bind_some, follow_nil]
    rw [captured_value (hnext.oneLine_leading hlead)]

/-- A token is read from a block only. -/
theorem block_of_token {token' : List Char} (hline : '\n' ∉ line.text)
    (h : token ⟨true, line.text ++ line.behind rest⟩ = some token') :
    banner line.text ∧ ∃ next far, Next rest next far ∧ overlayLine next.text := by
  obtain ⟨-, hblank⟩ | ⟨next, far, hnext⟩ := next_cases rest
  · rw [token_blank hline hblank] at h
    cases h
  · rw [token_eq hline hnext] at h
    split at h
    next hbanner =>
      refine ⟨hbanner.1, next, far, hnext, ?_⟩
      obtain ⟨value, hlead, hvalue⟩ := Option.bind_eq_some_iff.mp h
      split at hvalue
      next hif =>
        rw [overlayLine, hlead]
        exact hif.2.1
      next => cases hvalue
    next => cases h

end Token

-- ---------------------------------------------------------------------------
-- Duplicates and parameters
-- ---------------------------------------------------------------------------

theorem first_lineStart (r : List Atom) (text : List Char) :
    first (.lineStart :: r) ⟨true, text⟩ = first r ⟨true, text⟩ := by
  rw [first, follow_lineStart, if_pos rfl, first]

theorem cuts_duplicateRegex {overlay : List Char} (h : Word overlay) :
    Cuts (duplicateRegex overlay) (Spread overlayKey overlay id) where
  consumes := consumes_of_mem word_overlayKey.ne_nil (.tail _ (.tail _ (.head _)))
  anchored := anchored_lineStart _
  unit_of_some := by
    intro text e hfirst
    rw [duplicateRegex, first_lineStart] at hfirst
    obtain ⟨u, e', hu, hsome, hQ, hsolid⟩ | ⟨hnone, -⟩ :=
      first_spread word_overlayKey h tail_toNewline true text
    · rw [hsome] at hfirst
      cases hfirst
      exact ⟨hQ, u, hu, hsolid⟩
    · rw [hnone] at hfirst
      cases hfirst
  not_unit_of_none := by
    intro text _ hfirst
    rw [duplicateRegex, first_lineStart] at hfirst
    obtain ⟨u, e, -, hsome, -⟩ | ⟨-, hunits⟩ :=
      first_spread word_overlayKey h tail_toNewline true text
    · rw [hsome] at hfirst
      cases hfirst
    · exact hunits

/-- A comment sign and a parameter that is on, on one line or on two. -/
def Commented (param : Param) : List (List Char) → Prop
  | [line] => (leading ['#'] line).any (alone param.on)
  | [line, next] => alone ['#'] line ∧ alone param.on next
  | _ => False

def SwitchedOff (param : Param) : List (List Char) → Prop
  | [line] => offValues.any fun value => alone (param.key ++ value) line
  | _ => False

theorem word_hash : Word ['#'] := ⟨by decide, Text.forall_of_all (by decide)⟩

theorem word_key (param : Param) : Word param.key := by
  cases param with
  | i2cArm => exact ⟨by decide, Text.forall_of_all (by decide)⟩
  | i2s => exact ⟨by decide, Text.forall_of_all (by decide)⟩

theorem word_on (param : Param) : Word param.on :=
  (word_key param).append (Text.forall_of_all (by decide))

theorem commented_map {param : Param} {u : List Line} :
    Commented param (u.map Line.text) ↔ Spread ['#'] param.on (fun _ => true) u := by
  rcases u with _ | ⟨a, _ | ⟨b, _ | ⟨_, _⟩⟩⟩ <;> simp [Commented, Spread]

theorem exists_map_of_prefix {u : List (List Char)} {text : List Char} (h : u <+: content text) :
    ∃ us, us <+: solid text ∧ us.map Line.text = u := by
  refine ⟨(solid text).take u.length, List.take_prefix _ _, ?_⟩
  rw [List.map_take]
  exact (List.prefix_iff_eq_take.mp h).symm

theorem patches_uncommentRegex (param : Param) :
    Patches (uncommentRegex param) (Commented param) where
  consumes := consumes_of_mem word_hash.ne_nil (.tail _ (.tail _ (.head _)))
  anchored := anchored_lineStart _
  unit_of_some := by
    intro text e hfirst
    rw [uncommentRegex, first_lineStart] at hfirst
    obtain ⟨u, e', hu, hsome, hQ, hsolid⟩ | ⟨hnone, -⟩ :=
      first_spread word_hash (word_on param) tail_toLineEnd true text
    · rw [hsome] at hfirst
      cases hfirst
      refine ⟨hQ, u.map Line.text, commented_map.mpr hu, ?_⟩
      rw [content, hsolid, List.map_append, content]
    · rw [hnone] at hfirst
      cases hfirst
  not_unit_of_none := by
    intro text hfirst u hu hpre
    rw [uncommentRegex, first_lineStart] at hfirst
    obtain ⟨us, hus, rfl⟩ := exists_map_of_prefix hpre
    obtain ⟨_, e, -, hsome, -⟩ | ⟨-, hunits⟩ :=
      first_spread word_hash (word_on param) tail_toLineEnd true text
    · rw [hsome] at hfirst
      cases hfirst
    · exact hunits us (commented_map.mp hu) hus

theorem offValues_noSpace :
    ∀ value ∈ offValues, ∀ x ∈ value, Text.isWhitespace x = false := by
  intro value hvalue
  simp only [offValues, List.mem_cons, List.not_mem_nil, or_false] at hvalue
  rcases hvalue with rfl | rfl | rfl
  all_goals exact Text.forall_of_all (by decide)

theorem patches_offToOnRegex (param : Param) :
    Patches (offToOnRegex param) (SwitchedOff param) where
  consumes := consumes_of_mem (word_key param).ne_nil (.tail _ (.tail _ (.head _)))
  anchored := anchored_lineStart _
  unit_of_some := by
    intro text e hfirst
    rw [offToOnRegex, first_lineStart] at hfirst
    obtain ⟨-, hblank⟩ | ⟨line, rest, hnext⟩ := next_cases text
    · rw [first, follow_word_blank (word_key param) hblank] at hfirst
      cases hfirst
    · have hspec := first_oneOf (word_key param) offValues_noSpace tail_toLineEnd hnext true
      split at hspec
      next hif =>
        obtain ⟨e', hsome, hQ, hsolid⟩ := hspec
        rw [hsome] at hfirst
        cases hfirst
        refine ⟨hQ, [line.text], hif.1, ?_⟩
        rw [content, hnext.solid_eq, content, hsolid]
        rfl
      next =>
        rw [hspec] at hfirst
        cases hfirst
  not_unit_of_none := by
    rintro text hfirst (_ | ⟨a, _ | ⟨b, u⟩⟩) hu hpre
    · exact hu
    · rw [offToOnRegex, first_lineStart] at hfirst
      obtain ⟨hnone, -⟩ | ⟨line, rest, hnext⟩ := next_cases text
      · rw [content, hnone, List.map_nil, List.prefix_nil] at hpre
        cases hpre
      · rw [content, hnext.solid_eq, List.map_cons, List.cons_prefix_cons] at hpre
        obtain ⟨rfl, -⟩ := hpre
        have hspec := first_oneOf (word_key param) offValues_noSpace tail_toLineEnd hnext true
        rw [if_pos ⟨hu, rfl⟩] at hspec
        obtain ⟨e, hsome, -⟩ := hspec
        rw [hsome] at hfirst
        cases hfirst
    · exact hu

end EvoAudio.Boot
