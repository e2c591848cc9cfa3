import EvoAudio.Lib.ByteSlices
import EvoAudio.Names.Album
import EvoAudio.Names.Brackets

/-!
# The slices of an album title

The strippers of `album_name.rs` as they index a title, by bytes: each slice is
`none` where it is not at character boundaries. Those at brackets, dashes and
digits always are. The one behind the last white space is taken one byte on, and
is none where that white space is wider.
-/

namespace EvoAudio.Names

open Text (byte encode len sliceTo sliceFrom slice rposition rfind rfindWhere findWhere)

-- ---------------------------------------------------------------------------
-- Searching and slicing
-- ---------------------------------------------------------------------------

def openingByte (close : UInt8) : Option UInt8 :=
  if close = byte ')' then some (byte '(')
  else if close = byte ']' then some (byte '[')
  else none

/-- Where the group at the end opens. -/
def openIndex (trimmed : List Char) : Option Nat := do
  let close ← (encode trimmed).getLast?
  rposition (← openingByte close) (encode trimmed)

/-- The text before the group at the end when what is in it passes. -/
def sliceGroup (accepts : List Char → Bool) (trimmed : List Char) : Option (Option (List Char)) :=
  match openIndex trimmed with
  | none => some none
  | some openIdx => do
    let inner ← slice trimmed (openIdx + 1) (len trimmed - 1)
    if accepts (Text.trim inner) then do
      let before ← sliceTo trimmed openIdx
      return some (Text.trimEnd before)
    else return none

def sliceParenDiscSuffix (trimmed : List Char) : Option (Option (List Char)) :=
  sliceGroup (fun inner => (parseDiscGroup inner).isSome) trimmed

def sliceDashes (trimmed : List Char) : List (List Char) → Option (Option (List Char))
  | [] => some none
  | delim :: delims =>
    match rfind delim trimmed with
    | none => sliceDashes trimmed delims
    | some idx => do
      let tail ← sliceFrom trimmed (idx + len delim)
      if (parseDiscGroup (Text.trim tail)).isSome then do
        let before ← sliceTo trimmed idx
        return some (Text.trimEnd before)
      else sliceDashes trimmed delims

def sliceDashDiscSuffix (trimmed : List Char) : Option (Option (List Char)) :=
  sliceDashes trimmed [" - ".toList, " – ".toList, " — ".toList]

def sliceGluedDiscSuffix (trimmed : List Char) : Option (Option (List Char)) :=
  match rfindWhere Text.isWhitespace trimmed with
  | none => some none
  | some lastSpace => do
    let tail ← sliceFrom trimmed (lastSpace + 1)
    if tail.isEmpty then return none
    let lower := Text.asciiLower tail
    match findWhere Char.isDigit lower with
    | none => return none
    | some digitStart => do
      if digitStart = 0 then return none
      let label ← sliceTo lower digitStart
      let digits ← sliceFrom lower digitStart
      if !digits.all Char.isDigit then return none
      if isDiscLabel label then do
        let before ← sliceTo trimmed lastSpace
        return some (Text.trimEnd before)
      else return none

def sliceTrailingDiscSuffix (s : List Char) : Option (List Char) := do
  let trimmed := Text.trimEnd s
  if len trimmed < 3 then return trimmed
  if let some stripped ← sliceParenDiscSuffix trimmed then return stripped
  if let some stripped ← sliceDashDiscSuffix trimmed then return stripped
  if let some stripped ← sliceGluedDiscSuffix trimmed then return stripped
  return trimmed

def sliceOneTrailingEdition (s : List Char) : Option (Option (List Char)) :=
  let trimmed := Text.trimEnd s
  if len trimmed < 3 then some none else sliceGroup isEditionQualifier trimmed

def sliceEditions : Nat → List Char → Option (List Char)
  | 0, s => some s
  | fuel + 1, s => do
    match ← sliceOneTrailingEdition s with
    | some stripped => sliceEditions fuel stripped
    | none => return s

def sliceTrailingEditionQualifier (s : List Char) : Option (List Char) :=
  sliceEditions s.length (Text.trimEnd s)

def sliceCleanAlbumTitle (u : Unicode) (raw : List Char) : Option (List Char) := do
  let trimmed := Text.trim raw
  if trimmed.isEmpty then return []
  let withoutDisc ← sliceTrailingDiscSuffix trimmed
  let withoutEdition ← sliceTrailingEditionQualifier withoutDisc
  return u.nfc (if (Text.trim withoutEdition).isEmpty then trimmed else withoutEdition)

-- ---------------------------------------------------------------------------
-- The slices are where the text is cut
-- ---------------------------------------------------------------------------

/-- The last byte closes a group when the last character does. -/
theorem bind_openingByte (trimmed : List Char) :
    (encode trimmed).getLast?.bind openingByte = (trimmed.getLast?.bind opening).map byte := by
  by_cases hround : trimmed.getLast? = some ')'
  · rw [(Text.getLast?_encode (by decide) trimmed).mpr hround, hround]
    rfl
  · by_cases hsquare : trimmed.getLast? = some ']'
    · rw [(Text.getLast?_encode (by decide) trimmed).mpr hsquare, hsquare]
      rfl
    · have hopening : trimmed.getLast?.bind opening = none := by
        refine Option.bind_eq_none_iff.mpr fun close hclose => ?_
        have hround' : close ≠ ')' := fun heq => hround (heq ▸ hclose)
        have hsquare' : close ≠ ']' := fun heq => hsquare (heq ▸ hclose)
        rw [opening, if_neg hround', if_neg hsquare']
      rw [hopening, Option.map_none, Option.bind_eq_none_iff]
      intro close hclose
      have hround' : close ≠ byte ')' := fun heq =>
        hround ((Text.getLast?_encode (by decide) trimmed).mp (heq ▸ hclose))
      have hsquare' : close ≠ byte ']' := fun heq =>
        hsquare ((Text.getLast?_encode (by decide) trimmed).mp (heq ▸ hclose))
      rw [openingByte, if_neg hround', if_neg hsquare']

theorem openIndex_eq (trimmed : List Char) :
    openIndex trimmed = (trailingGroup trimmed).map (len ·.1) := by
  have hbytes : openIndex trimmed =
      ((encode trimmed).getLast?.bind openingByte).bind fun opener =>
        rposition opener (encode trimmed) := (Option.bind_assoc ..).symm
  rw [hbytes, bind_openingByte]
  cases hlast : trimmed.getLast? with
  | none => simp [trailingGroup, hlast]
  | some close =>
    cases hopening : opening close with
    | none => simp [trailingGroup, hlast, hopening]
    | some opener =>
      have hascii : opener.toNat < 128 := by
        rcases opening_some hopening with ⟨-, rfl⟩ | ⟨-, rfl⟩ <;> decide
      rw [Option.bind_some, hopening, Option.map_some, Option.bind_some,
        Text.rposition_encode hascii]
      cases hsplit : Text.splitLast [opener] trimmed with
      | none => simp [trailingGroup, hlast, hopening, hsplit]
      | some cut => simp [trailingGroup, hlast, hopening, hsplit]

theorem sliceGroup_eq (accepts : List Char → Bool) (trimmed : List Char) :
    sliceGroup accepts trimmed =
      some (match trailingGroup trimmed with
        | some (before, inner, _) =>
          if accepts (Text.trim inner) then some (Text.trimEnd before) else none
        | none => none) := by
  rw [sliceGroup, openIndex_eq]
  cases hgroup : trailingGroup trimmed with
  | none => rfl
  | some group =>
    obtain ⟨before, inner, close⟩ := group
    obtain ⟨opener, hopener, -, rfl⟩ := trailingGroup_eq_some.mp hgroup
    have hopen : opener.utf8Size = 1 := by
      rcases opening_some hopener with ⟨-, rfl⟩ | ⟨-, rfl⟩ <;> decide
    have hclose : close.utf8Size = 1 := by
      rcases opening_some hopener with ⟨rfl, -⟩ | ⟨rfl, -⟩ <;> decide
    have hinner : slice (before ++ opener :: (inner ++ [close])) (len before + 1)
        (len (before ++ opener :: (inner ++ [close])) - 1) = some inner := by
      have hfrom : len (before ++ [opener]) = len before + 1 := by simp [hopen]
      have hto : len (before ++ opener :: (inner ++ [close])) - 1 =
          len (before ++ [opener]) + len inner := by
        simp only [Text.len_append, Text.len_cons, Text.len_nil, hopen, hclose]
        omega
      have hslice := Text.slice_len (before ++ [opener]) inner [close]
      rw [List.append_assoc, List.append_assoc, List.singleton_append] at hslice
      rwa [← hfrom, hto]
    have hbefore : sliceTo (before ++ opener :: (inner ++ [close])) (len before) = some before :=
      Text.sliceTo_len before _
    simp only [Option.map_some, hinner, hbefore, Option.bind_eq_bind, Option.bind_some]
    split_ifs <;> rfl

theorem sliceParenDiscSuffix_eq (trimmed : List Char) :
    sliceParenDiscSuffix trimmed = some (stripParenDiscSuffix trimmed) := sliceGroup_eq _ _

/-- What is before a mark that is behind the last occurrence of a dash. -/
def beforeDash (trimmed : List Char) (delim : String) : Option (List Char) :=
  match Text.splitLast delim.toList trimmed with
  | some (before, tail) =>
    if (parseDiscGroup (Text.trim tail)).isSome then some (Text.trimEnd before) else none
  | none => none

theorem sliceDashDiscSuffix_eq (trimmed : List Char) :
    sliceDashDiscSuffix trimmed = some (stripDashDiscSuffix trimmed) := by
  have hdashes (delims : List String) :
      sliceDashes trimmed (delims.map String.toList) =
        some (delims.findSome? (beforeDash trimmed)) := by
    induction delims with
    | nil => rfl
    | cons delim delims ih =>
      rw [List.map_cons, sliceDashes, rfind, List.findSome?_cons, ih, beforeDash]
      cases hsplit : Text.splitLast delim.toList trimmed with
      | none => rfl
      | some cut =>
        obtain ⟨before, tail⟩ := cut
        have htrimmed := Text.splitLast_eq_append hsplit
        have htail : sliceFrom trimmed (len before + len delim.toList) = some tail := by
          rw [htrimmed, ← Text.len_append, Text.sliceFrom_len]
        have hbefore : sliceTo trimmed (len before) = some before := by
          rw [htrimmed, List.append_assoc, Text.sliceTo_len]
        simp only [Option.map_some, htail, hbefore, Option.bind_eq_bind, Option.bind_some]
        split_ifs <;> rfl
  exact hdashes [" - ", " – ", " — "]

theorem sliceGluedDiscSuffix_eq (trimmed : List Char) :
    sliceGluedDiscSuffix trimmed = stripGluedDiscSuffix trimmed := by
  rw [sliceGluedDiscSuffix, stripGluedDiscSuffix, rfindWhere]
  cases hsplit : Text.splitLastWhere Text.isWhitespace trimmed with
  | none => rfl
  | some cut =>
    obtain ⟨before, space, tail⟩ := cut
    obtain ⟨rfl, -, -⟩ := Text.splitLastWhere_eq_some.mp hsplit
    have hbefore : sliceTo (before ++ space :: tail) (len before) = some before :=
      Text.sliceTo_len before _
    simp only [Option.map_some, Text.sliceFrom_len_add_one]
    by_cases hspace : space.utf8Size = 1
    · simp only [hspace, hbefore, if_true, Option.bind_eq_bind, Option.bind_some, ne_eq,
        not_true_eq_false, if_false]
      by_cases htail : tail = []
      · subst htail
        rfl
      · rw [if_neg (by simpa using htail)]
        generalize Text.asciiLower tail = lower
        have hany : lower.any Char.isDigit = !(lower.dropWhile (!Char.isDigit ·)).isEmpty := by
          rw [Bool.eq_iff_iff]
          simp [List.any_eq_true, List.dropWhile_eq_nil_iff]
        have hlabel : sliceTo lower (len (lower.takeWhile (!Char.isDigit ·))) =
            some (lower.takeWhile (!Char.isDigit ·)) := by
          have hslice := Text.sliceTo_len (lower.takeWhile (!Char.isDigit ·))
            (lower.dropWhile (!Char.isDigit ·))
          rwa [List.takeWhile_append_dropWhile] at hslice
        have hdigits : sliceFrom lower (len (lower.takeWhile (!Char.isDigit ·))) =
            some (lower.dropWhile (!Char.isDigit ·)) := by
          have hslice := Text.sliceFrom_len (lower.takeWhile (!Char.isDigit ·))
            (lower.dropWhile (!Char.isDigit ·))
          rwa [List.takeWhile_append_dropWhile] at hslice
        rw [Text.findWhere, hany]
        generalize lower.takeWhile (!Char.isDigit ·) = label at hlabel hdigits ⊢
        generalize lower.dropWhile (!Char.isDigit ·) = digits at hdigits ⊢
        by_cases hnone : digits = []
        · simp [hnone]
        · by_cases hunlabelled : label = []
          · simp [hnone, hunlabelled]
          · have hstart : len label ≠ 0 := Text.len_eq_zero.not.mpr hunlabelled
            rw [if_pos (by simpa using hnone)]
            dsimp only
            rw [if_neg hstart, hlabel, Option.bind_some, hdigits, Option.bind_some]
            cases hall : digits.all Char.isDigit with
            | false => simp
            | true => cases hlabels : isDiscLabel label <;> simp [hnone, hunlabelled]
    · simp [hspace]

theorem sliceTrailingDiscSuffix_eq (s : List Char) :
    sliceTrailingDiscSuffix s = stripTrailingDiscSuffix s := by
  simp only [sliceTrailingDiscSuffix, stripTrailingDiscSuffix, sliceParenDiscSuffix_eq,
    sliceDashDiscSuffix_eq, sliceGluedDiscSuffix_eq, Option.bind_eq_bind, Option.bind_some]
  by_cases hshort : (encode (Text.trimEnd s)).length < 3
  · simp [len, hshort]
  · rw [if_neg hshort, if_neg (by simpa [len] using hshort)]
    cases hparen : stripParenDiscSuffix (Text.trimEnd s) with
    | some stripped => rfl
    | none =>
      cases hdash : stripDashDiscSuffix (Text.trimEnd s) with
      | some stripped => rfl
      | none =>
        cases hglued : stripGluedDiscSuffix (Text.trimEnd s) with
        | none => rfl
        | some glued => cases glued <;> rfl

theorem sliceOneTrailingEdition_eq (s : List Char) :
    sliceOneTrailingEdition s = some (stripOneTrailingEdition s) := by
  simp only [sliceOneTrailingEdition, stripOneTrailingEdition, sliceGroup_eq, len]
  split_ifs <;> rfl

theorem sliceEditions_eq (fuel : Nat) (s : List Char) :
    sliceEditions fuel s = some (stripEditions fuel s) := by
  induction fuel generalizing s with
  | zero => rfl
  | succ fuel ih =>
    rw [sliceEditions, stripEditions, sliceOneTrailingEdition_eq]
    cases stripOneTrailingEdition s with
    | none => rfl
    | some stripped => exact ih stripped

/-- Indexing by bytes is what the cleaning by characters says of it. -/
theorem sliceCleanAlbumTitle_eq (u : Unicode) (raw : List Char) :
    sliceCleanAlbumTitle u raw = cleanAlbumTitle u raw := by
  simp only [sliceCleanAlbumTitle, cleanAlbumTitle, sliceTrailingDiscSuffix_eq,
    sliceTrailingEditionQualifier, sliceEditions_eq, stripTrailingEditionQualifier]
  by_cases hempty : (Text.trim raw).isEmpty = true
  · simp [hempty]
  · simp only [hempty]
    cases stripTrailingDiscSuffix (Text.trim raw) <;> rfl

-- ---------------------------------------------------------------------------
-- Where a slice panics
-- ---------------------------------------------------------------------------

/-- The white space that the last word is behind is one byte wide. -/
def NarrowBreak (trimmed : List Char) : Prop :=
  ∀ before space word, trimmed = before ++ space :: word → Text.isWhitespace space = true →
    (∀ c ∈ word, Text.isWhitespace c = false) → space.utf8Size = 1

/-- The slice behind the last white space is not taken, or it is at a boundary. -/
def Sliceable (trimmed : List Char) : Prop :=
  len trimmed < 3 ∨ (stripParenDiscSuffix trimmed).isSome ∨ (stripDashDiscSuffix trimmed).isSome ∨
    NarrowBreak trimmed

theorem stripGluedDiscSuffix_isSome_iff (trimmed : List Char) :
    (stripGluedDiscSuffix trimmed).isSome ↔ NarrowBreak trimmed := by
  rw [stripGluedDiscSuffix]
  cases hsplit : Text.splitLastWhere Text.isWhitespace trimmed with
  | none =>
    refine iff_of_true rfl fun before space word htrimmed hspace hword => ?_
    rw [Text.splitLastWhere_eq_some.mpr ⟨htrimmed, hspace, hword⟩] at hsplit
    cases hsplit
  | some cut =>
    obtain ⟨before, space, word⟩ := cut
    have hcut := Text.splitLastWhere_eq_some.mp hsplit
    constructor
    · intro hsome before' space' word' htrimmed hspace hword
      rw [Text.splitLastWhere_eq_some.mpr ⟨htrimmed, hspace, hword⟩] at hsplit
      cases hsplit
      by_contra hwide
      simp [hwide] at hsome
    · intro hnarrow
      have hspace : space.utf8Size = 1 := hnarrow before space word hcut.1 hcut.2.1 hcut.2.2
      simp only [hspace, ne_eq, not_true_eq_false, if_false]
      split <;> rfl

theorem stripTrailingDiscSuffix_isSome_iff (s : List Char) :
    (stripTrailingDiscSuffix s).isSome ↔ Sliceable (Text.trimEnd s) := by
  rw [Sliceable, ← stripGluedDiscSuffix_isSome_iff, stripTrailingDiscSuffix]
  by_cases hshort : (encode (Text.trimEnd s)).length < 3
  · simp [len, hshort]
  · simp only [len, hshort, if_false, false_or]
    cases stripParenDiscSuffix (Text.trimEnd s) with
    | some stripped => simp
    | none =>
      cases stripDashDiscSuffix (Text.trimEnd s) with
      | some stripped => simp
      | none => simp

theorem title_slices_at_boundaries_iff (u : Unicode) (s : List Char) :
    ((sliceTrailingDiscSuffix s).isSome ↔ Sliceable (Text.trimEnd s)) ∧
      ((sliceCleanAlbumTitle u s).isSome ↔ Sliceable (Text.trim s)) := by
  refine ⟨by rw [sliceTrailingDiscSuffix_eq, stripTrailingDiscSuffix_isSome_iff], ?_⟩
  rw [sliceCleanAlbumTitle_eq, cleanAlbumTitle]
  by_cases hempty : Text.trim s = []
  · simp [hempty, Sliceable]
  · have htrim : Text.trimEnd (Text.trim s) = Text.trim s :=
      Text.trimEnd_eq_self (Text.trimmed_trim s).2
    simp only [List.isEmpty_iff, hempty, if_false, Option.isSome_map,
      stripTrailingDiscSuffix_isSome_iff, htrim]

/-- A title whose two words have an ideographic space between them. -/
theorem wide_space_panics :
    ¬ ∀ (u : Unicode) (s : List Char),
      (sliceTrailingDiscSuffix s).isSome ∧ (sliceCleanAlbumTitle u s).isSome := by
  intro hslices
  have hpanic := (hslices Unicode.ascii "Album\u3000Live".toList).1
  exact absurd hpanic (by decide)

end EvoAudio.Names
