import EvoAudio.Lib.Words
import Mathlib.Data.List.Sort
import Mathlib.Data.List.Destutter

/-!
# Artist names

`artist_name.rs` of `evo-device-audio-shared`: the key that two spellings of one
artist share (`artist_fold_key`), the form an artist is shown in
(`artist_display_form`) and the contributors of a joined credit
(`split_artist_credit`).
-/

namespace EvoAudio.Names

/-- The Unicode tables the names are folded by: the two normal forms, and the
character classes and case mappings of the standard library. -/
structure Unicode where
  nfc : List Char → List Char
  nfd : List Char → List Char
  /-- `char::is_alphanumeric` -/
  isAlphanumeric : Char → Bool
  /-- `char::to_lowercase` -/
  lowerChar : Char → List Char
  /-- `str::to_lowercase` -/
  lowercase : List Char → List Char

/-- The tables as far as plain ASCII text goes. -/
def Unicode.ascii : Unicode where
  nfc s := s
  nfd s := s
  isAlphanumeric := Char.isAlphanum
  lowerChar c := [c.toLower]
  lowercase s := s.map Char.toLower

variable (u : Unicode)

-- ---------------------------------------------------------------------------
-- Folding
-- ---------------------------------------------------------------------------

def isCombiningMark (c : Char) : Bool := 0x0300 ≤ c.toNat && c.toNat ≤ 0x036F

/-- `spaced` is `last_was_space`: a run of other characters is one space. -/
def foldChars : Bool → List Char → List Char
  | _, [] => []
  | spaced, c :: cs =>
    if isCombiningMark c then foldChars spaced cs
    else if u.isAlphanumeric c then
      u.lowerChar c ++ foldChars (spaced && (u.lowerChar c).isEmpty) cs
    else if spaced then foldChars true cs
    else ' ' :: foldChars true cs

def foldAlnum (s : List Char) : List Char :=
  let folded := foldChars u true (u.nfd s)
  if folded.getLast? = some ' ' then folded.dropLast else folded

def isVariousArtists (folded : List Char) : Bool :=
  ["va", "various", "variousartists", "various artists"].any (·.toList == folded)

def canonicalizeVariousArtistsFold (folded : List Char) : List Char :=
  if isVariousArtists folded then "various artists".toList else folded

/-- The part before a `|`: what follows is a tag editor's watermark. -/
def withoutWatermark (trimmed : List Char) : List Char :=
  match Text.splitOnce ['|'] trimmed with
  | some (head, _) => Text.trim head
  | none => trimmed

/-- The bracket that opens what this one closes. -/
def opening (close : Char) : Option Char :=
  if close = ')' then some '(' else if close = ']' then some '[' else none

/-- The text before a group in brackets at its end, with the group. -/
def trailingGroup (trimmed : List Char) : Option (List Char × List Char × Char) := do
  let close ← trimmed.getLast?
  let (before, after) ← Text.splitLast [← opening close] trimmed
  return (before, after.dropLast, close)

/-- One turn of the loop: the text without its last group, when it has one that
is not nested. -/
def stripGroup (trimmed : List Char) : Option (List Char) :=
  if (Text.encode trimmed).length < 3 then none
  else
    match trailingGroup trimmed with
    | some (before, inner, close) => if close ∈ inner then none else some (Text.trimEnd before)
    | none => none

def stripGroups : Nat → List Char → List Char
  | 0, s => Text.trimEnd s
  | fuel + 1, s =>
    match stripGroup (Text.trimEnd s) with
    | some shorter => stripGroups fuel shorter
    | none => Text.trimEnd s

def stripTrailingParentheticals (s : List Char) : List Char :=
  stripGroups (Text.trim s).length (Text.trim s)

/-- `A/A` is `A`. Different sides stay. -/
def collapseSelfSlash (s : List Char) : List Char :=
  match Text.splitOnce ['/'] s with
  | none => s
  | some (left, right) =>
    if '/' ∈ right then s
    else if Text.trim left = [] ∨ Text.trim right = [] then s
    else if foldAlnum u (Text.trim left) = foldAlnum u (Text.trim right) then Text.trim left
    else s

/-- `Last, First` is `First Last` when the head is one word. -/
def reorderLastFirst (s : List Char) : List Char :=
  match Text.splitOnce [','] s with
  | none => s
  | some (head, tail) =>
    let head := Text.trim head
    let tail := Text.trim tail
    if !head.any Text.isWhitespace && !(',' ∈ tail) && !head.isEmpty && !tail.isEmpty then
      tail ++ ' ' :: head
    else s

-- ---------------------------------------------------------------------------
-- Credits of several artists
-- ---------------------------------------------------------------------------

def nonBlank (parts : List (List Char)) : List (List Char) :=
  (parts.map Text.trim).filter (!·.isEmpty)

def splitOn (s delim : List Char) : Option (List (List Char)) :=
  if (Text.splitOnce delim s).isSome then some (nonBlank (Text.split delim s)) else none

/-- A delimiter in any case counts only when it leaves two parts. -/
def splitOnCi (s delim : List Char) : Option (List (List Char)) :=
  if (Text.splitOnceCi delim s).isSome then
    let parts := nonBlank (Text.splitCi delim s)
    if parts.length < 2 then none else some parts
  else none

/-- A comma joins artists only behind a head of several words. -/
def splitOnComma (s : List Char) : Option (List (List Char)) :=
  match Text.splitOnce [','] s with
  | none => none
  | some (head, _) =>
    if (Text.trim head).any Text.isWhitespace then some (nonBlank (Text.split [','] s)) else none

def splitCollab (s : List Char) : Option (List (List Char)) :=
  (splitOn s ";".toList).or <| (splitOn s " & ".toList).or <|
    (splitOnCi s " and ".toList).or (splitOnComma s)

def splitOnFeatFt (s : List Char) : Option (List (List Char)) :=
  [" feat. ", " ft. ", " feat ", " ft ", " featuring "].findSome? fun delim =>
    splitOnCi s delim.toList

/-- One contributor of a credit, without brackets and in reading order. -/
def cleanPart (part : List Char) : List Char :=
  reorderLastFirst (collapseSelfSlash u (stripTrailingParentheticals part))

/-- The key of a credit is the same in any order of its contributors. -/
def collabFoldKey (s : List Char) : Option (List Char) := do
  let parts ← splitCollab s
  let folded := (parts.map fun part => foldAlnum u (cleanPart u part)).filter (!·.isEmpty)
  if folded.isEmpty then none
  else
    let sorted := folded.insertionSort fun a b => Text.encode a ≤ Text.encode b
    some (" & ".toList.intercalate (sorted.destutter (· ≠ ·)))

/-- What is left of a raw tag for the delimiters to be looked for in. -/
def structural (trimmed : List Char) : List Char :=
  collapseSelfSlash u (stripTrailingParentheticals (withoutWatermark trimmed))

def artistFoldKey (raw : List Char) : List Char :=
  let trimmed := Text.trim raw
  if trimmed.isEmpty then []
  else
    match collabFoldKey u (structural u trimmed) with
    | some key => key
    | none =>
      let reordered := reorderLastFirst (structural u trimmed)
      if reordered.isEmpty then [] else canonicalizeVariousArtistsFold (foldAlnum u reordered)

/-- The first item of each key that is not empty. -/
def dedupeByKey (key : List Char → List Char) : List (List Char) → List (List Char) → List (List Char)
  | _, [] => []
  | seen, item :: items =>
    if (key item).isEmpty || key item ∈ seen then dedupeByKey key seen items
    else item :: dedupeByKey key (key item :: seen) items

/-- The contributors joined by commas, when the text is such a credit. -/
def collapseCollab (s : List Char) : Option (List Char) := do
  let parts ← splitCollab s
  let clean := (parts.map fun part => Text.trim (cleanPart u part)).filter (!·.isEmpty)
  let unique := dedupeByKey (foldAlnum u) [] clean
  if unique.isEmpty then none else some (", ".toList.intercalate unique)

def preprocessArtist (raw : List Char) : List Char :=
  let trimmed := Text.trim raw
  if trimmed.isEmpty then []
  else
    match collapseCollab u (structural u trimmed) with
    | some display => display
    | none => reorderLastFirst (structural u trimmed)

def artistDisplayForm (raw : List Char) : List Char :=
  let trimmed := Text.trim raw
  if trimmed.isEmpty then []
  else
    let pre := preprocessArtist u raw
    if pre.isEmpty then u.nfc trimmed
    else u.nfc (if isVariousArtists (foldAlnum u pre) then "Various Artists".toList else pre)

-- ---------------------------------------------------------------------------
-- Splitting a credit
-- ---------------------------------------------------------------------------

/-- Acts whose own name has a delimiter in it. -/
def knownSingleActs : List String :=
  ["Hall & Oates", "Daryl Hall & John Oates", "Simon & Garfunkel", "Florence + the Machine",
    "Florence and the Machine", "Sly & the Family Stone", "Ike & Tina Turner",
    "Emerson, Lake & Palmer", "Emerson, Lake and Palmer", "Earth, Wind & Fire",
    "Peter, Paul and Mary", "Peter, Paul & Mary", "Crosby, Stills, Nash & Young",
    "Crosby, Stills & Nash", "Blood, Sweat & Tears", "Derek and the Dominos",
    "Booker T. & the M.G.'s", "Diana Ross & the Supremes", "Bob Marley & the Wailers",
    "Prince and the Revolution", "The Mamas & the Papas", "The Mamas and the Papas",
    "Tom Petty and the Heartbreakers", "Tom Petty & the Heartbreakers", "Huey Lewis and the News",
    "Huey Lewis & the News", "KC and the Sunshine Band", "KC & the Sunshine Band", "Iron & Wine",
    "Mumford & Sons", "Ashford & Simpson", "Chas & Dave", "Kool & the Gang",
    "Echo & the Bunnymen", "Nick Cave & the Bad Seeds", "Belle & Sebastian", "Belle and Sebastian",
    "Edward Sharpe & the Magnetic Zeros", "Edward Sharpe and the Magnetic Zeros",
    "Selena Gomez & the Scene", "Little Anthony & the Imperials", "Martha and the Vandellas",
    "Martha Reeves & the Vandellas", "Frankie Valli & the Four Seasons",
    "Gladys Knight & the Pips", "Smokey Robinson & the Miracles", "Sam & Dave", "Nina & Frederik",
    "Angus & Julia Stone"]

def isKnownSingleAct (raw : List Char) : Bool :=
  let key := artistFoldKey u raw
  !key.isEmpty && knownSingleActs.any fun act => artistFoldKey u act.toList == key

/-- The parts of a credit that are split in turn. -/
def creditParts (trimmed : List Char) : Option (List (List Char)) :=
  (splitCollab (structural u trimmed)).or (splitOnFeatFt (structural u trimmed))

variable {u}

theorem length_withoutWatermark_le (s : List Char) : (withoutWatermark s).length ≤ s.length := by
  unfold withoutWatermark
  split
  next head tail h =>
    have := Text.splitOnce_length h
    have := Text.length_trim_le head
    omega
  · exact Nat.le_refl _

theorem stripGroup_length (h : stripGroup s = some shorter) : shorter.length < s.length := by
  unfold stripGroup at h
  split at h
  · cases h
  · split at h
    next before inner close hgroup =>
      split at h
      · cases h
      · cases h
        simp only [trailingGroup, Option.bind_eq_bind, Option.bind_eq_some_iff, Option.pure_def,
          Option.some.injEq] at hgroup
        obtain ⟨_, -, _, -, ⟨head, after⟩, hsplit, hgroup⟩ := hgroup
        cases hgroup
        dsimp only
        have hlength := Text.splitLast_length hsplit
        have := Text.length_trimEnd_le head
        rw [List.length_singleton] at hlength
        omega
    · cases h

theorem length_stripGroups_le (fuel : Nat) (s : List Char) :
    (stripGroups fuel s).length ≤ s.length := by
  induction fuel generalizing s with
  | zero => exact Text.length_trimEnd_le s
  | succ fuel ih =>
    rw [stripGroups]
    have htrim := Text.length_trimEnd_le s
    split
    next shorter h =>
      have := ih shorter
      have := stripGroup_length h
      omega
    · exact htrim

/-- The loop ends with no group left to strip. -/
theorem stripGroup_stripGroups (h : s.length ≤ fuel) : stripGroup (stripGroups fuel s) = none := by
  induction fuel generalizing s with
  | zero =>
    obtain rfl := List.eq_nil_of_length_eq_zero (Nat.le_zero.mp h)
    rfl
  | succ fuel ih =>
    rw [stripGroups]
    split
    next shorter hstrip =>
      have := stripGroup_length hstrip
      have := Text.length_trimEnd_le s
      exact ih (by omega)
    next hnone => exact hnone

theorem length_collapseSelfSlash_le (s : List Char) : (collapseSelfSlash u s).length ≤ s.length := by
  unfold collapseSelfSlash
  split
  · exact Nat.le_refl _
  next left right h =>
    have := Text.splitOnce_length h
    have := Text.length_trim_le left
    split_ifs <;> omega

theorem length_structural_le (s : List Char) : (structural u s).length ≤ s.length :=
  calc (structural u s).length
    _ ≤ (stripTrailingParentheticals (withoutWatermark s)).length := length_collapseSelfSlash_le _
    _ ≤ (Text.trim (withoutWatermark s)).length := length_stripGroups_le _ _
    _ ≤ (withoutWatermark s).length := Text.length_trim_le _
    _ ≤ s.length := length_withoutWatermark_le s

theorem length_lt_of_mem_nonBlank (hparts : ∀ part ∈ parts, part.length < n)
    (h : part ∈ nonBlank parts) : part.length < n := by
  obtain ⟨raw, hraw, rfl⟩ := List.mem_map.mp (List.mem_filter.mp h).1
  exact Nat.lt_of_le_of_lt (Text.length_trim_le raw) (hparts raw hraw)

theorem splitOn_shorter (hdelim : delim ≠ []) (h : splitOn s delim = some parts) :
    ∀ part ∈ parts, part.length < s.length := by
  unfold splitOn at h
  split at h
  next hsome =>
    cases h
    intro part hpart
    exact length_lt_of_mem_nonBlank (fun _ => Text.length_lt_of_mem_split hdelim hsome) hpart
  · cases h

theorem splitOnCi_shorter (hdelim : delim ≠ []) (h : splitOnCi s delim = some parts) :
    ∀ part ∈ parts, part.length < s.length := by
  unfold splitOnCi at h
  split at h
  next hsome =>
    dsimp only at h
    split at h
    · cases h
    · cases h
      intro part hpart
      exact length_lt_of_mem_nonBlank (fun _ => Text.length_lt_of_mem_splitCi hdelim hsome) hpart
  · cases h

theorem splitOnComma_shorter (h : splitOnComma s = some parts) :
    ∀ part ∈ parts, part.length < s.length := by
  unfold splitOnComma at h
  split at h
  · cases h
  next head tail hsplit =>
    split at h
    · cases h
      intro part hpart
      refine length_lt_of_mem_nonBlank (fun _ => Text.length_lt_of_mem_split ?_ ?_) hpart
      · exact List.cons_ne_nil _ _
      · rw [hsplit]
        rfl
    · cases h

theorem splitCollab_shorter (h : splitCollab s = some parts) :
    ∀ part ∈ parts, part.length < s.length := by
  simp only [splitCollab, Option.or_eq_some_iff] at h
  rcases h with h | ⟨-, h | ⟨-, h | ⟨-, h⟩⟩⟩
  · exact splitOn_shorter (by decide) h
  · exact splitOn_shorter (by decide) h
  · exact splitOnCi_shorter (by decide) h
  · exact splitOnComma_shorter h

theorem creditParts_shorter (h : creditParts u s = some parts) :
    ∀ part ∈ parts, part.length < s.length := by
  intro part hpart
  refine Nat.lt_of_lt_of_le ?_ (length_structural_le (u := u) s)
  rw [creditParts, Option.or_eq_some_iff] at h
  rcases h with h | ⟨-, h⟩
  · exact splitCollab_shorter h part hpart
  · obtain ⟨delim, hdelim, h⟩ := List.exists_of_findSome?_eq_some h
    refine splitOnCi_shorter ?_ h part hpart
    rintro hempty
    simp only [List.mem_cons, List.not_mem_nil, or_false] at hdelim
    rcases hdelim with rfl | rfl | rfl | rfl | rfl <;> exact absurd hempty (by decide)

variable (u)

def splitArtistCredit (raw : List Char) : List (List Char) :=
  if (Text.trim raw).isEmpty then []
  else if isKnownSingleAct u (Text.trim raw) then [u.nfc (Text.trim raw)]
  else
    match _hparts : creditParts u (Text.trim raw) with
    | none => [artistDisplayForm u (Text.trim raw)]
    | some parts =>
      let members := dedupeByKey (artistFoldKey u) []
        (parts.attach.flatMap fun part => splitArtistCredit part.1)
      if members.isEmpty then [artistDisplayForm u (Text.trim raw)] else members
termination_by raw.length
decreasing_by
  exact Nat.lt_of_lt_of_le (creditParts_shorter _hparts part.1 part.2) (Text.length_trim_le raw)

/-- White space around a name does not change its key. -/
@[simp] theorem artistFoldKey_trim (raw : List Char) :
    artistFoldKey u (Text.trim raw) = artistFoldKey u raw := by
  simp [artistFoldKey]

theorem trim_ne_nil_of_artistFoldKey {raw : List Char} (h : artistFoldKey u raw ≠ []) :
    Text.trim raw ≠ [] := by
  intro hempty
  exact h (by simp [artistFoldKey, hempty])

end EvoAudio.Names
