import EvoAudio.Names.Artist

/-!
# Album titles and album folders

`album_name.rs` and `folder_album.rs` of `evo-device-audio-shared`: what is
stripped from a title, and the folder whose files are one album. Both look for
a disc suffix behind the last white space of a name, one byte after it: behind
a wider white space that is no character boundary, and the slice panics. Such a
panic is `none` here.
-/

namespace EvoAudio.Names

-- ---------------------------------------------------------------------------
-- Disc markers
-- ---------------------------------------------------------------------------

def isDiscLabel (label : List Char) : Bool :=
  ["disc", "disk", "cd", "vol", "volume", "part"].any (·.toList == label)

/-- `Disc 1` or `Disc 1 of 2`, in any case. -/
def parseDiscGroup (inner : List Char) : Option UInt32 :=
  match Text.words (Text.asciiLower inner) with
  | label :: rest =>
    if !isDiscLabel (Text.trimEndMatches '.' label) then none
    else
      match rest with
      | [n] => Text.parseU32 n
      | [n, word, total] =>
        if word = "of".toList ∧ (Text.parseU32 total).isSome then Text.parseU32 n else none
      | _ => none
  | [] => none

def isDiscOnlyBasename (s : List Char) : Bool := (parseDiscGroup (Text.trim s)).isSome

def stripParenDiscSuffix (trimmed : List Char) : Option (List Char) :=
  match trailingGroup trimmed with
  | some (before, inner, _) =>
    if (parseDiscGroup (Text.trim inner)).isSome then some (Text.trimEnd before) else none
  | none => none

def stripDashDiscSuffix (trimmed : List Char) : Option (List Char) :=
  [" - ", " – ", " — "].findSome? fun delim =>
    match Text.splitLast delim.toList trimmed with
    | some (before, tail) =>
      if (parseDiscGroup (Text.trim tail)).isSome then some (Text.trimEnd before) else none
    | none => none

/-- `vol2` as the last word. The slice behind the white space before it is
taken one byte on, whatever the width of that white space. -/
def stripGluedDiscSuffix (trimmed : List Char) : Option (Option (List Char)) :=
  match Text.splitLastWhere Text.isWhitespace trimmed with
  | none => some none
  | some (before, space, tail) =>
    if space.utf8Size ≠ 1 then none
    else
      let lower := Text.asciiLower tail
      let label := lower.takeWhile (!·.isDigit)
      let digits := lower.dropWhile (!·.isDigit)
      if !label.isEmpty && !digits.isEmpty && digits.all Char.isDigit && isDiscLabel label then
        some (some (Text.trimEnd before))
      else some none

/-- The name without its disc suffix, `none` for a panic. -/
def stripTrailingDiscSuffix (s : List Char) : Option (List Char) :=
  let trimmed := Text.trimEnd s
  if (Text.encode trimmed).length < 3 then some trimmed
  else
    match (stripParenDiscSuffix trimmed).or (stripDashDiscSuffix trimmed) with
    | some stripped => some stripped
    | none => (stripGluedDiscSuffix trimmed).map (·.getD trimmed)

-- ---------------------------------------------------------------------------
-- Edition qualifiers
-- ---------------------------------------------------------------------------

def isAnniversaryForm (lc : List Char) : Bool :=
  let head := (Text.stripPrefix " anniversary edition".toList.reverse lc.reverse).or
    (Text.stripPrefix " anniversary".toList.reverse lc.reverse)
  match head.map List.reverse with
  | none => false
  | some head => head.head?.any Char.isDigit && head.all fun c => c.isDigit || c.isAlpha

def isEditionQualifier (inner : List Char) : Bool :=
  let lc := Text.trim (Text.asciiLower inner)
  ["deluxe", "deluxe edition", "deluxe version", "expanded edition", "expanded version",
    "extended edition", "extended version", "explicit", "clean", "clean version", "remastered",
    "remastered version", "remaster", "anniversary edition", "special edition",
    "collector's edition", "collectors edition", "bonus track version", "bonus track edition",
    "bonus tracks", "radio edit", "single edit", "explicit version"].any (·.toList == lc) ||
    isAnniversaryForm lc

def stripOneTrailingEdition (s : List Char) : Option (List Char) :=
  let trimmed := Text.trimEnd s
  if (Text.encode trimmed).length < 3 then none
  else
    match trailingGroup trimmed with
    | some (before, inner, _) =>
      if isEditionQualifier (Text.trim inner) then some (Text.trimEnd before) else none
    | none => none

def stripEditions : Nat → List Char → List Char
  | 0, s => s
  | fuel + 1, s =>
    match stripOneTrailingEdition s with
    | some stripped => stripEditions fuel stripped
    | none => s

def stripTrailingEditionQualifier (s : List Char) : List Char :=
  stripEditions s.length (Text.trimEnd s)

def cleanAlbumTitle (u : Unicode) (raw : List Char) : Option (List Char) :=
  let trimmed := Text.trim raw
  if trimmed.isEmpty then some []
  else
    (stripTrailingDiscSuffix trimmed).map fun withoutDisc =>
      let withoutEdition := stripTrailingEditionQualifier withoutDisc
      u.nfc (if (Text.trim withoutEdition).isEmpty then trimmed else withoutEdition)

-- ---------------------------------------------------------------------------
-- The folder of an album
-- ---------------------------------------------------------------------------

def splitLastSegment (s : List Char) : Option (List Char × List Char) :=
  if s.isEmpty then none else some ((Text.splitLast ['/'] s).getD ([], s))

/-- The folder whose files are one album with this file. It is empty for a file
that belongs to no album. -/
def canonicalAlbumFolder (mpdRelativePath : List Char) : Option (List Char) :=
  let trimmed := Text.trimEndMatches '/' (Text.trim mpdRelativePath)
  match splitLastSegment trimmed with
  | none => some []
  | some (parent, _) =>
    match splitLastSegment parent with
    | none => some []
    | some (grandparent, basename) =>
      if isDiscOnlyBasename basename then some grandparent
      else
        (stripTrailingDiscSuffix basename).map fun stripped =>
          if (Text.encode stripped).length ≠ (Text.encode basename).length then
            if grandparent.isEmpty then stripped else grandparent ++ '/' :: stripped
          else parent

/-- The last segment of a folder. -/
def canonicalFolderBasename (canonical : List Char) : List Char :=
  let trimmed := Text.trimEndMatches '/' canonical
  match Text.splitLast ['/'] trimmed with
  | some (_, basename) => basename
  | none => trimmed

end EvoAudio.Names
