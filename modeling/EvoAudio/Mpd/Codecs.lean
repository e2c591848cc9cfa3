import EvoAudio.Lib.Segments

/-!
# Codecs of paths

The codec that `evo-mpd-shared/src/types.rs` reads off a path or a stream URL. The
separators of the path are searched for before the query or the fragment of the
URL is cut off, so a dot or a slash in these moves the extension there.
-/

namespace EvoAudio.Mpd.Codecs

open Text

/-- The spellings of an extension and the token for its codec. -/
def codecTokens : List (List String × String) := [
  -- lossless PCM containers
  (["flac"], "flac"), (["wav"], "wav"), (["aif", "aiff"], "aiff"), (["ape"], "ape"),
  (["alac", "m4a"], "alac"), (["wv"], "wavpack"), (["tta"], "tta"), (["shn"], "shorten"),
  -- DSD containers
  (["dsf"], "dsf"), (["dff"], "dff"),
  -- lossy
  (["mp3"], "mp3"), (["ogg", "oga"], "vorbis"), (["opus"], "opus"), (["aac", "mp4"], "aac"),
  (["wma"], "wma"), (["mpc"], "musepack"),
  -- tracker and module formats
  (["mod", "s3m", "xm", "it"], "mod"),
  -- speech
  (["spx"], "speex")]

def canonical (ext : List Char) : Option (List Char) :=
  (codecTokens.find? fun row => row.1.any (·.toList == ext)).map (·.2.toList)

/-- The characters that begin a query or a fragment. -/
def endsExtension (c : Char) : Bool := c == '?' || c == '#' || c == '&'

/-- The text behind the last slash. -/
def filename (path : List Char) : List Char :=
  ((splitLast ['/'] path).map (·.2)).getD path

def deriveSourceCodecName (path : List Char) : Option (List Char) :=
  if path.isEmpty then none
  else
    match splitLast ['.'] (filename path) with
    | none => none
    | some (_, rawExt) =>
      if rawExt.isEmpty then none
      else canonical ((asciiLower rawExt).takeWhile (!endsExtension ·))

-- ---------------------------------------------------------------------------
-- Extensions
-- ---------------------------------------------------------------------------

/-- The text behind the last dot of the file name. -/
def extension (path : List Char) : Option (List Char) :=
  (splitLast ['.'] (filename path)).map (·.2)

def codecOf (rawExt : List Char) : Option (List Char) :=
  canonical ((asciiLower rawExt).takeWhile (!endsExtension ·))

theorem deriveSourceCodecName_eq (path : List Char) :
    deriveSourceCodecName path = (extension path).bind codecOf := by
  rw [deriveSourceCodecName, extension]
  cases path with
  | nil => rfl
  | cons c rest =>
    rw [if_neg (by simp)]
    cases splitLast ['.'] (filename (c :: rest)) with
    | none => rfl
    | some cut =>
      obtain ⟨before, rawExt⟩ := cut
      cases rawExt <;> rfl

theorem filename_of_notMem {path : List Char} (h : '/' ∉ path) : filename path = path := by
  rw [filename, splitLast_singleton_eq_none.mpr h]
  rfl

theorem filename_append_of_notMem {rest : List Char} (h : '/' ∉ rest) (path : List Char) :
    filename (path ++ rest) = filename path ++ rest := by
  rw [filename, filename, splitLast_append_of_notMem h]
  cases splitLast ['/'] path <;> rfl

theorem filename_append_of_mem {rest : List Char} (h : '/' ∈ rest) (path : List Char) :
    filename (path ++ rest) = filename rest := by
  rw [filename, filename, splitLast_append_of_mem h]
  cases hcut : splitLast ['/'] rest with
  | none => exact absurd h (splitLast_singleton_eq_none.mp hcut)
  | some cut => rfl

/-- What is appended to a path lengthens its extension, when there is no dot and
no slash in it. -/
theorem extension_append {rest : List Char} (hdot : '.' ∉ rest) (hslash : '/' ∉ rest)
    (path : List Char) : extension (path ++ rest) = (extension path).map (· ++ rest) := by
  rw [extension, extension, filename_append_of_notMem hslash, splitLast_append_of_notMem hdot,
    Option.map_map, Option.map_map]
  rfl

/-- With a dot or a slash in it, it brings an extension of its own or none. -/
theorem extension_append_of_mem {rest : List Char} (h : '.' ∈ rest ∨ '/' ∈ rest)
    (path : List Char) : extension (path ++ rest) = extension rest := by
  by_cases hslash : '/' ∈ rest
  · rw [extension, filename_append_of_mem hslash, extension]
  · rw [extension, filename_append_of_notMem hslash,
      splitLast_append_of_mem (h.resolve_right hslash), extension, filename_of_notMem hslash,
      Option.map_map]
    rfl

theorem extension_eq_some {path rawExt : List Char} :
    extension path = some rawExt ↔
      ∃ before, path = before ++ '.' :: rawExt ∧ '.' ∉ rawExt ∧ '/' ∉ rawExt := by
  constructor
  · intro h
    obtain ⟨⟨before, _⟩, hdot, rfl⟩ := Option.map_eq_some_iff.mp h
    obtain ⟨hname, hdot⟩ := splitLast_singleton_some hdot
    cases hslash : splitLast ['/'] path with
    | none =>
      have hnot := splitLast_singleton_eq_none.mp hslash
      rw [filename_of_notMem hnot] at hname
      exact ⟨before, hname, hdot, fun hmem => hnot (by simp [hname, hmem])⟩
    | some cut =>
      obtain ⟨hpath, hnot⟩ := splitLast_singleton_some hslash
      rw [filename, hslash] at hname
      rw [Option.map_some, Option.getD_some] at hname
      refine ⟨cut.1 ++ '/' :: before, ?_, hdot, fun hmem => hnot (by simp [hname, hmem])⟩
      rw [hpath, hname, List.append_assoc, List.cons_append]
  · rintro ⟨before, rfl, hdot, hslash⟩
    rw [extension, filename_append_of_notMem (by simp [hslash]), splitLast_append_cons hdot]
    rfl

theorem toLower_endsExtension {c : Char} (h : endsExtension c = true) : c.toLower = c := by
  simp only [endsExtension, Bool.or_eq_true, beq_iff_eq] at h
  obtain (rfl | rfl) | rfl := h <;> rfl

/-- A query or a fragment is no part of the extension. -/
theorem codecOf_append {separator : Char} (h : endsExtension separator = true)
    (rawExt query : List Char) : codecOf (rawExt ++ separator :: query) = codecOf rawExt := by
  have hcut : (asciiLower (rawExt ++ separator :: query)).takeWhile (!endsExtension ·) =
      (asciiLower rawExt).takeWhile (!endsExtension ·) := by
    induction rawExt with
    | nil => simp [asciiLower, toLower_endsExtension h, h]
    | cons c rawExt ih =>
      simp only [asciiLower, List.cons_append, List.map_cons, List.takeWhile_cons] at ih ⊢
      rw [ih]
  rw [codecOf, codecOf, hcut]

-- ---------------------------------------------------------------------------
-- Queries and fragments
-- ---------------------------------------------------------------------------

/-- The text ends in an extension of its own for the codec. -/
def EndsInExtensionFor (codec query : List Char) : Prop :=
  ∃ before rawExt, query = before ++ '.' :: rawExt ∧ '.' ∉ rawExt ∧ '/' ∉ rawExt ∧
    canonical ((asciiLower rawExt).takeWhile (!endsExtension ·)) = some codec

/-- A query or a fragment leaves the codec of a path as it is exactly when it has no
dot and no slash, or ends in an extension for that codec. -/
theorem deriveSourceCodecName_query_iff {path codec : List Char} {separator : Char}
    (hcodec : deriveSourceCodecName path = some codec)
    (hseparator : separator = '?' ∨ separator = '#') (query : List Char) :
    deriveSourceCodecName (path ++ separator :: query) = deriveSourceCodecName path ↔
      ('.' ∉ query ∧ '/' ∉ query) ∨ EndsInExtensionFor codec query := by
  have hends : endsExtension separator = true := by
    obtain rfl | rfl := hseparator <;> rfl
  have hdot : separator ≠ '.' := by obtain rfl | rfl := hseparator <;> decide
  have hslash : separator ≠ '/' := by obtain rfl | rfl := hseparator <;> decide
  by_cases hmem : '.' ∈ query ∨ '/' ∈ query
  · -- the extension is looked for in the query
    have hown : deriveSourceCodecName (path ++ separator :: query) =
        (extension query).bind codecOf := by
      rw [deriveSourceCodecName_eq, List.append_cons, extension_append_of_mem hmem]
    rw [hown, hcodec, Option.bind_eq_some_iff, ← not_or, or_iff_right (not_not.mpr hmem)]
    simp only [extension_eq_some]
    constructor
    · rintro ⟨rawExt, ⟨before, hquery⟩, hcodec⟩
      exact ⟨before, rawExt, hquery.1, hquery.2.1, hquery.2.2, hcodec⟩
    · rintro ⟨before, rawExt, hquery, hdot, hslash, hcodec⟩
      exact ⟨rawExt, ⟨before, hquery, hdot, hslash⟩, hcodec⟩
  · obtain ⟨hnodot, hnoslash⟩ := not_or.mp hmem
    refine iff_of_true ?_ (.inl ⟨hnodot, hnoslash⟩)
    rw [deriveSourceCodecName_eq, deriveSourceCodecName_eq,
      extension_append (by simp [hnodot, hdot.symm]) (by simp [hnoslash, hslash.symm]),
      Option.bind_map]
    exact Option.bind_congr fun rawExt _ => codecOf_append hends rawExt query

theorem deriveSourceCodecName_token :
    deriveSourceCodecName ("http://example/stream.flac".toList ++ '?' :: "token=abc".toList) =
      deriveSourceCodecName "http://example/stream.flac".toList :=
  have hflac : deriveSourceCodecName "http://example/stream.flac".toList = some "flac".toList := by
    decide
  (deriveSourceCodecName_query_iff hflac (.inl rfl) _).mpr (.inl (by decide))

/-- The extension is looked for in a query with a dot in it. -/
theorem query_with_dot_hides_codec :
    deriveSourceCodecName "http://example/stream.flac".toList = some "flac".toList ∧
      deriveSourceCodecName ("http://example/stream.flac".toList ++ '?' :: "v=1.2".toList) ≠
        deriveSourceCodecName "http://example/stream.flac".toList := by
  decide

end EvoAudio.Mpd.Codecs
