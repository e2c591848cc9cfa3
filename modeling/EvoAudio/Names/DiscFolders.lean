import EvoAudio.Lib.Segments
import EvoAudio.Names.Album
import EvoAudio.Names.Brackets

/-!
# Disc folders

The files of a folder and those of a disc folder in it belong to one album when
`canonical_album_folder` gives them one key. Its two rules are applied once each: a
disc folder gives way to the folder it is in, whatever that one is called, and a
file that lies in the folder itself loses the disc suffix of the folder's name. The
keys are the same when there is no such suffix to lose.
-/

namespace EvoAudio.Names

/-- A file in a disc folder of a folder. -/
structure DiscFile where
  folder : List Char
  disc : List Char
  file : List Char
  folderNamed : folder ≠ [] ∧ folder.getLast? ≠ some '/'
  discNamed : '/' ∉ disc
  discOnly : isDiscOnlyBasename disc = true
  fileNamed : file ≠ [] ∧ '/' ∉ file

namespace DiscFile

/-- `D/s/t` -/
def inDisc (track : DiscFile) : List Char :=
  track.folder ++ '/' :: (track.disc ++ '/' :: track.file)

/-- `D/t` -/
def inFolder (track : DiscFile) : List Char := track.folder ++ '/' :: track.file

/-- Both files have the same key. -/
def SharesKey (track : DiscFile) : Prop :=
  ∃ key, canonicalAlbumFolder track.inDisc = some key ∧
    canonicalAlbumFolder track.inFolder = some key

/-- The folder as the trimmed paths have it. -/
def trimmedFolder (track : DiscFile) : List Char := track.folder.dropWhile Text.isWhitespace

end DiscFile

/-- The key of the files in a folder. -/
def folderKey (parent : List Char) : Option (List Char) :=
  match splitLastSegment parent with
  | none => some []
  | some (grandparent, basename) =>
    if isDiscOnlyBasename basename then some grandparent
    else
      (stripTrailingDiscSuffix basename).map fun stripped =>
        if (Text.encode stripped).length ≠ (Text.encode basename).length then
          if grandparent.isEmpty then stripped else grandparent ++ '/' :: stripped
        else parent

/-- The name of the folder is no disc marker and has no disc suffix. -/
def Plain (folder : List Char) : Prop :=
  ∀ parent name, splitLastSegment folder = some (parent, name) →
    isDiscOnlyBasename name = false ∧ stripTrailingDiscSuffix name = some name

/-- The folder gives way to the one it is in, which is left as it is. -/
def GivesWay (folder : List Char) : Prop :=
  ∀ parent name, splitLastSegment folder = some (parent, name) →
    isDiscOnlyBasename name = true ∧ Plain parent ∨
      parent = [] ∧ stripTrailingDiscSuffix name = some []

-- ---------------------------------------------------------------------------
-- The key of a folder
-- ---------------------------------------------------------------------------

theorem canonicalAlbumFolder_eq (path : List Char) :
    canonicalAlbumFolder path =
      match splitLastSegment (Text.trimEndMatches '/' (Text.trim path)) with
      | none => some []
      | some (parent, _) => folderKey parent := rfl

theorem stripParenDiscSuffix_isPrefix (h : stripParenDiscSuffix s = some stripped) :
    stripped <+: s := by
  unfold stripParenDiscSuffix at h
  split at h
  next before inner close hgroup =>
    split at h
    · cases h
      exact (Text.trimEnd_isPrefix _).trans (trailingGroup_isPrefix hgroup)
    · cases h
  next => cases h

theorem stripDashDiscSuffix_isPrefix (h : stripDashDiscSuffix s = some stripped) :
    stripped <+: s := by
  obtain ⟨delim, -, h⟩ := List.exists_of_findSome?_eq_some h
  split at h
  next before tail hsplit =>
    split at h
    · cases h
      exact (Text.trimEnd_isPrefix _).trans (Text.splitLast_isPrefix hsplit)
    · cases h
  next => cases h

theorem stripGluedDiscSuffix_isPrefix (h : stripGluedDiscSuffix s = some (some stripped)) :
    stripped <+: s := by
  unfold stripGluedDiscSuffix at h
  split at h
  next => cases h
  next before space tail hsplit =>
    split at h
    · cases h
    · dsimp only at h
      split at h
      · cases h
        exact (Text.trimEnd_isPrefix _).trans (Text.splitLastWhere_isPrefix hsplit)
      · cases h

/-- What is stripped is at the end of the name. -/
theorem stripTrailingDiscSuffix_isPrefix (h : stripTrailingDiscSuffix s = some stripped) :
    stripped <+: s := by
  refine List.IsPrefix.trans ?_ (Text.trimEnd_isPrefix s)
  unfold stripTrailingDiscSuffix at h
  dsimp only at h
  split at h
  · cases h
    exact List.prefix_refl _
  · split at h
    next hstrip =>
      cases h
      rcases Option.or_eq_some_iff.mp hstrip with hparen | ⟨-, hdash⟩
      · exact stripParenDiscSuffix_isPrefix hparen
      · exact stripDashDiscSuffix_isPrefix hdash
    next =>
      obtain ⟨glued, hglued, rfl⟩ := Option.map_eq_some_iff.mp h
      cases glued with
      | none => exact List.prefix_refl _
      | some stripped => exact stripGluedDiscSuffix_isPrefix hglued

theorem splitLastSegment_some (h : splitLastSegment s = some (parent, name)) :
    s ≠ [] ∧ '/' ∉ name ∧ (s = parent ++ '/' :: name ∨ parent = [] ∧ s = name) := by
  unfold splitLastSegment at h
  split at h
  next => cases h
  next hempty =>
    have hne : s ≠ [] := by simpa using hempty
    cases hsplit : Text.splitLast ['/'] s with
    | none =>
      simp only [hsplit, Option.getD_none, Option.some.injEq, Prod.mk.injEq] at h
      obtain ⟨rfl, rfl⟩ := h
      exact ⟨hne, Text.splitLast_singleton_eq_none.mp hsplit, .inr ⟨rfl, rfl⟩⟩
    | some parts =>
      obtain ⟨before, after⟩ := parts
      simp only [hsplit, Option.getD_some, Option.some.injEq, Prod.mk.injEq] at h
      obtain ⟨rfl, rfl⟩ := h
      obtain ⟨happend, hnot⟩ := Text.splitLast_singleton_some hsplit
      exact ⟨hne, hnot, .inl happend⟩

theorem splitLastSegment_append (h : '/' ∉ name) (parent : List Char) :
    splitLastSegment (parent ++ '/' :: name) = some (parent, name) := by
  simp [splitLastSegment, Text.splitLast_append_cons h]

/-- A name that is stripped to the same number of bytes is left as it is. -/
theorem eq_of_encode_length_eq {stripped name : List Char} (hfront : stripped <+: name)
    (h : (Text.encode stripped).length = (Text.encode name).length) : stripped = name := by
  obtain ⟨rest, rfl⟩ := hfront
  rw [Text.encode_append, List.length_append] at h
  have hnil : Text.encode rest = Text.encode [] := by
    simpa using h
  rw [Text.encode_injective hnil, List.append_nil]

theorem folderKey_disc (h : '/' ∉ disc) (hdisc : isDiscOnlyBasename disc = true)
    (folder : List Char) : folderKey (folder ++ '/' :: disc) = some folder := by
  simp [folderKey, splitLastSegment_append h, hdisc]

theorem folderKey_cases (h : splitLastSegment folder = some (parent, name)) :
    (isDiscOnlyBasename name = true ∧ folderKey folder = some parent) ∨
    isDiscOnlyBasename name = false ∧
      ((stripTrailingDiscSuffix name = none ∧ folderKey folder = none) ∨
      (stripTrailingDiscSuffix name = some name ∧ folderKey folder = some folder) ∨
      ∃ stripped, stripTrailingDiscSuffix name = some stripped ∧ stripped.length < name.length ∧
        folderKey folder =
          some (if parent.isEmpty then stripped else parent ++ '/' :: stripped)) := by
  unfold folderKey
  simp only [h]
  cases hdisc : isDiscOnlyBasename name with
  | true => exact .inl ⟨rfl, rfl⟩
  | false =>
    refine .inr ⟨rfl, ?_⟩
    cases hstrip : stripTrailingDiscSuffix name with
    | none => exact .inl ⟨rfl, rfl⟩
    | some stripped =>
      have hfront := stripTrailingDiscSuffix_isPrefix hstrip
      by_cases hsame : stripped = name
      · subst hsame
        exact .inr (.inl ⟨rfl, by simp⟩)
      · have hbytes : (Text.encode stripped).length ≠ (Text.encode name).length :=
          fun heq => hsame (eq_of_encode_length_eq hfront heq)
        have hshorter : stripped.length < name.length :=
          Nat.lt_of_le_of_ne hfront.length_le fun heq => hsame (hfront.eq_of_length heq)
        exact .inr (.inr ⟨stripped, rfl, hshorter, by simp [hbytes]⟩)

theorem length_parent_lt (h : splitLastSegment folder = some (parent, name)) :
    parent.length < folder.length := by
  obtain ⟨hne, -, rfl | ⟨rfl, -⟩⟩ := splitLastSegment_some h
  · simp
  · exact List.length_pos_iff.mpr hne

theorem length_rekeyed_lt (h : splitLastSegment folder = some (parent, name))
    (hstripped : stripped.length < name.length) :
    (if parent.isEmpty then stripped else parent ++ '/' :: stripped).length < folder.length := by
  obtain ⟨-, -, rfl | ⟨rfl, rfl⟩⟩ := splitLastSegment_some h
  · split
    · simp only [List.length_append, List.length_cons]
      omega
    · simpa using hstripped
  · simpa using hstripped

/-- A folder is the key of its own files exactly if its name is left as it is. -/
theorem folderKey_eq_self_iff (folder : List Char) :
    folderKey folder = some folder ↔ Plain folder := by
  unfold Plain
  cases hsplit : splitLastSegment folder with
  | none =>
    have hempty : folder = [] := by
      by_contra hne
      simp [splitLastSegment, hne] at hsplit
    subst hempty
    exact iff_of_true rfl (by simp)
  | some parts =>
    obtain ⟨parent, name⟩ := parts
    have hlength := length_parent_lt hsplit
    have hplain : (∀ parent' name', some (parent, name) = some (parent', name') →
        isDiscOnlyBasename name' = false ∧ stripTrailingDiscSuffix name' = some name') ↔
        isDiscOnlyBasename name = false ∧ stripTrailingDiscSuffix name = some name := by
      simp
    rw [hplain]
    obtain ⟨hdisc, hkey⟩ |
      ⟨hdisc, ⟨hstrip, hkey⟩ | ⟨hstrip, hkey⟩ | ⟨stripped, hstrip, hlt, hkey⟩⟩ :=
      folderKey_cases hsplit
    · have hne : parent ≠ folder := fun heq => Nat.ne_of_lt hlength (congrArg List.length heq)
      simp [hkey, hdisc, hne]
    · simp [hkey, hstrip]
    · simp [hkey, hstrip, hdisc]
    · have hne : stripped ≠ name := fun heq => Nat.ne_of_lt hlt (congrArg List.length heq)
      refine iff_of_false ?_ fun h => hne (Option.some.inj (hstrip.symm.trans h.2))
      intro h
      have hkeyed := Option.some.inj (hkey.symm.trans h)
      exact Nat.ne_of_lt (length_rekeyed_lt hsplit hlt) (congrArg List.length hkeyed)

/-- No key is longer than the folder. -/
theorem folderKey_length_le (h : folderKey folder = some key) : key.length ≤ folder.length := by
  cases hsplit : splitLastSegment folder with
  | none =>
    simp only [folderKey, hsplit, Option.some.injEq] at h
    simp [← h]
  | some parts =>
    obtain ⟨parent, name⟩ := parts
    obtain ⟨-, hkey⟩ | ⟨-, ⟨-, hkey⟩ | ⟨-, hkey⟩ | ⟨stripped, -, hlt, hkey⟩⟩ :=
      folderKey_cases hsplit <;> cases hkey.symm.trans h
    · exact Nat.le_of_lt (length_parent_lt hsplit)
    · exact Nat.le_refl _
    · exact Nat.le_of_lt (length_rekeyed_lt hsplit hlt)

-- ---------------------------------------------------------------------------
-- The key of a file
-- ---------------------------------------------------------------------------

theorem getLast?_segment_ne (hname : name ≠ []) (hnot : '/' ∉ name) (parent : List Char) :
    (parent ++ '/' :: name).getLast? ≠ some '/' := by
  intro hlast
  rw [List.append_cons, List.getLast?_append_of_ne_nil _ hname] at hlast
  exact hnot (List.mem_of_getLast? hlast)

/-- A file name that is more than white space is cut off the path. -/
theorem canonicalAlbumFolder_file (hfile : '/' ∉ file) (hblank : Text.trimEnd file ≠ [])
    (folder : List Char) :
    canonicalAlbumFolder (folder ++ '/' :: file) =
      folderKey (folder.dropWhile Text.isWhitespace) := by
  have hnot : '/' ∉ Text.trimEnd file := fun h => hfile ((Text.trimEnd_isPrefix file).subset h)
  have hlast := getLast?_segment_ne hblank hnot (folder.dropWhile Text.isWhitespace)
  rw [canonicalAlbumFolder_eq, Text.trim_append_cons (by decide), Text.trimEndMatches_eq_self hlast,
    splitLastSegment_append hnot]

/-- For one that is white space, the folder is taken for the file. -/
theorem canonicalAlbumFolder_blank (hblank : Text.trimEnd file = [])
    (hfolder : (folder.dropWhile Text.isWhitespace).getLast? ≠ some '/') :
    canonicalAlbumFolder (folder ++ '/' :: file) =
      match splitLastSegment (folder.dropWhile Text.isWhitespace) with
      | none => some []
      | some (parent, _) => folderKey parent := by
  rw [canonicalAlbumFolder_eq, Text.trim_append_cons (by decide), hblank,
    Text.trimEndMatches_concat, Text.trimEndMatches_eq_self hfolder]



theorem name_ne_nil (hfolder : folder.getLast? ≠ some '/')
    (h : splitLastSegment folder = some (parent, name)) : name ≠ [] := by
  rintro rfl
  obtain ⟨hne, -, rfl | ⟨-, rfl⟩⟩ := splitLastSegment_some h
  · simp at hfolder
  · exact hne rfl

/-- The keys of a folder and of the one it is in. -/
theorem givesWay_iff (hname : folder.getLast? ≠ some '/') :
    (∃ key, folderKey folder = some key ∧
      (match splitLastSegment folder with
        | none => some []
        | some (parent, _) => folderKey parent) = some key) ↔ GivesWay folder := by
  unfold GivesWay
  cases hsplit : splitLastSegment folder with
  | none => simp [folderKey, hsplit]
  | some parts =>
    obtain ⟨parent, name⟩ := parts
    have hgives : (∀ parent' name', some (parent, name) = some (parent', name') →
        isDiscOnlyBasename name' = true ∧ Plain parent' ∨
          parent' = [] ∧ stripTrailingDiscSuffix name' = some []) ↔
        isDiscOnlyBasename name = true ∧ Plain parent ∨
          parent = [] ∧ stripTrailingDiscSuffix name = some [] := by
      simp
    rw [hgives, ← folderKey_eq_self_iff]
    obtain ⟨hdisc, hkey⟩ |
      ⟨hdisc, ⟨hstrip, hkey⟩ | ⟨hstrip, hkey⟩ | ⟨stripped, hstrip, -, hkey⟩⟩ :=
      folderKey_cases hsplit
    · have hroot : parent = [] → folderKey parent = some parent := by
        rintro rfl
        rfl
      simp only [hkey, hdisc, true_and, Option.some.injEq, exists_eq_left']
      exact ⟨.inl, fun h => h.elim id fun h => hroot h.1⟩
    · simp [hkey, hdisc, hstrip]
    · have hlonger : folderKey parent ≠ some folder := fun h =>
        Nat.not_le.mpr (length_parent_lt hsplit) (folderKey_length_le h)
      have hnamed := name_ne_nil hname hsplit
      simp [hkey, hdisc, hstrip, hlonger, hnamed]
    · cases parent with
      | nil =>
        have hroot : folderKey [] = some [] := rfl
        simp [hkey, hdisc, hstrip, hroot, eq_comm]
      | cons c parent =>
        have hlonger : folderKey (c :: parent) ≠ some (c :: parent ++ '/' :: stripped) := by
          intro h
          have hle := folderKey_length_le h
          rw [List.length_append] at hle
          exact absurd hle (by simp)
        simpa [hkey, hdisc] using hlonger

namespace DiscFile

variable (track : DiscFile)

theorem inDisc_eq : track.inDisc = (track.folder ++ '/' :: track.disc) ++ '/' :: track.file := by
  simp [inDisc]

theorem dropWhile_disc : (track.folder ++ '/' :: track.disc).dropWhile Text.isWhitespace =
    track.trimmedFolder ++ '/' :: track.disc := Text.dropWhile_append_cons (by decide) _ _

theorem disc_ne_nil : track.disc ≠ [] := by
  intro hempty
  have hdisc := track.discOnly
  rw [hempty] at hdisc
  exact absurd hdisc (by decide)

theorem getLast?_trimmedFolder_ne : track.trimmedFolder.getLast? ≠ some '/' := by
  intro hlast
  obtain ⟨front, hfront⟩ := List.dropWhile_suffix Text.isWhitespace (l := track.folder)
  have hne : track.trimmedFolder ≠ [] := by
    intro hempty
    simp [hempty] at hlast
  refine track.folderNamed.2 ?_
  rw [← hfront]
  exact (List.getLast?_append_of_ne_nil front hne).trans hlast

/-- The disc folder leaves the key to the folder, and the files of the folder have
it too exactly when its name is left as it is. A file name of white space is no
file name to `canonical_album_folder`, which takes the folder for the file. -/
theorem sharesKey_iff (track : DiscFile) :
    track.SharesKey ↔
      if track.file.all Text.isWhitespace then GivesWay track.trimmedFolder
      else Plain track.trimmedFolder := by
  have hblank : track.file.all Text.isWhitespace = true ↔ Text.trimEnd track.file = [] := by
    simp [Text.trimEnd_eq_nil_iff]
  unfold SharesKey
  rw [inDisc_eq, inFolder]
  split
  next hfile =>
    have hdisc : ((track.folder ++ '/' :: track.disc).dropWhile Text.isWhitespace).getLast? ≠
        some '/' := by
      rw [dropWhile_disc]
      exact getLast?_segment_ne track.disc_ne_nil track.discNamed _
    rw [canonicalAlbumFolder_blank (hblank.mp hfile) hdisc,
      canonicalAlbumFolder_blank (hblank.mp hfile) track.getLast?_trimmedFolder_ne, dropWhile_disc,
      splitLastSegment_append track.discNamed]
    exact givesWay_iff track.getLast?_trimmedFolder_ne
  next hfile =>
    have hname : Text.trimEnd track.file ≠ [] := fun h => hfile (hblank.mpr h)
    rw [canonicalAlbumFolder_file track.fileNamed.2 hname,
      canonicalAlbumFolder_file track.fileNamed.2 hname, dropWhile_disc,
      folderKey_disc track.discNamed track.discOnly]
    refine Iff.trans ?_ (folderKey_eq_self_iff track.trimmedFolder)
    simp [trimmedFolder]

/-- A disc folder in the folder of a disc. -/
def nested : DiscFile where
  folder := "Artist/Album (Disc 1)".toList
  disc := "CD 1".toList
  file := "t.flac".toList
  folderNamed := by decide
  discNamed := by decide
  discOnly := by decide
  fileNamed := by decide

/-- The disc folder is one album, and the folder it is in is another. -/
theorem nested_discs_differ :
    canonicalAlbumFolder nested.inDisc = some "Artist/Album (Disc 1)".toList ∧
      canonicalAlbumFolder nested.inFolder = some "Artist/Album".toList ∧
      ¬ nested.SharesKey := by
  have hdisc : canonicalAlbumFolder nested.inDisc = some "Artist/Album (Disc 1)".toList := by
    decide
  have hfolder : canonicalAlbumFolder nested.inFolder = some "Artist/Album".toList := by decide
  refine ⟨hdisc, hfolder, ?_⟩
  rintro ⟨key, hkey, hkey'⟩
  cases hdisc.symm.trans (hkey.trans (hkey'.symm.trans hfolder))

end DiscFile

end EvoAudio.Names
