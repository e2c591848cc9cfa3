import EvoAudio.Storage.ProcTables
import Mathlib.Data.List.Forall2

/-!
# What the classifier reads in the kernel's tables

Decoding a field gives the bytes of the name it was printed of, each as a
character of its own, so that ASCII names come back and no others. A line is
never refused, and it is an entry for a device and a system path exactly if it
shows them.
-/

namespace EvoAudio.Storage

-- ---------------------------------------------------------------------------
-- Decoding
-- ---------------------------------------------------------------------------

@[simp] theorem latin1_cons :
    latin1 (c :: s) = (String.utf8EncodeChar c).map byteChar ++ latin1 s := by
  simp [latin1]

theorem byteChar_byte {c : Char} (h : c.toNat < 128) : byteChar (Text.byte c) = c := by
  rw [byteChar, Text.byte_toNat h, Char.ofNat_toNat]

theorem latin1_ascii (h : ∀ c ∈ s, c.toNat < 128) : latin1 s = s := by
  induction s with
  | nil => rfl
  | cons c s ih =>
    rw [List.forall_mem_cons] at h
    rw [latin1_cons, Text.utf8EncodeChar_ascii h.1, ih h.2]
    simp [byteChar_byte h.1]

theorem byteChar_toNat (b : UInt8) : (byteChar b).toNat = b.toNat := by
  have hvalid : b.toNat.isValidChar := Or.inl (Nat.lt_trans b.toNat_lt (by decide))
  rw [byteChar, Char.ofNat, dif_pos hvalid]
  rfl

/-- The bytes of a name outside ASCII are no ASCII characters. -/
theorem latin1_eq_iff (ht : ∀ c ∈ t, c.toNat < 128) : latin1 s = t ↔ s = t := by
  constructor
  · intro heq
    have hs : ∀ c ∈ s, c.toNat < 128 := by
      intro c hc
      by_contra hhigh
      obtain ⟨b, hb⟩ := List.exists_mem_of_ne_nil (String.utf8EncodeChar c) (by simp)
      have hbyte := Text.utf8EncodeChar_high (Nat.not_lt.mp hhigh) b hb
      have hmem : byteChar b ∈ latin1 s :=
        List.mem_map_of_mem (List.mem_flatMap.mpr ⟨c, hc, hb⟩)
      have := ht _ (heq ▸ hmem)
      rw [byteChar_toNat] at this
      omega
    rw [← heq, latin1_ascii hs]
  · rintro rfl
    exact latin1_ascii ht

theorem decodeBytes_cons (h : b ≠ Text.byte '\\') (rest : List UInt8) :
    decodeBytes (b :: rest) = byteChar b :: decodeBytes rest := by
  rcases rest with _ | ⟨d1, _ | ⟨d2, _ | ⟨d3, rest⟩⟩⟩
  · rfl
  · rfl
  · rfl
  · simp [decodeBytes, h]

theorem decodeBytes_append (h : Text.byte '\\' ∉ run) (rest : List UInt8) :
    decodeBytes (run ++ rest) = run.map byteChar ++ decodeBytes rest := by
  induction run with
  | nil => rfl
  | cons b run ih =>
    rw [List.mem_cons, not_or] at h
    rw [List.cons_append, decodeBytes_cons (Ne.symm h.1), ih h.2]
    rfl

theorem decodeMountinfoField_plain (h : '\\' ∉ s) : decodeMountinfoField s = latin1 s := by
  have hbyte : Text.byte '\\' ∉ Text.encode s := by
    rwa [Text.byte_mem_encode (by decide)]
  have := decodeBytes_append hbyte []
  simpa [decodeMountinfoField, latin1, decodeBytes] using this

/-- An escape is read as the character it stands for. -/
theorem decodeBytes_octal (h : c ∈ nameEscapes) (rest : List UInt8) :
    decodeBytes (Text.encode (Text.octal c) ++ rest) = c :: decodeBytes rest := by
  simp only [nameEscapes, List.mem_cons, List.not_mem_nil, or_false] at h
  rcases h with rfl | rfl | rfl | rfl | rfl <;> rfl

theorem decodeMountinfoField_escape (hback : '\\' ∈ esc) (hesc : esc ⊆ nameEscapes)
    (s : List Char) : decodeMountinfoField (Text.escape esc s) = latin1 s := by
  unfold decodeMountinfoField
  induction s with
  | nil => rfl
  | cons c s ih =>
    rw [Text.escape_cons, Text.encode_append, latin1_cons]
    by_cases hc : c ∈ esc
    · have hascii : ∀ d ∈ nameEscapes, d.toNat < 128 := Text.forall_of_all (by decide)
      rw [Text.escapeChar_of_mem hc, decodeBytes_octal (hesc hc), ih,
        Text.utf8EncodeChar_ascii (hascii c (hesc hc))]
      simp [byteChar_byte (hascii c (hesc hc))]
    · have hne : '\\' ∉ [c] := by
        intro hmem
        rw [List.mem_singleton] at hmem
        exact hc (hmem ▸ hback)
      have hbyte : Text.byte '\\' ∉ Text.encode [c] := by
        rwa [Text.byte_mem_encode (by decide)]
      rw [Text.escapeChar_of_notMem hc, decodeBytes_append hbyte, ih]
      simp

-- ---------------------------------------------------------------------------
-- Reading mounts
-- ---------------------------------------------------------------------------

/-- A field that is printed as it is and read as one word. -/
structure Plain (s : List Char) : Prop where
  ne_nil : s ≠ []
  solid : ∀ c ∈ s, Text.isWhitespace c = false ∧ c ≠ '\\'

namespace Plain

theorem append (hs : Plain s) (ht : ∀ c ∈ t, Text.isWhitespace c = false ∧ c ≠ '\\') :
    Plain (s ++ t) where
  ne_nil := by simp [hs.ne_nil]
  solid := by
    intro c hc
    exact (List.mem_append.mp hc).elim (hs.solid c) (ht c)

theorem words (h : Plain s) : Text.words s = [s] :=
  Text.words_of_solid (fun c hc => (h.solid c hc).1) h.ne_nil

theorem decode (h : Plain s) : decodeMountinfoField s = latin1 s :=
  decodeMountinfoField_plain fun hback => (h.solid _ hback).2 rfl

theorem escape (h : Plain s) : Text.escape pathEscapes s = s := by
  refine Text.escape_of_plain fun c hc hesc => ?_
  have hspecial : ∀ c ∈ pathEscapes, Text.isWhitespace c ∨ c = '\\' :=
    Text.forall_of_all (by decide)
  obtain ⟨hsolid, hback⟩ := h.solid c hc
  simpa [hsolid, hback] using hspecial c hesc

theorem newline (h : Plain s) : '\n' ∉ s := by
  intro hmem
  have := (h.solid _ hmem).1
  revert this
  decide

end Plain

theorem digit_solid {c : Char} (h : c.isDigit) : Text.isWhitespace c = false ∧ c ≠ '\\' := by
  have hrange : 48 ≤ c.toNat ∧ c.toNat ≤ 57 := by
    simpa [Char.isDigit, UInt32.le_iff_toNat_le] using h
  constructor
  · simp only [Text.isWhitespace, Bool.or_eq_false_iff, Bool.and_eq_false_iff,
      decide_eq_false_iff_not, beq_eq_false_iff_ne]
    omega
  · rintro rfl
    exact absurd hrange (by decide)

theorem plain_number (n : Nat) : Plain (number n) where
  ne_nil := Nat.toDigits_ne_nil
  solid := fun _ hc => digit_solid (Nat.isDigit_of_mem_toDigits (by omega) (by omega) hc)

theorem plain_deviceNumber (r : MountRecord) : Plain r.deviceNumber := by
  refine (plain_number r.major).append ?_
  rw [List.forall_mem_cons]
  exact ⟨by decide, (plain_number r.minor).solid⟩

theorem plain_accessText (readOnly : Bool) : Plain (accessText readOnly) := by
  cases readOnly
  · exact ⟨by decide, Text.forall_of_all (by decide)⟩
  · exact ⟨by decide, Text.forall_of_all (by decide)⟩

theorem flag_solid (flag : MountFlag) :
    ∀ c ∈ flag.text, Text.isWhitespace c = false ∧ c ≠ '\\' := by
  cases flag <;> exact Text.forall_of_all (by decide)

theorem plain_options (r : MountRecord) : Plain r.options := by
  refine (plain_accessText r.readOnly).append fun c hc => ?_
  obtain ⟨flag, -, hflag⟩ := List.mem_flatMap.mp hc
  exact flag_solid flag c hflag

theorem plain_optionalField (field : OptionalField) : Plain field.text := by
  cases field with
  | shared peers => exact Plain.append ⟨by decide, Text.forall_of_all (by decide)⟩ (plain_number peers).solid
  | master peers => exact Plain.append ⟨by decide, Text.forall_of_all (by decide)⟩ (plain_number peers).solid
  | propagateFrom peers => exact Plain.append ⟨by decide, Text.forall_of_all (by decide)⟩ (plain_number peers).solid
  | unbindable => exact ⟨by decide, Text.forall_of_all (by decide)⟩

/-- The word of a line that stands for a word of the name before the escapes. -/
def ReadsAs (tok word : List Char) : Prop :=
  decodeMountinfoField tok = latin1 word ∧ (tok = ['-'] ↔ word = ['-'])

theorem Plain.readsAs (h : Plain s) : List.Forall₂ ReadsAs (Text.words s) [s] := by
  rw [h.words]
  exact .cons ⟨h.decode, Iff.rfl⟩ .nil

theorem readsAs_escape (hback : '\\' ∈ esc) (hesc : esc ⊆ nameEscapes) (s : List Char) :
    List.Forall₂ ReadsAs (Text.words (Text.escape esc s)) (Text.pieces esc s) := by
  rw [Text.words_escape, List.forall₂_map_left_iff, List.forall₂_same]
  intro part _
  have hyphen : '-' ∉ esc := fun hmem => absurd (hesc hmem) (by decide)
  exact ⟨decodeMountinfoField_escape hback hesc part,
    Text.escape_eq_iff (by decide) (by simpa using hyphen)⟩

theorem path_subset_name : pathEscapes ⊆ nameEscapes := by decide

namespace MountRecord

theorem fields_readAs (r : MountRecord) :
    List.Forall₂ (fun field words => List.Forall₂ ReadsAs (Text.words field) words)
      r.fields r.parts := by
  have hpath := @readsAs_escape pathEscapes (by decide) path_subset_name
  have hname := @readsAs_escape nameEscapes (by decide) (List.Subset.refl _)
  have hyphen : Plain ['-'] := ⟨by decide, Text.forall_of_all (by decide)⟩
  have hoptional : List.Forall₂
      (fun field words => List.Forall₂ ReadsAs (Text.words field) words)
      (r.optionalFields.map OptionalField.text)
      (r.optionalFields.map fun field => [field.text]) := by
    rw [List.forall₂_map_left_iff, List.forall₂_map_right_iff, List.forall₂_same]
    exact fun field _ => (plain_optionalField field).readsAs
  refine List.rel_append (List.rel_append ?_ hoptional) ?_
  · exact .cons (plain_number _).readsAs (.cons (plain_number _).readsAs
      (.cons (plain_deviceNumber r).readsAs (.cons (hpath _) (.cons (hpath _)
        (.cons (plain_options r).readsAs .nil)))))
  · exact .cons hyphen.readsAs (.cons (hname _) (.cons (hname _) .nil))

/-- The words of a line: those of the fields up to the source, which decode to
the words of `cut`, and those of the options of the file system. -/
theorem words_line (r : MountRecord) :
    ∃ toks, Text.words r.line = toks ++ Text.words r.superText ∧
      List.Forall₂ ReadsAs toks r.cut := by
  refine ⟨(r.fields.map Text.words).flatten, ?_, ?_⟩
  · rw [line, Text.words_unfields, List.flatMap_append, List.flatMap_def]
    simp
  · exact List.rel_flatten (List.forall₂_map_left_iff.mpr r.fields_readAs)

theorem newline_notMem_line (r : MountRecord) : '\n' ∉ r.line := by
  intro hmem
  rcases Text.mem_unfields hmem with hblank | ⟨field, hfield, hmem⟩
  · exact absurd hblank (by decide)
  simp only [fields, List.append_assoc, List.mem_append, List.mem_cons, List.not_mem_nil, or_false,
    List.mem_map] at hfield
  have hpath := @Text.newline_notMem_escape pathEscapes (by decide)
  have hname := @Text.newline_notMem_escape nameEscapes (by decide)
  rcases hfield with (rfl | rfl | rfl | rfl | rfl | rfl) | ⟨field, -, rfl⟩ | (rfl | rfl | rfl) | rfl
  · exact (plain_number _).newline hmem
  · exact (plain_number _).newline hmem
  · exact (plain_deviceNumber r).newline hmem
  · exact hpath _ hmem
  · exact hpath _ hmem
  · exact (plain_options r).newline hmem
  · exact (plain_optionalField field).newline hmem
  · exact absurd hmem (by decide)
  · exact hname _ hmem
  · exact hname _ hmem
  · rcases List.mem_append.mp hmem with hmem | hmem
    · exact (plain_accessText _).newline hmem
    · exact r.superOptions_line hmem

theorem flatten_optionalFields (r : MountRecord) :
    (r.optionalFields.map fun field => [field.text]).flatten =
      r.optionalFields.map OptionalField.text := by
  rw [← List.flatMap_def, List.map_eq_flatMap]

/-- The separator stands in every line, with a word behind it. -/
theorem exists_hyphen (r : MountRecord) :
    6 ≤ r.cut.length ∧
      ∃ p, r.cut.findIdx? (· == ['-']) = some p ∧ p + 2 ≤ r.cut.length := by
  obtain ⟨c, hc, hsolid⟩ := r.fsType_named
  have hnamed : Text.pieces nameEscapes r.fsType ≠ [] := Text.pieces_ne_nil hc hsolid
  have hlength := List.length_pos_iff.mpr hnamed
  obtain ⟨before, hbefore, hcut⟩ : ∃ before, 4 ≤ before.length ∧ r.cut =
      before ++ ['-'] :: (Text.pieces nameEscapes r.fsType ++ Text.pieces nameEscapes r.source) := by
    refine ⟨[number r.mountId, number r.parentId, r.deviceNumber] ++
      (Text.pieces pathEscapes r.root ++ (Text.pieces pathEscapes r.mountPoint ++
        ([r.options] ++ r.optionalFields.map OptionalField.text))), ?_, ?_⟩
    · simp only [List.length_append, List.length_cons, List.length_nil]
      omega
    · simp [cut, parts, flatten_optionalFields]
  rw [hcut, List.findIdx?_append]
  simp only [List.length_append, List.length_cons]
  refine ⟨by omega, ?_⟩
  cases hp : before.findIdx? (· == ['-']) with
  | some p =>
    obtain ⟨hlt, -⟩ := List.findIdx?_eq_some_iff_getElem.mp hp
    exact ⟨p, by simp, by omega⟩
  | none =>
    refine ⟨before.length, ?_, by omega⟩
    rw [List.findIdx?_cons, if_pos (by decide)]
    simp

end MountRecord

theorem ReadsAs.findIdx? (h : List.Forall₂ ReadsAs toks words) :
    toks.findIdx? (· == ['-']) = words.findIdx? (· == ['-']) := by
  induction h with
  | nil => rfl
  | cons htok _ ih =>
    have hyphen := htok.2
    simp only [List.findIdx?_cons, ih, beq_iff_eq, hyphen]

theorem ReadsAs.getElem? {i : Nat} (h : List.Forall₂ ReadsAs toks words)
    (hi : words[i]? = some word) :
    ∃ tok, toks[i]? = some tok ∧ decodeMountinfoField tok = latin1 word := by
  induction h generalizing i with
  | nil => simp at hi
  | cons htok _ ih =>
    cases i with
    | zero =>
      simp only [List.getElem?_cons_zero, Option.some.injEq] at hi ⊢
      exact ⟨_, rfl, hi ▸ htok.1⟩
    | succ i => exact ih hi

theorem latin1_mem_systemPaths : latin1 word ∈ systemPaths ↔ word ∈ systemPaths := by
  have hascii : ∀ path ∈ systemPaths, ∀ c ∈ path, c.toNat < 128 := by
    simp only [systemPaths, List.forall_mem_cons, List.not_mem_nil, IsEmpty.forall_iff,
      implies_true, and_true]
    exact ⟨Text.forall_of_all (by decide), Text.forall_of_all (by decide),
      Text.forall_of_all (by decide), Text.forall_of_all (by decide)⟩
  constructor
  · intro hmem
    rwa [← (latin1_eq_iff (hascii _ hmem)).mp rfl] at hmem
  · intro hmem
    rwa [latin1_ascii (hascii _ hmem)]

/-- The reading of a line. Where the source is blank, the word behind the type is
the read-only flag, which names no device. -/
theorem mountEntry_line (r : MountRecord) :
    ∃ entry, mountEntry (Text.chomp r.line) = .ok entry ∧
      ∀ name, entry.deviceNode = devNode name ∧ entry.mountpoint ∈ systemPaths ↔
        r.Shows (devNode name) := by
  obtain ⟨toks, hwords, hreads⟩ := r.words_line
  obtain ⟨hlength, p, hp, hple⟩ := r.exists_hyphen
  obtain ⟨word, more, hsuper⟩ : ∃ word more, Text.words r.superText = ('r' :: word) :: more := by
    unfold MountRecord.superText accessText
    split
    · exact Text.words_cons_solid (by decide) _
    · exact Text.words_cons_solid (by decide) _
  have hsame := hreads.length_eq
  have hfind : (toks ++ Text.words r.superText).findIdx? (· == ['-']) = some p := by
    rw [List.findIdx?_append, ReadsAs.findIdx? hreads, hp, Option.some_or]
  obtain ⟨path, hpath⟩ : ∃ path, r.cut[4]? = some path := ⟨_, List.getElem?_eq_getElem (by omega)⟩
  obtain ⟨tok, htok, hmount⟩ := ReadsAs.getElem? hreads hpath
  have hfour : (toks ++ Text.words r.superText).getD 4 [] = tok := by
    rw [List.getD_eq_getElem?_getD, List.getElem?_append_left (by omega), htok]
    rfl
  have hseven : ¬ (toks ++ Text.words r.superText).length < 7 := by
    rw [hsuper, List.length_append, List.length_cons]
    omega
  have hpaths : (∃ path ∈ systemPaths, r.cut[4]? = some path) ↔ latin1 path ∈ systemPaths := by
    rw [latin1_mem_systemPaths, hpath]
    simp
  have hentry : ∀ source, (toks ++ Text.words r.superText)[p + 2]? = some source →
      mountEntry (Text.chomp r.line) = .ok ⟨decodeMountinfoField source, latin1 path⟩ := by
    intro source hsource
    simp only [mountEntry, Text.words_chomp, hwords, if_neg hseven, hfind, hfour, hmount, hsource]
  have hword : r.sourceWord = r.cut[p + 2]? := by
    rw [MountRecord.sourceWord, hp, Option.bind_some]
  rcases Nat.lt_or_eq_of_le hple with hlt | heq
  · obtain ⟨raw, hraw⟩ : ∃ raw, r.cut[p + 2]? = some raw := ⟨_, List.getElem?_eq_getElem hlt⟩
    obtain ⟨source, hsource, hdecode⟩ := ReadsAs.getElem? hreads hraw
    refine ⟨_, hentry source ?_, fun name => ?_⟩
    · rw [List.getElem?_append_left (by omega), hsource]
    · simp [MountRecord.Shows, hpaths, hword, hraw, hdecode, and_comm]
  · refine ⟨_, hentry ('r' :: word) ?_, fun name => ?_⟩
    · rw [List.getElem?_append_right (by omega), hsuper, heq, hsame]
      simp
    · have hsource : decodeMountinfoField ('r' :: word) ≠ devNode name := by
        rw [decodeMountinfoField, Text.encode_cons, Text.utf8EncodeChar_ascii (by decide),
          List.singleton_append, decodeBytes_cons (by decide)]
        intro hdevice
        exact absurd (List.cons.inj hdevice).1 (by decide)
      simp [MountRecord.Shows, hword, heq, hsource]

theorem parseMountinfo_mountTable (mounts : List MountRecord) :
    ∃ entries, parseMountinfo (mountTable mounts) = .ok entries ∧
      ∀ name, (∃ entry ∈ entries, entry.deviceNode = devNode name ∧
          entry.mountpoint ∈ systemPaths) ↔
        ∃ r ∈ mounts, r.Shows (devNode name) := by
  have hlines : Text.lines (mountTable mounts) = mounts.map fun r => Text.chomp r.line := by
    have hnewline : ∀ line ∈ mounts.map MountRecord.line, '\n' ∉ line := by
      intro line hline
      obtain ⟨r, -, rfl⟩ := List.mem_map.mp hline
      exact r.newline_notMem_line
    rw [mountTable, Text.lines_unlines hnewline, List.map_map]
    rfl
  have hfull : ∀ line ∈ mounts.map fun r => Text.chomp r.line,
      (!(Text.trim line).isEmpty) = true := by
    intro line hline
    obtain ⟨r, -, rfl⟩ := List.mem_map.mp hline
    obtain ⟨toks, hwords, hreads⟩ := r.words_line
    have hlength := r.exists_hyphen.1
    have hsame := hreads.length_eq
    have hne : Text.words (Text.chomp r.line) ≠ [] := by
      rw [Text.words_chomp, hwords, ← List.length_pos_iff, List.length_append]
      omega
    simpa using Text.trim_ne_nil_of_words hne
  rw [parseMountinfo, hlines, List.filter_eq_self.mpr hfull]
  clear hlines hfull
  induction mounts with
  | nil => exact ⟨[], rfl, by simp⟩
  | cons r mounts ih =>
    obtain ⟨entry, hentry, hshows⟩ := mountEntry_line r
    obtain ⟨entries, hentries, hall⟩ := ih
    refine ⟨entry :: entries, ?_, fun name => ?_⟩
    · rw [List.map_cons, List.mapM_cons, hentry, hentries]
      rfl
    · simp only [List.mem_cons, or_and_right, exists_or, exists_eq_left, hall, hshows]

-- ---------------------------------------------------------------------------
-- Reading swap areas
-- ---------------------------------------------------------------------------

namespace SwapRecord

theorem plain_kind (s : SwapRecord) : Plain s.kind := by
  unfold kind
  split
  · exact ⟨by decide, Text.forall_of_all (by decide)⟩
  · exact ⟨by decide, Text.forall_of_all (by decide)⟩

theorem plain_priorityText (s : SwapRecord) : Plain s.priorityText := by
  unfold priorityText
  split
  · exact Plain.append (s := ['-']) ⟨by decide, Text.forall_of_all (by decide)⟩ (plain_number _).solid
  · exact plain_number _

theorem tabs_blank (n : Nat) : tabs n ≠ [] ∧ ∀ c ∈ tabs n, Text.isWhitespace c := by
  unfold tabs
  split
  · exact ⟨by decide, Text.forall_of_all (by decide)⟩
  · exact ⟨by decide, Text.forall_of_all (by decide)⟩

theorem words_line (s : SwapRecord) :
    Text.words s.line = s.cut.map (Text.escape pathEscapes) := by
  have hpad : ∀ n, ∀ c ∈ List.replicate n ' ', Text.isWhitespace c := by
    intro n c hc
    rw [List.eq_of_mem_replicate hc]
    rfl
  have hkind : ∀ c ∈ (if s.isPartition then ['\t'] else ['\t', '\t']), Text.isWhitespace c := by
    split <;> exact Text.forall_of_all (by decide)
  rw [line, Text.words_append_gap (hpad _) (by simp),
    Text.words_append_gap hkind (by split <;> simp),
    Text.words_append_gap (tabs_blank _).2 (tabs_blank _).1,
    Text.words_append_gap (tabs_blank _).2 (tabs_blank _).1, Text.words_escape,
    s.plain_kind.words, (plain_number _).words, (plain_number _).words,
    s.plain_priorityText.words, cut, List.map_append]
  simp [s.plain_kind.escape, (plain_number _).escape, s.plain_priorityText.escape]

theorem newline_notMem_line (s : SwapRecord) : '\n' ∉ s.line := by
  have htabs : ∀ n, '\n' ∉ tabs n := by
    intro n
    unfold tabs
    split <;> decide
  have hkind : '\n' ∉ (if s.isPartition then ['\t'] else ['\t', '\t']) := by
    split <;> decide
  simp only [line, List.mem_append, List.mem_replicate, not_or]
  exact ⟨Text.newline_notMem_escape (by decide) _, by simp, s.plain_kind.newline, hkind,
    (plain_number _).newline, htabs _, (plain_number _).newline, htabs _,
    s.plain_priorityText.newline⟩

theorem swapDevice_line (s : SwapRecord) :
    swapDevice (Text.chomp s.line) = some device ↔ s.Shows device := by
  obtain ⟨word, kind, rest, hcut⟩ : ∃ word kind rest, s.cut = word :: kind :: rest := by
    unfold cut
    rcases Text.pieces pathEscapes s.path with _ | ⟨word, _ | ⟨kind, rest⟩⟩
    · exact ⟨_, _, _, rfl⟩
    · exact ⟨_, _, _, rfl⟩
    · exact ⟨_, _, _, rfl⟩
  have hkind : Text.escape pathEscapes kind = "partition".toList ↔ kind = "partition".toList :=
    Text.escape_eq_iff (by decide) (Text.forall_of_all (by decide))
  rw [swapDevice, Text.words_chomp, words_line, hcut]
  simp only [List.map_cons, hkind, Shows, hcut, List.cons.injEq]
  split
  next hpartition => simp [hpartition]
  next hpartition =>
    constructor
    · intro h
      cases h
    · rintro ⟨-, -, ⟨-, h, -⟩, -⟩
      exact absurd h hpartition

end SwapRecord

theorem mem_parseSwaps_swapTable (swaps : List SwapRecord) (device : List Char) :
    device ∈ parseSwaps (swapTable swaps) ↔ ∃ s ∈ swaps, s.Shows device := by
  have hnewline : ∀ line ∈ swapHeader :: swaps.map SwapRecord.line, '\n' ∉ line := by
    intro line hline
    rcases List.mem_cons.mp hline with rfl | hline
    · decide
    · obtain ⟨s, -, rfl⟩ := List.mem_map.mp hline
      exact s.newline_notMem_line
  rw [parseSwaps, swapTable, Text.lines_unlines hnewline]
  simp [SwapRecord.swapDevice_line]

end EvoAudio.Storage
