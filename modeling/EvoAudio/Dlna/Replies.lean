import EvoAudio.Dlna.Browse

/-!
# Replies that can be read

The opening tag of `extract_tag` is searched for from the front, the closing one behind it,
and then the last `<` before the closing one, in the whole text. When no `<` stands between
the two tags, the one that is found stands before the opening tag, and the slice between ends
before it begins. The excerpt of an error is cut at byte 240, on a character boundary or not.
Every other step of `browse_page` comes to an end on every reply.
-/

namespace EvoAudio.Dlna

open Text Checked

-- ---------------------------------------------------------------------------
-- Excerpts
-- ---------------------------------------------------------------------------

/-- A text whose excerpt of so many bytes ends at a character boundary. -/
def Excerptible (s : List Char) (n : Nat) : Prop := len s ≤ n ∨ (cutAt s n).isSome

theorem returns_truncate_iff {s : List Char} {n : Nat} :
    (∃ excerpt, Returns (truncate s n) (some excerpt)) ↔ Excerptible s n := by
  unfold truncate Excerptible
  by_cases hlen : len s ≤ n
  · simp [hlen]
  · rw [if_neg hlen]
    simp only [hlen, false_or, sliceTo]
    cases hcut : cutAt s n with
    | none => simp [returns_bind, returns_orFault]
    | some cut => simp [returns_bind, returns_orFault]

-- ---------------------------------------------------------------------------
-- Tags
-- ---------------------------------------------------------------------------

/-- Whether a name can stand behind this character in an opening tag. -/
def opens (prev : Option Char) : Bool := prev == some '<' || prev == some ':'

/-- The text before and behind the first occurrence of a name that opens a tag. -/
def openingFrom (needle : List Char) : Option Char → List Char → Option (List Char × List Char)
  | _, [] => none
  | prev, c :: s =>
    if opens prev ∧ needle <+: c :: s then some ([], (c :: s).drop needle.length)
    else (openingFrom needle (some c) s).map fun (front, after) => (c :: front, after)

def opening (needle xml : List Char) : Option (List Char × List Char) := openingFrom needle none xml

/-- The content of the first element of a name: what is between its opening tag and the
last `<` before the first closing tag behind that. -/
def tagContent (xml tag : List Char) : Option (List Char) := do
  let (_, after) ← opening (tag ++ ['>']) xml
  let (middle, _) ← splitOnce ('/' :: tag ++ ['>']) after
  let (content, _) ← splitLast ['<'] middle
  pure content

/-- No closing tag stands behind the opening one without a `<` between them, unless none
stands before them either. -/
def Readable (xml tag : List Char) : Prop :=
  ∀ front after middle rest, opening (tag ++ ['>']) xml = some (front, after) →
    splitOnce ('/' :: tag ++ ['>']) after = some (middle, rest) → '<' ∈ middle ∨ '<' ∉ front

theorem openingFrom_append {needle : List Char} {prev : Option Char} {s : List Char}
    (h : openingFrom needle prev s = some (front, after)) : s = front ++ needle ++ after := by
  induction s generalizing prev front with
  | nil => cases h
  | cons c s ih =>
    rw [openingFrom] at h
    split at h
    next hopen =>
      cases h
      obtain ⟨rest, hrest⟩ := hopen.2
      rw [← hrest, List.drop_left, List.nil_append]
    next =>
      obtain ⟨⟨front', after'⟩, hs, hsplit⟩ := Option.map_eq_some_iff.mp h
      cases hsplit
      rw [ih hs]
      rfl

theorem openingFrom_eq_none {needle : List Char} {prev : Option Char} {s : List Char}
    (h : splitOnce needle s = none) : openingFrom needle prev s = none := by
  induction s generalizing prev with
  | nil => rfl
  | cons c s ih =>
    rw [splitOnce] at h
    split at h
    next => cases h
    next hno =>
      rw [openingFrom, if_neg (fun hopen => hno hopen.2), ih (Option.map_eq_none_iff.mp h)]
      rfl

/-- The first occurrence of a name opens a tag, or the search goes on behind its first
character. -/
theorem openingFrom_of_splitOnce {c : Char} {needle : List Char} {prev : Option Char} {s : List Char}
    (h : splitOnce (c :: needle) s = some (before, after)) :
    openingFrom (c :: needle) prev s =
      if opens (before.getLast?.or prev) then some (before, after)
      else (openingFrom (c :: needle) (some c) (needle ++ after)).map fun (front, rest) =>
        (before ++ c :: front, rest) := by
  induction s generalizing prev before with
  | nil => cases h
  | cons d s ih =>
    rw [splitOnce] at h
    split at h
    next hpre =>
      cases h
      obtain ⟨rest, hrest⟩ := hpre
      obtain ⟨rfl, rfl⟩ := List.cons.inj hrest
      rw [openingFrom]
      by_cases hopens : opens prev
      · simp [hopens]
      · simp [hopens]
    next hno =>
      obtain ⟨⟨before', after'⟩, hs, hsplit⟩ := Option.map_eq_some_iff.mp h
      cases hsplit
      rw [openingFrom, if_neg (fun hopen => hno hopen.2), ih hs]
      have hlast : (d :: before').getLast?.or prev = before'.getLast?.or (some d) := by
        rw [List.getLast?_cons]
        cases before'.getLast? <;> rfl
      rw [hlast]
      split
      · rfl
      · rw [Option.map_map]
        rfl

theorem opens_iff_byte {s : List Char} {b : UInt8} (h : (encode s).getLast? = some b) :
    (b = byte '<' ∨ b = byte ':') ↔ opens s.getLast? = true := by
  have hopens := getLast?_encode (c := '<') (by decide) s
  have hcolon := getLast?_encode (c := ':') (by decide) s
  rw [h, Option.some.injEq] at hopens hcolon
  rw [hopens, hcolon]
  simp [opens]

theorem returns_openTagStep (c : Char) (needle pre s : List Char) :
    Returns (openTagStep (pre ++ s) (c :: needle) (len pre))
      ((splitOnce (c :: needle) s).map fun (before, _) =>
        if opens (pre ++ before).getLast? then .inr (len (pre ++ before) + len (c :: needle))
        else .inl (len (pre ++ before) + 1)) := by
  have hrest : Returns (orFault (sliceFrom (pre ++ s) (len pre))) (some s) := by
    simp [returns_orFault]
  rw [openTagStep, hrest.bind_iff, find]
  cases hsplit : splitOnce (c :: needle) s with
  | none => simp [returns_bind]
  | some cut =>
    obtain ⟨before, after⟩ := cut
    have hs : pre ++ s = (pre ++ before) ++ (c :: needle ++ after) := by
      rw [splitOnce_eq_append hsplit]
      simp
    simp only [Option.map_some]
    rw [(returns_ofOption.mpr rfl).bind_iff, ← len_append]
    by_cases hpos : 0 < len (pre ++ before)
    · have hlen : 0 < (encode (pre ++ before)).length := hpos
      obtain ⟨b, hb⟩ := Option.ne_none_iff_exists'.mp
        (mt List.getLast?_eq_none_iff.mp (List.ne_nil_of_length_pos hlen))
      have hindex : (encode (pre ++ s))[len (pre ++ before) - 1]? = some b := by
        rw [hs, encode_append, len, List.getElem?_append_left (Nat.sub_one_lt_of_lt hlen), ← hb,
          List.getLast?_eq_getElem?]
      rw [if_pos hpos, (returns_index.mpr ⟨b, hindex, rfl⟩).bind_iff]
      by_cases hopens : opens (pre ++ before).getLast?
      · rw [if_pos ((opens_iff_byte hb).mpr hopens), if_pos hopens]
        exact returns_pure.mpr rfl
      · rw [if_neg (mt (opens_iff_byte hb).mp hopens), if_neg hopens]
        exact returns_pure.mpr rfl
    · have hnil : pre ++ before = [] := len_eq_zero.mp (by omega)
      rw [if_neg hpos, hnil]
      exact returns_pure.mpr rfl

/-- The search for the opening tag from a place on, with what is before the place. -/
theorem returns_openTag {c : Char} (hc : c.utf8Size = 1) (needle pre s : List Char) :
    Returns (loop (openTagStep (pre ++ s) (c :: needle)) (len pre))
      ((openingFrom (c :: needle) pre.getLast? s).map fun (front, _) =>
        len (pre ++ front) + len (c :: needle)) := by
  induction hn : s.length using Nat.strongRecOn generalizing pre s with
  | ind n ih =>
    have hstep := returns_openTagStep c needle pre s
    cases hsplit : splitOnce (c :: needle) s with
    | none =>
      rw [hsplit] at hstep
      rw [openingFrom_eq_none hsplit]
      exact returns_loop.mpr (.inl ⟨hstep, rfl⟩)
    | some cut =>
      obtain ⟨before, after⟩ := cut
      have hs := splitOnce_eq_append hsplit
      have hlast : before.getLast?.or pre.getLast? = (pre ++ before).getLast? :=
        List.getLast?_append.symm
      rw [hsplit, Option.map_some] at hstep
      rw [openingFrom_of_splitOnce hsplit, hlast]
      by_cases hopens : opens (pre ++ before).getLast?
      · simp only [hopens, if_true] at hstep ⊢
        exact returns_loop.mpr (.inr (.inl ⟨_, hstep, rfl⟩))
      · simp only [hopens, Bool.false_eq_true, if_false] at hstep ⊢
        have hnext : pre ++ s = (pre ++ before ++ [c]) ++ (needle ++ after) := by
          rw [hs]
          simp
        have hlen : len (pre ++ before) + 1 = len (pre ++ before ++ [c]) := by
          simp [hc, Nat.add_assoc]
        have hshort : (needle ++ after).length < n := by
          rw [← hn, hs]
          simp only [List.length_append, List.length_cons]
          omega
        have hrest := ih _ hshort (pre ++ before ++ [c]) (needle ++ after) rfl
        rw [← hnext, ← hlen, List.getLast?_concat] at hrest
        refine returns_loop.mpr (.inr (.inr ⟨_, hstep, ?_⟩))
        rw [Option.map_map]
        convert hrest using 4
        simp

/-- A name that the searches look for: it begins with a character of one byte, and has no
`<` in it. -/
def IsTag (tag : List Char) : Prop := ∃ c rest, tag = c :: rest ∧ c.utf8Size = 1 ∧ '<' ∉ tag

/-- The slice from the end of the opening tag to the last `<` before the closing one. -/
theorem returns_content_iff {front needle middle rest : List Char} (hneedle : '<' ∉ needle) :
    Returns (do
      let contentEnd ← ofOption (rfind ['<'] (front ++ needle ++ middle))
      orFault (slice (front ++ needle ++ middle ++ rest) (len (front ++ needle)) contentEnd)) r ↔
      ('<' ∈ middle ∨ '<' ∉ front) ∧ r = (splitLast ['<'] middle).map Prod.fst := by
  by_cases hmiddle : '<' ∈ middle
  · -- The closing tag's own `<`, or one in the content.
    obtain ⟨⟨content, tail⟩, hcut⟩ := Option.ne_none_iff_exists'.mp
      (mt splitLast_singleton_eq_none.mp (not_not.mpr hmiddle))
    obtain ⟨rfl, -⟩ := splitLast_singleton_some hcut
    rw [rfind, splitLast_append_of_mem hmiddle, hcut, Option.map_some, Option.map_some,
      (returns_ofOption.mpr rfl).bind_iff]
    have hslice := slice_len (front ++ needle) content ('<' :: tail ++ rest)
    rw [← len_append] at hslice
    have hxml : front ++ needle ++ (content ++ '<' :: tail) ++ rest =
        front ++ needle ++ content ++ ('<' :: tail ++ rest) := by simp
    rw [hxml, hslice]
    simp [hmiddle, orFault]
  · have hnot : '<' ∉ needle ++ middle := by simp [hneedle, hmiddle]
    rw [splitLast_singleton_eq_none.mpr hmiddle, rfind, List.append_assoc,
      splitLast_append_of_notMem hnot]
    by_cases hfront : '<' ∈ front
    · obtain ⟨⟨before, tail⟩, hcut⟩ := Option.ne_none_iff_exists'.mp
        (mt splitLast_singleton_eq_none.mp (not_not.mpr hfront))
      obtain ⟨rfl, -⟩ := splitLast_singleton_some hcut
      have hlate : ¬len (before ++ '<' :: tail ++ needle) ≤ len before := by
        have hpos := Char.utf8Size_pos '<'
        simp only [len_append, len_cons]
        omega
      rw [hcut, Option.map_some, Option.map_some, (returns_ofOption.mpr rfl).bind_iff, slice,
        if_neg hlate]
      simp [orFault, hmiddle]
    · rw [splitLast_singleton_eq_none.mpr hfront]
      simp [returns_bind, hfront]

theorem returns_extractTag_iff {xml tag : List Char} (htag : IsTag tag) :
    Returns (extractTag xml tag) r ↔ Readable xml tag ∧ r = tagContent xml tag := by
  obtain ⟨c, name, rfl, hc, hlt⟩ := htag
  have hopen := returns_openTag hc (name ++ ['>']) [] xml
  rw [List.nil_append, List.getLast?_nil, len_nil] at hopen
  have hneedle : '<' ∉ c :: (name ++ ['>']) := by simpa using hlt
  simp only [extractTag, List.cons_append, tagContent, Readable, opening]
  generalize c :: (name ++ ['>']) = needle at hopen hneedle
  cases hfind : openingFrom needle none xml with
  | none =>
    rw [hfind] at hopen
    rw [hopen.bind_none_iff]
    simp
  | some cut =>
    obtain ⟨front, after⟩ := cut
    obtain rfl := openingFrom_append hfind
    rw [hfind] at hopen
    rw [hopen.bind_iff]
    simp only [List.nil_append, ← len_append, Option.some.injEq, Prod.mk.injEq, and_imp,
      Option.bind_eq_bind, Option.bind_some]
    have hafter : Returns (orFault (sliceFrom (front ++ needle ++ after) (len (front ++ needle))))
        (some after) := by
      rw [returns_orFault, sliceFrom_len]
      exact ⟨after, rfl, rfl⟩
    rw [hafter.bind_iff, find]
    cases hsplit : splitOnce ('/' :: needle) after with
    | none =>
      have hreadable : ∀ front' after' middle rest, front = front' → after = after' →
          splitOnce ('/' :: needle) after' = some (middle, rest) →
            '<' ∈ middle ∨ '<' ∉ front' := by
        rintro _ _ middle rest rfl rfl hs
        rw [hsplit] at hs
        cases hs
      simp only [Option.map_none, returns_bind, returns_ofOption, Option.bind_none]
      exact ⟨fun h => ⟨hreadable, by simpa using h⟩, fun h => .inl ⟨trivial, h.2⟩⟩
    | some cut =>
      obtain ⟨middle, rest⟩ := cut
      have hreadable : (∀ front' after' middle rest, front = front' → after = after' →
          splitOnce ('/' :: needle) after' = some (middle, rest) →
            '<' ∈ middle ∨ '<' ∉ front') ↔ ('<' ∈ middle ∨ '<' ∉ front) := by
        constructor
        · exact fun h => h front after middle rest rfl rfl hsplit
        · rintro h _ _ middle' rest' rfl rfl hs
          rw [hsplit] at hs
          cases hs
          exact h
      obtain rfl := splitOnce_eq_append hsplit
      have hxml : front ++ needle ++ (middle ++ '/' :: needle ++ rest) =
          front ++ needle ++ middle ++ ('/' :: needle ++ rest) := by simp
      have hbefore : Returns (orFault (sliceTo (front ++ needle ++ middle ++ ('/' :: needle ++ rest))
          (len (front ++ needle ++ middle)))) (some (front ++ needle ++ middle)) := by
        rw [returns_orFault, sliceTo_len]
        exact ⟨_, rfl, rfl⟩
      rw [hreadable, Option.map_some, (returns_ofOption.mpr rfl).bind_iff, ← len_append, hxml,
        hbefore.bind_iff, returns_content_iff hneedle]
      simp only [Option.bind_some]
      cases splitLast ['<'] middle <;> rfl

-- ---------------------------------------------------------------------------
-- Replies
-- ---------------------------------------------------------------------------

variable {δ : Type} (parseDidl : List Char → Except DlnaError (List δ))

/-- A reply that `browse_page` reads to the end: an error with an excerpt that can be cut, or
a page whose tags can be read, those of the paging data where the objects are there. -/
def ReadableReply (reply : Reply) : Prop :=
  if !reply.status.isSuccess ∨ "Fault".toList <:+: reply.body ∧ "UPnPError".toList <:+: reply.body then
    Excerptible reply.body 240
  else
    Readable reply.body "Result".toList ∧
      ∀ content objects, tagContent reply.body "Result".toList = some content →
        parseDidl (xmlUnescape content) = .ok objects →
          Readable reply.body "NumberReturned".toList ∧ Readable reply.body "TotalMatches".toList

theorem isTag_result : IsTag "Result".toList :=
  ⟨'R', "esult".toList, by simp, by decide, by simp⟩

theorem isTag_numberReturned : IsTag "NumberReturned".toList :=
  ⟨'N', "umberReturned".toList, by simp, by decide, by simp⟩

theorem isTag_totalMatches : IsTag "TotalMatches".toList :=
  ⟨'T', "otalMatches".toList, by simp, by decide, by simp⟩

theorem returns_excerpt_iff {s : List Char} {n : Nat} {f : List Char → DlnaError} :
    (∃ result, Returns (do
      let excerpt ← truncate s n
      pure (Except.error (f excerpt) : Except DlnaError (BrowsePage δ))) (some result)) ↔
      Excerptible s n := by
  rw [← returns_truncate_iff]
  simp only [returns_bind, returns_pure]
  constructor
  · rintro ⟨result, ⟨-, h⟩ | ⟨excerpt, h, -⟩⟩
    · cases h
    · exact ⟨excerpt, h⟩
  · rintro ⟨excerpt, h⟩
    exact ⟨_, .inr ⟨excerpt, h, rfl⟩⟩

/-- What follows on a tag, present or not, is reached when the tag can be read. -/
theorem returns_option_bind {α : Type} {xml tag : List Char} (htag : IsTag tag)
    {f : Option (List Char) → Checked α} :
    (∃ result, Returns ((extractTag xml tag).option >>= f) (some result)) ↔
      Readable xml tag ∧ ∃ result, Returns (f (tagContent xml tag)) (some result) := by
  constructor
  · rintro ⟨result, h⟩
    rcases returns_bind.mp h with ⟨hnone, -⟩ | ⟨found, hfound, hrest⟩
    · exact absurd hnone not_returns_option_none
    · obtain ⟨hreadable, rfl⟩ := (returns_extractTag_iff htag).mp (returns_option_some.mp hfound)
      exact ⟨hreadable, result, hrest⟩
  · rintro ⟨hreadable, result, h⟩
    have hfound := returns_option_some.mpr ((returns_extractTag_iff htag).mpr ⟨hreadable, rfl⟩)
    exact ⟨result, hfound.bind_iff.mpr h⟩

theorem returns_readReply_iff (page pageSize : UInt32) (reply : Reply) :
    (∃ result, Returns (readReply parseDidl page pageSize reply) (some result)) ↔
      ReadableReply parseDidl reply := by
  unfold readReply ReadableReply
  by_cases hstatus : (!reply.status.isSuccess) = true
  · rw [if_pos hstatus, if_pos (.inl hstatus)]
    exact returns_excerpt_iff (f := fun excerpt => .soap (_ ++ excerpt))
  rw [if_neg hstatus]
  by_cases hfault : "Fault".toList <:+: reply.body ∧ "UPnPError".toList <:+: reply.body
  · rw [if_pos hfault, if_pos (.inr hfault)]
    exact returns_excerpt_iff
  rw [if_neg hfault, if_neg (not_or.mpr ⟨hstatus, hfault⟩), returns_option_bind isTag_result]
  refine and_congr_right fun _ => ?_
  cases hcontent : tagContent reply.body "Result".toList with
  | none => simp
  | some content =>
    cases hparse : parseDidl (xmlUnescape content) with
    | error e =>
      simp only [hparse]
      refine ⟨fun _ content' objects hfound hread => ?_, fun _ => ⟨_, returns_pure.mpr rfl⟩⟩
      cases hfound
      rw [hparse] at hread
      cases hread
    | ok objects =>
      have hread : ∀ P : Prop, (∀ content' objects', some content = some content' →
          parseDidl (xmlUnescape content') = .ok objects' → P) ↔ P :=
        fun P => ⟨fun h => h content objects rfl hparse, fun h _ _ _ _ => h⟩
      simp only [hparse]
      rw [hread, returns_option_bind isTag_numberReturned]
      refine and_congr_right fun _ => ?_
      rw [returns_option_bind isTag_totalMatches]
      exact and_iff_left ⟨_, returns_pure.mpr rfl⟩

/-- Calling `browse_page` gives a page or an error, on every reply that can be read and on no
other. -/
theorem returns_browsePage_iff (post : List Char → List Char → Except DlnaError Reply)
    (params : BrowseParams) :
    (∃ result, Returns (browsePage parseDidl post params) (some result)) ↔
      ∀ reply, post params.controlUrl (soapBrowseEnvelope params.objectId
          (startingIndex params.page (effectiveSize params.pageSize)) (effectiveSize params.pageSize)) =
        .ok reply → ReadableReply parseDidl reply := by
  unfold browsePage
  dsimp only
  split
  next e hpost => simp [hpost]
  next reply hpost => simp [hpost, returns_readReply_iff]

def overlappingReply : Reply where
  status := { code := 200, shown := "200 OK".toList }
  body := "<Result>/Result>".toList

/-- The `<` of the opening tag is the last one before the closing tag. -/
theorem not_returns_overlappingReply :
    ¬∃ result, Returns (browsePage (fun _ => .ok ([] : List Char)) (fun _ _ => .ok overlappingReply)
      { controlUrl := [], objectId := "0".toList, page := 0, pageSize := 50 }) (some result) := by
  rintro ⟨result, h⟩
  exact not_returns_of_fault (n := 3) (by decide +kernel) h

end EvoAudio.Dlna
