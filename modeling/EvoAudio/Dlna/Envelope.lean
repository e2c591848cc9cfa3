import EvoAudio.Dlna.Browse
import EvoAudio.Lib.Markup

/-!
# Object ids in the SOAP envelope

Each replacement of `xml_escape` and of `xml_unescape` goes over the whole text, and over
what the ones before it have written. Character by character the order is right: `&` is
escaped first and unescaped last. The envelope reads as its fixed tags, with the object id
and the paging values as texts between them.
-/

namespace EvoAudio.Dlna

open Text

-- ---------------------------------------------------------------------------
-- Escaping
-- ---------------------------------------------------------------------------

def specials : List Char := ['&', '<', '>', '"', '\'']

/-- What a character is escaped to. -/
def entity (c : Char) : List Char :=
  if c = '&' then ['&', 'a', 'm', 'p', ';']
  else if c = '<' then ['&', 'l', 't', ';']
  else if c = '>' then ['&', 'g', 't', ';']
  else if c = '"' then ['&', 'q', 'u', 'o', 't', ';']
  else if c = '\'' then ['&', 'a', 'p', 'o', 's', ';']
  else [c]

theorem entity_of_notMem {c : Char} (h : c ∉ specials) : entity c = [c] := by
  simp only [specials, List.mem_cons, List.not_mem_nil, or_false, not_or] at h
  simp [entity, h]

theorem replace_singleton (x : Char) (replacement s : List Char) :
    replace [x] replacement s = s.flatMap fun c => if c = x then replacement else [c] := by
  have hs : s = s.flatMap fun c => [c] := by simp
  conv_lhs => rw [hs]
  refine replace_flatMap (by simp) s fun c _ => ?_
  by_cases hc : c = x
  · simp [hc]
  · exact .inr ⟨misses_of_notMem (by simpa using Ne.symm hc), by simp [hc]⟩

theorem xmlEscape_eq (s : List Char) : xmlEscape s = s.flatMap entity := by
  simp only [xmlEscape]
  rw [replace_singleton, replace_singleton, replace_singleton, replace_singleton,
    replace_singleton, List.flatMap_assoc, List.flatMap_assoc, List.flatMap_assoc,
    List.flatMap_assoc]
  refine List.flatMap_congr fun c _ => ?_
  by_cases hc : c ∈ specials
  · simp only [specials, List.mem_cons, List.not_mem_nil, or_false] at hc
    rcases hc with rfl | rfl | rfl | rfl | rfl <;> decide +kernel
  · rw [entity_of_notMem hc]
    simp only [specials, List.mem_cons, List.not_mem_nil, or_false, not_or] at hc
    simp only [hc, if_false, List.flatMap_cons, List.flatMap_nil, List.append_nil]

theorem xmlEscape_of_notMem {s : List Char} (h : ∀ c ∈ s, c ∉ specials) : xmlEscape s = s := by
  rw [xmlEscape_eq, List.flatMap_congr fun c hc => entity_of_notMem (h c hc)]
  simp

theorem misses_entity {x c : Char} (hx : x ∈ specials) (hc : c ∈ specials) (hne : c ≠ x) :
    Misses (entity x) (entity c) := by
  simp only [specials, List.mem_cons, List.not_mem_nil, or_false] at hx hc
  rcases hx with rfl | rfl | rfl | rfl | rfl <;> rcases hc with rfl | rfl | rfl | rfl | rfl <;>
    first
    | exact absurd rfl hne
    | exact misses_cons (by decide) (by simp)

/-- What escaping leaves when these characters are unescaped again. -/
def entityBut (plain : List Char) (c : Char) : List Char := if c ∈ plain then [c] else entity c

/-- One replacement of `xml_unescape`, with `&` still to come. -/
theorem replace_entity {x : Char} (hx : x ∈ specials) {plain : List Char} (hplain : '&' ∉ plain)
    (hnot : x ∉ plain) (s : List Char) :
    replace (entity x) [x] (s.flatMap (entityBut plain)) = s.flatMap (entityBut (x :: plain)) := by
  obtain ⟨name, hname⟩ : ∃ name, entity x = '&' :: name := by
    simp only [specials, List.mem_cons, List.not_mem_nil, or_false] at hx
    rcases hx with rfl | rfl | rfl | rfl | rfl <;> exact ⟨_, rfl⟩
  refine replace_flatMap (by simp [hname]) s fun c _ => ?_
  by_cases hcx : c = x
  · subst hcx
    exact .inl ⟨if_neg hnot, by simp [entityBut]⟩
  refine .inr ⟨?_, by simp [entityBut, hcx]⟩
  by_cases hspecial : c ∈ specials ∧ c ∉ plain
  · rw [entityBut, if_neg hspecial.2]
    exact misses_entity hx hspecial.1 hcx
  · have hsingle : entityBut plain c = [c] := by
      by_cases hc : c ∈ plain
      · exact if_pos hc
      · rw [entityBut, if_neg hc, entity_of_notMem fun h => hspecial ⟨h, hc⟩]
    have hamp : c ≠ '&' := by
      rintro rfl
      exact hspecial ⟨by decide, hplain⟩
    rw [hsingle, hname]
    exact misses_of_notMem (by simpa using Ne.symm hamp)

theorem xmlUnescape_xmlEscape (s : List Char) : xmlUnescape (xmlEscape s) = s := by
  have hquot : "&quot;".toList = entity '"' := by simp [entity]
  have hapos : "&apos;".toList = entity '\'' := by simp [entity]
  have hlt : "&lt;".toList = entity '<' := by simp [entity]
  have hgt : "&gt;".toList = entity '>' := by simp [entity]
  have hamp : "&amp;".toList = entity '&' := by simp [entity]
  have hstart : s.flatMap entity = s.flatMap (entityBut []) :=
    List.flatMap_congr fun c _ => (if_neg List.not_mem_nil).symm
  have hplain : s.flatMap (entityBut ['&', '>', '<', '\'', '"']) = s := by
    have hsingle : ∀ c, entityBut ['&', '>', '<', '\'', '"'] c = [c] := by
      intro c
      by_cases hc : c ∈ specials
      · refine if_pos ?_
        simp only [specials, List.mem_cons, List.not_mem_nil, or_false] at hc ⊢
        tauto
      · rw [entityBut, entity_of_notMem hc, ite_self]
    rw [List.flatMap_congr fun c _ => hsingle c, List.flatMap_singleton']
  rw [xmlUnescape, xmlEscape_eq, hstart, hquot, hapos, hlt, hgt, hamp]
  rw [replace_entity (by decide) (by decide) (by decide),
    replace_entity (by decide) (by decide) (by decide),
    replace_entity (by decide) (by decide) (by decide),
    replace_entity (by decide) (by decide) (by decide),
    replace_entity (by decide) (by decide) (by decide), hplain]

theorem forall_mem_xmlEscape (s : List Char) :
    ∀ c ∈ xmlEscape s, c ≠ '<' ∧ c ≠ '>' ∧ c ≠ '"' ∧ c ≠ '\'' := by
  rw [xmlEscape_eq]
  refine List.forall_mem_flatMap.mpr fun c _ => ?_
  by_cases hc : c ∈ specials
  · simp only [specials, List.mem_cons, List.not_mem_nil, or_false] at hc
    rcases hc with rfl | rfl | rfl | rfl | rfl <;> simp [entity]
  · rw [entity_of_notMem hc]
    simp only [specials, List.mem_cons, List.not_mem_nil, or_false, not_or] at hc
    simp [hc]

-- ---------------------------------------------------------------------------
-- The envelope
-- ---------------------------------------------------------------------------

theorem decode_entity (c : Char) (s : List Char) :
    Markup.decode (entity c ++ s) = (Markup.decode s).map (c :: ·) := by
  by_cases hc : c ∈ specials
  · simp only [specials, List.mem_cons, List.not_mem_nil, or_false] at hc
    rcases hc with rfl | rfl | rfl | rfl | rfl
    · exact Markup.decode_reference ['a', 'm', 'p'] (by decide +kernel) (by decide) s
    · exact Markup.decode_reference ['l', 't'] (by decide +kernel) (by decide) s
    · exact Markup.decode_reference ['g', 't'] (by decide +kernel) (by decide) s
    · exact Markup.decode_reference ['q', 'u', 'o', 't'] (by decide +kernel) (by decide) s
    · exact Markup.decode_reference ['a', 'p', 'o', 's'] (by decide +kernel) (by decide) s
  · rw [entity_of_notMem hc]
    refine Markup.decode_cons ?_ s
    rintro rfl
    exact hc (by decide)

/-- An escaped text is read as what it was. -/
theorem decode_xmlEscape (s : List Char) : Markup.decode (xmlEscape s) = some s := by
  rw [xmlEscape_eq]
  induction s with
  | nil => rfl
  | cons c s ih => rw [List.flatMap_cons, decode_entity, ih, Option.map_some]

/-- The tags in front of the object id, each with the text behind it. -/
def openingParts : List (List Char × List Char) :=
  [("?xml version=\"1.0\" encoding=\"utf-8\"?".toList, "\n".toList),
    ("s:Envelope xmlns:s=\"http://schemas.xmlsoap.org/soap/envelope/\" ".toList ++
      "s:encodingStyle=\"http://schemas.xmlsoap.org/soap/encoding/\"".toList, "\n  ".toList),
    ("s:Body".toList, "\n    ".toList),
    ("u:Browse xmlns:u=\"urn:schemas-upnp-org:service:ContentDirectory:1\"".toList,
      "\n      ".toList)]

def flagParts : List (List Char × List Char) :=
  [("/ObjectID".toList, "\n      ".toList),
    ("BrowseFlag".toList, "BrowseDirectChildren".toList), ("/BrowseFlag".toList, "\n      ".toList),
    ("Filter".toList, "*".toList), ("/Filter".toList, "\n      ".toList)]

def closingParts : List (List Char × List Char) :=
  [("/RequestedCount".toList, "\n      ".toList),
    ("SortCriteria".toList, []), ("/SortCriteria".toList, "\n    ".toList),
    ("/u:Browse".toList, "\n  ".toList), ("/s:Body".toList, "\n".toList), ("/s:Envelope".toList, [])]

/-- The tags of the envelope in their order. -/
def envelopeParts (objectId : List Char) (starting requested : UInt32) :
    List (List Char × List Char) :=
  openingParts ++ ("ObjectID".toList, objectId) :: flagParts ++
    [("StartingIndex".toList, decimal starting), ("/StartingIndex".toList, "\n      ".toList),
      ("RequestedCount".toList, decimal requested)] ++ closingParts

theorem xmlEscape_decimal (n : UInt32) : xmlEscape (decimal n) = decimal n := by
  refine xmlEscape_of_notMem fun c hc => ?_
  have hdigit := isDigit_of_mem_decimal hc
  intro hspecial
  simp only [specials, List.mem_cons, List.not_mem_nil, or_false] at hspecial
  rcases hspecial with rfl | rfl | rfl | rfl | rfl <;> exact absurd hdigit (by decide)

def escapedParts (parts : List (List Char × List Char)) : List (List Char × List Char) :=
  parts.map fun part => (part.1, xmlEscape part.2)

theorem escapedParts_eq {parts : List (List Char × List Char)}
    (h : ∀ part ∈ parts, ∀ c ∈ part.2, c ∉ specials) : escapedParts parts = parts := by
  have hpart : ∀ part ∈ parts, (part.1, xmlEscape part.2) = part :=
    fun part hmem => by rw [xmlEscape_of_notMem (h part hmem)]
  exact (List.map_congr_left hpart).trans parts.map_id

theorem soapBrowseEnvelope_eq_write (objectId : List Char) (starting requested : UInt32) :
    soapBrowseEnvelope objectId starting requested =
      Markup.write (xmlEscape []) (escapedParts (envelopeParts objectId starting requested)) := by
  have hhead : envelopeHead =
      Markup.write [] (escapedParts openingParts) ++ '<' :: "ObjectID".toList ++ ['>'] := by
    unfold envelopeHead openingParts
    repeat rw [String.toList_ofList]
    rw [escapedParts_eq (by simp [specials])]
    decide +kernel
  have hflags : envelopeFlags =
      Markup.write [] (escapedParts flagParts) ++ '<' :: "StartingIndex".toList ++ ['>'] := by
    unfold envelopeFlags flagParts
    repeat rw [String.toList_ofList]
    rw [escapedParts_eq (by simp [specials])]
    decide +kernel
  have hcount : envelopeCount = Markup.write []
      (escapedParts [("/StartingIndex".toList, "\n      ".toList), ("RequestedCount".toList, [])]) := by
    unfold envelopeCount
    repeat rw [String.toList_ofList]
    rw [escapedParts_eq (by simp [specials])]
    decide +kernel
  have htail : envelopeTail = Markup.write [] (escapedParts closingParts) := by
    unfold envelopeTail closingParts
    repeat rw [String.toList_ofList]
    rw [escapedParts_eq (by simp [specials])]
    decide +kernel
  have hparts : escapedParts (envelopeParts objectId starting requested) =
      escapedParts openingParts ++ ("ObjectID".toList, xmlEscape objectId) ::
        escapedParts flagParts ++
        [("StartingIndex".toList, decimal starting),
          ("/StartingIndex".toList, xmlEscape "\n      ".toList),
          ("RequestedCount".toList, decimal requested)] ++ escapedParts closingParts := by
    simp only [envelopeParts, escapedParts, List.map_append, List.map_cons, List.map_nil,
      xmlEscape_decimal]
  have hwrite : ∀ (opening flag closing : List (List Char × List Char))
      (idTag startTag endTag countTag id start gap count : List Char),
      (Markup.write [] opening ++ '<' :: idTag ++ ['>']) ++ id ++
        (Markup.write [] flag ++ '<' :: startTag ++ ['>']) ++ start ++
        Markup.write [] [(endTag, gap), (countTag, [])] ++ count ++ Markup.write [] closing =
      Markup.write [] (opening ++ (idTag, id) :: flag ++
        [(startTag, start), (endTag, gap), (countTag, count)] ++ closing) := by
    intros
    simp [Markup.write]
  rw [soapBrowseEnvelope, hhead, hflags, hcount, htail, hparts]
  exact hwrite _ _ _ _ _ _ _ _ _ _ _

/-- No tag has the end of one in it. -/
theorem envelopeParts_tags (objectId : List Char) (starting requested : UInt32) :
    ∀ part ∈ envelopeParts objectId starting requested, '<' ∉ part.1 ∧ '>' ∉ part.1 := by
  unfold envelopeParts openingParts flagParts closingParts
  repeat rw [String.toList_ofList]
  simp

theorem read_soapBrowseEnvelope (objectId : List Char) (starting requested : UInt32) :
    Markup.read (soapBrowseEnvelope objectId starting requested) =
      some ([], envelopeParts objectId starting requested) := by
  have hescape : ∀ t, '<' ∉ xmlEscape t ∧ Markup.decode (xmlEscape t) = some t :=
    fun t => ⟨fun h => (forall_mem_xmlEscape t _ h).1 rfl, decode_xmlEscape t⟩
  rw [soapBrowseEnvelope_eq_write]
  exact Markup.read_write hescape [] (envelopeParts_tags objectId starting requested)

/-- Object ids survive the envelope, whatever characters they have. -/
theorem xmlEscape_survives (s : List Char) (starting requested : UInt32) :
    xmlUnescape (xmlEscape s) = s ∧
      (∀ c ∈ xmlEscape s, c ≠ '<' ∧ c ≠ '>' ∧ c ≠ '"' ∧ c ≠ '\'') ∧
      Markup.read (soapBrowseEnvelope s starting requested) =
        some ([], envelopeParts s starting requested) :=
  ⟨xmlUnescape_xmlEscape s, forall_mem_xmlEscape s, read_soapBrowseEnvelope s starting requested⟩

end EvoAudio.Dlna
