import EvoAudio.Lib.Text

/-!
# Reading markup

A document is text with tags in it. The character `<` begins a tag and stands nowhere
else, the first `>` behind it ends the tag, and in the text between two tags a reference,
from `&` to `;`, stands for the character that it names.
-/

namespace Markup

/-- The predefined entities. -/
def entities : List (List Char × Char) :=
  [("amp".toList, '&'), ("lt".toList, '<'), ("gt".toList, '>'), ("quot".toList, '"'),
    ("apos".toList, '\'')]

/-- Reads a text, within a reference of which this much of the name was read. -/
def decodeFrom : Option (List Char) → List Char → Option (List Char)
  | none, [] => some []
  | some _, [] => none
  | none, c :: s => if c = '&' then decodeFrom (some []) s else (decodeFrom none s).map (c :: ·)
  | some name, c :: s =>
    if c = ';' then (entities.lookup name).bind fun e => (decodeFrom none s).map (e :: ·)
    else decodeFrom (some (name ++ [c])) s

/-- The characters that a text stands for, `none` when a reference names none. -/
def decode (s : List Char) : Option (List Char) := decodeFrom none s

/-- A tag, with the text behind it. -/
def readTag (part : List Char) : Option (List Char × List Char) :=
  (Text.splitOnce ['>'] part).bind fun (tag, text) => (decode text).map (tag, ·)

/-- The text in front of the first tag and the tags, each with the text behind it. -/
def read (s : List Char) : Option (List Char × List (List Char × List Char)) :=
  match s.splitOn '<' with
  | [] => none
  | head :: parts => (decode head).bind fun text => (parts.mapM readTag).map (text, ·)

/-- The document of tags and of texts as they are written. -/
def write (head : List Char) (parts : List (List Char × List Char)) : List Char :=
  head ++ parts.flatMap fun (tag, text) => '<' :: tag ++ '>' :: text

@[simp] theorem decode_nil : decode [] = some [] := rfl

theorem decode_cons {c : Char} (h : c ≠ '&') (s : List Char) :
    decode (c :: s) = (decode s).map (c :: ·) :=
  if_neg h

theorem decodeFrom_name {name : List Char} (h : ';' ∉ name) (before s : List Char) :
    decodeFrom (some before) (name ++ s) = decodeFrom (some (before ++ name)) s := by
  induction name generalizing before with
  | nil => simp
  | cons c name ih =>
    obtain ⟨hc, hname⟩ := List.ne_and_not_mem_of_not_mem_cons h
    rw [List.cons_append, decodeFrom, if_neg (Ne.symm hc), ih hname]
    simp

/-- A reference is read as what it names. -/
theorem decode_reference (name : List Char) (h : entities.lookup name = some c) (hname : ';' ∉ name)
    (s : List Char) : decode ('&' :: name ++ ';' :: s) = (decode s).map (c :: ·) := by
  rw [decode, List.cons_append, decodeFrom, if_pos rfl, decodeFrom_name hname, List.nil_append,
    decodeFrom, if_pos rfl, h, Option.bind_some]
  rfl

theorem decode_of_notMem {s : List Char} (h : '&' ∉ s) : decode s = some s := by
  induction s with
  | nil => rfl
  | cons c s ih =>
    obtain ⟨hc, hs⟩ := List.ne_and_not_mem_of_not_mem_cons h
    rw [decode_cons (Ne.symm hc), ih hs, Option.map_some]

theorem write_cons (head tag text : List Char) (parts : List (List Char × List Char)) :
    write head ((tag, text) :: parts) = head ++ '<' :: write (tag ++ '>' :: text) parts := by
  simp [write]

theorem splitOn_write {head : List Char} {parts : List (List Char × List Char)}
    (hhead : '<' ∉ head) (h : ∀ part ∈ parts, '<' ∉ part.1 ∧ '<' ∉ part.2) :
    (write head parts).splitOn '<' = head :: parts.map fun (tag, text) => tag ++ '>' :: text := by
  induction parts generalizing head with
  | nil => simpa [write] using List.splitOn_eq_singleton hhead
  | cons part parts ih =>
    obtain ⟨tag, text⟩ := part
    obtain ⟨⟨htag, htext⟩, hparts⟩ := List.forall_mem_cons.mp h
    have hpart : '<' ∉ tag ++ '>' :: text := by simp [htag, htext]
    rw [write_cons, List.splitOn_append_cons_self_of_not_mem hhead, ih hpart hparts]
    rfl

theorem readTag_write {tag : List Char} (h : '>' ∉ tag) (text : List Char) :
    readTag (tag ++ '>' :: text) = (decode text).map (tag, ·) := by
  have hsplit := @Text.splitOnce_of_notMem _ _ '>' [] tag text h
  rw [List.nil_append] at hsplit
  rw [readTag, hsplit, Option.bind_some]

section Escaped

variable {escape : List Char → List Char}

theorem mapM_readTag_write (hescape : ∀ s, decode (escape s) = some s)
    {parts : List (List Char × List Char)} (htags : ∀ part ∈ parts, '>' ∉ part.1) :
    (parts.map fun part => part.1 ++ '>' :: escape part.2).mapM readTag = some parts := by
  induction parts with
  | nil => rfl
  | cons part parts ih =>
    obtain ⟨htag, hparts⟩ := List.forall_mem_cons.mp htags
    rw [List.map_cons, List.mapM_cons, readTag_write htag, hescape, ih hparts]
    rfl

/-- What is written with its texts escaped is read back. -/
theorem read_write (hescape : ∀ s, '<' ∉ escape s ∧ decode (escape s) = some s) (head : List Char)
    {parts : List (List Char × List Char)} (htags : ∀ part ∈ parts, '<' ∉ part.1 ∧ '>' ∉ part.1) :
    read (write (escape head) (parts.map fun part => (part.1, escape part.2))) =
      some (head, parts) := by
  have hopens : ∀ part ∈ parts.map fun part => (part.1, escape part.2),
      '<' ∉ part.1 ∧ '<' ∉ part.2 :=
    List.forall_mem_map.mpr fun part hpart => ⟨(htags part hpart).1, (hescape part.2).1⟩
  have hread := mapM_readTag_write (fun s => (hescape s).2) fun part hpart => (htags part hpart).2
  rw [read, splitOn_write (hescape head).1 hopens]
  simp only [List.map_map, Function.comp_def, hread, (hescape head).2, Option.bind_some,
    Option.map_some]

end Escaped

end Markup
