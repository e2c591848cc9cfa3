import EvoAudio.Storage.TableReading

/-!
# What decoding undoes

`decode_mountinfo_field` makes a character of every byte, so that it undoes the
escapes of an ASCII path and of no other. Three digits behind a backslash are read
as octal in a `u8` whatever they are: `decodeBytes?` is the decoder with every
operation of it checked, and it stops where the first digit is shifted out of the
eight bits.
-/

namespace EvoAudio.Storage

-- ---------------------------------------------------------------------------
-- Round trips
-- ---------------------------------------------------------------------------

theorem length_le_length_encode (s : List Char) : s.length ≤ (Text.encode s).length := by
  induction s with
  | nil => rfl
  | cons c s ih =>
    have hsize := c.utf8Size_pos
    rw [Text.encode_cons, List.length_append, String.length_utf8EncodeChar, List.length_cons]
    omega

/-- A text has as many bytes as characters only if it is ASCII. -/
theorem latin1_eq_self_iff : latin1 s = s ↔ ∀ c ∈ s, c.toNat < 128 := by
  refine ⟨fun h => ?_, latin1_ascii⟩
  have hlen : (Text.encode s).length = s.length := by
    rw [← congrArg List.length h, latin1, List.length_map]
  clear h
  induction s with
  | nil => simp
  | cons c s ih =>
    have hsize := c.utf8Size_pos
    have htail := length_le_length_encode s
    rw [Text.encode_cons, List.length_append, String.length_utf8EncodeChar, List.length_cons] at hlen
    have hone : c.utf8Size = 1 := by omega
    refine List.forall_mem_cons.mpr ⟨?_, ih (by omega)⟩
    exact Nat.lt_succ_of_le (Char.utf8Size_eq_one_iff.mp hone)

-- ---------------------------------------------------------------------------
-- Checked arithmetic
-- ---------------------------------------------------------------------------

/-- `-` on a `u8`, and `none` for a negative result. -/
def sub? (a b : UInt8) : Option UInt8 := if b ≤ a then some (a - b) else none

/-- `<<` on a `u8`, and `none` for a result of more than eight bits. -/
def shiftLeft? (a by_ : UInt8) : Option UInt8 :=
  if a.toNat * 2 ^ by_.toNat < 2 ^ 8 then some (a <<< by_) else none

def octalValue? (d1 d2 d3 : UInt8) : Option UInt8 := do
  let high ← shiftLeft? (← sub? d1 (Text.byte '0')) 6
  let middle ← shiftLeft? (← sub? d2 (Text.byte '0')) 3
  let low ← sub? d3 (Text.byte '0')
  some (high ||| middle ||| low)

def decodeBytes? : List UInt8 → Option (List Char)
  | [] => some []
  | b :: d1 :: d2 :: d3 :: rest =>
    if b = Text.byte '\\' ∧ isAsciiDigit d1 ∧ isAsciiDigit d2 ∧ isAsciiDigit d3 then
      (octalValue? d1 d2 d3).bind fun value => (decodeBytes? rest).map (byteChar value :: ·)
    else (decodeBytes? (d1 :: d2 :: d3 :: rest)).map (byteChar b :: ·)
  | b :: rest => (decodeBytes? rest).map (byteChar b :: ·)

/-- No backslash has three digits behind it of which the first is 4 or
higher. -/
def FitsU8 (bytes : List UInt8) : Prop :=
  ∀ d1 d2 d3, [Text.byte '\\', d1, d2, d3] <:+: bytes →
    isAsciiDigit d1 → isAsciiDigit d2 → isAsciiDigit d3 → d1 < Text.byte '4'

theorem isAsciiDigit_iff : isAsciiDigit d = true ↔ 48 ≤ d.toNat ∧ d.toNat ≤ 57 := by
  simp only [isAsciiDigit, Bool.and_eq_true, decide_eq_true_eq, UInt8.le_iff_toNat_le]
  rfl

theorem sub?_digit (h : isAsciiDigit d = true) :
    sub? d (Text.byte '0') = some (d - Text.byte '0') ∧
      (d - Text.byte '0').toNat = d.toNat - 48 := by
  have hle : Text.byte '0' ≤ d := UInt8.le_iff_toNat_le.mpr (isAsciiDigit_iff.mp h).1
  exact ⟨if_pos hle, UInt8.toNat_sub_of_le _ _ hle⟩

/-- Of three digits only the first can be shifted out of eight bits. -/
theorem octalValue?_eq (h1 : isAsciiDigit d1 = true) (h2 : isAsciiDigit d2 = true)
    (h3 : isAsciiDigit d3 = true) :
    octalValue? d1 d2 d3 = if d1 < Text.byte '4' then some (octalValue d1 d2 d3) else none := by
  obtain ⟨hsub1, hval1⟩ := sub?_digit h1
  obtain ⟨hsub2, hval2⟩ := sub?_digit h2
  obtain ⟨hsub3, -⟩ := sub?_digit h3
  have hrange1 := isAsciiDigit_iff.mp h1
  have hrange2 := isAsciiDigit_iff.mp h2
  have hlt : d1 < Text.byte '4' ↔ d1.toNat < 52 := UInt8.lt_iff_toNat_lt
  have hfirst : shiftLeft? (d1 - Text.byte '0') 6 =
      if d1 < Text.byte '4' then some ((d1 - Text.byte '0') <<< 6) else none := by
    have hfits : (d1.toNat - 48) * 2 ^ 6 < 2 ^ 8 ↔ d1.toNat < 52 := by omega
    rw [shiftLeft?, hval1]
    exact if_congr (hfits.trans hlt.symm) rfl rfl
  have hsecond : shiftLeft? (d2 - Text.byte '0') 3 = some ((d2 - Text.byte '0') <<< 3) := by
    have hfits : (d2.toNat - 48) * 2 ^ 3 < 2 ^ 8 := by omega
    rw [shiftLeft?, hval2]
    exact if_pos hfits
  rw [octalValue?, hsub1, hsub2, hsub3, Option.bind_eq_bind, Option.bind_some, hfirst]
  split
  · simp [hsecond, octalValue]
  · rfl

theorem fitsU8_cons : FitsU8 (b :: rest) ↔
    (∀ d1 d2 d3, [Text.byte '\\', d1, d2, d3] <+: b :: rest →
      isAsciiDigit d1 → isAsciiDigit d2 → isAsciiDigit d3 → d1 < Text.byte '4') ∧
      FitsU8 rest := by
  constructor
  · intro h
    exact ⟨fun d1 d2 d3 hprefix => h d1 d2 d3 hprefix.isInfix,
      fun d1 d2 d3 hinfix => h d1 d2 d3 (List.infix_cons hinfix)⟩
  · rintro ⟨hfirst, hrest⟩ d1 d2 d3 hinfix
    exact (List.infix_cons_iff.mp hinfix).elim (hfirst d1 d2 d3) (hrest d1 d2 d3)

theorem fitsU8_cons_of_ne (h : b ≠ Text.byte '\\') : FitsU8 (b :: rest) ↔ FitsU8 rest := by
  rw [fitsU8_cons, and_iff_right]
  intro d1 d2 d3 hprefix
  exact absurd (List.cons_prefix_cons.mp hprefix).1.symm h

theorem digit_ne_backslash (h : isAsciiDigit d = true) : d ≠ Text.byte '\\' := by
  rintro rfl
  exact absurd h (by decide)

theorem fitsU8_octal (h1 : isAsciiDigit d1 = true) (h2 : isAsciiDigit d2 = true)
    (h3 : isAsciiDigit d3 = true) : FitsU8 (Text.byte '\\' :: d1 :: d2 :: d3 :: rest) ↔
      d1 < Text.byte '4' ∧ FitsU8 rest := by
  rw [fitsU8_cons, fitsU8_cons_of_ne (digit_ne_backslash h1),
    fitsU8_cons_of_ne (digit_ne_backslash h2), fitsU8_cons_of_ne (digit_ne_backslash h3)]
  refine and_congr_left fun _ => ⟨fun h => h d1 d2 d3 ⟨rest, rfl⟩ h1 h2 h3, ?_⟩
  intro hlt e1 e2 e3 hprefix _ _ _
  rw [(List.cons_prefix_cons.mp (List.cons_prefix_cons.mp hprefix).2).1]
  exact hlt

/-- A byte that is no start of three digits is no reason to stop. -/
theorem fitsU8_plain (h : ∀ d1 d2 d3, [Text.byte '\\', d1, d2, d3] <+: b :: rest →
    isAsciiDigit d1 → isAsciiDigit d2 → ¬isAsciiDigit d3) : FitsU8 (b :: rest) ↔ FitsU8 rest := by
  rw [fitsU8_cons, and_iff_right]
  intro d1 d2 d3 hprefix h1 h2 h3
  exact absurd h3 (h d1 d2 d3 hprefix h1 h2)

theorem map_cons_eq_some_iff {decoded? : Option (List Char)} {P : Prop} {decoded : List Char}
    (h : ∀ out, decoded? = some out ↔ P ∧ decoded = out) (c : Char) (out : List Char) :
    decoded?.map (c :: ·) = some out ↔ P ∧ c :: decoded = out := by
  rw [Option.map_eq_some_iff]
  constructor
  · rintro ⟨tail, htail, rfl⟩
    obtain ⟨hP, rfl⟩ := (h tail).mp htail
    exact ⟨hP, rfl⟩
  · rintro ⟨hP, rfl⟩
    exact ⟨decoded, (h decoded).mpr ⟨hP, rfl⟩, rfl⟩

/-- The checked decoder goes through on the texts that fit, as the decoder does. -/
theorem decodeBytes?_eq_some_iff (bytes : List UInt8) (out : List Char) :
    decodeBytes? bytes = some out ↔ FitsU8 bytes ∧ decodeBytes bytes = out := by
  fun_induction decodeBytes bytes generalizing out with
  | case1 =>
    have hfits : FitsU8 [] := fun d1 d2 d3 h => by simp at h
    simp [decodeBytes?, hfits]
  | case2 b d1 d2 d3 rest h ih =>
    rw [decodeBytes?, if_pos h]
    obtain ⟨rfl, h1, h2, h3⟩ := h
    rw [fitsU8_octal h1 h2 h3, octalValue?_eq h1 h2 h3]
    split
    next hlt =>
      rw [Option.bind_some, map_cons_eq_some_iff ih, and_iff_right hlt]
    next hnot => simp [hnot]
  | case3 b d1 d2 d3 rest h ih =>
    rw [decodeBytes?, if_neg h, map_cons_eq_some_iff ih, fitsU8_plain (b := b)]
    rintro e1 e2 e3 ⟨_, heq⟩ h1 h2 h3
    cases heq
    exact h ⟨rfl, h1, h2, h3⟩
  | case4 b rest hshort ih =>
    have hcons : decodeBytes? (b :: rest) = (decodeBytes? rest).map (byteChar b :: ·) := by
      rw [decodeBytes?]
      exact hshort
    rw [hcons, map_cons_eq_some_iff ih, fitsU8_plain (b := b)]
    rintro e1 e2 e3 ⟨tail, heq⟩
    cases heq
    exact absurd rfl (hshort e1 e2 e3 tail)

/-- The decoder undoes the kernel's escapes of exactly the ASCII paths, and its
arithmetic stays within eight bits on exactly the texts without a backslash before
three digits from 400 on. -/
theorem decodeMountinfoField_iff (path s : List Char) :
    (decodeMountinfoField (Text.escape nameEscapes path) = path ↔ ∀ c ∈ path, c.toNat < 128) ∧
      (decodeBytes? (Text.encode s) = some (decodeMountinfoField s) ↔ FitsU8 (Text.encode s)) := by
  constructor
  · rw [decodeMountinfoField_escape (by decide) (List.Subset.refl _), latin1_eq_self_iff]
  · rw [decodeBytes?_eq_some_iff, decodeMountinfoField, and_iff_left rfl]

/-- The umlaut comes back as the two characters of its bytes, and the digits 400 as
the character 0. -/
theorem umlaut_is_decoded_as_two_characters :
    decodeMountinfoField (Text.escape nameEscapes "/media/M\u00fcsik".toList) =
        "/media/M\u00c3\u00bcsik".toList ∧
      decodeMountinfoField "\\400".toList = [Char.ofNat 0] ∧
      decodeBytes? (Text.encode "\\400".toList) = none := by
  decide

end EvoAudio.Storage
