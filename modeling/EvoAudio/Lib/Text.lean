import Mathlib.Data.List.Infix
import Mathlib.Data.UInt

/-!
# Rust string operations on character lists

A Rust `&str` is a list of Unicode scalar values here, and its bytes are the
UTF-8 encoding of that list. The operations follow the documented behaviour of
the standard library's methods of the same names.
-/

namespace Text

/-- The Unicode `White_Space` property, which `char::is_whitespace` tests. -/
def isWhitespace (c : Char) : Bool :=
  let n := c.toNat
  (0x09 ≤ n && n ≤ 0x0D) || n == 0x20 || n == 0x85 || n == 0xA0 || n == 0x1680 ||
    (0x2000 ≤ n && n ≤ 0x200A) || n == 0x2028 || n == 0x2029 || n == 0x202F ||
    n == 0x205F || n == 0x3000

/-- What a test of the text says of its characters. -/
theorem forall_of_all {p : Char → Prop} [DecidablePred p] {s : List Char}
    (h : s.all fun c => p c) : ∀ c ∈ s, p c := by
  simpa using h

/-- `str::trim`. -/
def trim (s : List Char) : List Char :=
  ((s.dropWhile isWhitespace).reverse.dropWhile isWhitespace).reverse

-- ---------------------------------------------------------------------------
-- UTF-8
-- ---------------------------------------------------------------------------

/-- `str::as_bytes`. -/
def encode (s : List Char) : List UInt8 :=
  s.flatMap String.utf8EncodeChar

/-- `String::from_utf8`, with `none` for bytes that are not UTF-8. -/
def decode? (bytes : List UInt8) : Option (List Char) :=
  bytes.toByteArray.utf8Decode?.map Array.toList

/-- The byte of an ASCII character, a `b'c'` literal of the source. -/
def byte (c : Char) : UInt8 :=
  UInt8.ofNat c.toNat

@[simp] theorem encode_nil : encode [] = [] := rfl

@[simp] theorem encode_cons : encode (c :: s) = String.utf8EncodeChar c ++ encode s := rfl

@[simp] theorem encode_append : encode (s ++ t) = encode s ++ encode t :=
  List.flatMap_append

theorem decode_encode (s : List Char) : decode? (encode s) = some s := by
  have h : (encode s).toByteArray.utf8Decode? = some s.toArray :=
    List.utf8Decode?_utf8Encode
  simp [decode?, h]

theorem encode_injective : Function.Injective encode := by
  intro s t h
  have hs := decode_encode s
  rw [h, decode_encode t] at hs
  exact (Option.some.inj hs).symm

theorem utf8EncodeChar_ascii {c : Char} (h : c.toNat < 128) :
    String.utf8EncodeChar c = [byte c] := by
  have hc : c.val.toNat ≤ 0x7f := Nat.le_of_lt_succ h
  simp only [String.utf8EncodeChar, hc, if_true]
  rfl

/-- Every byte of a character outside ASCII has its top bit set. -/
theorem utf8EncodeChar_high {c : Char} (h : 128 ≤ c.toNat) :
    ∀ b ∈ String.utf8EncodeChar c, 128 ≤ b.toNat := by
  have hc : ¬ c.val.toNat ≤ 0x7f := Nat.not_le.mpr h
  simp only [String.utf8EncodeChar, hc, if_false]
  split
  · simp; omega
  · split
    · simp; omega
    · simp; omega

/-- A test that only ASCII bytes pass is passed by a byte of the encoding
exactly when it is passed by an ASCII character of the text. -/
theorem exists_mem_encode {p : UInt8 → Prop} (hp : ∀ b, p b → b.toNat < 128)
    (s : List Char) :
    (∃ b ∈ encode s, p b) ↔ ∃ c ∈ s, c.toNat < 128 ∧ p (byte c) := by
  induction s with
  | nil => simp
  | cons c s ih =>
    simp only [encode_cons, List.mem_append, or_and_right, exists_or, ih, List.mem_cons]
    rw [exists_eq_left]
    refine or_congr_left ?_
    by_cases hc : c.toNat < 128
    · simp [utf8EncodeChar_ascii hc, hc]
    · constructor
      · rintro ⟨b, hb, hpb⟩
        have := utf8EncodeChar_high (Nat.not_lt.mp hc) b hb
        have := hp b hpb
        omega
      · rintro ⟨h, -⟩
        exact absurd h hc

theorem byte_toNat {c : Char} (h : c.toNat < 128) : (byte c).toNat = c.toNat := by
  simp only [byte, UInt8.toNat_ofNat']
  omega

theorem byte_inj {c d : Char} (hc : c.toNat < 128) (hd : d.toNat < 128) :
    byte c = byte d ↔ c = d := by
  constructor
  · intro h
    have := congrArg UInt8.toNat h
    rw [byte_toNat hc, byte_toNat hd] at this
    exact Char.toNat_inj.mp this
  · rintro rfl
    rfl

theorem byte_mem_encode {c : Char} (h : c.toNat < 128) :
    byte c ∈ encode s ↔ c ∈ s := by
  have hp : ∀ b, b = byte c → b.toNat < 128 := by
    rintro b rfl
    rw [byte_toNat h]
    exact h
  have hex := exists_mem_encode hp s
  rw [show (∃ b ∈ encode s, b = byte c) ↔ byte c ∈ encode s by simp] at hex
  rw [hex]
  constructor
  · rintro ⟨d, hd, hlt, heq⟩
    rw [← (byte_inj hlt h).mp heq]
    exact hd
  · intro hc
    exact ⟨c, hc, h, rfl⟩

-- ---------------------------------------------------------------------------
-- Searching
-- ---------------------------------------------------------------------------

section Search

variable {α : Type} [DecidableEq α]

/-- `strip_prefix`. -/
def stripPrefix (pre s : List α) : Option (List α) :=
  if pre <+: s then some (s.drop pre.length) else none

/-- `split_once`, at the first occurrence of a non-empty separator. -/
def splitOnce (sep : List α) : List α → Option (List α × List α)
  | [] => none
  | x :: rest =>
    if sep <+: x :: rest then some ([], (x :: rest).drop sep.length)
    else (splitOnce sep rest).map fun (before, after) => (x :: before, after)

@[simp] theorem stripPrefix_append (pre s : List α) :
    stripPrefix pre (pre ++ s) = some s := by
  simp [stripPrefix]

theorem stripPrefix_eq_none {pre s : List α} (h : ¬ pre <+: s) :
    stripPrefix pre s = none :=
  if_neg h

theorem stripPrefix_eq_some {pre s rest : List α} (h : stripPrefix pre s = some rest) :
    s = pre ++ rest := by
  unfold stripPrefix at h
  split at h
  next hpre =>
    obtain ⟨rest', rfl⟩ := hpre
    rw [List.drop_left] at h
    cases h
    rfl
  · cases h

/-- The split is at a given occurrence when no earlier one overlaps it. -/
theorem splitOnce_first {sep before after : List α} (hsep : sep ≠ [])
    (h : ∀ t, t ≠ [] → t <:+ before → ¬ sep <+: t ++ (sep ++ after)) :
    splitOnce sep (before ++ (sep ++ after)) = some (before, after) := by
  induction before with
  | nil =>
    obtain ⟨x, sep, rfl⟩ := List.exists_cons_of_ne_nil hsep
    have hp : x :: sep <+: (x :: sep) ++ after := List.prefix_append _ _
    simp only [List.nil_append, List.cons_append] at hp ⊢
    simp [splitOnce, hp]
  | cons x before ih =>
    have hx := h (x :: before) (by simp) (List.suffix_refl _)
    rw [List.cons_append] at hx ⊢
    rw [splitOnce, if_neg hx, ih]
    · rfl
    · intro t ht hs
      exact h t ht (hs.trans (List.suffix_cons x before))

theorem splitOnce_of_notMem {x : α} {sep before after : List α} (h : x ∉ before) :
    splitOnce (x :: sep) (before ++ x :: (sep ++ after)) = some (before, after) := by
  refine @splitOnce_first _ _ (x :: sep) before after (by simp) ?_
  rintro (_ | ⟨y, t⟩) ht hs hp
  · exact ht rfl
  · rw [List.cons_append, List.cons_prefix_cons] at hp
    exact h (hs.subset (by simp [hp.1]))

theorem splitOnce_singleton_some {x : α} {s before after : List α}
    (h : splitOnce [x] s = some (before, after)) :
    s = before ++ x :: after ∧ x ∉ before := by
  induction s generalizing before with
  | nil => exact absurd h (by simp [splitOnce])
  | cons y s ih =>
    by_cases hx : x = y
    · subst hx
      simp only [splitOnce, List.cons_prefix_cons, List.nil_prefix, and_self, if_true,
        Option.some.injEq, Prod.mk.injEq] at h
      obtain ⟨rfl, rfl⟩ := h
      simp
    · simp only [splitOnce, List.cons_prefix_cons, hx, false_and, if_false,
        Option.map_eq_some_iff, Prod.mk.injEq] at h
      obtain ⟨⟨before', after'⟩, hs, rfl, rfl⟩ := h
      obtain ⟨rfl, hn⟩ := ih hs
      simp [hx, hn]

theorem splitOnce_singleton_eq_none {x : α} {s : List α} :
    splitOnce [x] s = none ↔ x ∉ s := by
  induction s with
  | nil => simp [splitOnce]
  | cons y s ih =>
    by_cases hx : x = y <;> simp [splitOnce, List.cons_prefix_cons, hx, ih]

end Search

-- ---------------------------------------------------------------------------
-- Numbers
-- ---------------------------------------------------------------------------

/-- `str::parse::<u32>`: an optional plus sign and at least one decimal digit,
with a value that fits the type. -/
def parseU32 (s : List Char) : Option UInt32 :=
  let digits := (stripPrefix ['+'] s).getD s
  if digits ≠ [] ∧ digits.all Char.isDigit ∧ Nat.ofDigitChars 10 digits 0 < 2 ^ 32 then
    some (UInt32.ofNat (Nat.ofDigitChars 10 digits 0))
  else none

/-- The decimal text of a number. -/
def decimal (n : UInt32) : List Char :=
  Nat.toDigits 10 n.toNat

theorem isDigit_of_mem_decimal {n : UInt32} (h : c ∈ decimal n) : c.isDigit :=
  Nat.isDigit_of_mem_toDigits (by omega) (by omega) h

theorem parseU32_decimal (n : UInt32) : parseU32 (decimal n) = some n := by
  have hplus : ¬ ['+'] <+: decimal n := by
    rintro ⟨t, ht⟩
    have hd : '+'.isDigit := isDigit_of_mem_decimal (n := n) (by simp [← ht])
    exact absurd hd (by decide)
  have hval : Nat.ofDigitChars 10 (decimal n) 0 = n.toNat := Nat.ofDigitChars_ten_toDigits
  have hall : (decimal n).all Char.isDigit := by
    rw [List.all_eq_true]
    intro c hc
    exact isDigit_of_mem_decimal hc
  simp only [parseU32, stripPrefix_eq_none hplus, Option.getD_none, hval, hall]
  rw [if_pos ⟨Nat.toDigits_ne_nil, trivial, n.toNat_lt⟩]
  simp

end Text
