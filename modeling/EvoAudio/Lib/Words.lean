import EvoAudio.Lib.Text
import Mathlib.Data.List.DropRight
import Mathlib.Data.List.Lex

/-!
# Cutting texts

More of the string methods of Rust's standard library on character lists:
trimming, splitting at a separator, splitting at the last occurrence of a
character, and splitting at white space. Each comes with what it does to the
length, which is what recursions over the parts of a text rest on.
-/

namespace Text

-- ---------------------------------------------------------------------------
-- Trimming
-- ---------------------------------------------------------------------------

/-- `str::trim_end`. -/
def trimEnd (s : List Char) : List Char := (s.reverse.dropWhile isWhitespace).reverse

/-- `str::trim_end_matches` for one character. -/
def trimEndMatches (c : Char) (s : List Char) : List Char := (s.reverse.dropWhile (· == c)).reverse

theorem length_trimEnd_le (s : List Char) : (trimEnd s).length ≤ s.length := by
  have h := (List.dropWhile_suffix isWhitespace (l := s.reverse)).length_le
  simpa [trimEnd] using h

theorem length_trim_le (s : List Char) : (trim s).length ≤ s.length :=
  Nat.le_trans (length_trimEnd_le _) (List.dropWhile_suffix isWhitespace).length_le

theorem dropWhile_trimEnd {s : List Char} (h : s.dropWhile isWhitespace = s) :
    (trimEnd s).dropWhile isWhitespace = trimEnd s := by
  have hprefix : trimEnd s <+: s := by
    have hsuffix := List.dropWhile_suffix isWhitespace (l := s.reverse)
    simpa [trimEnd] using List.reverse_prefix.mpr hsuffix
  cases htrim : trimEnd s with
  | nil => rfl
  | cons c rest =>
    obtain ⟨more, rfl⟩ := htrim ▸ hprefix
    have hc : isWhitespace c = false := by
      rw [Bool.eq_false_iff]
      intro hc
      rw [List.cons_append, List.dropWhile_cons_of_pos hc] at h
      have hlength := (List.dropWhile_suffix isWhitespace (l := rest ++ more)).length_le
      have := congrArg List.length h
      simp only [List.length_cons] at this
      omega
    exact List.dropWhile_cons_of_neg (by simp [hc])

@[simp] theorem trimEnd_trimEnd (s : List Char) : trimEnd (trimEnd s) = trimEnd s := by
  simp [trimEnd, List.dropWhile_idempotent]

@[simp] theorem trim_trim (s : List Char) : trim (trim s) = trim s := by
  have hstart : (s.dropWhile isWhitespace).dropWhile isWhitespace = s.dropWhile isWhitespace :=
    List.dropWhile_idempotent _ _
  change trimEnd ((trimEnd (s.dropWhile isWhitespace)).dropWhile isWhitespace) = _
  rw [dropWhile_trimEnd hstart]
  exact trimEnd_trimEnd _

-- ---------------------------------------------------------------------------
-- Separators
-- ---------------------------------------------------------------------------

/-- `str::to_ascii_lowercase`. -/
def asciiLower (s : List Char) : List Char := s.map Char.toLower

/-- Splitting once, with ASCII case ignored in the text. -/
def splitOnceCi (sep s : List Char) : Option (List Char × List Char) :=
  (splitOnce sep (asciiLower s)).map fun (before, _) =>
    (s.take before.length, s.drop (before.length + sep.length))

/-- All parts, by a function that cuts off the first. -/
def splitBy (once : List Char → Option (List Char × List Char)) : Nat → List Char → List (List Char)
  | 0, s => [s]
  | fuel + 1, s =>
    match once s with
    | none => [s]
    | some (before, after) => before :: splitBy once fuel after

/-- `str::split` at a non-empty separator. -/
def split (sep s : List Char) : List (List Char) := splitBy (splitOnce sep) s.length s

/-- `str::split` with ASCII case ignored. -/
def splitCi (sep s : List Char) : List (List Char) := splitBy (splitOnceCi sep) s.length s

/-- The text before and behind the last occurrence, as `rfind` cuts it. -/
def splitLast (sep s : List Char) : Option (List Char × List Char) :=
  (splitOnce sep.reverse s.reverse).map fun (after, before) => (before.reverse, after.reverse)

/-- The same at the last character that passes a test. -/
def splitLastWhere (p : Char → Bool) (s : List Char) : Option (List Char × Char × List Char) :=
  match s.reverse.dropWhile (!p ·) with
  | [] => none
  | c :: before => some (before.reverse, c, (s.reverse.takeWhile (!p ·)).reverse)

/-- `str::split_whitespace`. -/
def words (s : List Char) : List (List Char) :=
  (s.splitOnP isWhitespace).filter (!·.isEmpty)

theorem splitOnce_length {sep s : List Char} (h : splitOnce sep s = some (before, after)) :
    before.length + sep.length + after.length = s.length := by
  induction s generalizing before with
  | nil => cases h
  | cons x s ih =>
    rw [splitOnce] at h
    split at h
    next hpre =>
      cases h
      have := hpre.length_le
      simp only [List.length_drop, List.length_cons, List.length_nil] at *
      omega
    next =>
      obtain ⟨⟨before', after'⟩, hs, hsplit⟩ := Option.map_eq_some_iff.mp h
      cases hsplit
      have := ih hs
      simp only [List.length_cons]
      omega

theorem splitOnceCi_length {sep s : List Char} (h : splitOnceCi sep s = some (before, after)) :
    before.length + sep.length + after.length = s.length := by
  obtain ⟨⟨low, high⟩, hs, hsplit⟩ := Option.map_eq_some_iff.mp h
  cases hsplit
  have hlength := splitOnce_length hs
  simp only [asciiLower, List.length_map] at hlength
  simp only [List.length_take, List.length_drop]
  omega

section Parts

variable {once : List Char → Option (List Char × List Char)} {gap : Nat}

theorem length_le_of_mem_splitBy
    (honce : ∀ s before after, once s = some (before, after) →
      before.length + gap + after.length = s.length)
    (h : part ∈ splitBy once fuel s) : part.length ≤ s.length := by
  induction fuel generalizing s with
  | zero =>
    rw [splitBy, List.mem_singleton] at h
    rw [h]
  | succ fuel ih =>
    rw [splitBy] at h
    split at h
    next => rw [List.mem_singleton.mp h]
    next before after hsplit =>
      have hlength := honce _ _ _ hsplit
      rcases List.mem_cons.mp h with rfl | h
      · omega
      · have := ih h
        omega

/-- When there is something to cut at, every part is shorter. -/
theorem length_lt_of_mem_splitBy (hgap : 0 < gap)
    (honce : ∀ s before after, once s = some (before, after) →
      before.length + gap + after.length = s.length)
    (hsome : (once s).isSome) (h : part ∈ splitBy once s.length s) : part.length < s.length := by
  obtain ⟨⟨before, after⟩, hsplit⟩ := Option.isSome_iff_exists.mp hsome
  have hlength := honce _ _ _ hsplit
  obtain ⟨fuel, hfuel⟩ : ∃ fuel, s.length = fuel + 1 := Nat.exists_eq_add_one.mpr (by omega)
  rw [hfuel, splitBy, hsplit] at h
  rcases List.mem_cons.mp h with rfl | h
  · omega
  · have := length_le_of_mem_splitBy honce h
    omega

end Parts

theorem length_lt_of_mem_split {sep : List Char} (hsep : sep ≠ [])
    (hsome : (splitOnce sep s).isSome) (h : part ∈ split sep s) : part.length < s.length :=
  length_lt_of_mem_splitBy (List.length_pos_iff.mpr hsep) (fun _ _ _ => splitOnce_length) hsome h

theorem length_lt_of_mem_splitCi {sep : List Char} (hsep : sep ≠ [])
    (hsome : (splitOnceCi sep s).isSome) (h : part ∈ splitCi sep s) : part.length < s.length :=
  length_lt_of_mem_splitBy (List.length_pos_iff.mpr hsep) (fun _ _ _ => splitOnceCi_length) hsome h

theorem splitLast_length (h : splitLast sep s = some (before, after)) :
    before.length + sep.length + after.length = s.length := by
  obtain ⟨⟨tail, head⟩, hs, hsplit⟩ := Option.map_eq_some_iff.mp h
  cases hsplit
  have hlength := splitOnce_length hs
  simp only [List.length_reverse] at *
  omega

-- ---------------------------------------------------------------------------
-- Order
-- ---------------------------------------------------------------------------

/-- What `str::cmp` compares: the bytes of the text. -/
def ord (s : List Char) : List Nat := (encode s).map UInt8.toNat

theorem ord_injective : Function.Injective ord := by
  intro s t h
  have hbytes : Function.Injective (List.map UInt8.toNat) :=
    List.map_injective_iff.mpr fun _ _ => UInt8.toNat_inj.mp
  exact encode_injective (hbytes h)

end Text
