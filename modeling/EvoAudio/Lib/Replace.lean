import Mathlib.Data.List.Basic

/-!
# Replacing in a text

`str::replace` goes through a text from the left and replaces each occurrence of a
pattern that does not overlap the one before. A text is often a sequence of blocks, made of
one character each, and the pattern one of the blocks or nowhere across them: then the
replacement is made block by block.
-/

namespace Text

variable {α β : Type} {pattern : List α}

/-- No occurrence of a pattern begins in a block, whatever comes after it. -/
def Misses (pattern block : List α) : Prop :=
  ∀ t, t ≠ [] → t <:+ block → ∀ s, ¬pattern <+: t ++ s

/-- A block without the first item of a pattern misses it. -/
theorem misses_of_notMem {x : α} {block : List α} (h : x ∉ block) :
    Misses (x :: pattern) block := by
  rintro (_ | ⟨y, t⟩) ht hs s hp
  · exact ht rfl
  · rw [List.cons_append, List.cons_prefix_cons] at hp
    exact h (hs.subset (by simp [hp.1]))

/-- So does one that only begins with that item, and differs from the pattern within
itself. -/
theorem misses_cons {x : α} {block : List α} (h : x ∉ block)
    (hdiffers : ∀ s, ¬pattern <+: block ++ s) : Misses (x :: pattern) (x :: block) := by
  intro t ht hs s hp
  rcases List.suffix_cons_iff.mp hs with rfl | hs
  · rw [List.cons_append, List.cons_prefix_cons] at hp
    exact hdiffers s hp.2
  · exact misses_of_notMem h t ht hs s hp

section Replacing

variable [DecidableEq α]

/-- Replaces from a place on, of which so many items still belong to the occurrence
before. -/
def replaceFrom (pattern replacement : List α) : Nat → List α → List α
  | _, [] => []
  | n + 1, _ :: s => replaceFrom pattern replacement n s
  | 0, x :: s =>
    if pattern <+: x :: s then
      replacement ++ replaceFrom pattern replacement (pattern.length - 1) s
    else
      x :: replaceFrom pattern replacement 0 s

/-- `replace` -/
def replace (pattern replacement s : List α) : List α := replaceFrom pattern replacement 0 s

variable {replacement : List α}

theorem replaceFrom_append (t s : List α) :
    replaceFrom pattern replacement t.length (t ++ s) = replace pattern replacement s := by
  induction t with
  | nil => rfl
  | cons x t ih => exact ih

theorem replace_match (h : pattern ≠ []) (s : List α) :
    replace pattern replacement (pattern ++ s) = replacement ++ replace pattern replacement s := by
  obtain ⟨x, t, rfl⟩ := List.exists_cons_of_ne_nil h
  have hpre : x :: t <+: x :: (t ++ s) := List.prefix_append (x :: t) s
  rw [replace, List.cons_append, replaceFrom, if_pos hpre]
  exact congrArg (replacement ++ ·) (replaceFrom_append t s)

theorem replace_skip {block : List α} (h : Misses pattern block) (s : List α) :
    replace pattern replacement (block ++ s) = block ++ replace pattern replacement s := by
  induction block with
  | nil => rfl
  | cons x block ih =>
    have hno := h (x :: block) (List.cons_ne_nil x block) (List.suffix_refl _) s
    have htail : Misses pattern block := fun t ht hs =>
      h t ht (hs.trans (List.suffix_cons x block))
    rw [List.cons_append] at hno
    rw [replace, List.cons_append, replaceFrom, if_neg hno, List.cons_append]
    exact congrArg (x :: ·) (ih htail)

/-- A text of blocks is replaced block by block when each is the pattern or misses it. -/
theorem replace_flatMap (h : pattern ≠ []) {f g : β → List α} (s : List β)
    (hblock : ∀ x ∈ s, f x = pattern ∧ g x = replacement ∨ Misses pattern (f x) ∧ g x = f x) :
    replace pattern replacement (s.flatMap f) = s.flatMap g := by
  induction s with
  | nil => rfl
  | cons x s ih =>
    rw [List.forall_mem_cons] at hblock
    rw [List.flatMap_cons, List.flatMap_cons]
    rcases hblock.1 with ⟨hf, hg⟩ | ⟨hmiss, hg⟩
    · rw [hf, hg, replace_match h, ih hblock.2]
    · rw [hg, replace_skip hmiss, ih hblock.2]

end Replacing

end Text
