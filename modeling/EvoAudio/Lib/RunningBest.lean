import Mathlib.Data.List.Basic

/-!
# The running best of a list

A pass over a list that keeps the greatest element it has met, among those that
are eligible, and the earlier one of two that are as great. What it keeps is
eligible, in the list and not less than any other; which one it is among equals
depends on the order, so the last element is not kept unless it exceeds all.
-/

variable {α : Type} {eligible : α → Bool} {size : α → Nat} {l : List α}

/-- The best so far, when one more element is met. -/
def better (eligible : α → Bool) (size : α → Nat) (best : Option α) (a : α) : Option α :=
  if eligible a then
    match best with
    | none => some a
    | some b => if size b < size a then some a else best
  else best

/-- What the pass has kept of the elements it has met. -/
def IsBest (eligible : α → Bool) (size : α → Nat) (seen : List α) : Option α → Prop
  | none => ∀ a ∈ seen, eligible a = false
  | some b => b ∈ seen ∧ eligible b = true ∧ ∀ a ∈ seen, eligible a = true → size a ≤ size b

theorem IsBest.step (h : IsBest eligible size seen best) (a : α) :
    IsBest eligible size (seen ++ [a]) (better eligible size best a) := by
  unfold better
  split
  next ha =>
    cases best with
    | none =>
      refine ⟨by simp, ha, List.forall_mem_append.mpr ⟨fun other hseen hother => ?_, by simp⟩⟩
      rw [h other hseen] at hother
      cases hother
    | some b =>
      obtain ⟨hmem, hb, hmax⟩ := h
      dsimp only
      split
      next hlt =>
        refine ⟨by simp, ha, List.forall_mem_append.mpr ⟨fun other hseen hother => ?_, by simp⟩⟩
        exact Nat.le_trans (hmax other hseen hother) (Nat.le_of_lt hlt)
      next hle =>
        refine ⟨List.mem_append_left _ hmem, hb, List.forall_mem_append.mpr ⟨hmax, ?_⟩⟩
        exact List.forall_mem_singleton.mpr fun _ => Nat.not_lt.mp hle
  next ha =>
    cases best with
    | none =>
      rw [Bool.not_eq_true] at ha
      exact List.forall_mem_append.mpr ⟨h, List.forall_mem_singleton.mpr ha⟩
    | some b =>
      obtain ⟨hmem, hb, hmax⟩ := h
      refine ⟨List.mem_append_left _ hmem, hb, List.forall_mem_append.mpr ⟨hmax, ?_⟩⟩
      exact List.forall_mem_singleton.mpr fun h => absurd h ha

theorem isBest_foldl (eligible : α → Bool) (size : α → Nat) (l : List α) :
    IsBest eligible size l (l.foldl (better eligible size) none) := by
  have hfold (seen rest : List α) (best : Option α) (h : IsBest eligible size seen best) :
      IsBest eligible size (seen ++ rest) (rest.foldl (better eligible size) best) := by
    induction rest generalizing seen best with
    | nil => simpa using h
    | cons a rest ih => simpa using ih _ _ (h.step a)
  simpa using hfold [] l none (by simp [IsBest])

theorem foldl_better_eq_none :
    l.foldl (better eligible size) none = none ↔ ∀ a ∈ l, eligible a = false := by
  have hbest := isBest_foldl eligible size l
  constructor
  · intro h
    rwa [h] at hbest
  · intro h
    cases hfold : l.foldl (better eligible size) none with
    | none => rfl
    | some b =>
      rw [hfold] at hbest
      have hb := h b hbest.1
      rw [hbest.2.1] at hb
      cases hb

theorem foldl_better_eq_some (h : l.foldl (better eligible size) none = some b) :
    b ∈ l ∧ eligible b = true ∧ ∀ a ∈ l, eligible a = true → size a ≤ size b := by
  have hbest := isBest_foldl eligible size l
  rwa [h] at hbest

/-- The element that exceeds all others is kept, in whatever order they come. -/
theorem foldl_better_eq_of_lt (hmem : b ∈ l) (hb : eligible b = true)
    (hlt : ∀ a ∈ l, eligible a = true → a ≠ b → size a < size b) :
    l.foldl (better eligible size) none = some b := by
  cases hfold : l.foldl (better eligible size) none with
  | none =>
    have := foldl_better_eq_none.mp hfold b hmem
    rw [hb] at this
    cases this
  | some a =>
    obtain ⟨ha, heligible, hmax⟩ := foldl_better_eq_some hfold
    by_cases hab : a = b
    · rw [hab]
    · exact absurd (hmax b hmem hb) (Nat.not_le.mpr (hlt a ha heligible hab))

/-- An element at the end is not kept when another one is as great. -/
theorem foldl_better_last (ha : a ∈ l) (heligible : eligible a = true) (hle : size b ≤ size a) :
    ∃ c ∈ l, eligible c = true ∧ (l ++ [b]).foldl (better eligible size) none = some c := by
  cases hfold : l.foldl (better eligible size) none with
  | none =>
    have := foldl_better_eq_none.mp hfold a ha
    rw [heligible] at this
    cases this
  | some c =>
    obtain ⟨hc, hceligible, hmax⟩ := foldl_better_eq_some hfold
    have hbc : ¬size c < size b := Nat.not_lt.mpr (Nat.le_trans hle (hmax a ha heligible))
    refine ⟨c, hc, hceligible, ?_⟩
    rw [List.foldl_append, hfold]
    simp [better, hbc]
