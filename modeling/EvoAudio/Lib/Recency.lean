import Mathlib.Data.List.Basic

/-!
# The order of latest uses

A history is the list of keys in the order they were used, and `lastAt` is where
in it a key was used last, counted from one. A queue to whose end every used key
is pushed `Follows` the history: the last copy of a key stands before keys that
were used later. Keys can be taken out of the queue, and it still does.
-/

namespace Recency

variable {κ : Type}

/-- The last copy of each key comes before keys of higher rank only. -/
def Follows (rank : κ → Nat) : List κ → Prop
  | [] => True
  | k :: queue => (k ∉ queue → ∀ other ∈ queue, rank k < rank other) ∧ Follows rank queue

theorem Follows.suffix {rank : κ → Nat} {queue : List κ} (h : Follows rank queue)
    (hsuffix : rest <:+ queue) : Follows rank rest := by
  induction queue with
  | nil =>
    rw [List.suffix_nil] at hsuffix
    exact hsuffix ▸ h
  | cons k queue ih =>
    rcases List.suffix_cons_iff.mp hsuffix with rfl | htail
    · exact h
    · exact ih h.2 htail

theorem Follows.filter {rank : κ → Nat} {queue : List κ} (h : Follows rank queue) (keep : κ → Bool) :
    Follows rank (queue.filter keep) := by
  induction queue with
  | nil => trivial
  | cons k queue ih =>
    by_cases hk : keep k
    · rw [List.filter_cons_of_pos hk]
      refine ⟨fun hlast other hother => ?_, ih h.2⟩
      have hnot : k ∉ queue := fun hmem => hlast (List.mem_filter.mpr ⟨hmem, hk⟩)
      exact h.1 hnot other (List.mem_filter.mp hother).1
    · rw [List.filter_cons_of_neg hk]
      exact ih h.2

theorem Follows.pairwise {rank : κ → Nat} {queue : List κ} (h : Follows rank queue)
    (hnodup : queue.Nodup) : queue.Pairwise fun k other => rank k < rank other := by
  induction queue with
  | nil => exact .nil
  | cons k queue ih =>
    rw [List.nodup_cons] at hnodup
    exact .cons (h.1 hnodup.1) (ih h.2 hnodup.2)

section History

variable [DecidableEq κ]

/-- The place of the last use of a key, and 0 for a key that was never used. -/
def lastAt (history : List κ) (k : κ) : Nat :=
  (history.reverse.dropWhile fun other => decide (other ≠ k)).length

theorem lastAt_le (history : List κ) (k : κ) : lastAt history k ≤ history.length := by
  have hsuffix := List.dropWhile_suffix (fun other => decide (other ≠ k)) (l := history.reverse)
  simpa [lastAt] using hsuffix.length_le

@[simp] theorem lastAt_concat_self (history : List κ) (k : κ) :
    lastAt (history ++ [k]) k = history.length + 1 := by
  simp [lastAt]

theorem lastAt_concat_ne {k other : κ} (h : other ≠ k) (history : List κ) :
    lastAt (history ++ [other]) k = lastAt history k := by
  simp [lastAt, h]

/-- The key that is used is pushed to the end. -/
theorem Follows.push {queue : List κ} {history : List κ} (h : Follows (lastAt history) queue)
    (k : κ) : Follows (lastAt (history ++ [k])) (queue ++ [k]) := by
  induction queue with
  | nil => simp [Follows]
  | cons first queue ih =>
    refine ⟨fun hlast other hother => ?_, ih h.2⟩
    have hnot : first ∉ queue ∧ first ≠ k := by simpa using hlast
    rw [lastAt_concat_ne (Ne.symm hnot.2)]
    by_cases hk : other = k
    · subst hk
      rw [lastAt_concat_self]
      exact Nat.lt_succ_of_le (lastAt_le history first)
    · rw [lastAt_concat_ne (Ne.symm hk)]
      refine h.1 hnot.1 other ?_
      simpa [hk] using hother

end History

end Recency
