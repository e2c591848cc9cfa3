import Mathlib.Data.List.Destutter
import Mathlib.Data.List.Sort

/-!
# Taking out positions of a list

A list without the entries at some positions, and how it comes about one
position after the other: from the last position to the first, no deletion moves
an entry that is still to go, and when the first position deleted is in range,
all are.
-/

namespace Positions

variable {α : Type}

/-- The entries at other positions, in their order. -/
def without (positions : List Nat) (list : List α) : List α :=
  (list.zipIdx.filter fun entry => !positions.contains entry.2).map Prod.fst

/-- Ascending, each once. -/
def ascending (positions : List Nat) : List Nat :=
  (positions.insertionSort (· ≤ ·)).destutter (· ≠ ·)

-- ---------------------------------------------------------------------------
-- Sorting
-- ---------------------------------------------------------------------------

theorem ascending_eq_dedup (positions : List Nat) :
    ascending positions = (positions.insertionSort (· ≤ ·)).dedup :=
  (List.pairwise_insertionSort (· ≤ ·) positions).destutter_eq_dedup

theorem mem_ascending {positions : List Nat} : p ∈ ascending positions ↔ p ∈ positions := by
  rw [ascending_eq_dedup, List.mem_dedup, List.mem_insertionSort]

theorem pairwise_ascending (positions : List Nat) : (ascending positions).Pairwise (· < ·) := by
  have hsorted := List.pairwise_insertionSort (· ≤ ·) positions
  rw [ascending_eq_dedup]
  exact ((hsorted.sublist (List.dedup_sublist _)).and (List.nodup_dedup _)).imp
    fun h => lt_of_le_of_ne h.1 h.2

-- ---------------------------------------------------------------------------
-- Deleting
-- ---------------------------------------------------------------------------

theorem without_congr {positions positions' : List Nat} {list : List α}
    (h : ∀ p < list.length, p ∈ positions ↔ p ∈ positions') :
    without positions list = without positions' list := by
  unfold without
  congr 1
  refine List.filter_congr fun entry hentry => ?_
  have hlt := List.snd_lt_of_mem_zipIdx hentry
  rw [Nat.add_zero] at hlt
  simp [h entry.2 hlt]

@[simp] theorem without_nil (list : List α) : without [] list = list := by
  simp [without, List.zipIdx_map_fst]

theorem length_without_lt {positions : List Nat} {list : List α} (hmem : p ∈ positions)
    (hp : p < list.length) : (without positions list).length < list.length := by
  unfold without
  rw [List.length_map]
  refine Nat.lt_of_lt_of_eq (List.length_filter_lt_length_iff_exists.mpr ?_) List.length_zipIdx
  refine ⟨(list[p], p), ?_, by simp [hmem]⟩
  exact List.mem_zipIdx_iff_getElem?.mpr (List.getElem?_eq_getElem hp)

theorem without_eq_self_iff {positions : List Nat} {list : List α}
    (hrange : ∀ p ∈ positions, p < list.length) :
    without positions list = list ↔ positions = [] := by
  constructor
  · intro h
    refine List.eq_nil_iff_forall_not_mem.mpr fun p hp => ?_
    have hlt := length_without_lt hp (hrange p hp)
    rw [h] at hlt
    exact Nat.lt_irrefl _ hlt
  · rintro rfl
    exact without_nil list

/-- Positions in front leave the rest of the list alone. -/
theorem without_append {positions : List Nat} {front rest : List α}
    (h : ∀ p ∈ positions, p < front.length) :
    without positions (front ++ rest) = without positions front ++ rest := by
  have hrest : (rest.zipIdx front.length).filter (fun entry => !positions.contains entry.2) =
      rest.zipIdx front.length := by
    refine List.filter_eq_self.mpr fun entry hentry => ?_
    have hle := List.le_snd_of_mem_zipIdx hentry
    have hnot : entry.2 ∉ positions := fun hmem => Nat.not_lt.mpr hle (h entry.2 hmem)
    simpa using hnot
  simp only [without, List.zipIdx_append, List.filter_append, List.map_append, Nat.zero_add, hrest,
    List.zipIdx_map_fst]

/-- The last position goes first. -/
theorem without_cons {p : Nat} {positions : List Nat} {list : List α} (hp : p < list.length)
    (h : ∀ q ∈ positions, q < p) :
    without (p :: positions) list = without positions (list.eraseIdx p) := by
  obtain ⟨front, x, back, rfl, rfl⟩ :
      ∃ front x back, list = front ++ x :: back ∧ p = front.length := by
    refine ⟨list.take p, list[p], list.drop (p + 1), ?_, ?_⟩
    · rw [List.getElem_cons_drop, List.take_append_drop]
    · rw [List.length_take, Nat.min_eq_left (Nat.le_of_lt hp)]
  have hfront : without (front.length :: positions) front = without positions front := by
    refine without_congr fun q hq => ?_
    rw [List.mem_cons, or_iff_right (Nat.ne_of_lt hq)]
  have hhere : without (front.length :: positions) (front ++ [x]) = without positions front := by
    rw [← hfront]
    simp [without, List.zipIdx_append, List.filter_append]
  rw [List.append_cons, without_append, hhere, ← List.append_cons,
    List.eraseIdx_append_of_length_le (Nat.le_refl _), Nat.sub_self, List.eraseIdx_cons_zero,
    without_append h]
  intro q hq
  rw [List.length_append, List.length_singleton]
  rcases List.mem_cons.mp hq with rfl | hq
  · exact Nat.lt_succ_self _
  · exact Nat.lt_succ_of_lt (h q hq)

end Positions
