import Mathlib.Data.List.Basic
import Mathlib.Data.List.Flatten
import Mathlib.Data.List.Nodup

/-!
# The order of blocks put together

A list is put together of blocks, one for each item of another list. When no
element stands in it twice, the order of the elements tells the order of the
blocks: reversing the items, or moving some of them to the front, leaves the
whole list as it was exactly when no two blocks that are not empty change places.
-/

namespace BlockOrder

variable {α β : Type} {l a b : List β} {items : List α} {f : α → List β}

theorem sublist_flatMap_of_mem {x : α} (h : x ∈ items) : (f x).Sublist (items.flatMap f) := by
  rw [List.flatMap_def]
  exact List.sublist_flatten_of_mem (List.mem_map_of_mem h)

/-- Elements of two blocks stand in the order of the blocks. -/
theorem pair_sublist {x y : α} {u v : β} (h : [x, y].Sublist items) (hu : u ∈ f x) (hv : v ∈ f y) :
    [u, v].Sublist (items.flatMap f) := by
  refine List.Sublist.trans ?_ (h.flatMap f)
  have hboth := (List.singleton_sublist.mpr hu).append (List.singleton_sublist.mpr hv)
  simpa using hboth

theorem eq_filter_of_sublist [DecidableEq β] (hl : l.Nodup) (h : a.Sublist l) :
    a = l.filter (· ∈ a) := by
  induction h with
  | slnil => rfl
  | @cons a l x h ih =>
    obtain ⟨hx, hl⟩ := List.nodup_cons.mp hl
    rw [List.filter_cons_of_neg (by simpa using fun hmem => hx (h.subset hmem))]
    exact ih hl
  | @cons_cons a l x h ih =>
    obtain ⟨hx, hl⟩ := List.nodup_cons.mp hl
    rw [List.filter_cons_of_pos (by simp)]
    refine congrArg (x :: ·) ((ih hl).trans (List.filter_congr fun y hy => ?_))
    have hne : y ≠ x := fun heq => hx (heq ▸ hy)
    simp [hne]

/-- Where nothing stands twice, the elements of a part tell their order. -/
theorem eq_of_sublist_perm [DecidableEq β] (hl : l.Nodup) (ha : a.Sublist l) (hb : b.Sublist l)
    (hperm : a.Perm b) : a = b := by
  rw [eq_filter_of_sublist hl ha, eq_filter_of_sublist hl hb]
  exact List.filter_congr fun y _ => by simp [hperm.mem_iff]

theorem not_swapped {u v : β} (hl : l.Nodup) (h : [u, v].Sublist l) : ¬ [v, u].Sublist l := by
  classical
  intro h'
  have heq := eq_of_sublist_perm hl h h' (List.Perm.swap v u [])
  have hne := hl.sublist h
  simp only [List.cons.injEq] at heq
  simp [heq.1] at hne

-- ---------------------------------------------------------------------------
-- Reversing
-- ---------------------------------------------------------------------------

theorem flatMap_reverse (h : items.countP (fun x => !(f x).isEmpty) ≤ 1) :
    items.reverse.flatMap f = items.flatMap f := by
  induction items with
  | nil => rfl
  | cons x items ih =>
    rw [List.reverse_cons, List.flatMap_append, List.flatMap_singleton, List.flatMap_cons]
    cases hx : f x with
    | nil =>
      rw [List.countP_cons_of_neg (by simp [hx])] at h
      rw [ih h, List.append_nil, List.nil_append]
    | cons u us =>
      rw [List.countP_cons_of_pos (by simp [hx])] at h
      have hnone : ∀ y ∈ items, f y = [] := by
        have hzero := List.countP_eq_zero.mp (Nat.le_zero.mp (Nat.le_of_succ_le_succ h))
        simpa using hzero
      rw [List.flatMap_eq_nil_iff.mpr hnone,
        List.flatMap_eq_nil_iff.mpr fun y hy => hnone y (List.mem_reverse.mp hy), List.append_nil,
        List.nil_append]

theorem flatMap_reverse_iff (hnodup : (items.flatMap f).Nodup) :
    items.reverse.flatMap f = items.flatMap f ↔ items.countP (fun x => !(f x).isEmpty) ≤ 1 := by
  refine ⟨fun heq => ?_, flatMap_reverse⟩
  by_contra hmany
  rw [List.countP_eq_length_filter] at hmany
  match hfilter : items.filter fun x => !(f x).isEmpty, hmany with
  | [], hmany | [x], hmany => simp at hmany
  | x :: y :: rest, _ =>
    have hpair : [x, y].Sublist (items.filter fun x => !(f x).isEmpty) := by
      rw [hfilter]
      exact ((List.nil_sublist rest).cons_cons y).cons_cons x
    have hmem (z : α) (hz : z ∈ [x, y]) : ∃ u, u ∈ f z := by
      have hne := (List.mem_filter.mp (hpair.subset hz)).2
      exact List.exists_mem_of_ne_nil _ (by simpa using hne)
    obtain ⟨u, hu⟩ := hmem x (by simp)
    obtain ⟨v, hv⟩ := hmem y (by simp)
    have hitems := hpair.trans List.filter_sublist
    refine not_swapped hnodup (pair_sublist hitems hu hv) ?_
    rw [← heq]
    exact pair_sublist (List.reverse_sublist.mpr hitems) hv hu

-- ---------------------------------------------------------------------------
-- Moving to the front
-- ---------------------------------------------------------------------------

section Front

variable {p : α → Bool}

/-- The second one does not have to be moved in front of the first one. -/
def Fronted (p : α → Bool) (f : α → List β) (x y : α) : Prop :=
  p x = false → f x ≠ [] → p y = true → f y = []

theorem flatMap_front (h : items.Pairwise (Fronted p f)) :
    (items.filter p).flatMap f ++ (items.filter fun x => !p x).flatMap f = items.flatMap f := by
  induction h with
  | nil => rfl
  | @cons x items hx _ ih =>
    rw [List.flatMap_cons, ← ih]
    cases hp : p x with
    | true => simp [hp]
    | false =>
      rw [List.filter_cons_of_neg (by simp [hp]), List.filter_cons_of_pos (by simp [hp]),
        List.flatMap_cons]
      by_cases hempty : f x = []
      · rw [hempty, List.nil_append, List.nil_append]
      · have hnone : (items.filter p).flatMap f = [] := by
          refine List.flatMap_eq_nil_iff.mpr fun y hy => ?_
          obtain ⟨hy, hpy⟩ := List.mem_filter.mp hy
          exact hx y hy hp hempty hpy
        rw [hnone, List.nil_append, List.nil_append]

theorem flatMap_front_iff (hnodup : (items.flatMap f).Nodup) :
    (items.filter p).flatMap f ++ (items.filter fun x => !p x).flatMap f = items.flatMap f ↔
      items.Pairwise (Fronted p f) := by
  refine ⟨fun heq => List.pairwise_iff_forall_sublist.mpr ?_, flatMap_front⟩
  intro x y hpair hx hne hy
  by_contra hne'
  obtain ⟨u, hu⟩ := List.exists_mem_of_ne_nil _ hne
  obtain ⟨v, hv⟩ := List.exists_mem_of_ne_nil _ hne'
  refine not_swapped hnodup (pair_sublist hpair hu hv) ?_
  have hmem (z : α) (hz : z ∈ [x, y]) : z ∈ items := hpair.subset hz
  have hback : [u].Sublist ((items.filter fun x => !p x).flatMap f) :=
    List.singleton_sublist.mpr (List.mem_flatMap.mpr
      ⟨x, List.mem_filter.mpr ⟨hmem x (by simp), by simp [hx]⟩, hu⟩)
  have hfront : [v].Sublist ((items.filter p).flatMap f) :=
    List.singleton_sublist.mpr (List.mem_flatMap.mpr
      ⟨y, List.mem_filter.mpr ⟨hmem y (by simp), hy⟩, hv⟩)
  rw [← heq]
  exact hfront.append hback

end Front

end BlockOrder
