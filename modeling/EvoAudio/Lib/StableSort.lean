import Mathlib.Data.List.Sort

/-!
# The first of a stable sort

A list is sorted by a key, elements of one key staying in their order, and the first element
that is eligible is taken. This is the eligible element of the least key, and among those of one
key the first, so an element that another one comes before can as well be left out.
-/

namespace StableSort

variable {α : Type} (key : α → Nat) (eligible : α → Bool)

def sortByKey (l : List α) : List α := l.insertionSort fun a b => key a ≤ key b

/-- The eligible element of the least key, the first of them. -/
def least : List α → Option α
  | [] => none
  | a :: l => if eligible a && (least l).all (key a ≤ key ·) then some a else least l

variable {key eligible}

theorem find?_orderedInsert {l : List α} (hsorted : l.Pairwise fun a b => key a ≤ key b) (a : α) :
    (l.orderedInsert (fun a b => key a ≤ key b) a).find? eligible =
      if eligible a && (l.find? eligible).all (key a ≤ key ·) then some a
      else l.find? eligible := by
  induction l with
  | nil => cases h : eligible a <;> simp [h]
  | cons b l ih =>
    obtain ⟨hb, hsorted⟩ := List.pairwise_cons.mp hsorted
    by_cases hle : key a ≤ key b
    · have hall : ((b :: l).find? eligible).all (key a ≤ key ·) = true := by
        rw [Option.all_eq_true]
        intro c hc
        rcases List.mem_cons.mp (List.mem_of_find?_eq_some hc) with rfl | hmem
        · simpa using hle
        · simpa using hle.trans (hb c hmem)
      rw [List.orderedInsert_cons, if_pos hle, List.find?_cons, hall, Bool.and_true]
      cases eligible a <;> rfl
    · rw [List.orderedInsert_cons, if_neg hle, List.find?_cons, List.find?_cons, ih hsorted]
      cases hb : eligible b with
      | true => simp [hle]
      | false => rfl

theorem find?_sortByKey (l : List α) : (sortByKey key l).find? eligible = least key eligible l := by
  induction l with
  | nil => rfl
  | cons a l ih =>
    rw [sortByKey, List.insertionSort_cons, find?_orderedInsert (List.pairwise_insertionSort _ l)]
    rw [← sortByKey, ih]
    rfl

theorem least_eq_none {l : List α} : least key eligible l = none ↔ ∀ a ∈ l, eligible a = false := by
  rw [← find?_sortByKey, List.find?_eq_none]
  simp [sortByKey, List.mem_insertionSort]

theorem mem_of_least {l : List α} (h : least key eligible l = some a) :
    a ∈ l ∧ eligible a = true := by
  rw [← find?_sortByKey] at h
  exact ⟨(List.mem_insertionSort _).mp (List.mem_of_find?_eq_some h), List.find?_some h⟩

theorem least_cons_of_le {l : List α} (ha : eligible a = true)
    (h : ∀ b ∈ l, eligible b = true → key a ≤ key b) : least key eligible (a :: l) = some a := by
  refine if_pos ?_
  rw [ha, Bool.true_and, Option.all_eq_true]
  intro b hb
  obtain ⟨hmem, helig⟩ := mem_of_least hb
  exact decide_eq_true (h b hmem helig)

/-- An eligible element with no one before it: of the lesser key, or of the same key and in
front. -/
structure IsLeast (key : α → Nat) (eligible : α → Bool) (before : List α) (a : α)
    (after : List α) : Prop where
  taken : eligible a = true
  before : ∀ b ∈ before, eligible b = true → key a < key b
  after : ∀ b ∈ after, eligible b = true → key a ≤ key b

theorem IsLeast.le {before after : List α} (h : IsLeast key eligible before a after)
    (hb : b ∈ before ++ a :: after) (helig : eligible b = true) : key a ≤ key b := by
  rcases List.mem_append.mp hb with hb | hb
  · exact (h.before b hb helig).le
  · rcases List.mem_cons.mp hb with rfl | hb
    · exact le_rfl
    · exact h.after b hb helig

theorem IsLeast.least_eq {before after : List α} (h : IsLeast key eligible before a after) :
    least key eligible (before ++ a :: after) = some a := by
  induction before with
  | nil => exact least_cons_of_le h.taken h.after
  | cons b before ih =>
    have hrest := ih ⟨h.taken, fun c hc => h.before c (List.mem_cons_of_mem _ hc), h.after⟩
    rw [List.cons_append, least, hrest, Option.all_some]
    refine if_neg fun hb => ?_
    obtain ⟨hb, hle⟩ := Bool.and_eq_true_iff.mp hb
    exact absurd (of_decide_eq_true hle) (Nat.not_le.mpr (h.before b List.mem_cons_self hb))

theorem exists_isLeast {l : List α} (h : least key eligible l = some a) :
    ∃ before after, l = before ++ a :: after ∧ IsLeast key eligible before a after := by
  induction l generalizing a with
  | nil => cases h
  | cons b l ih =>
    rw [least] at h
    by_cases hb : (eligible b && (least key eligible l).all (key b ≤ key ·)) = true
    · rw [if_pos hb] at h
      cases h
      obtain ⟨hb, hall⟩ := Bool.and_eq_true_iff.mp hb
      refine ⟨[], l, rfl, hb, by simp, fun c hc helig => ?_⟩
      cases hleast : least key eligible l with
      | none =>
        rw [least_eq_none.mp hleast c hc] at helig
        cases helig
      | some d =>
        obtain ⟨before, after, rfl, hd⟩ := ih hleast
        rw [hleast, Option.all_some, decide_eq_true_eq] at hall
        exact hall.trans (hd.le hc helig)
    · rw [if_neg hb] at h
      obtain ⟨before, after, rfl, ha⟩ := ih h
      refine ⟨b :: before, after, rfl, ha.taken, fun c hc helig => ?_, ha.after⟩
      rcases List.mem_cons.mp hc with rfl | hc
      · rw [helig, h, Option.all_some, Bool.true_and, decide_eq_true_eq] at hb
        exact Nat.lt_of_not_le hb
      · exact ha.before c hc helig

/-- An element that another one comes before is never taken, and can be left out. -/
theorem least_skip {l₁ l₂ : List α} {d : α}
    (h : (∃ o ∈ l₁, eligible o = true ∧ key o ≤ key d) ∨
      ∃ o ∈ l₂, eligible o = true ∧ key o < key d) :
    least key eligible (l₁ ++ d :: l₂) = least key eligible (l₁ ++ l₂) := by
  induction l₁ with
  | nil =>
    obtain ⟨o, ho, helig, hlt⟩ := h.resolve_left (by simp)
    refine if_neg fun hd => ?_
    obtain ⟨-, hall⟩ := Bool.and_eq_true_iff.mp hd
    cases hleast : least key eligible l₂ with
    | none =>
      rw [least_eq_none.mp hleast o ho] at helig
      cases helig
    | some b =>
      obtain ⟨before, after, rfl, hb⟩ := exists_isLeast hleast
      rw [hleast, Option.all_some, decide_eq_true_eq] at hall
      have := hb.le ho helig
      omega
  | cons a l₁ ih =>
    by_cases hrest : (∃ o ∈ l₁, eligible o = true ∧ key o ≤ key d) ∨
        ∃ o ∈ l₂, eligible o = true ∧ key o < key d
    · rw [List.cons_append, List.cons_append, least, least, ih hrest]
    · -- the one that comes before it is the first of all, and of no greater key than the rest
      push Not at hrest
      obtain ⟨o, ho, helig, hle⟩ := h.resolve_right fun ⟨o, ho, helig, hlt⟩ =>
        absurd hlt (Nat.not_lt.mpr (hrest.2 o ho helig))
      rcases List.mem_cons.mp ho with rfl | ho
      · have hall : ∀ b ∈ l₁ ++ l₂, eligible b = true → key o ≤ key b := by
          intro b hb helig
          rcases List.mem_append.mp hb with hb | hb
          · exact hle.trans (hrest.1 b hb helig).le
          · exact hle.trans (hrest.2 b hb helig)
        rw [List.cons_append, List.cons_append, least_cons_of_le helig hall]
        refine least_cons_of_le helig fun b hb helig => ?_
        rcases List.mem_append.mp hb with hb | hb
        · exact hall b (List.mem_append_left _ hb) helig
        · rcases List.mem_cons.mp hb with rfl | hb
          · exact hle
          · exact hall b (List.mem_append_right _ hb) helig
      · exact absurd hle (Nat.not_le.mpr (hrest.1 o ho helig))

end StableSort
