import Mathlib.Data.List.Infix

/-!
# Editing a list by units

An edit walks over a list. Where a unit starts, it is replaced, with the units
right behind it; every other element is kept. What an edit keeps is then said of
the units and of what is put in their place.
-/

namespace Edits

variable {α : Type*}

/-- How often a `p` is directly followed by a `q`. -/
def pairs (p q : α → Bool) : List α → Nat
  | [] => 0
  | x :: xs => (if p x && xs.head?.any q then 1 else 0) + pairs p q xs

/-- One or more units, one behind the other. -/
inductive Run (unit : List α → Prop) : List α → Prop
  | one : unit u → Run unit u
  | more : unit u → Run unit s → Run unit (u ++ s)

/-- The second list is the first one edited. -/
inductive Edited (unit made : List α → Prop) : List α → List α → Prop
  | nil : Edited unit made [] []
  | keep : (∀ u, unit u → ¬ u <+: x :: xs) → Edited unit made xs ys →
      Edited unit made (x :: xs) (x :: ys)
  | replace : Run unit s → made m → Edited unit made xs ys →
      Edited unit made (s ++ xs) (m ++ ys)

-- ---------------------------------------------------------------------------
-- Pairs
-- ---------------------------------------------------------------------------

section Pairs

variable {p q : α → Bool}

theorem pairs_cons (x : α) (xs : List α) :
    pairs p q (x :: xs) = (if p x && xs.head?.any q then 1 else 0) + pairs p q xs := rfl

theorem pairs_le_append (xs ys : List α) : pairs p q ys ≤ pairs p q (xs ++ ys) := by
  induction xs with
  | nil => exact Nat.le_refl _
  | cons x xs ih =>
    rw [List.cons_append, pairs_cons]
    omega

theorem pairs_le_append_left (xs ys : List α) : pairs p q xs ≤ pairs p q (xs ++ ys) := by
  induction xs with
  | nil => exact Nat.zero_le _
  | cons x xs ih =>
    rw [List.cons_append, pairs_cons, pairs_cons]
    cases xs with
    | nil => simp [pairs]
    | cons y xs => exact Nat.add_le_add_left ih _

/-- A text that holds no `q` starts no pair with what is before it, and one that
ends in no `p` none with what is behind it. -/
theorem pairs_append_of_no_q {xs : List α} (hq : ∀ x ∈ xs, q x = false)
    (hp : ∀ x ∈ xs.getLast?, p x = false) (ys : List α) :
    pairs p q (xs ++ ys) = pairs p q ys := by
  induction xs with
  | nil => rfl
  | cons x xs ih =>
    rw [List.cons_append, pairs_cons]
    cases xs with
    | nil =>
      have hx : p x = false := hp x rfl
      simp [hx]
    | cons y xs =>
      have hy : q y = false := hq y (by simp)
      rw [ih (fun z hz => hq z (List.mem_cons_of_mem _ hz)) (by simpa using hp)]
      simp [hy]

theorem pairs_map {β : Type*} (f : β → α) (xs : List β) :
    pairs p q (xs.map f) = pairs (p ∘ f) (q ∘ f) xs := by
  induction xs with
  | nil => rfl
  | cons x xs ih =>
    rw [List.map_cons, pairs_cons, pairs_cons, ih, List.head?_map]
    cases xs <;> rfl

theorem pairs_eq_zero_of_no_q {xs : List α} (hq : ∀ x ∈ xs, q x = false) :
    pairs p q xs = 0 := by
  induction xs with
  | nil => rfl
  | cons x xs ih =>
    rw [pairs_cons, ih fun y hy => hq y (List.mem_cons_of_mem _ hy)]
    cases xs with
    | nil => simp
    | cons y xs =>
      have hy : q y = false := hq y (by simp)
      simp [hy]

/-- A pair is counted where it starts. -/
theorem pairs_pos_of_head {x y : α} (hx : p x) (hy : q y) (xs : List α) :
    0 < pairs p q (x :: y :: xs) := by
  rw [pairs_cons, List.head?_cons, Option.any_some, hx, hy]
  exact Nat.lt_add_right _ Nat.one_pos

theorem pairs_append {ys : List α} (hq : ∀ y ∈ ys.head?, q y = false) (xs : List α) :
    pairs p q (xs ++ ys) = pairs p q xs + pairs p q ys := by
  induction xs with
  | nil => exact (Nat.zero_add _).symm
  | cons x xs ih =>
    have hhead : (xs ++ ys).head?.any q = xs.head?.any q := by
      cases xs with
      | nil =>
        cases ys with
        | nil => rfl
        | cons y ys =>
          have hy : q y = false := hq y rfl
          simp [hy]
      | cons z xs => rfl
    rw [List.cons_append, pairs_cons, pairs_cons, hhead, ih]
    omega

theorem pairs_cons_le {q' : α → Bool} {xs ys : List α}
    (hhead : xs.head?.any q → ys.head?.any q') (h : pairs p q xs ≤ pairs p q' ys) (x : α) :
    pairs p q (x :: xs) ≤ pairs p q' (x :: ys) := by
  rw [pairs_cons, pairs_cons]
  cases hany : xs.head?.any q with
  | false =>
    rw [Bool.and_false]
    exact Nat.le_trans (Nat.le_of_eq (Nat.zero_add _)) (Nat.le_add_left_of_le h)
  | true =>
    rw [hhead hany]
    exact Nat.add_le_add_left h _

theorem pairs_mono {q' : α → Bool} (h : ∀ x, q x → q' x) (xs : List α) :
    pairs p q xs ≤ pairs p q' xs := by
  induction xs with
  | nil => exact Nat.le_refl _
  | cons x xs ih =>
    have hhead : xs.head?.any q → xs.head?.any q' := by
      cases xs with
      | nil => exact id
      | cons y xs => simpa using h y
    exact pairs_cons_le hhead ih x

end Pairs

-- ---------------------------------------------------------------------------
-- What an edit keeps
-- ---------------------------------------------------------------------------

section Edited

variable {unit made : List α → Prop} {p q f : α → Bool} {xs ys : List α}

theorem Edited.cut {s : List α} (h : Run unit s) (hedit : Edited unit (· = []) xs ys) :
    Edited unit (· = []) (s ++ xs) ys :=
  @Edited.replace _ _ _ _ [] _ _ h rfl hedit

theorem Run.forall_mem {s : List α} (h : Run unit s) {P : α → Prop}
    (hunit : ∀ u, unit u → ∀ x ∈ u, P x) : ∀ x ∈ s, P x := by
  induction h with
  | one hu => exact hunit _ hu
  | more hu _ ih =>
    intro x hx
    rcases List.mem_append.mp hx with hx | hx
    · exact hunit _ hu x hx
    · exact ih x hx

theorem Run.getLast {s : List α} (h : Run unit s) {P : α → Prop}
    (hne : ∀ u, unit u → u ≠ []) (hunit : ∀ u, unit u → ∀ x ∈ u.getLast?, P x) :
    s ≠ [] ∧ ∀ x ∈ s.getLast?, P x := by
  induction h with
  | one hu => exact ⟨hne _ hu, hunit _ hu⟩
  | more hu _ ih =>
    refine ⟨by simp [ih.1], ?_⟩
    rw [List.getLast?_append_of_ne_nil _ ih.1]
    exact ih.2

/-- Pairs of kept elements stay. -/
theorem Edited.pairs_le (h : Edited unit made xs ys) (hne : ∀ u, unit u → u ≠ [])
    (hq : ∀ u, unit u → ∀ x ∈ u, q x = false)
    (hp : ∀ u, unit u → ∀ x ∈ u.getLast?, p x = false) : pairs p q xs ≤ pairs p q ys := by
  induction h with
  | nil => exact Nat.le_refl _
  | @keep x xs ys _ hedit ih =>
    have hhead : xs.head?.any q → ys.head?.any q := by
      intro hany
      cases hedit with
      | nil => exact hany
      | keep => exact hany
      | @replace s m xs ys hrun _ _ =>
        obtain ⟨hs, -⟩ := hrun.getLast hne hp
        obtain ⟨z, s, rfl⟩ := List.exists_cons_of_ne_nil hs
        have hz : q z = false := hrun.forall_mem hq z (List.mem_cons_self ..)
        simp [hz] at hany
    exact pairs_cons_le hhead ih x
  | replace hrun _ _ ih =>
    obtain ⟨-, hlast⟩ := hrun.getLast hne hp
    rw [pairs_append_of_no_q (hrun.forall_mem hq) hlast]
    exact Nat.le_trans ih (pairs_le_append _ _)

/-- No pair is made where something stands in the place of the units. -/
theorem Edited.pairs_ge (h : Edited unit made xs ys)
    (hmade : ∀ m, made m → m ≠ [] ∧ ∀ x ∈ m, p x = false ∧ q x = false) :
    pairs p q ys ≤ pairs p q xs := by
  induction h with
  | nil => exact Nat.le_refl _
  | @keep x xs ys _ hedit ih =>
    have hhead : ys.head?.any q → xs.head?.any q := by
      intro hany
      cases hedit with
      | nil => exact hany
      | keep => exact hany
      | @replace s m xs ys _ hm _ =>
        obtain ⟨hne, hboth⟩ := hmade m hm
        obtain ⟨z, m, rfl⟩ := List.exists_cons_of_ne_nil hne
        have hz : q z = false := (hboth z (List.mem_cons_self ..)).2
        simp [hz] at hany
    exact pairs_cons_le hhead ih x
  | @replace s m xs ys _ hm _ ih =>
    obtain ⟨-, hboth⟩ := hmade m hm
    rw [pairs_append_of_no_q fun x hx => (hboth x hx).2]
    · exact Nat.le_trans ih (pairs_le_append _ _)
    · exact fun x hx => (hboth x (List.mem_of_mem_getLast? hx)).1

/-- Where no pair stands, units that hold one do not occur. -/
theorem Run.forall_of_pairs {s : List α} (h : Run unit s)
    (hunit : ∀ u, unit u → 0 < pairs p q u ∨ ∀ x ∈ u, f x = false)
    (hpairs : pairs p q (s ++ xs) = 0) : ∀ x ∈ s, f x = false := by
  induction h with
  | @one u hu =>
    refine (hunit u hu).resolve_left ?_
    have hle := @pairs_le_append_left _ p q u xs
    omega
  | @more u s hu _ ih =>
    rw [List.append_assoc] at hpairs
    have hleft := @pairs_le_append_left _ p q u (s ++ xs)
    have hright := @pairs_le_append _ p q u (s ++ xs)
    have hfirst := (hunit u hu).resolve_left (by omega)
    intro x hx
    rcases List.mem_append.mp hx with hx | hx
    · exact hfirst x hx
    · exact ih (by omega) x hx

/-- An edit that cuts elements out one by one is a filter. -/
theorem Edited.eq_filter (h : Edited unit (· = []) xs ys) (hsingle : ∀ x, f x = false → unit [x])
    (hunit : ∀ u, unit u → 0 < pairs p q u ∨ ∀ x ∈ u, f x = false)
    (hpairs : pairs p q xs = 0) : ys = xs.filter f := by
  induction h with
  | nil => rfl
  | @keep x xs ys hkeep _ ih =>
    have hx : f x = true := by
      rw [← Bool.not_eq_false]
      exact fun hf => hkeep _ (hsingle x hf) ⟨xs, rfl⟩
    rw [pairs_cons] at hpairs
    rw [List.filter_cons_of_pos hx, ih (by omega)]
  | @replace s m xs ys hrun hm _ ih =>
    have hs := hrun.forall_of_pairs hunit hpairs
    have hle := @pairs_le_append _ p q s xs
    have hnone : s.filter f = [] := by
      rw [List.filter_eq_nil_iff]
      exact fun x hx => by simp [hs x hx]
    rw [hm, List.filter_append, hnone, ih (by omega)]

/-- The elements that no unit holds are kept, in order. -/
theorem Edited.filter_sublist (h : Edited unit made xs ys)
    (hunit : ∀ u, unit u → 0 < pairs p q u ∨ ∀ x ∈ u, f x = false)
    (hpairs : pairs p q xs = 0) : (xs.filter f).Sublist ys := by
  induction h with
  | nil => exact List.Sublist.refl _
  | @keep x xs ys _ _ ih =>
    rw [pairs_cons] at hpairs
    have hxs := ih (by omega)
    rw [List.filter_cons]
    split
    · exact hxs.cons_cons x
    · exact hxs.cons x
  | @replace s m xs ys hrun _ _ ih =>
    have hs := hrun.forall_of_pairs hunit hpairs
    have hle := @pairs_le_append _ p q s xs
    have hnone : s.filter f = [] := by
      rw [List.filter_eq_nil_iff]
      exact fun x hx => by simp [hs x hx]
    rw [List.filter_append, hnone, List.nil_append]
    exact (ih (by omega)).trans (List.sublist_append_right _ _)

theorem Run.pairs_le_countP {s : List α} (h : Run unit s)
    (hunit : ∀ u, unit u → ∀ zs, pairs p q (u ++ zs) ≤ u.countP p + pairs p q zs)
    (zs : List α) : pairs p q (s ++ zs) ≤ s.countP p + pairs p q zs := by
  induction h with
  | one hu => exact hunit _ hu zs
  | @more u s hu _ ih =>
    have hfirst := hunit u hu (s ++ zs)
    rw [List.append_assoc, List.countP_append]
    omega

/-- Every pair that is a unit costs a `p`. -/
theorem Edited.countP_add_pairs_le (h : Edited unit made xs ys)
    (hpair : ∀ x y, p x → q y → unit [x, y])
    (hunit : ∀ u, unit u → ∀ zs, pairs p q (u ++ zs) ≤ u.countP p + pairs p q zs)
    (hmade : ∀ m, made m → ∀ x ∈ m, p x = false) :
    ys.countP p + pairs p q xs ≤ xs.countP p := by
  induction h with
  | nil => exact Nat.le_refl _
  | @keep x xs ys hkeep _ ih =>
    have hnone : (p x && xs.head?.any q) = false := by
      rw [← Bool.not_eq_true, Bool.and_eq_true]
      rintro ⟨hx, hany⟩
      cases xs with
      | nil => simp at hany
      | cons y xs => exact hkeep _ (hpair x y hx (by simpa using hany)) ⟨xs, rfl⟩
    rw [pairs_cons, hnone, List.countP_cons, List.countP_cons]
    simp only [Bool.false_eq_true, if_false]
    omega
  | @replace s m xs ys hrun hm _ ih =>
    have hcount : m.countP p = 0 := by
      rw [List.countP_eq_zero]
      exact fun x hx => by simp [hmade m hm x hx]
    have hpairs := hrun.pairs_le_countP hunit xs
    rw [List.countP_append, List.countP_append, hcount]
    omega

theorem Edited.countP_le (h : Edited unit made xs ys)
    (hmade : ∀ m, made m → ∀ x ∈ m, p x = false) : ys.countP p ≤ xs.countP p := by
  induction h with
  | nil => exact Nat.le_refl _
  | keep _ _ ih =>
    rw [List.countP_cons, List.countP_cons]
    omega
  | @replace s m xs ys _ hm _ ih =>
    have hcount : m.countP p = 0 := by
      rw [List.countP_eq_zero]
      exact fun x hx => by simp [hmade m hm x hx]
    rw [List.countP_append, List.countP_append, hcount]
    omega

/-- Elements of a kind that no unit holds do not get fewer. -/
theorem Edited.le_countP (h : Edited unit made xs ys) (hunit : ∀ u, unit u → ∀ x ∈ u, f x = false) :
    xs.countP f ≤ ys.countP f := by
  have hnone : pairs (fun _ => false) (fun _ => false) xs = 0 := pairs_eq_zero_of_no_q fun _ _ => rfl
  have hsublist := h.filter_sublist (fun u hu => .inr (hunit u hu)) hnone
  calc xs.countP f
    _ = (xs.filter f).countP f := by simp [List.countP_filter]
    _ ≤ ys.countP f := hsublist.countP_le

end Edited

end Edits
