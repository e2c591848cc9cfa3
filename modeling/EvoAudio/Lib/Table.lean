import Mathlib.Algebra.GroupWithZero.Nat
import Mathlib.Algebra.Order.BigOperators.Group.List
import Mathlib.Algebra.Order.Group.Nat
import Mathlib.Data.List.AList

/-!
# Finite maps and counted lists

A hash map is an association list without duplicate keys. Lookups are stated
here by a case split on the key, and `retain` drops the keys a test rejects.
For lists, what is left when one element is replaced, how a count moves when one
is replaced or taken out, and the greatest element of a list, the last of them when several are.
-/

namespace Table

variable {κ ν : Type} [DecidableEq κ]

theorem lookup_insert_ite (t : AList fun _ : κ => ν) (k k' : κ) (v : ν) :
    (t.insert k v).lookup k' = if k' = k then some v else t.lookup k' := by
  split
  · rename_i h
    rw [h, AList.lookup_insert]
  · rename_i h
    rw [AList.lookup_insert_ne h]

theorem lookup_erase_ite (t : AList fun _ : κ => ν) (k k' : κ) :
    (t.erase k).lookup k' = if k' = k then none else t.lookup k' := by
  split
  · rename_i h
    rw [h, AList.lookup_erase]
  · rename_i h
    rw [AList.lookup_erase_ne h]

def retain (keep : κ → Bool) (t : AList fun _ : κ => ν) : AList fun _ : κ => ν :=
  ⟨t.entries.filter fun e => keep e.1, t.nodupKeys.sublist List.filter_sublist⟩

theorem lookup_retain (keep : κ → Bool) (t : AList fun _ : κ => ν) (k : κ) :
    (retain keep t).lookup k = if keep k then t.lookup k else none := by
  ext v
  have hmem : v ∈ (retain keep t).lookup k ↔ keep k = true ∧ v ∈ t.lookup k := by
    rw [AList.mem_lookup_iff, AList.mem_lookup_iff]
    simp [retain, and_comm]
  rw [← Option.mem_def, hmem]
  cases keep k <;> simp

theorem length_erase (t : AList fun _ : κ => ν) (k : κ) :
    (t.erase k).entries.length = if k ∈ t then t.entries.length - 1 else t.entries.length := by
  have hany : t.entries.any (fun e => decide (k = e.1)) = true ↔ k ∈ t := by
    simp only [AList.mem_keys, AList.keys, List.keys, List.mem_map, List.any_eq_true,
      decide_eq_true_eq]
    exact exists_congr fun e => and_congr_right fun _ => eq_comm
  have hkerase : (t.erase k).entries = t.entries.eraseP fun e => decide (k = e.1) := rfl
  rw [hkerase, List.length_eraseP]
  by_cases hk : k ∈ t
  · rw [if_pos hk, if_pos (hany.mpr hk)]
  · rw [if_neg hk, if_neg fun h => hk (hany.mp h)]

theorem length_insert (t : AList fun _ : κ => ν) (k : κ) (v : ν) :
    (t.insert k v).entries.length = if k ∈ t then t.entries.length else t.entries.length + 1 := by
  have hcons : (t.insert k v).entries.length = (t.erase k).entries.length + 1 := rfl
  rw [hcons, length_erase]
  split
  next hk =>
    have hpos : 0 < t.entries.length := by
      rw [List.length_pos_iff]
      intro hnil
      rw [AList.mem_keys, AList.keys, hnil] at hk
      cases hk
    omega
  next => rfl

omit [DecidableEq κ] in
theorem retain_eq_self {keep : κ → Bool} {t : AList fun _ : κ => ν}
    (h : ∀ k ∈ t, keep k = true) : retain keep t = t := by
  apply AList.ext
  rw [retain, List.filter_eq_self]
  intro e he
  exact h e.1 (List.mem_keys_of_mem he)

section Assoc

variable {α β : Type} [BEq α] [LawfulBEq α] [DecidableEq α]

theorem lookup_filter_ne (l : List (α × β)) (k k' : α) :
    (l.filter (·.1 != k)).lookup k' = if k' = k then none else l.lookup k' := by
  induction l with
  | nil => simp
  | cons entry l ih =>
    by_cases hentry : entry.1 = k
    · rw [List.filter_cons_of_neg (by simpa using hentry), ih]
      split
      next => rfl
      next hne => rw [List.lookup_cons, beq_eq_false_iff_ne.mpr fun h => hne (h.trans hentry)]
    · rw [List.filter_cons_of_pos (by simpa using hentry), List.lookup_cons, List.lookup_cons, ih]
      split <;> rename_i heq
      · rw [if_neg fun h => hentry ((eq_of_beq heq).symm.trans h)]
      · rfl

theorem lookup_cons_filter (l : List (α × β)) (k k' : α) (v : β) :
    ((k, v) :: l.filter (·.1 != k)).lookup k' = if k' = k then some v else l.lookup k' := by
  rw [List.lookup_cons, lookup_filter_ne]
  split <;> rename_i heq
  · rw [if_pos (eq_of_beq heq)]
  · rw [if_neg (by simpa using heq), if_neg (by simpa using heq)]

theorem lookup_edit (l : List (α × β)) (k k' : α) (f : β → β) :
    (l.map fun entry => if entry.1 = k then (k, f entry.2) else entry).lookup k' =
      if k' = k then (l.lookup k').map f else l.lookup k' := by
  induction l with
  | nil => simp
  | cons entry l ih =>
    obtain ⟨first, value⟩ := entry
    rw [List.map_cons, List.lookup_cons, List.lookup_cons, ih]
    by_cases hfirst : k' = first
    · subst hfirst
      by_cases hkey : k' = k <;> simp [hkey]
    · have hne : (k' == first) = false := beq_eq_false_iff_ne.mpr hfirst
      by_cases hkey : first = k
      · subst hkey
        simp [hne, hfirst]
      · simp [hne, hkey]

theorem lookup_rekey (l : List (α × β)) {k k' other : α} (hk : other ≠ k) (hk' : other ≠ k') :
    (l.map fun entry => if entry.1 = k then (k', entry.2) else entry).lookup other =
      l.lookup other := by
  induction l with
  | nil => simp
  | cons entry l ih =>
    rw [List.map_cons, List.lookup_cons, List.lookup_cons, ih]
    by_cases hentry : entry.1 = k
    · simp [hentry, beq_eq_false_iff_ne.mpr hk, beq_eq_false_iff_ne.mpr hk']
    · rw [if_neg hentry]

end Assoc

variable {α : Type}

theorem mem_set_of_ne {l : List α} {i : Nat} (hi : l[i]? = some x) (ha : a ∈ l) (hne : a ≠ x)
    (y : α) : a ∈ l.set i y := by
  obtain ⟨k, hk⟩ := List.mem_iff_getElem?.mp ha
  refine List.mem_iff_getElem?.mpr ⟨k, ?_⟩
  rw [List.getElem?_set_ne ?_, hk]
  rintro rfl
  exact hne (Option.some.inj (hk.symm.trans hi))

theorem mem_set_self {l : List α} {i : Nat} (hi : l[i]? = some x) (y : α) : y ∈ l.set i y := by
  obtain ⟨hlt, -⟩ := List.getElem?_eq_some_iff.mp hi
  exact List.mem_set hlt y

theorem countP_modify (p : α → Bool) (f : α → α) {l : List α} {i : Nat} (h : l[i]? = some a) :
    (l.modify i f).countP p + (p a).toNat = l.countP p + (p (f a)).toNat := by
  induction l generalizing i with
  | nil => simp at h
  | cons b l ih =>
    cases i with
    | zero =>
      simp only [List.getElem?_cons_zero, Option.some.injEq] at h
      subst h
      rw [List.modify_zero_cons, List.countP_cons, List.countP_cons]
      cases p b <;> cases p (f b) <;> rfl
    | succ i =>
      have hrest := ih (List.getElem?_cons_succ ▸ h)
      simp only [List.modify_succ_cons, List.countP_cons]
      omega

theorem countP_modify_of_eq (p : α → Bool) (f : α → α) (l : List α) (i : Nat)
    (h : ∀ a, p (f a) = p a) : (l.modify i f).countP p = l.countP p := by
  cases hi : l[i]? with
  | none => rw [List.modify_eq_self (List.getElem?_eq_none_iff.mp hi)]
  | some a =>
    have hcount := countP_modify p f hi
    rw [h] at hcount
    omega

theorem countP_concat_toNat (p : α → Bool) (l : List α) (a : α) :
    (l ++ [a]).countP p = l.countP p + (p a).toNat := by
  rw [List.countP_append, List.countP_singleton]
  cases p a <;> rfl

/-- A count is a sum of ones. -/
theorem countP_eq_sum (p : α → Bool) (l : List α) :
    l.countP p = (l.map fun a => if p a then 1 else 0).sum := by
  induction l with
  | nil => rfl
  | cons a l ih => rw [List.countP_cons, ih, List.map_cons, List.sum_cons, Nat.add_comm]

/-- Pairs are counted by either side. -/
theorem sum_countP_comm {β : Type} (p : α → β → Bool) (l : List α) (l' : List β) :
    (l.map fun a => l'.countP (p a)).sum = (l'.map fun b => l.countP (p · b)).sum := by
  induction l with
  | nil => simp
  | cons a l ih =>
    simp only [List.map_cons, List.sum_cons, ih, List.countP_cons]
    rw [List.sum_map_add, ← countP_eq_sum, Nat.add_comm]

/-- A sum is not above another one term by term unless the terms agree. -/
theorem sum_map_eq_iff {f g : α → Nat} {l : List α} (h : ∀ a ∈ l, g a ≤ f a) :
    (l.map f).sum = (l.map g).sum ↔ ∀ a ∈ l, f a = g a := by
  induction l with
  | nil => simp
  | cons a l ih =>
    obtain ⟨ha, hl⟩ := List.forall_mem_cons.mp h
    have hle : (l.map g).sum ≤ (l.map f).sum := List.sum_le_sum hl
    simp only [List.map_cons, List.sum_cons, List.forall_mem_cons, ← ih hl]
    omega

theorem countP_erase_toNat [BEq α] [LawfulBEq α] (p : α → Bool) {l : List α} (h : a ∈ l) :
    (l.erase a).countP p + (p a).toNat = l.countP p := by
  rw [(List.perm_cons_erase h).countP_eq p, List.countP_cons]
  cases p a <;> rfl

/-- `Iterator::max_by`: of several greatest elements the last one is kept. -/
def maxBy (le : α → α → Bool) : List α → Option α
  | [] => none
  | a :: l => some (l.foldl (fun best b => if le best b then b else best) a)

section MaxBy

variable {le : α → α → Bool}

theorem maxBy_isSome {l : List α} (h : l ≠ []) : ∃ m, maxBy le l = some m := by
  cases l with
  | nil => exact absurd rfl h
  | cons a l => exact ⟨_, rfl⟩

variable (htotal : ∀ a b, le a b ∨ le b a) (htrans : ∀ a b c, le a b → le b c → le a c)
include htotal htrans

theorem foldl_max_spec (l : List α) (a : α) :
    let m := l.foldl (fun best b => if le best b then b else best) a
    m ∈ a :: l ∧ ∀ b ∈ a :: l, le b m := by
  have hrefl (a : α) : le a a := (htotal a a).elim id id
  induction l generalizing a with
  | nil => simpa using hrefl a
  | cons b l ih =>
    obtain ⟨hmem, hmax⟩ := ih (if le a b then b else a)
    rw [List.foldl_cons]
    refine ⟨?_, ?_⟩
    · rcases List.mem_cons.mp hmem with h | h
      · rw [h]
        split <;> simp
      · exact List.mem_cons_of_mem _ (List.mem_cons_of_mem _ h)
    · intro c hc
      have hbest := hmax _ (List.mem_cons_self ..)
      rcases List.mem_cons.mp hc with rfl | hc
      · refine htrans _ _ _ ?_ hbest
        split
        · assumption
        · exact hrefl _
      · rcases List.mem_cons.mp hc with rfl | hc
        · refine htrans _ _ _ ?_ hbest
          split
          · exact hrefl _
          · next h => exact (htotal _ _).resolve_left h
        · exact hmax c (List.mem_cons_of_mem _ hc)

theorem maxBy_spec {l : List α} (h : maxBy le l = some m) : m ∈ l ∧ ∀ b ∈ l, le b m := by
  cases l with
  | nil => cases h
  | cons a l =>
    obtain rfl := Option.some.inj h
    exact foldl_max_spec htotal htrans l a

/-- What comes before the greatest element may be as great, what comes after it is not. -/
theorem foldl_max_split (l : List α) (a : α) :
    let m := l.foldl (fun best b => if le best b then b else best) a
    ∃ before after, a :: l = before ++ m :: after ∧ (∀ b ∈ before, le b m) ∧
      ∀ b ∈ after, ¬le m b := by
  induction l generalizing a with
  | nil => exact ⟨[], [], rfl, by simp, by simp⟩
  | cons b l ih =>
    rw [List.foldl_cons]
    by_cases hle : le a b = true
    · rw [if_pos hle]
      obtain ⟨before, after, hsplit, hbefore, hafter⟩ := ih b
      have hbest := (foldl_max_spec htotal htrans l b).2 b (List.mem_cons_self ..)
      refine ⟨a :: before, after, by rw [hsplit, List.cons_append], ?_, hafter⟩
      exact List.forall_mem_cons.mpr ⟨htrans _ _ _ hle hbest, hbefore⟩
    · rw [if_neg hle]
      obtain ⟨before, after, hsplit, hbefore, hafter⟩ := ih a
      cases before with
      | nil =>
        obtain ⟨hm, rfl⟩ := List.cons.inj hsplit
        refine ⟨[], b :: l, by rw [List.nil_append, ← hm], by simp, ?_⟩
        exact List.forall_mem_cons.mpr ⟨hm ▸ hle, hafter⟩
      | cons c before =>
        obtain ⟨rfl, hrest⟩ := List.cons.inj hsplit
        obtain ⟨ham, hbefore⟩ := List.forall_mem_cons.mp hbefore
        have hba := (htotal a b).resolve_left hle
        refine ⟨a :: b :: before, after, congrArg (a :: b :: ·) hrest, ?_, hafter⟩
        simp only [List.forall_mem_cons]
        exact ⟨ham, htrans _ _ _ hba ham, hbefore⟩

theorem maxBy_split {l : List α} (h : maxBy le l = some m) :
    ∃ before after, l = before ++ m :: after ∧ (∀ b ∈ before, le b m) ∧
      ∀ b ∈ after, ¬le m b := by
  cases l with
  | nil => cases h
  | cons a l =>
    obtain rfl := Option.some.inj h
    exact foldl_max_split htotal htrans l a

/-- When no two elements are equally great, the order of the list is nothing to
the greatest of them. -/
theorem maxBy_perm {l l' : List α} (hperm : l.Perm l')
    (hanti : ∀ a ∈ l, ∀ b ∈ l, le a b → le b a → a = b) : maxBy le l = maxBy le l' := by
  cases h : maxBy le l with
  | none =>
    cases l with
    | nil => rw [List.nil_perm.mp hperm]; rfl
    | cons a l => cases h
  | some m =>
    obtain ⟨hmem, hmax⟩ := maxBy_spec htotal htrans h
    obtain ⟨m', h'⟩ := @maxBy_isSome _ le _ (List.ne_nil_of_mem (hperm.mem_iff.mp hmem))
    obtain ⟨hmem', hmax'⟩ := maxBy_spec htotal htrans h'
    rw [h', hanti m hmem m' (hperm.mem_iff.mpr hmem') (hmax' m (hperm.mem_iff.mp hmem))
      (hmax m' (hperm.mem_iff.mpr hmem'))]

/-- A greatest element that comes last is the one that is kept. -/
theorem maxBy_concat {l : List α} (h : ∀ b ∈ l, le b m) : maxBy le (l ++ [m]) = some m := by
  cases l with
  | nil => rfl
  | cons a l =>
    have hbest := (foldl_max_spec htotal htrans l a).1
    simp only [List.cons_append, maxBy, List.foldl_append, List.foldl_cons, List.foldl_nil]
    rw [if_pos (h _ hbest)]

end MaxBy

end Table
