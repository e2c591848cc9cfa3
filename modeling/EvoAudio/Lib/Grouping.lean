import Mathlib.Data.List.AList
import Mathlib.Data.List.Chain
import Mathlib.Data.List.Induction
import Mathlib.Data.List.Perm.Basic

/-!
# Grouping items in a hash map

Items are put one by one into the group of their key. A hash map is visited in
an order of its own, which a run can not rely on: `HashOrder` gives one for each
map of a run, and what is computed from the entries is compared for any two.
-/

namespace Grouping

variable {α κ ν : Type} [DecidableEq κ]

-- ---------------------------------------------------------------------------
-- Groups
-- ---------------------------------------------------------------------------

/-- `entry(k).or_insert(d)`, and what is found there is changed. -/
def update (t : AList fun _ : κ => ν) (k : κ) (d : ν) (f : ν → ν) : AList fun _ : κ => ν :=
  t.insert k (f ((t.lookup k).getD d))

def collect (key : α → κ) (d : ν) (f : ν → α → ν) (items : List α) : AList fun _ : κ => ν :=
  items.foldl (fun t a => update t (key a) d (f · a)) ∅

/-- `entry(k).or_insert_with(..)`: the first item of a group opens it. -/
def collectFrom (key : α → κ) (new : α → ν) (f : ν → α → ν) (items : List α) :
    AList fun _ : κ => ν :=
  items.foldl (fun t a => update t (key a) (new a) (f · a)) ∅

section CollectFrom

variable {key : α → κ} {new : α → ν} {f : ν → α → ν}

theorem lookup_collectFrom (items : List α) (k : κ) :
    (collectFrom key new f items).lookup k =
      (items.filter (key · = k)).head?.map fun a => (items.filter (key · = k)).foldl f (new a) := by
  induction items using List.reverseRecOn with
  | nil => rfl
  | append_singleton items a ih =>
    have hconcat : collectFrom key new f (items ++ [a]) =
        update (collectFrom key new f items) (key a) (new a) (f · a) := by simp [collectFrom]
    rw [hconcat, update]
    by_cases hkey : key a = k
    · subst hkey
      rw [AList.lookup_insert, ih, List.filter_append]
      cases items.filter (key · = key a) with
      | nil => simp
      | cons first rest => simp
    · rw [AList.lookup_insert_ne (Ne.symm hkey), ih, List.filter_append]
      simp [hkey]

theorem mem_keys_collectFrom {items : List α} {k : κ} :
    k ∈ (collectFrom key new f items).keys ↔ ∃ a ∈ items, key a = k := by
  rw [← AList.mem_keys, ← AList.lookup_isSome, lookup_collectFrom]
  simp

end CollectFrom

section Collect

variable {key : α → κ} {d : ν} {f : ν → α → ν}

theorem collect_concat (items : List α) (a : α) :
    collect key d f (items ++ [a]) = update (collect key d f items) (key a) d (f · a) := by
  simp [collect]

theorem collect_eq_collectFrom (items : List α) :
    collect key d f items = collectFrom key (fun _ => d) f items := rfl

/-- A group holds the items of its key, in the order they came. -/
theorem lookup_collect (items : List α) (k : κ) :
    (collect key d f items).lookup k =
      if items.any (key · = k) then some ((items.filter (key · = k)).foldl f d) else none := by
  rw [collect_eq_collectFrom, lookup_collectFrom]
  split
  next hany =>
    obtain ⟨a, ha, hkey⟩ := List.any_eq_true.mp hany
    obtain ⟨first, rest, hgroup⟩ : ∃ first rest, items.filter (key · = k) = first :: rest :=
      List.exists_cons_of_ne_nil (List.ne_nil_of_mem (List.mem_filter.mpr ⟨ha, hkey⟩))
    rw [hgroup]
    rfl
  next hany =>
    have hnone : items.filter (key · = k) = [] := by simpa using hany
    rw [hnone]
    rfl

theorem mem_keys_collect {items : List α} {k : κ} :
    k ∈ (collect key d f items).keys ↔ ∃ a ∈ items, key a = k := mem_keys_collectFrom

theorem lookup_collect_of_mem {items : List α} {k : κ} (h : k ∈ (collect key d f items).keys) :
    (collect key d f items).lookup k = some ((items.filter (key · = k)).foldl f d) := by
  obtain ⟨a, ha, hkey⟩ := mem_keys_collect.mp h
  rw [lookup_collect, if_pos (List.any_eq_true.mpr ⟨a, ha, by simpa using hkey⟩)]

omit [DecidableEq κ] in
theorem filter_eq_filter_filter (items : List α) (p q : α → Bool) (h : ∀ a, p a → q a) :
    (items.filter q).filter p = items.filter p := by
  rw [List.filter_filter]
  refine List.filter_congr fun a _ => ?_
  cases hp : p a with
  | false => rfl
  | true => simpa using h a hp

/-- The groups of all keys put together are the items. -/
theorem flatMap_groups_perm {keys : List κ} (hkeys : keys.Nodup) {items : List α}
    (h : ∀ a ∈ items, key a ∈ keys) :
    (keys.flatMap fun k => items.filter (key · = k)).Perm items := by
  induction keys generalizing items with
  | nil =>
    cases items with
    | nil => exact .refl _
    | cons a items => exact absurd (h a (List.mem_cons_self ..)) List.not_mem_nil
  | cons k keys ih =>
    obtain ⟨hk, hkeys⟩ := List.nodup_cons.mp hkeys
    have hrest : (keys.flatMap fun k => items.filter (key · = k)) =
        keys.flatMap fun k' => (items.filter (key · ≠ k)).filter (key · = k') := by
      refine List.flatMap_congr fun k' hk' => (filter_eq_filter_filter items _ _ ?_).symm
      intro a ha
      have hne : k' ≠ k := fun heq => hk (heq ▸ hk')
      simpa [of_decide_eq_true ha] using hne
    have hother : ∀ a ∈ items.filter (key · ≠ k), key a ∈ keys := by
      intro a ha
      obtain ⟨ha, hne⟩ := List.mem_filter.mp ha
      exact (List.mem_cons.mp (h a ha)).resolve_left (by simpa using hne)
    have hparts := List.filter_append_perm (fun a => decide (key a = k)) items
    rw [List.flatMap_cons, hrest]
    refine ((ih hkeys hother).append_left _).trans ?_
    simpa using hparts

end Collect

-- ---------------------------------------------------------------------------
-- Lists
-- ---------------------------------------------------------------------------

theorem mapM_eq_some {β : Type} {f : α → Option β} {l : List α} {l' : List β} :
    l.mapM f = some l' ↔ (∀ a ∈ l, (f a).isSome) ∧ l.filterMap f = l' := by
  induction l generalizing l' with
  | nil => simp
  | cons a l ih =>
    rw [List.mapM_cons]
    cases h : f a with
    | none => simp [h]
    | some b =>
      simp only [Option.bind_eq_bind, Option.bind_some, Option.bind_eq_some_iff, ih,
        List.forall_mem_cons, h, Option.isSome_some, true_and, List.filterMap_cons, Option.pure_def,
        Option.some.injEq]
      constructor
      · rintro ⟨rest, ⟨hall, rfl⟩, rfl⟩
        exact ⟨hall, rfl⟩
      · rintro ⟨hall, rfl⟩
        exact ⟨_, ⟨hall, rfl⟩, rfl⟩

/-- A list fails to be mapped exactly when one of its items does. -/
theorem mapM_eq_error {β ε : Type} {f : α → Except ε β} {l : List α} :
    (∃ error, l.mapM f = .error error) ↔ ∃ a ∈ l, ∃ error, f a = .error error := by
  induction l with
  | nil => simp [pure, Except.pure]
  | cons a l ih =>
    rw [List.mapM_cons, List.exists_mem_cons_iff, ← ih]
    cases h : f a with
    | error error => simp [bind, Except.bind]
    | ok b => cases l.mapM f <;> simp [bind, Except.bind, pure, Except.pure]

theorem flatMap_filterMap {β γ : Type} (f : α → Option β) (g : β → List γ) (l : List α) :
    (l.filterMap f).flatMap g = l.flatMap fun a => ((f a).map g).getD [] := by
  induction l with
  | nil => rfl
  | cons a l ih => cases h : f a <;> simp [h, ih]

/-- Neighbours of two lists that answer to each other, where a relation holds of
the neighbours of the one if and only if another does of those of the other. -/
theorem isChain_iff_of_forall₂ {β : Type} {R : α → β → Prop} {P S : α → α → Prop}
    {T : β → β → Prop} {l : List α} {l' : List β} (h : List.Forall₂ R l l') (hP : l.IsChain P)
    (hiff : ∀ a a' b b', R a b → R a' b' → P a a' → (S a a' ↔ T b b')) :
    l.IsChain S ↔ l'.IsChain T := by
  induction h with
  | nil => simp
  | cons hab hrest ih =>
    cases hrest with
    | nil => simp
    | cons hab' hrest =>
      obtain ⟨hfirst, hP⟩ := List.isChain_cons_cons.mp hP
      rw [List.isChain_cons_cons, List.isChain_cons_cons, hiff _ _ _ _ hab hab' hfirst, ih hP]

theorem eraseDups_of_nodup [BEq α] [LawfulBEq α] {l : List α} (h : l.Nodup) : l.eraseDups = l := by
  induction l with
  | nil => rfl
  | cons a l ih =>
    obtain ⟨ha, hl⟩ := List.nodup_cons.mp h
    have hkeep : l.filter (fun b => !b == a) = l := by
      rw [List.filter_eq_self]
      intro b hb
      have hne : b ≠ a := fun heq => ha (heq ▸ hb)
      simpa using hne
    rw [List.eraseDups_cons, hkeep, ih hl]

/-- The only element that passes is what a filter leaves of a list without
repetition. -/
theorem filter_eq_singleton {p : κ → Bool} {l : List κ} (hl : l.Nodup) (ha : a ∈ l)
    (hp : ∀ b ∈ l, p b = true ↔ b = a) : l.filter p = [a] := by
  have hcongr : ∀ b ∈ l, p b = (b == a) := by
    intro b hb
    rw [Bool.eq_iff_iff, beq_iff_eq]
    exact hp b hb
  rw [List.filter_congr hcongr, List.filter_beq, List.count_eq_one_of_mem hl ha]
  rfl

-- ---------------------------------------------------------------------------
-- The order a map is visited in
-- ---------------------------------------------------------------------------

/-- The order in which the keys of each map are visited. The maps of a run are
told apart by a name. -/
structure HashOrder (κ : Type) where
  visit : List κ → List κ → List κ
  perm : ∀ map keys, (visit map keys).Perm keys

namespace HashOrder

/-- The keys as they are stored. -/
def stored : HashOrder κ := ⟨fun _ keys => keys, fun _ keys => .refl keys⟩

/-- Each map in the order that is asked for, where that is an order of it. -/
def placing (arrangement : List κ → List κ) : HashOrder κ where
  visit map keys := if (arrangement map).Perm keys then arrangement map else keys
  perm map keys := by
    split
    · assumption
    · exact .refl keys

theorem visit_placing {arrangement : List κ → List κ} {map keys : List κ}
    (h : (arrangement map).Perm keys) : (placing arrangement).visit map keys = arrangement map :=
  if_pos h

def entries (order : HashOrder κ) (map : List κ) (t : AList fun _ : κ => ν) : List (κ × ν) :=
  (order.visit map t.keys).filterMap fun k => (t.lookup k).map (k, ·)

variable {t : AList fun _ : κ => ν}

theorem mem_entries {order : HashOrder κ} {map : List κ} :
    (k, v) ∈ order.entries map t ↔ t.lookup k = some v := by
  rw [entries, List.mem_filterMap]
  constructor
  · rintro ⟨k', -, hk'⟩
    obtain ⟨v', hlookup, heq⟩ := Option.map_eq_some_iff.mp hk'
    cases heq
    exact hlookup
  · intro h
    refine ⟨k, ?_, by simp [h]⟩
    rw [(order.perm map t.keys).mem_iff, ← AList.mem_keys, ← AList.lookup_isSome, h]
    rfl

theorem entries_perm (order order' : HashOrder κ) (map map' : List κ) :
    (order.entries map t).Perm (order'.entries map' t) :=
  ((order.perm map t.keys).trans (order'.perm map' t.keys).symm).filterMap _

theorem map_fst_entries (order : HashOrder κ) (map : List κ) :
    (order.entries map t).map Prod.fst = order.visit map t.keys := by
  rw [entries, List.map_filterMap]
  have hsome : ∀ k ∈ order.visit map t.keys,
      ((t.lookup k).map fun v => (k, v)).map Prod.fst = some k := by
    intro k hk
    have hmem := (order.perm map t.keys).mem_iff.mp hk
    obtain ⟨v, hv⟩ := Option.isSome_iff_exists.mp
      (AList.lookup_isSome.mpr (AList.mem_keys.mpr hmem))
    simp [hv]
  rw [List.filterMap_congr hsome, List.filterMap_some]

omit [DecidableEq κ] in
theorem nodup_visit_keys (order : HashOrder κ) (map : List κ) : (order.visit map t.keys).Nodup :=
  (order.perm map t.keys).nodup_iff.mpr t.keys_nodup

theorem entries_eq_map {g : κ → ν} (h : ∀ k ∈ t.keys, t.lookup k = some (g k))
    (order : HashOrder κ) (map : List κ) :
    order.entries map t = (order.visit map t.keys).map fun k => (k, g k) := by
  rw [entries, ← List.filterMap_eq_map]
  refine List.filterMap_congr fun k hk => ?_
  simp [h k ((order.perm map t.keys).mem_iff.mp hk)]

end HashOrder

end Grouping
