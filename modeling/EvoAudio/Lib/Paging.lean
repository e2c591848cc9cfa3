import Mathlib.Data.List.Sort
import Mathlib.Data.List.Nodup
import Mathlib.Data.Prod.Lex

/-!
# Reading a listing page by page

Every page is cut out of a listing of its own, made anew for the request. The
listings are arrangements of the same items, and the question is when the pages
put together are still all the items, each once, whatever arrangement each
request happens to get.

`collected_perm_iff` is the answer for any family of arrangements: any two of
them have to agree on what stands before each page boundary.
`take_perm_iff` says what that means for items sorted by a key that is not
fixed: before and after the boundary no two items can be given keys out of
order.
-/

namespace Paging

variable {α κ : Type}

def page (size : Nat) (listing : List α) (i : Nat) : List α :=
  (listing.drop (i * size)).take size

/-- The first pages one after the other, each from the listing of its request. -/
def collected (size : Nat) (listing : Nat → List α) : Nat → List α
  | 0 => []
  | i + 1 => collected size listing i ++ page size (listing i) i

theorem take_append_page (size : Nat) (listing : List α) (i : Nat) :
    listing.take (i * size) ++ page size listing i = listing.take ((i + 1) * size) := by
  rw [page, Nat.succ_mul, List.take_add]

theorem collected_map {β : Type} (f : α → β) (size : Nat) (listing : Nat → List α) (n : Nat) :
    collected size (fun i => (listing i).map f) n = (collected size listing n).map f := by
  induction n with
  | zero => rfl
  | succ n ih => simp [collected, page, ih, List.map_take, List.map_drop]

/-- The pages of so many items, at least one. -/
def pageCount (size n : Nat) : Nat := (n - 1) / size + 1

theorem le_pageCount_mul (hsize : 0 < size) (n : Nat) : n ≤ pageCount size n * size := by
  have h := Nat.lt_mul_div_succ (n - 1) hsize
  rw [pageCount, Nat.mul_comm]
  omega

theorem mul_lt_of_lt_pageCount (hsize : 0 < size) (h : i + 1 < pageCount size n) :
    (i + 1) * size < n := by
  have hle : (i + 1) * size ≤ n - 1 := (Nat.le_div_iff_mul_le hsize).mp (Nat.lt_succ_iff.mp h)
  have hpos : 0 < (i + 1) * size := Nat.mul_pos (Nat.succ_pos i) hsize
  omega

-- ---------------------------------------------------------------------------
-- Any family of listings
-- ---------------------------------------------------------------------------

section Family

variable {admissible : List α → Prop} {items : List α} {size : Nat}

theorem collected_perm_take
    (hagree : ∀ i l l', admissible l → admissible l' → (l.take (i * size)).Perm (l'.take (i * size)))
    {listing : Nat → List α} (hlisting : ∀ i, admissible (listing i)) (hl : admissible l) (i : Nat) :
    (collected size listing i).Perm (l.take (i * size)) := by
  induction i generalizing l with
  | zero => simp [collected]
  | succ i ih =>
    rw [collected]
    refine ((ih (hlisting i)).append_right _).trans ?_
    rw [take_append_page]
    exact hagree (i + 1) _ _ (hlisting i) hl

/-- One listing up to a boundary and another one from there on. -/
theorem collected_two (l l' : List α) (i j : Nat) :
    collected size (fun k => if k < i then l else l') (i + j) =
      l.take (i * size) ++ (l'.drop (i * size)).take (j * size) := by
  induction j with
  | zero =>
    induction i with
    | zero => simp [collected]
    | succ i ih =>
      have hcongr : ∀ k, k ≤ i → collected size (fun k => if k < i + 1 then l else l') k =
          collected size (fun k => if k < i then l else l') k := by
        intro k hk
        induction k with
        | zero => rfl
        | succ k ihk =>
          rw [collected, collected, ihk (Nat.le_of_succ_le hk), if_pos (by omega), if_pos (by omega)]
      simp only [Nat.add_zero, Nat.zero_mul, List.take_zero, List.append_nil] at ih ⊢
      rw [collected, hcongr i (Nat.le_refl i), ih, if_pos (Nat.lt_succ_self i), take_append_page]
  | succ j ih =>
    have hpage : page size l' (i + j) = ((l'.drop (i * size)).drop (j * size)).take size := by
      rw [page, List.drop_drop, Nat.add_mul]
    rw [← Nat.add_assoc, collected, ih, if_neg (by omega), hpage, List.append_assoc, Nat.succ_mul,
      List.take_add]

/-- Whatever listing each request gets, the pages are all the items exactly
when any two listings agree on what stands before each boundary. -/
theorem collected_perm_iff (hperm : ∀ l, admissible l → l.Perm items) (hl : ∃ l, admissible l)
    (hpages : items.length ≤ pages * size) :
    (∀ listing : Nat → List α, (∀ i, admissible (listing i)) →
      (collected size listing pages).Perm items) ↔
      ∀ i l l', admissible l → admissible l' → (l.take (i * size)).Perm (l'.take (i * size)) := by
  have hall : ∀ {l i}, admissible l → pages ≤ i → l.take (i * size) = l := by
    intro l i hl hi
    refine List.take_of_length_le ?_
    rw [(hperm l hl).length_eq]
    exact Nat.le_trans hpages (Nat.mul_le_mul_right size hi)
  constructor
  · intro h i l l' hl hl'
    rcases Nat.le_total pages i with hi | hi
    · rw [hall hl hi, hall hl' hi]
      exact (hperm l hl).trans (hperm l' hl').symm
    · obtain ⟨j, rfl⟩ := Nat.exists_eq_add_of_le hi
      have hmixed := h (fun k => if k < i then l else l') fun k => by split <;> assumption
      have hrest : (l'.drop (i * size)).take (j * size) = l'.drop (i * size) := by
        refine List.take_of_length_le ?_
        rw [List.length_drop, (hperm l' hl').length_eq]
        rw [Nat.add_mul] at hpages
        omega
      rw [collected_two, hrest] at hmixed
      have hwhole := hmixed.trans (hperm l' hl').symm
      nth_rewrite 2 [← List.take_append_drop (i * size) l'] at hwhole
      exact (List.perm_append_right_iff _).mp hwhole
  · intro h listing hlisting
    obtain ⟨l, hl⟩ := hl
    have hcollected := collected_perm_take h hlisting hl pages
    rw [hall hl (Nat.le_refl pages)] at hcollected
    exact hcollected.trans (hperm l hl)

end Family

-- ---------------------------------------------------------------------------
-- Items sorted by a key that is chosen
-- ---------------------------------------------------------------------------

section Sorted

variable [LinearOrder κ] {candidates : α → κ → Prop} {items : List α}

/-- The items sorted by one of the keys each of them can be given. -/
def Arranges (candidates : α → κ → Prop) (items listing : List α) : Prop :=
  ∃ key : α → κ, (∀ a ∈ items, candidates a (key a)) ∧ listing.Perm items ∧
    listing.Pairwise fun a b => key a ≤ key b

/-- The items can be cut in two, so many before the cut, such that no item
before it can have a key that is not below every key of an item behind it. -/
def Separated (candidates : α → κ → Prop) (items : List α) (boundary : Nat) : Prop :=
  ∃ first rest, items.Perm (first ++ rest) ∧ first.length = min boundary items.length ∧
    ∀ a ∈ first, ∀ b ∈ rest, ∀ k k', candidates a k → candidates b k' → k < k'

theorem filter_append_filter_not {key : α → κ} {p : α → Bool} {l : List α}
    (hsorted : l.Pairwise fun a b => key a ≤ key b)
    (hp : ∀ a ∈ l, ∀ b ∈ l, p a → ¬p b → key a < key b) :
    l.filter p ++ l.filter (!p ·) = l := by
  induction l with
  | nil => rfl
  | cons a l ih =>
    rw [List.pairwise_cons] at hsorted
    have hrest := ih hsorted.2 fun b hb c hc => hp b (by simp [hb]) c (by simp [hc])
    cases ha : p a with
    | true => simpa [ha] using hrest
    | false =>
      have hnone : l.filter p = [] := by
        rw [List.filter_eq_nil_iff]
        intro b hb hpb
        exact absurd (hp b (by simp [hb]) a (by simp) hpb (by simp [ha]))
          (not_lt_of_ge (hsorted.1 b hb))
      rw [hnone, List.nil_append] at hrest
      simp [ha, hnone, hrest]

theorem Separated.take_perm (hnodup : items.Nodup) {first rest : List α}
    (hitems : items.Perm (first ++ rest)) (hlength : first.length = min boundary items.length)
    (hkeys : ∀ a ∈ first, ∀ b ∈ rest, ∀ k k', candidates a k → candidates b k' → k < k')
    (hl : Arranges candidates items l) : (l.take boundary).Perm first := by
  classical
  obtain ⟨key, hkey, hperm, hsorted⟩ := hl
  have hparts : l.Perm (first ++ rest) := hperm.trans hitems
  have hdisjoint := List.nodup_append.mp (hitems.nodup_iff.mp hnodup)
  have hfirst : (l.filter (· ∈ first)).Perm first := by
    have h := hparts.filter (· ∈ first)
    have hself : first.filter (· ∈ first) = first := List.filter_eq_self.mpr (by simp)
    have hnone : rest.filter (· ∈ first) = [] := by
      rw [List.filter_eq_nil_iff]
      intro a hrest hmem
      exact hdisjoint.2.2 a (by simpa using hmem) a hrest rfl
    rwa [List.filter_append, hself, hnone, List.append_nil] at h
  have hmem : ∀ a ∈ l, a ∈ items := fun a ha => hperm.mem_iff.mp ha
  have hcut : l.filter (· ∈ first) ++ l.filter (fun a => !decide (a ∈ first)) = l := by
    refine filter_append_filter_not hsorted ?_
    intro a ha b hb hin hout
    have hrest : b ∈ rest := by
      rcases List.mem_append.mp (hparts.mem_iff.mp hb) with h | h
      · exact absurd (by simpa using h) hout
      · exact h
    exact hkeys a (by simpa using hin) b hrest _ _ (hkey a (hmem a ha)) (hkey b (hmem b hb))
  have hcount : (l.filter (· ∈ first)).length = min boundary l.length := by
    rw [hfirst.length_eq, hlength, hperm.length_eq]
  have htake : l.take boundary = l.filter (· ∈ first) := by
    conv_lhs => rw [← List.take_length (l := l), List.take_take, ← hcount]
    conv_lhs => arg 2; rw [← hcut]
    exact List.take_left' rfl
  exact htake ▸ hfirst

theorem pairwise_insertionSort_key (key : α → κ) (l : List α) :
    (l.insertionSort fun a b => key a ≤ key b).Pairwise fun a b => key a ≤ key b := by
  have : Std.Total fun a b => key a ≤ key b := ⟨fun a b => le_total (key a) (key b)⟩
  have : IsTrans α fun a b => key a ≤ key b := ⟨fun a b c => le_trans (a := key a)⟩
  exact List.pairwise_insertionSort _ l

/-- Sorting by a key, and among equal keys by a rank, arranges the items. -/
theorem exists_arranges {key : α → κ} (hkey : ∀ a ∈ items, candidates a (key a)) (rank : α → Nat) :
    ∃ listing, Arranges candidates items listing ∧
      listing.Pairwise fun a b => key a < key b ∨ key a = key b ∧ rank a ≤ rank b := by
  let le (a b : α) : Prop := toLex (key a, rank a) ≤ toLex (key b, rank b)
  have hle : ∀ a b, le a b ↔ key a < key b ∨ key a = key b ∧ rank a ≤ rank b :=
    fun a b => Prod.Lex.toLex_le_toLex
  have : DecidableRel le := fun a b => inferInstanceAs (Decidable (toLex _ ≤ toLex _))
  have : Std.Total le := ⟨fun a b => le_total (toLex (key a, rank a)) (toLex (key b, rank b))⟩
  have : IsTrans α le := ⟨fun a b c => le_trans (a := toLex (key a, rank a))⟩
  have hsorted := List.pairwise_insertionSort le items
  refine ⟨items.insertionSort le, ⟨key, hkey, List.perm_insertionSort le items, ?_⟩, ?_⟩
  · refine hsorted.imp fun {a b} h => ?_
    rcases (hle a b).mp h with h | h
    · exact le_of_lt h
    · exact le_of_eq h.1
  · exact hsorted.imp fun {a b} h => (hle a b).mp h

variable [Nonempty κ]

theorem separated_of_take_perm (hnodup : items.Nodup) (hsome : ∀ a ∈ items, ∃ k, candidates a k)
    (h : ∀ l l', Arranges candidates items l → Arranges candidates items l' →
      (l.take boundary).Perm (l'.take boundary)) : Separated candidates items boundary := by
  classical
  choose! key hkey using hsome
  obtain ⟨l, hl, -⟩ := exists_arranges hkey fun _ => 0
  obtain ⟨-, -, hperm, -⟩ := id hl
  refine ⟨l.take boundary, l.drop boundary, ?_, ?_, ?_⟩
  · rw [List.take_append_drop]
    exact hperm.symm
  · rw [List.length_take, hperm.length_eq]
  · intro a ha b hb k k' hk hk'
    by_contra hlt
    have hab : a ≠ b := by
      rintro rfl
      have hdisjoint := List.disjoint_take_drop (hperm.nodup_iff.mpr hnodup) (Nat.le_refl boundary)
      exact hdisjoint ha hb
    -- The two keys put `b` before `a`, when ties are broken in its favour.
    let key' : α → κ := Function.update (Function.update key a k) b k'
    have hkey' : ∀ c ∈ items, candidates c (key' c) := by
      intro c hc
      by_cases hcb : c = b
      · simpa [key', hcb] using hk'
      · by_cases hca : c = a
        · simpa [key', hcb, hca, hab] using hk
        · simpa [key', hcb, hca] using hkey c hc
    obtain ⟨l', hl', hranked⟩ := exists_arranges hkey' fun c => if c = b then 0 else 1
    obtain ⟨-, -, hperm', -⟩ := id hl'
    have hfirst : a ∈ l'.take boundary := (h l l' hl hl').mem_iff.mp ha
    have hrest : b ∈ l'.drop boundary := by
      have hmem : b ∈ l' := hperm'.mem_iff.mpr (hperm.mem_iff.mp (List.mem_of_mem_drop hb))
      rw [← List.take_append_drop boundary l'] at hmem
      rcases List.mem_append.mp hmem with hmem | hmem
      · exact absurd hb (List.disjoint_take_drop (hperm.nodup_iff.mpr hnodup) (Nat.le_refl boundary)
          ((h l l' hl hl').mem_iff.mpr hmem))
      · exact hmem
    rw [← List.take_append_drop boundary l'] at hranked
    have horder := (List.pairwise_append.mp hranked).2.2 a hfirst b hrest
    have ha' : key' a = k := by simp [key', hab]
    have hb' : key' b = k' := by simp [key']
    rw [ha', hb', if_neg hab, if_pos rfl] at horder
    rcases horder with horder | horder
    · exact hlt horder
    · exact absurd horder.2 (by decide)

theorem take_perm_iff (hnodup : items.Nodup) (hsome : ∀ a ∈ items, ∃ k, candidates a k) :
    (∀ l l', Arranges candidates items l → Arranges candidates items l' →
      (l.take boundary).Perm (l'.take boundary)) ↔ Separated candidates items boundary := by
  refine ⟨separated_of_take_perm hnodup hsome, ?_⟩
  rintro ⟨first, rest, hitems, hlength, hkeys⟩ l l' hl hl'
  exact (Separated.take_perm hnodup hitems hlength hkeys hl).trans
    (Separated.take_perm hnodup hitems hlength hkeys hl').symm

/-- The pages of sorted listings are all the items, each once, whatever keys
and ties each request gets, exactly when every boundary separates the keys. -/
theorem collected_arranged_iff (hnodup : items.Nodup) (hsome : ∀ a ∈ items, ∃ k, candidates a k)
    (hpages : items.length ≤ pages * size) :
    (∀ listing : Nat → List α, (∀ i, Arranges candidates items (listing i)) →
      (collected size listing pages).Perm items) ↔
      ∀ i, Separated candidates items (i * size) := by
  have hlisting : ∃ l, Arranges candidates items l := by
    choose! key hkey using hsome
    obtain ⟨l, hl, -⟩ := exists_arranges hkey fun _ => 0
    exact ⟨l, hl⟩
  rw [collected_perm_iff (fun l ⟨_, _, hperm, _⟩ => hperm) hlisting hpages]
  exact forall_congr' fun i => take_perm_iff hnodup hsome

/-- The same for listings that are made from something that is chosen for each
request, when these are all the arrangements there are. -/
theorem collected_made_iff {ω : Type} {made : ω → List α}
    (hmade : ∀ l, Arranges candidates items l ↔ ∃ w, made w = l) (hnodup : items.Nodup)
    (hsome : ∀ a ∈ items, ∃ k, candidates a k) (hpages : items.length ≤ pages * size) :
    (∀ choice : Nat → ω, (collected size (fun i => made (choice i)) pages).Perm items) ↔
      ∀ i, Separated candidates items (i * size) := by
  rw [← collected_arranged_iff hnodup hsome hpages]
  constructor
  · intro h listing hlisting
    choose choice hchoice using fun i => (hmade (listing i)).mp (hlisting i)
    simpa only [hchoice] using h choice
  · intro h choice
    exact h _ fun i => (hmade _).mpr ⟨choice i, rfl⟩

end Sorted

end Paging
