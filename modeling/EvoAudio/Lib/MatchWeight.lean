import EvoAudio.Lib.Regex

/-!
# What replacing by an expression weighs

Characters have weights, and a text weighs what its characters weigh together. A match is at
least as heavy as the literals that it has to read. Where they are heavier than what is put
in their place, replacing every match makes a text lighter, or leaves it as it was.
-/

namespace Regex

variable (w : Char → Nat)

def weight (text : List Char) : Nat := (text.map w).sum

def Atom.minWeight : Atom → Nat
  | .oneOf texts => (texts.map (weight w)).min?.getD 0
  | _ => 0

variable {w}

@[simp] theorem weight_nil : weight w [] = 0 := rfl

@[simp] theorem weight_cons : weight w (x :: text) = w x + weight w text := rfl

@[simp] theorem weight_append : weight w (text ++ rest) = weight w text + weight w rest := by
  simp [weight]

theorem exists_taken_of_manyEnds {p : Char → Bool} (h : e ∈ manyEnds p lineStart text) :
    ∃ taken, text = taken ++ e.rest := by
  induction text generalizing lineStart with
  | nil =>
    obtain rfl := List.mem_singleton.mp h
    exact ⟨[], rfl⟩
  | cons x xs ih =>
    rw [manyEnds] at h
    split at h
    · rcases List.mem_append.mp h with h | h
      · obtain ⟨taken, htaken⟩ := ih h
        exact ⟨x :: taken, congrArg _ htaken⟩
      · obtain rfl := List.mem_singleton.mp h
        exact ⟨[], rfl⟩
    · obtain rfl := List.mem_singleton.mp h
      exact ⟨[], rfl⟩

/-- What an atom reads is in front of where it ends. -/
theorem Atom.weight_ends {a : Atom} (h : e ∈ a.ends c) :
    ∃ taken, c.rest = taken ++ e.rest ∧ a.minWeight w ≤ weight w taken := by
  cases a with
  | oneOf texts =>
    obtain ⟨text, htext, hstrip⟩ := List.mem_filterMap.mp h
    obtain ⟨rest, hrest, rfl⟩ := Option.map_eq_some_iff.mp hstrip
    refine ⟨text, Text.stripPrefix_eq_some hrest, ?_⟩
    rw [Atom.minWeight]
    cases hmin : (texts.map (weight w)).min? with
    | none => exact Nat.zero_le _
    | some n => exact (List.min?_eq_some_iff.mp hmin).2 _ (List.mem_map_of_mem htext)
  | one p =>
    simp only [Atom.ends] at h
    split at h
    next x xs hrest =>
      split at h
      · obtain rfl := List.mem_singleton.mp h
        exact ⟨[x], hrest, Nat.zero_le _⟩
      · cases h
    · cases h
  | many p =>
    obtain ⟨taken, htaken⟩ := exists_taken_of_manyEnds h
    exact ⟨taken, htaken, Nat.zero_le _⟩
  | lineStart =>
    simp only [Atom.ends] at h
    split at h
    · obtain rfl := List.mem_singleton.mp h
      exact ⟨[], rfl, Nat.zero_le _⟩
    · cases h
  | lineEnd =>
    simp only [Atom.ends] at h
    split at h
    · obtain rfl := List.mem_singleton.mp h
      exact ⟨[], rfl, Nat.zero_le _⟩
    · cases h

theorem weight_first {r : List Atom} (h : first r c = some e) :
    ∃ taken, c.rest = taken ++ e.rest ∧ (r.map (Atom.minWeight w)).sum ≤ weight w taken := by
  induction r generalizing c with
  | nil =>
    cases h
    exact ⟨[], rfl, Nat.le_refl _⟩
  | cons a r ih =>
    obtain ⟨mid, hmid, hrest⟩ := List.exists_of_findSome?_eq_some h
    obtain ⟨taken, htaken, hweight⟩ := Atom.weight_ends (w := w) hmid
    obtain ⟨more, hmore, hsum⟩ := ih hrest
    refine ⟨taken ++ more, by rw [htaken, hmore, List.append_assoc], ?_⟩
    rw [List.map_cons, List.sum_cons, weight_append]
    omega

variable (w) in
/-- Unchanged, or lighter. -/
def Lighter (text text' : List Char) : Prop := text' = text ∨ weight w text' < weight w text

theorem Lighter.trans {a b c : List Char} (h : Lighter w a b) (h' : Lighter w b c) :
    Lighter w a c := by
  rcases h with rfl | h
  · exact h'
  · rcases h' with rfl | h'
    · exact .inr h
    · exact .inr (Nat.lt_trans h' h)

theorem Lighter.le {text text' : List Char} (h : Lighter w text text') :
    weight w text' ≤ weight w text := by
  rcases h with rfl | h
  · exact Nat.le_refl _
  · exact Nat.le_of_lt h

variable {r : List Atom} {replacement : List Char}

theorem lighter_replaced (h : Consumes r)
    (hheavy : weight w replacement < (r.map (Atom.minWeight w)).sum) (c : Cursor) :
    Lighter w c.rest (replaced r replacement c) := by
  induction hn : c.rest.length using Nat.strongRecOn generalizing c with
  | ind n ih =>
    cases hfirst : first r c with
    | some e =>
      obtain ⟨taken, htaken, hweight⟩ := weight_first (w := w) hfirst
      have hrest := (ih _ (hn ▸ h _ _ hfirst) e rfl).le
      refine .inr ?_
      rw [replaced_match h hfirst, htaken, weight_append, weight_append]
      omega
    | none =>
      obtain ⟨lineStart, text⟩ := c
      cases text with
      | nil => exact .inl (replaced_nil h lineStart)
      | cons x xs =>
        rw [replaced_skip hfirst]
        rcases ih _ (by rw [← hn]; exact Nat.lt_succ_self _) ⟨x == '\n', xs⟩ rfl with hsame | hlt
        · exact .inl (congrArg _ hsame)
        · exact .inr (Nat.add_lt_add_left hlt (w x))

/-- Replacing what is heavier leaves a text as it was or makes it lighter. -/
theorem lighter_replaceAll (h : Consumes r)
    (hheavy : weight w replacement < (r.map (Atom.minWeight w)).sum) (text : List Char) :
    Lighter w text (replaceAll r replacement text) :=
  lighter_replaced h hheavy ⟨true, text⟩

end Regex
