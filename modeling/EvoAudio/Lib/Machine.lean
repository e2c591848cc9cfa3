/-!
# Runs of a partial step function

A system is a step function `σ → α → Option σ`; `none` is an action that is
not enabled in the state. `exec` runs a list of actions from a state, and
`Meets` says that every action of the run meets a condition in the state it
is taken in. Both compute, so a concrete run can be evaluated.

The rules below turn a fact about one step into a fact about whole runs: an
invariant (`exec_invariant`), a count that moves exactly at the steps that
miss the condition (`exec_count_eq_iff`), and a rank that bounds how many
steps can still be taken (`exec_rank`).
-/

namespace Machine

variable {σ α : Type} {step : σ → α → Option σ} {ok : σ → α → Prop}

def exec (step : σ → α → Option σ) : σ → List α → Option σ
  | s, [] => some s
  | s, a :: as =>
    match step s a with
    | some s' => exec step s' as
    | none => none

/-- Every action is taken in a state where it meets `ok`. A run that gets
stuck has no further states to speak of. -/
def Meets (step : σ → α → Option σ) (ok : σ → α → Prop) : σ → List α → Prop
  | _, [] => True
  | s, a :: as => ok s a ∧
    match step s a with
    | some s' => Meets step ok s' as
    | none => True

instance decidableMeets [∀ s a, Decidable (ok s a)] :
    (s : σ) → (as : List α) → Decidable (Meets step ok s as)
  | _, [] => .isTrue trivial
  | s, a :: as =>
    match h : step s a with
    | some s' =>
      have := decidableMeets s' as
      decidable_of_iff (ok s a ∧ Meets step ok s' as) (by simp [Meets, h])
    | none => decidable_of_iff (ok s a) (by simp [Meets, h])

theorem exec_cons : exec step s (a :: as) = some s'' ↔
    ∃ s', step s a = some s' ∧ exec step s' as = some s'' := by
  cases h : step s a with
  | none => simp only [exec, h, reduceCtorEq, false_and, exists_false]
  | some t => simp only [exec, h, Option.some.injEq, exists_eq_left']

theorem meets_cons (h : step s a = some s') :
    Meets step ok s (a :: as) ↔ ok s a ∧ Meets step ok s' as := by
  simp [Meets, h]

theorem exec_append : exec step s (as ++ bs) = some s'' ↔
    ∃ s', exec step s as = some s' ∧ exec step s' bs = some s'' := by
  induction as generalizing s with
  | nil => simp [exec]
  | cons a as ih => cases h : step s a <;> simp [exec, h, ih]

/-- Every action of a run that meets the condition meets it where it is taken. -/
theorem Meets.at (hm : Meets step ok s (before ++ a :: after))
    (he : exec step s before = some t) : ok t a := by
  induction before generalizing s with
  | nil =>
    cases he
    exact hm.1
  | cons b before ih =>
    obtain ⟨s', hs', hrest⟩ := exec_cons.mp he
    exact ih ((meets_cons hs').mp hm).2 hrest

theorem meets_of_at (h : ∀ before a after t, as = before ++ a :: after →
    exec step s before = some t → ok t a) : Meets step ok s as := by
  induction as generalizing s with
  | nil => trivial
  | cons a as ih =>
    refine ⟨h [] a as s rfl rfl, ?_⟩
    cases hs : step s a with
    | none => trivial
    | some s' =>
      refine ih fun before b after t hsplit he => h (a :: before) b after t ?_ ?_
      · rw [hsplit, List.cons_append]
      · exact exec_cons.mpr ⟨s', hs, he⟩

theorem Meets.left (hm : Meets step ok s (before ++ after)) : Meets step ok s before := by
  induction before generalizing s with
  | nil => trivial
  | cons a before ih =>
    refine ⟨hm.1, ?_⟩
    cases hs : step s a with
    | none => trivial
    | some s' => exact ih ((meets_cons hs).mp hm).2

theorem Meets.imp {ok' : σ → α → Prop} (himp : ∀ s a, ok s a → ok' s a)
    (hm : Meets step ok s as) : Meets step ok' s as := by
  induction as generalizing s with
  | nil => trivial
  | cons a as ih =>
    refine ⟨himp s a hm.1, ?_⟩
    cases hs : step s a with
    | none => trivial
    | some s' => exact ih ((meets_cons hs).mp hm).2

theorem Meets.and {ok' : σ → α → Prop} (hm : Meets step ok s as) (hm' : Meets step ok' s as) :
    Meets step (fun s a => ok s a ∧ ok' s a) s as := by
  induction as generalizing s with
  | nil => trivial
  | cons a as ih =>
    refine ⟨⟨hm.1, hm'.1⟩, ?_⟩
    cases hs : step s a with
    | none => trivial
    | some s' => exact ih ((meets_cons hs).mp hm).2 ((meets_cons hs).mp hm').2

/-- Evaluating a run gives the state it ends in, with what can be computed
of that state. -/
theorem exec_of_any (step : σ → α → Option σ) (s : σ) (as : List α) (p : σ → Bool)
    (h : (exec step s as).any p = true) :
    ∃ s', exec step s as = some s' ∧ p s' = true := by
  cases he : exec step s as with
  | none => simp [he] at h
  | some s' => exact ⟨s', rfl, by simpa [he] using h⟩

/-- A property kept by every step that meets the condition holds after every
run whose steps all meet it. -/
theorem exec_invariant {I : σ → Prop}
    (hstep : ∀ {s a s'}, I s → ok s a → step s a = some s' → I s')
    (hs : I s) (hm : Meets step ok s as) (he : exec step s as = some s') : I s' := by
  induction as generalizing s with
  | nil => cases he; exact hs
  | cons a as ih =>
    obtain ⟨t, ht, hrest⟩ := exec_cons.mp he
    obtain ⟨ha, hm⟩ := (meets_cons ht).mp hm
    exact ih (hstep hs ha ht) hm hrest

/-- The unconditional form: an invariant of every step. -/
theorem exec_invariant_all {I : σ → Prop}
    (hstep : ∀ {s a s'}, I s → step s a = some s' → I s')
    (hs : I s) (he : exec step s as = some s') : I s' := by
  induction as generalizing s with
  | nil => cases he; exact hs
  | cons a as ih =>
    obtain ⟨t, ht, hrest⟩ := exec_cons.mp he
    exact ih (hstep hs ht) hrest

/-- When a step keeps the property exactly if it meets the condition, the
property holds all along a run exactly if all its steps meet it. -/
theorem exec_invariant_iff {I : σ → Prop}
    (hstep : ∀ {s a s'}, I s → step s a = some s' → (I s' ↔ ok s a))
    (hs : I s) (he : exec step s as = some s'') :
    (∀ before after s', as = before ++ after → exec step s before = some s' → I s') ↔
      Meets step ok s as := by
  induction as generalizing s with
  | nil =>
    refine ⟨fun _ => trivial, ?_⟩
    rintro - before after s' hsplit hbefore
    obtain ⟨rfl, rfl⟩ := List.append_eq_nil_iff.mp hsplit.symm
    cases hbefore
    exact hs
  | cons a as ih =>
    obtain ⟨t, ht, hrest⟩ := exec_cons.mp he
    rw [meets_cons ht, ← hstep hs ht]
    constructor
    · intro h
      have hone : I t := h [a] as t rfl (by simp [exec, ht])
      refine ⟨hone, (ih hone hrest).mp ?_⟩
      rintro before after s' rfl hbefore
      exact h (a :: before) after s' rfl (exec_cons.mpr ⟨t, ht, hbefore⟩)
    · rintro ⟨hone, hmeets⟩ before after s' hsplit hbefore
      cases before with
      | nil =>
        cases hbefore
        exact hs
      | cons b before =>
        obtain ⟨rfl, rfl⟩ := List.cons.inj hsplit
        obtain ⟨t', ht', hbefore⟩ := exec_cons.mp hbefore
        obtain rfl := Option.some.inj (ht.symm.trans ht')
        exact (ih hone hrest).mpr hmeets before after s' rfl hbefore

/-- A count that never falls, and stays put exactly at the steps that meet
the condition, is unchanged by a run exactly when all its steps meet it. -/
theorem exec_count_eq_iff {f : σ → Nat} {I : σ → Prop}
    (hinv : ∀ {s a s'}, I s → step s a = some s' → I s')
    (hmono : ∀ {s a s'}, I s → step s a = some s' → f s ≤ f s')
    (hok : ∀ {s a s'}, I s → step s a = some s' → (f s' = f s ↔ ok s a))
    (hs : I s) (he : exec step s as = some s') : f s' = f s ↔ Meets step ok s as := by
  have mono : ∀ {as s s'}, I s → exec step s as = some s' → f s ≤ f s' := by
    intro as
    induction as with
    | nil => intro s s' _ he; cases he; exact Nat.le_refl _
    | cons a as ih =>
      intro s s' hs he
      obtain ⟨t, ht, hrest⟩ := exec_cons.mp he
      exact Nat.le_trans (hmono hs ht) (ih (hinv hs ht) hrest)
  induction as generalizing s with
  | nil => cases he; simp [Meets]
  | cons a as ih =>
    obtain ⟨t, ht, hrest⟩ := exec_cons.mp he
    have h₁ := hmono hs ht
    have h₂ := mono (hinv hs ht) hrest
    have h₃ : f s' = f t ↔ Meets step ok t as := ih (hinv hs ht) hrest
    rw [meets_cons ht, ← hok hs ht, ← h₃]
    omega

/-- Steps that lower a rank can be taken only so often. -/
theorem exec_rank {rank : σ → Nat} {I : σ → Prop}
    (hstep : ∀ {s a s'}, I s → ok s a → step s a = some s' → I s' ∧ rank s' < rank s)
    (hs : I s) (hm : Meets step ok s as) (he : exec step s as = some s') :
    as.length + rank s' ≤ rank s := by
  induction as generalizing s with
  | nil =>
    cases he
    simp
  | cons a as ih =>
    obtain ⟨t, ht, hrest⟩ := exec_cons.mp he
    obtain ⟨ha, hm⟩ := (meets_cons ht).mp hm
    obtain ⟨hI, hlt⟩ := hstep hs ha ht
    have hle := ih hI hm hrest
    rw [List.length_cons]
    omega

end Machine
