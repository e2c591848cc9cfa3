import Mathlib.Order.Defs.Unbundled

/-!
# Procedures that change a state and can fail

A procedure runs on a state and ends in a value or an error, with the state it
leaves behind either way. `attempt` is a call whose error the caller handles
itself, `each` a loop over a list, and `Triple` the rule format: what holds of
the value and the state after a run that succeeds, and of the error and the
state after one that fails. `Along` is the format for what a run never undoes:
a preorder on the states.
-/

def Procedure (σ ε α : Type) : Type := σ → Except ε α × σ

namespace Procedure

variable {σ τ ε δ α β : Type}

instance : Monad (Procedure σ ε) where
  pure a := fun s => (.ok a, s)
  bind act f := fun s =>
    match act s with
    | (.ok a, s') => f a s'
    | (.error e, s') => (.error e, s')

def throw (e : ε) : Procedure σ ε α := fun s => (.error e, s)

def get : Procedure σ ε σ := fun s => (.ok s, s)

def modify (f : σ → σ) : Procedure σ ε Unit := fun s => (.ok (), f s)

/-- The caller looks at the outcome of the call itself. -/
def attempt (act : Procedure σ ε α) : Procedure σ δ (Except ε α) := fun s =>
  match act s with
  | (r, s') => (.ok r, s')

def mapError (f : ε → δ) (act : Procedure σ ε α) : Procedure σ δ α := fun s =>
  match act s with
  | (r, s') => (r.mapError f, s')

/-- A procedure on a part of the state. -/
def within (get : σ → τ) (set : σ → τ → σ) (act : Procedure τ ε α) : Procedure σ ε α := fun s =>
  match act (get s) with
  | (r, t) => (r, set s t)

/-- A `for` loop that stops at the first error. -/
def each (f : α → Procedure σ ε Unit) : List α → Procedure σ ε Unit
  | [] => pure ()
  | x :: xs => do
    f x
    each f xs

/-- A `for` loop with a variable that the body changes. -/
def fold (f : β → α → Procedure σ ε β) : β → List α → Procedure σ ε β
  | b, [] => pure b
  | b, x :: xs => do
    let b ← f b x
    fold f b xs

-- ---------------------------------------------------------------------------
-- Running procedures
-- ---------------------------------------------------------------------------

@[simp] theorem run_pure (a : α) (s : σ) : (pure a : Procedure σ ε α) s = (.ok a, s) := rfl

@[simp] theorem run_throw (e : ε) (s : σ) : (throw e : Procedure σ ε α) s = (.error e, s) := rfl

@[simp] theorem run_get (s : σ) : (get : Procedure σ ε σ) s = (.ok s, s) := rfl

@[simp] theorem run_modify (f : σ → σ) (s : σ) :
    (modify f : Procedure σ ε Unit) s = (.ok (), f s) := rfl

theorem run_bind_ok {act : Procedure σ ε α} {f : α → Procedure σ ε β} (h : act s = (.ok a, s')) :
    (act >>= f) s = f a s' := by
  change (match act s with | (.ok a, s') => f a s' | (.error e, s') => (.error e, s')) = _
  rw [h]

theorem run_bind_error {act : Procedure σ ε α} {f : α → Procedure σ ε β}
    (h : act s = (.error e, s')) :
    (act >>= f) s = (.error e, s') := by
  change (match act s with | (.ok a, s') => f a s' | (.error e, s') => (.error e, s')) = _
  rw [h]

theorem bind_assoc (act : Procedure σ ε α) (f : α → Procedure σ ε β) (g : β → Procedure σ ε γ) :
    act >>= f >>= g = act >>= fun a => f a >>= g := by
  funext s
  cases hrun : act s with
  | mk r s' => cases r <;> simp only [bind, hrun]

/-- What is returned at the end does not change the state. -/
theorem state_bind_pure (act : Procedure σ ε α) (f : α → β) (s : σ) :
    ((act >>= fun a => pure (f a)) s).2 = (act s).2 := by
  cases hrun : act s with
  | mk r s' => cases r <;> simp only [bind, hrun, run_pure]

/-- A sequence that succeeds has succeeded at both of its parts. -/
theorem of_run_bind_ok {act : Procedure σ ε α} {f : α → Procedure σ ε β}
    (h : (act >>= f) s = (.ok b, s'')) : ∃ a s', act s = (.ok a, s') ∧ f a s' = (.ok b, s'') := by
  cases hrun : act s with
  | mk r s' =>
    cases r with
    | ok a => exact ⟨a, s', rfl, (run_bind_ok hrun).symm.trans h⟩
    | error e => cases (run_bind_error hrun).symm.trans h

theorem run_attempt {act : Procedure σ ε α} (h : act s = (r, s')) :
    (attempt act : Procedure σ δ _) s = (.ok r, s') := by
  simp only [attempt, h]

theorem run_mapError {act : Procedure σ ε α} {f : ε → δ} (h : act s = (r, s')) :
    mapError f act s = (r.mapError f, s') := by
  simp only [mapError, h]

theorem run_within {act : Procedure τ ε α} {get : σ → τ} {set : σ → τ → σ}
    (h : act (get s) = (r, t)) : within get set act s = (r, set s t) := by
  simp only [within, h]

-- ---------------------------------------------------------------------------
-- Triples
-- ---------------------------------------------------------------------------

/-- From `s` the procedure ends with `Q` when it succeeds and with `E` when it
fails. -/
def Triple (act : Procedure σ ε α) (s : σ) (Q : α → σ → Prop) (E : ε → σ → Prop) : Prop :=
  match act s with
  | (.ok a, s') => Q a s'
  | (.error e, s') => E e s'

namespace Triple

variable {act : Procedure σ ε α} {Q Q' : α → σ → Prop} {E E' : ε → σ → Prop}

theorem ok (h : Triple act s Q E) (hrun : act s = (.ok a, s')) : Q a s' := by
  simpa only [Triple, hrun] using h

theorem error (h : Triple act s Q E) (hrun : act s = (.error e, s')) : E e s' := by
  simpa only [Triple, hrun] using h

theorem of_run (hok : ∀ a s', act s = (.ok a, s') → Q a s')
    (herr : ∀ e s', act s = (.error e, s') → E e s') : Triple act s Q E := by
  unfold Triple
  split
  next hrun => exact hok _ _ hrun
  next hrun => exact herr _ _ hrun

theorem mono (h : Triple act s Q E) (hq : ∀ a s', Q a s' → Q' a s')
    (he : ∀ e s', E e s' → E' e s') : Triple act s Q' E' :=
  of_run (fun a s' hrun => hq a s' (h.ok hrun)) (fun e s' hrun => he e s' (h.error hrun))

theorem and (h : Triple act s Q E) (h' : Triple act s Q' E') :
    Triple act s (fun a s' => Q a s' ∧ Q' a s') (fun e s' => E e s' ∧ E' e s') :=
  of_run (fun _ _ hrun => ⟨h.ok hrun, h'.ok hrun⟩) fun _ _ hrun => ⟨h.error hrun, h'.error hrun⟩

/-- What holds however the run ends holds of the state it leaves. -/
theorem state {P : σ → Prop} (h : Triple act s (fun _ => P) (fun _ => P)) : P (act s).2 := by
  unfold Triple at h
  split at h
  next hrun => rwa [hrun]
  next hrun => rwa [hrun]

theorem pure {a : α} (h : Q a s) : Triple (Pure.pure a) s Q E := h

theorem throw {e : ε} (h : E e s) : Triple (Procedure.throw e : Procedure σ ε α) s Q E := h

theorem modify {f : σ → σ} {Q : Unit → σ → Prop} (h : Q () (f s)) :
    Triple (Procedure.modify f : Procedure σ ε Unit) s Q E := h

theorem get_bind {f : σ → Procedure σ ε α} (h : Triple (f s) s Q E) :
    Triple (Procedure.get >>= f) s Q E := h

theorem bind {f : α → Procedure σ ε β} {R : β → σ → Prop} (h : Triple act s Q E)
    (hf : ∀ a s', Q a s' → Triple (f a) s' R E) : Triple (act >>= f) s R E := by
  cases hrun : act s with
  | mk r s' =>
    cases r with
    | ok a =>
      unfold Triple
      rw [run_bind_ok hrun]
      exact hf a s' (h.ok hrun)
    | error e =>
      unfold Triple
      rw [run_bind_error hrun]
      exact h.error hrun

theorem attempt {R : Except ε α → σ → Prop} {E' : δ → σ → Prop} (h : Triple act s Q E)
    (hok : ∀ a s', Q a s' → R (.ok a) s') (herr : ∀ e s', E e s' → R (.error e) s') :
    Triple (Procedure.attempt act : Procedure σ δ _) s R E' := by
  unfold Triple
  cases hrun : act s with
  | mk r s' =>
    rw [run_attempt hrun]
    cases r with
    | ok a => exact hok a s' (h.ok hrun)
    | error e => exact herr e s' (h.error hrun)

theorem mapError {f : ε → δ} {E' : δ → σ → Prop} (h : Triple act s Q E)
    (herr : ∀ e s', E e s' → E' (f e) s') : Triple (Procedure.mapError f act) s Q E' := by
  unfold Triple
  cases hrun : act s with
  | mk r s' =>
    rw [run_mapError hrun]
    cases r with
    | ok a => exact h.ok hrun
    | error e => exact herr e s' (h.error hrun)

theorem within {act : Procedure τ ε α} {get : σ → τ} {set : σ → τ → σ} {Q : α → τ → Prop}
    {E : ε → τ → Prop} {Q' : α → σ → Prop} {E' : ε → σ → Prop} (h : Triple act (get s) Q E)
    (hok : ∀ a t, Q a t → Q' a (set s t)) (herr : ∀ e t, E e t → E' e (set s t)) :
    Triple (Procedure.within get set act) s Q' E' := by
  unfold Triple
  cases hrun : act (get s) with
  | mk r t =>
    rw [run_within hrun]
    cases r with
    | ok a => exact hok a t (h.ok hrun)
    | error e => exact herr e t (h.error hrun)

end Triple

-- ---------------------------------------------------------------------------
-- Preorders that runs follow
-- ---------------------------------------------------------------------------

/-- However a run ends, it leaves a state that `R` relates to the first one. -/
def Along (R : σ → σ → Prop) (act : Procedure σ ε α) : Prop := ∀ s, R s (act s).2

namespace Along

variable {R : σ → σ → Prop} {act : Procedure σ ε α}

theorem of_triple (h : ∀ s, Triple act s (fun _ => R s) (fun _ => R s)) : Along R act :=
  fun s => (h s).state

theorem triple (h : Along R act) (s : σ) : Triple act s (fun _ => R s) (fun _ => R s) := by
  refine .of_run ?_ ?_
  · intro a s' hrun
    simpa only [hrun] using h s
  · intro e s' hrun
    simpa only [hrun] using h s

theorem attempt (h : Along R act) : Along R (Procedure.attempt act : Procedure σ δ _) :=
  of_triple fun s => (h.triple s).attempt (fun _ _ h => h) (fun _ _ h => h)

theorem mapError {f : ε → δ} (h : Along R act) : Along R (Procedure.mapError f act) :=
  of_triple fun s => (h.triple s).mapError fun _ _ h => h

theorem modify {f : σ → σ} (h : ∀ s, R s (f s)) :
    Along R (Procedure.modify f : Procedure σ ε Unit) := h

variable [IsPreorder σ R]

theorem get : Along R (Procedure.get : Procedure σ ε σ) := fun s => refl_of R s

theorem pure (a : α) : Along R (Pure.pure a : Procedure σ ε α) := fun s => refl_of R s

theorem throw (e : ε) : Along R (Procedure.throw e : Procedure σ ε α) := fun s => refl_of R s

theorem bind {f : α → Procedure σ ε β} (h : Along R act) (hf : ∀ a, Along R (f a)) :
    Along R (act >>= f) := by
  refine of_triple fun s => .bind (h.triple s) fun a s' hs => ?_
  exact ((hf a).triple s').mono (fun _ _ h => trans_of R hs h) (fun _ _ h => trans_of R hs h)

theorem each {f : α → Procedure σ ε Unit} (hf : ∀ x, Along R (f x)) (xs : List α) :
    Along R (Procedure.each f xs) := by
  induction xs with
  | nil => exact pure ()
  | cons x xs ih => exact (hf x).bind fun _ => ih

theorem fold {f : β → α → Procedure σ ε β} (hf : ∀ b x, Along R (f b x)) (b : β) (xs : List α) :
    Along R (Procedure.fold f b xs) := by
  induction xs generalizing b with
  | nil => exact pure b
  | cons x xs ih => exact (hf b x).bind fun b' => ih b'

end Along

end Procedure
