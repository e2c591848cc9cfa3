/-!
# Pools of tasks over a shared state

The tasks of a pool take turns: a turn reads and writes the shared state and
moves the one task on, and the others keep still. `Each` is an invariant with
one part for every task, by its number. A turn keeps it when the task that moves
keeps its own part and leaves the parts of the others standing (`Each.turn`, or
`Each.set` for the pool it leaves); a new task brings its own part
(`Each.spawn`).
-/

structure Pool (σ τ : Type) where
  shared : σ
  tasks : List τ

namespace Pool

variable {σ τ : Type} {next : σ → τ → Option (σ × τ)} {pool pool' : Pool σ τ} {i : Nat}

/-- One step of the task at `i`, by what it does to the shared state. -/
def turn (next : σ → τ → Option (σ × τ)) (pool : Pool σ τ) (i : Nat) : Option (Pool σ τ) :=
  match pool.tasks[i]? with
  | some task => (next pool.shared task).map fun after => ⟨after.1, pool.tasks.set i after.2⟩
  | none => none

def spawn (pool : Pool σ τ) (task : τ) : Pool σ τ :=
  { pool with tasks := pool.tasks ++ [task] }

theorem turn_eq_some : turn next pool i = some pool' ↔
    ∃ task shared' task', pool.tasks[i]? = some task ∧
      next pool.shared task = some (shared', task') ∧
        pool' = ⟨shared', pool.tasks.set i task'⟩ := by
  unfold turn
  cases pool.tasks[i]? with
  | none => simp
  | some task =>
    constructor
    · intro h
      obtain ⟨⟨shared', task'⟩, hnext, rfl⟩ := Option.map_eq_some_iff.mp h
      exact ⟨task, shared', task', rfl, hnext, rfl⟩
    · rintro ⟨_, shared', task', htask, hnext, rfl⟩
      cases htask
      exact Option.map_eq_some_iff.mpr ⟨_, hnext, rfl⟩

section Each

variable {J : σ → Nat → τ → Prop}

/-- The part of an invariant that each task has, by its number. -/
def Each (J : σ → Nat → τ → Prop) (pool : Pool σ τ) : Prop :=
  ∀ i task, pool.tasks[i]? = some task → J pool.shared i task

/-- The task at `i` has moved and has its part, and the others keep theirs. -/
theorem Each.set (h : pool.Each J) (hi : i < pool.tasks.length) (hself : J shared' i task')
    (hothers : ∀ j other, j ≠ i → pool.tasks[j]? = some other → J pool.shared j other →
      J shared' j other) :
    Each J ⟨shared', pool.tasks.set i task'⟩ := by
  intro j other hother
  by_cases hne : j = i
  · subst hne
    simp only [List.getElem?_set_self hi, Option.some.injEq] at hother
    exact hother ▸ hself
  · simp only [List.getElem?_set_ne (Ne.symm hne)] at hother
    exact hothers j other hne hother (h j other hother)

theorem Each.turn (h : pool.Each J) (ht : turn next pool i = some pool')
    (hself : ∀ {task shared' task'}, J pool.shared i task →
      next pool.shared task = some (shared', task') → J shared' i task')
    (hothers : ∀ {task shared' task'}, J pool.shared i task →
      next pool.shared task = some (shared', task') →
        ∀ j other, j ≠ i → J pool.shared j other → J shared' j other) : pool'.Each J := by
  obtain ⟨task, shared', task', htask, hnext, rfl⟩ := turn_eq_some.mp ht
  obtain ⟨hi, -⟩ := List.getElem?_eq_some_iff.mp htask
  exact h.set hi (hself (h i task htask) hnext) fun j other hne _ =>
    hothers (h i task htask) hnext j other hne

theorem Each.spawn (h : pool.Each J) (htask : J pool.shared pool.tasks.length task) :
    (pool.spawn task).Each J := by
  intro i other hother
  simp only [Pool.spawn, List.getElem?_append] at hother
  split at hother
  · exact h i other hother
  · rename_i hge
    obtain ⟨hi, rfl⟩ : i - pool.tasks.length = 0 ∧ task = other := by
      cases hi : i - pool.tasks.length with
      | zero => simpa [hi] using hother
      | succ n => simp [hi] at hother
    obtain rfl : i = pool.tasks.length := by omega
    exact htask

/-- The shared state changes and no task moves. -/
theorem Each.shared (h : pool.Each J)
    (hkept : ∀ i task, J pool.shared i task → J shared' i task) :
    ({ pool with shared := shared' } : Pool σ τ).Each J :=
  fun i task htask => hkept i task (h i task htask)

end Each

end Pool
