import Mathlib.Algebra.Order.Group.Nat
import Mathlib.Data.List.Basic

/-!
# Spaced instants

Instants, the newest in front, of which any two are at least a gap apart. So many of them fit
into a window, and so far apart are the ends of a row of them.
-/

namespace Spacing

variable {gap : Nat}

def Spaced (gap : Nat) (instants : List Nat) : Prop :=
  instants.Pairwise fun newer older => older + gap ≤ newer

@[simp] theorem spaced_nil : Spaced gap [] := .nil

theorem spaced_cons {t : Nat} {older : List Nat} :
    Spaced gap (t :: older) ↔ (∀ u ∈ older, u + gap ≤ t) ∧ Spaced gap older :=
  List.pairwise_cons

/-- The newest is far enough from the rest if it is from the next. -/
theorem Spaced.push {t : Nat} {older : List Nat} (h : Spaced gap older)
    (hhead : ∀ u, older.head? = some u → u + gap ≤ t) : Spaced gap (t :: older) := by
  refine spaced_cons.mpr ⟨fun u hu => ?_, h⟩
  cases older with
  | nil => cases hu
  | cons v older =>
    have hv := hhead v rfl
    rcases List.mem_cons.mp hu with rfl | hu
    · exact hv
    · have := (spaced_cons.mp h).1 u hu
      omega

/-- The instants of a window of so many gaps are no more than that. -/
theorem Spaced.length_le {instants : List Nat} (h : Spaced gap instants) {start count : Nat}
    (hwindow : ∀ t ∈ instants, start ≤ t ∧ t < start + count * gap) :
    instants.length ≤ count := by
  induction instants generalizing count with
  | nil => simp
  | cons t older ih =>
    obtain ⟨hbehind, holder⟩ := spaced_cons.mp h
    obtain ⟨hstart, hend⟩ := hwindow t List.mem_cons_self
    cases count with
    | zero => omega
    | succ count =>
      refine Nat.succ_le_succ (ih holder fun u hu => ⟨(hwindow u (by simp [hu])).1, ?_⟩)
      have := hbehind u hu
      rw [Nat.succ_mul] at hend
      omega

theorem Spaced.countP_le {instants : List Nat} (h : Spaced gap instants) (start count : Nat) :
    instants.countP (fun t => start ≤ t ∧ t < start + count * gap) ≤ count := by
  rw [List.countP_eq_length_filter]
  have hkept : Spaced gap (instants.filter fun t => start ≤ t ∧ t < start + count * gap) :=
    List.Pairwise.filter _ h
  have hwindow : ∀ t ∈ instants.filter fun t => start ≤ t ∧ t < start + count * gap,
      start ≤ t ∧ t < start + count * gap := fun t ht => by
    simpa using (List.mem_filter.mp ht).2
  exact hkept.length_le hwindow

/-- A row of instants takes so many gaps. -/
theorem Spaced.span {oldest newest : Nat} {between : List Nat}
    (h : Spaced gap (newest :: between ++ [oldest])) :
    oldest + (between.length + 1) * gap ≤ newest := by
  induction between generalizing newest with
  | nil => simpa using (spaced_cons.mp h).1 oldest (by simp)
  | cons t between ih =>
    obtain ⟨hbehind, hrest⟩ := spaced_cons.mp h
    have hnext := hbehind t (by simp)
    have hspan := ih hrest
    rw [List.length_cons, Nat.succ_mul]
    omega

end Spacing
