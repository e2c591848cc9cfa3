import Mathlib.Data.List.Basic

/-!
# Streaks

A history with the newest entry in front, and a key of each entry. The streak is what the
history has of entries with the newest one's key before an entry with another key.
-/

namespace Streaks

variable {α κ : Type} [DecidableEq κ] (key : α → κ)

def streak : List α → List α
  | [] => []
  | a :: older => a :: older.takeWhile fun b => key b = key a

variable {key} {a b : α} {older : List α}

@[simp] theorem streak_nil : streak key [] = [] := rfl

@[simp] theorem streak_singleton : streak key [a] = [a] := rfl

@[simp] theorem streak_eq_nil {history : List α} : streak key history = [] ↔ history = [] := by
  cases history <;> simp [streak]

theorem streak_cons_of_eq (h : key a = key b) :
    streak key (a :: b :: older) = a :: streak key (b :: older) := by
  simp [streak, h]

theorem streak_cons_of_ne (h : key a ≠ key b) : streak key (a :: b :: older) = [a] := by
  simp [streak, Ne.symm h]

/-- The oldest entry of the streak stays where it is while the streak goes on. -/
theorem getLast?_streak_cons_of_eq (h : key a = key b) :
    (streak key (a :: b :: older)).getLast? = (streak key (b :: older)).getLast? := by
  rw [streak_cons_of_eq h]
  simp [streak, List.getLast?_cons_cons]

end Streaks
