/-!
# Histories

What has happened so far, the newest event in front. A history is explained when each event has
behind it what it takes for the event to happen.
-/

namespace Histories

variable {ε : Type} (explains : ε → List ε → Prop)

def Explained : List ε → Prop
  | [] => True
  | e :: before => explains e before ∧ Explained before

variable {explains} {e : ε} {before after : List ε}

@[simp] theorem explained_nil : Explained explains [] := trivial

@[simp] theorem explained_cons :
    Explained explains (e :: before) ↔ explains e before ∧ Explained explains before := Iff.rfl

/-- An event is explained by what is behind it, wherever in the history it is. -/
theorem Explained.at (h : Explained explains (after ++ e :: before)) : explains e before := by
  induction after with
  | nil => exact h.1
  | cons later after ih => exact ih h.2

theorem Explained.behind (h : Explained explains (after ++ e :: before)) :
    Explained explains before := by
  induction after with
  | nil => exact h.2
  | cons later after ih => exact ih h.2

theorem Explained.of_mem (h : Explained explains history) (hmem : e ∈ history) :
    ∃ after before, history = after ++ e :: before ∧ explains e before := by
  obtain ⟨after, before, rfl⟩ := List.append_of_mem hmem
  exact ⟨after, before, rfl, h.at⟩

end Histories
