import EvoAudio.Lib.Trimming
import EvoAudio.Names.Artist

/-!
# Groups in brackets

The group at the end of a name, as `artist_name.rs` and `album_name.rs` look for
it: the last bracket that opens what the last character closes, and what is
between them.
-/

namespace EvoAudio.Names

variable {before inner : List Char} {opener close : Char}

theorem opening_some (h : opening close = some opener) :
    close = ')' ∧ opener = '(' ∨ close = ']' ∧ opener = '[' := by
  unfold opening at h
  split_ifs at h with hround hsquare
  · cases h
    exact .inl ⟨hround, rfl⟩
  · cases h
    exact .inr ⟨hsquare, rfl⟩

theorem opening_ne (h : opening close = some opener) : opener ≠ close := by
  rcases opening_some h with ⟨rfl, rfl⟩ | ⟨rfl, rfl⟩ <;> decide

/-- A group is between its brackets, of which the first is not in it. -/
theorem trailingGroup_eq_some {s : List Char} :
    trailingGroup s = some (before, inner, close) ↔
      ∃ opener, opening close = some opener ∧ opener ∉ inner ∧
        s = before ++ opener :: (inner ++ [close]) := by
  simp only [trailingGroup, Option.bind_eq_bind, Option.bind_eq_some_iff, Option.pure_def,
    Option.some.injEq, Prod.mk.injEq, Prod.exists]
  constructor
  · rintro ⟨last, hlast, opener, hopener, before, after, hsplit, rfl, rfl, rfl⟩
    obtain ⟨rfl, hnot⟩ := Text.splitLast_singleton_some hsplit
    -- the last character closes the group, so there is one behind the opening bracket
    have hafter : after.getLast? = some last := by
      cases after with
      | nil =>
        rw [List.getLast?_concat, Option.some.injEq] at hlast
        exact absurd hlast (opening_ne hopener)
      | cons c after => simpa using hlast
    obtain ⟨inner, rfl⟩ := List.getLast?_eq_some_iff.mp hafter
    rw [List.dropLast_concat]
    exact ⟨opener, hopener, fun hmem => hnot (by simp [hmem]), rfl⟩
  · rintro ⟨opener, hopener, hnot, rfl⟩
    have hnot' : opener ∉ inner ++ [close] := by simp [hnot, opening_ne hopener]
    have hlast : (before ++ opener :: (inner ++ [close])).getLast? = some close := by
      rw [← List.cons_append, ← List.append_assoc, List.getLast?_concat]
    exact ⟨close, hlast, opener, hopener, before, inner ++ [close],
      Text.splitLast_append_cons hnot' before, rfl, List.dropLast_concat, rfl⟩

theorem trailingGroup_isPrefix (h : trailingGroup s = some (before, inner, close)) :
    before <+: s := by
  obtain ⟨opener, -, -, rfl⟩ := trailingGroup_eq_some.mp h
  exact List.prefix_append _ _

theorem trailingGroup_eq_none {c : Char} (hlast : s.getLast? = some c) (hc : opening c = none) :
    trailingGroup s = none := by
  simp [trailingGroup, hlast, hc]

end EvoAudio.Names
