import Mathlib.Data.List.Basic

/-!
# Places in a history

A history is the list of what happened, in order, and something that happened in it is told by
dividing the list there: what came before, the thing itself, and what came after. Histories grow at
the end, so what is asked again and again is where such a place is in a history that was put
together from two.
-/

namespace NodeAgent.History

variable {α : Type} {xs ys before after : List α} {x y : α}

/-- An element of two lists one after the other stands in the first or in the second. -/
theorem eq_append_cons_or (h : xs ++ ys = before ++ x :: after) :
    (∃ more, xs = before ++ x :: more ∧ after = more ++ ys) ∨
      ∃ more, before = xs ++ more ∧ ys = more ++ x :: after := by
  rcases List.append_eq_append_iff.mp h with h | ⟨more, hxs, hys⟩
  · exact Or.inr h
  · cases more with
    | nil => exact Or.inr ⟨[], by simpa using hxs.symm, hys.symm⟩
    | cons y more =>
      obtain ⟨rfl, hafter⟩ := List.cons.inj hys
      exact Or.inl ⟨more, hxs, hafter⟩

/-- What stands in a longer list is the last, or it stood in the list before. -/
theorem eq_or_of_concat (h : xs ++ [y] = before ++ x :: after) :
    (before = xs ∧ x = y ∧ after = []) ∨
      ∃ after', xs = before ++ x :: after' ∧ after = after' ++ [y] := by
  rcases eq_append_cons_or h with hold | ⟨more, rfl, hy⟩
  · exact Or.inr hold
  · rcases List.singleton_eq_append_iff.mp hy with ⟨rfl, hlast⟩ | ⟨-, hlast⟩
    · obtain ⟨rfl, rfl⟩ := List.cons.inj hlast
      exact Or.inl ⟨List.append_nil _, rfl, rfl⟩
    · cases hlast

end NodeAgent.History
