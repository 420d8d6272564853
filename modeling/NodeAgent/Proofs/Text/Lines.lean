import NodeAgent.Proofs.Text.Blank
import NodeAgent.Text.Lines

/-!
# How lines end

The lines of a text are its pieces between line feeds, save that a carriage return before a line
feed is taken away and that nothing follows the last line feed. Whoever looks at lines without the
blanks around them, and passes over empty ones, sees no difference (`filterMap_lines`).
-/

namespace NodeAgent.Text

theorem splitAtChars_eq_splitOnP (sep : Char → Bool) (cs : List Char) :
    splitAtChars sep cs = cs.splitOnP sep := by
  induction cs with
  | nil => rfl
  | cons c cs ih =>
    rw [splitAtChars, List.splitOnP_cons_eq_if_modifyHead, ih]
    cases hsplit : cs.splitOnP sep with
    | nil => exact absurd hsplit (List.splitOnP_ne_nil _ _)
    | cons w ws => rfl

/-- A line that lost its carriage return is the line, or the line had one at its end. -/
theorem dropReturn_cases (l : List Char) : dropReturn l = l ∨ l = dropReturn l ++ ['\r'] := by
  unfold dropReturn
  split
  · rename_i r hr
    exact Or.inr (by rw [← List.reverse_cons, ← hr, List.reverse_reverse])
  · exact Or.inl rfl

/-- **How lines end makes no difference** for whoever does not care for blanks at their ends, nor
for empty lines. -/
theorem filterMap_lines {α : Type} {f : List Char → Option α} (hnil : f [] = none)
    (hblank : ∀ l, f (l ++ ['\r']) = f l) (s : String) :
    (lines s).filterMap f = (s.toList.splitOn '\n').filterMap f := by
  have hreturn : ∀ l, f (dropReturn l) = f l := by
    intro l
    rcases dropReturn_cases l with h | h
    · rw [h]
    · conv_rhs => rw [h, hblank]
  have hne : s.toList.splitOnP (· == '\n') ≠ [] := List.splitOnP_ne_nil _ _
  unfold lines
  rw [splitAtChars_eq_splitOnP, List.splitOn]
  generalize s.toList.splitOnP (· == '\n') = pieces at hne
  obtain ⟨init, last, rfl⟩ := (List.eq_nil_or_concat' pieces).resolve_left hne
  have hinit : (init.map dropReturn).filterMap f = init.filterMap f := by
    rw [List.filterMap_map]
    exact congrArg (List.filterMap · init) (funext hreturn)
  dsimp only
  rw [List.getLast?_concat, List.dropLast_concat, List.filterMap_append]
  cases last with
  | nil => simp [hinit, hnil]
  | cons c last => simp [hinit]

end NodeAgent.Text
