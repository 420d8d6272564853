import NodeAgent.Text.Blank
import Mathlib.Data.List.DropRight

/-!
# What is left of a text without the blanks around it

Trimming takes away nothing but blanks, and leaves none at either end. That much is said of a text
and what is left of it without a word on how the blanks are found (`Trims`), and it leaves no choice
(`trimBlanks_eq_iff`).

## Main statements

* `trimBlanks_eq_iff`: what trimming leaves.
* `trimBlanks_eq_nil_iff`: nothing is left exactly of texts that are blank all over.
-/

namespace NodeAgent.Text

variable {cs ts : List Char}

/-- The text neither begins nor ends with a blank. -/
structure IsTrimmed (cs : List Char) : Prop where
  head : ∀ c ∈ cs.head?, isBlank c = false
  last : ∀ c ∈ cs.getLast?, isBlank c = false

/-- The first text is the second with blanks around it, and the second has none at its ends. -/
def Trims (cs ts : List Char) : Prop :=
  ∃ before after, cs = before ++ ts ++ after ∧ (∀ c ∈ before, isBlank c = true) ∧
    (∀ c ∈ after, isBlank c = true) ∧ IsTrimmed ts

theorem trimBlanks_eq_rdropWhile (cs : List Char) :
    trimBlanks cs = (cs.dropWhile isBlank).rdropWhile isBlank := rfl

theorem isTrimmed_nil : IsTrimmed [] := ⟨nofun, nofun⟩

theorem isTrimmed_trimBlanks (cs : List Char) : IsTrimmed (trimBlanks cs) := by
  rw [trimBlanks_eq_rdropWhile]
  constructor
  · intro c hc
    -- what is left on the right begins as what was left on the left
    obtain ⟨after, hafter⟩ := List.rdropWhile_prefix isBlank (cs.dropWhile isBlank)
    have hhead : (cs.dropWhile isBlank).head? = some c := by
      rw [← hafter, List.head?_append, Option.mem_def.mp hc, Option.some_or]
    have hnot := List.head?_dropWhile_not isBlank cs
    rwa [hhead] at hnot
  · intro c hc
    obtain ⟨hne, rfl⟩ := List.mem_getLast?_eq_getLast hc
    exact Bool.eq_false_iff.mpr (List.rdropWhile_last_not isBlank _ hne)

theorem trims_trimBlanks (cs : List Char) : Trims cs (trimBlanks cs) := by
  refine ⟨cs.takeWhile isBlank, (cs.dropWhile isBlank).rtakeWhile isBlank, ?_, ?_, ?_,
    isTrimmed_trimBlanks cs⟩
  · rw [trimBlanks_eq_rdropWhile, List.append_assoc, List.rdropWhile_append_rtakeWhile,
      List.takeWhile_append_dropWhile]
  · exact fun c hc ↦ List.mem_takeWhile_imp hc
  · exact fun c hc ↦ List.mem_rtakeWhile_imp hc

/-- Trimming stops where there is no blank. -/
theorem dropWhile_of_head (h : ∀ c ∈ cs.head?, isBlank c = false) : cs.dropWhile isBlank = cs := by
  cases cs with
  | nil => rfl
  | cons c cs => rw [List.dropWhile_cons, h c rfl, if_neg Bool.false_ne_true]

/-- **Trimming leaves what is within the blanks**, and nothing else is within them. -/
theorem trimBlanks_eq_iff : trimBlanks cs = ts ↔ Trims cs ts := by
  constructor
  · rintro rfl
    exact trims_trimBlanks cs
  · rintro ⟨before, after, rfl, hbefore, hafter, hhead, hlast⟩
    rw [trimBlanks, List.append_assoc, List.dropWhile_append_of_pos hbefore]
    cases ts with
    | nil =>
      rw [List.nil_append, List.dropWhile_eq_nil_iff.mpr hafter]
      rfl
    | cons t ts =>
      have hfirst : (t :: ts ++ after).dropWhile isBlank = t :: ts ++ after :=
        dropWhile_of_head hhead
      have hend : (t :: ts).reverse.dropWhile isBlank = (t :: ts).reverse :=
        dropWhile_of_head fun c hc ↦ hlast c (by rwa [List.head?_reverse] at hc)
      rw [hfirst, List.reverse_append,
        List.dropWhile_append_of_pos fun c hc ↦ hafter c (List.mem_reverse.mp hc), hend,
        List.reverse_reverse]

/-- Blanks at the end make no difference. -/
theorem trimBlanks_append {after : List Char} (h : ∀ c ∈ after, isBlank c = true) :
    trimBlanks (cs ++ after) = trimBlanks cs := by
  obtain ⟨l, r, hcs, hl, hr, htrimmed⟩ := trims_trimBlanks cs
  refine trimBlanks_eq_iff.mpr ⟨l, r ++ after, ?_, hl, fun c hc ↦ ?_, htrimmed⟩
  · rw [← List.append_assoc, ← hcs]
  · exact (List.mem_append.mp hc).elim (hr c) (h c)

theorem trimBlanks_eq_nil_iff : trimBlanks cs = [] ↔ ∀ c ∈ cs, isBlank c = true := by
  constructor
  · intro h
    obtain ⟨l, r, rfl, hl, hr, -⟩ := trimBlanks_eq_iff.mp h
    rw [List.append_nil]
    exact fun c hc ↦ (List.mem_append.mp hc).elim (hl c) (hr c)
  · exact fun h ↦ trimBlanks_eq_iff.mpr ⟨cs, [], by simp, h, nofun, isTrimmed_nil⟩

end NodeAgent.Text
