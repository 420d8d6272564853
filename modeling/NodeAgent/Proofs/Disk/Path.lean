import NodeAgent.Disk.Path

/-!
# The locations of paths

A path is made longer by one name at a time, and if the name is a plain one its location is that of
the shorter path with the name added. Slashes make no difference to that: the path may end in one,
in several, or be empty.

## Main statement

* `location_join`: the location of a name seen from a path.
-/

namespace NodeAgent

namespace Text

variable {sep : Char → Bool} {cs cs' : List Char} {c : Char}

theorem splitAtChars_ne_nil (sep : Char → Bool) (cs : List Char) : splitAtChars sep cs ≠ [] := by
  cases cs with
  | nil => exact List.cons_ne_nil _ _
  | cons d cs =>
    rw [splitAtChars]
    split
    · exact List.cons_ne_nil _ _
    · split <;> exact List.cons_ne_nil _ _

/-- Texts on both sides of a separator are split separately. -/
theorem splitAtChars_append (hc : sep c = true) (cs cs' : List Char) :
    splitAtChars sep (cs ++ c :: cs') = splitAtChars sep cs ++ splitAtChars sep cs' := by
  induction cs with
  | nil => simp [splitAtChars, hc]
  | cons d cs ih =>
    rw [List.cons_append, splitAtChars, splitAtChars, ih]
    split
    · rfl
    · cases hsplit : splitAtChars sep cs with
      | nil => exact absurd hsplit (splitAtChars_ne_nil sep cs)
      | cons w ws => rfl

theorem splitAtChars_of_not_mem (h : ∀ c ∈ cs, sep c = false) : splitAtChars sep cs = [cs] := by
  induction cs with
  | nil => rfl
  | cons d cs ih =>
    rw [splitAtChars, h d List.mem_cons_self, ih fun c hc ↦ h c (List.mem_cons_of_mem _ hc)]
    rfl

end Text

namespace Path

/-- What can be the name of a file in a directory. -/
structure IsName (n : String) : Prop where
  ne_empty : n ≠ ""
  ne_dot : n ≠ "."
  ne_dots : n ≠ ".."
  unslashed : '/' ∉ n.toList

variable {p n : String}

theorem follow_of_isName (h : IsName n) (l : Location) : follow l n = l ++ [n] := by
  rw [follow, if_neg (not_or.mpr ⟨h.ne_empty, h.ne_dot⟩), if_neg h.ne_dots]

theorem names_of_isName (h : IsName n) :
    (Text.splitAtChars (· == '/') n.toList).map String.ofList = [n] := by
  have hunslashed : ∀ c ∈ n.toList, (c == '/') = false := by
    intro c hc
    rw [beq_eq_false_iff_ne]
    rintro rfl
    exact h.unslashed hc
  rw [Text.splitAtChars_of_not_mem hunslashed, List.map_singleton, String.ofList_toList]

/-- The location of a name after a slash. -/
theorem location_append_slash (p : Path) (h : IsName n) :
    location (p ++ "/" ++ n) = p.location ++ [n] := by
  have hchars : (p ++ "/" ++ n).toList = p.toList ++ '/' :: n.toList := by
    rw [String.toList_append, String.toList_append, List.append_assoc]
    rfl
  rw [location, hchars, Text.splitAtChars_append (by rfl), List.map_append, List.foldl_append,
    names_of_isName h]
  exact follow_of_isName h _

/-- A slash at the end of a path makes no difference. -/
theorem location_slash (p : Path) : location (p ++ "/") = p.location := by
  have hchars : (p ++ "/").toList = p.toList ++ '/' :: [] := String.toList_append
  rw [location, hchars, Text.splitAtChars_append (by rfl), List.map_append, List.foldl_append]
  rfl

/-- **The location of a name seen from a path.** -/
theorem location_join (p : Path) (h : IsName n) : (p.join n).location = p.location ++ [n] := by
  have hhead : ¬n.toList.head? = some '/' := fun hslash ↦
    h.unslashed (List.mem_of_mem_head? hslash)
  rw [join, if_neg hhead]
  by_cases hempty : p = ""
  · rw [if_pos (Or.inl hempty), hempty, String.empty_append, location,
      names_of_isName h]
    exact follow_of_isName h _
  by_cases hslash : p.toList.getLast? = some '/'
  · -- the path is a shorter one with a slash at its end, and leads to the same location
    obtain ⟨cs, hcs⟩ : ∃ cs, p = String.ofList cs ++ "/" := by
      obtain ⟨cs, hcs⟩ := List.getLast?_eq_some_iff.mp hslash
      refine ⟨cs, String.toList_inj.mp ?_⟩
      rw [hcs, String.toList_append, String.toList_ofList]
      rfl
    rw [if_pos (Or.inr hslash), hcs, location_append_slash _ h, location_slash]
  · rw [if_neg (not_or.mpr ⟨hempty, hslash⟩), location_append_slash p h]

end Path

end NodeAgent
