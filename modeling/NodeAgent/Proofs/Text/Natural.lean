import NodeAgent.Text.Natural

/-!
# Which texts are numbers

Reading stops at the first digit that makes a number too large. As more digits only make it larger
(`le_ofDigitChars`), that is no loss: a text is read exactly if it is a numeral and the number that
it stands for is below the bound (`parse_eq_ok_iff`).
-/

namespace NodeAgent.Text.Natural

/-- The text is a numeral for the number: one decimal digit or more, perhaps after a plus sign. -/
def IsNumeral (cs : List Char) (n : Nat) : Prop :=
  ∃ ds, (cs = ds ∨ cs = '+' :: ds) ∧ ds ≠ [] ∧ (∀ c ∈ ds, c.isDigit = true) ∧
    Nat.ofDigitChars 10 ds 0 = n

variable {bound n m : Nat} {c : Char} {cs : List Char}

theorem le_ofDigitChars (cs : List Char) (n : Nat) : n ≤ Nat.ofDigitChars 10 cs n := by
  induction cs generalizing n with
  | nil => exact Nat.le_refl n
  | cons c cs ih =>
    rw [Nat.ofDigitChars_cons]
    exact Nat.le_trans (by omega) (ih _)

theorem digits_cons_eq_ok_iff : digits bound n (c :: cs) = .ok m ↔
    c.isDigit = true ∧ 10 * n + (c.toNat - 48) < bound ∧
      digits bound (10 * n + (c.toNat - 48)) cs = .ok m := by
  rw [digits]
  dsimp only
  cases c.isDigit with
  | false => simp
  | true => by_cases h : 10 * n + (c.toNat - 48) < bound <;> simp [h]

/-- The digits that are left after those of a number below the bound. -/
theorem digits_eq_ok_iff (h : n < bound) : digits bound n cs = .ok m ↔
    (∀ c ∈ cs, c.isDigit = true) ∧ Nat.ofDigitChars 10 cs n = m ∧ m < bound := by
  induction cs generalizing n with
  | nil =>
    rw [digits, Except.ok.injEq, Nat.ofDigitChars_nil]
    exact ⟨fun hn ↦ ⟨nofun, hn, hn ▸ h⟩, fun hn ↦ hn.2.1⟩
  | cons c cs ih =>
    rw [digits_cons_eq_ok_iff, List.forall_mem_cons, Nat.ofDigitChars_cons, and_assoc]
    refine and_congr_right fun _ ↦ ⟨?_, ?_⟩
    · rintro ⟨hc, hcs⟩
      exact (ih hc).mp hcs
    · rintro ⟨hcs, hm, hlt⟩
      have hc : 10 * n + (c.toNat - 48) < bound :=
        Nat.lt_of_le_of_lt (hm ▸ le_ofDigitChars cs _) hlt
      exact ⟨hc, (ih hc).mpr ⟨hcs, hm, hlt⟩⟩

/-- A text is read by its digits, which are all of it or all but a plus sign. -/
theorem parse_eq_ok_iff_digits : parse bound cs = .ok n ↔
    ∃ ds, (cs = ds ∨ cs = '+' :: ds) ∧ ds ≠ [] ∧ digits bound 0 ds = .ok n := by
  constructor
  · intro h
    unfold parse at h
    split at h
    · cases h
    · cases h
    · rename_i ds hds
      exact ⟨ds, Or.inr rfl, hds, h⟩
    · rename_i hne _ _
      exact ⟨cs, Or.inl rfl, hne, h⟩
  · rintro ⟨ds, hcs, hne, h⟩
    unfold parse
    -- a second plus sign is no digit
    split <;> grind [digits]

/-- **The texts that are read as numbers**, and the numbers they are read as. -/
theorem parse_eq_ok_iff (h : 0 < bound) :
    parse bound cs = .ok n ↔ IsNumeral cs n ∧ n < bound := by
  simp only [parse_eq_ok_iff_digits, digits_eq_ok_iff h, IsNumeral]
  constructor
  · rintro ⟨ds, hcs, hne, hdigits, hn, hlt⟩
    exact ⟨⟨ds, hcs, hne, hdigits, hn⟩, hlt⟩
  · rintro ⟨⟨ds, hcs, hne, hdigits, hn⟩, hlt⟩
    exact ⟨ds, hcs, hne, hdigits, hn, hlt⟩

end NodeAgent.Text.Natural
