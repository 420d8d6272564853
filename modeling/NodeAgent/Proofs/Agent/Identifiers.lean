import NodeAgent.Proofs.Agent.Forwarding

/-!
# Request identifiers

Every call of an agent has its identifier from the supply of names, and no name is used twice. So if
the names themselves do not repeat, a response finds the one call that it is for, on whatever stream
that call is.

## Main statements

* `Numbered.step`: identifiers stay distinct, as long as nobody but the agent makes calls.
-/

namespace NodeAgent.Agent

variable {σ : Type} {a a' : Agent σ} {p q : Nat × Nat} {c d : Call} {mv : Move σ}

/-- Every call has a name that was used, and no two calls have the same. -/
structure Numbered (a : Agent σ) : Prop where
  named : ∀ p c, a.registry.call? p = some c → ∃ i < a.named, c.id = a.names.requestId i
  distinct : a.registry.Distinct

namespace Numbered

/-- Calls that are not new keep their names. -/
theorem of_old (h : Numbered a) (hnames : a'.names = a.names) (hnamed : a.named ≤ a'.named)
    (hold : ∀ p c', a'.registry.call? p = some c' →
      ∃ c, a.registry.call? p = some c ∧ c'.id = c.id) : Numbered a' := by
  refine ⟨fun p c' hc' ↦ ?_, fun p q c' d' hc' hd' hid ↦ ?_⟩
  · obtain ⟨c, hc, hcid⟩ := hold p c' hc'
    obtain ⟨i, hi, hname⟩ := h.named p c hc
    exact ⟨i, Nat.lt_of_lt_of_le hi hnamed, by rw [hcid, hname, hnames]⟩
  · obtain ⟨c, hc, hcid⟩ := hold p c' hc'
    obtain ⟨d, hd, hdid⟩ := hold q d' hd'
    exact h.distinct p q c d hc hd (hcid.symm.trans (hid.trans hdid))

/-- The call that a request makes has a name that no call had. -/
theorem makeCall (h : Numbered a) (hnames : Function.Injective a.names.requestId)
    (hconsistent : a.registry.Consistent) (n g : Nat) (f : Forward) :
    Numbered (a.makeCall n f g) := by
  let id := a.names.requestId a.named
  let m : Registry.Move := .use g (.open id f.request (a.timeoutOf f.request))
  have hstep : (a.makeCall n f g).registry = a.registry.step m := rfl
  have hcases : ∀ p c', (a.makeCall n f g).registry.call? p = some c' →
      (∃ c, a.registry.call? p = some c ∧ c'.id = c.id) ∨ (p = a.nextPlace g ∧ c'.id = id) := by
    intro p c' hc'
    rw [hstep] at hc'
    rcases Registry.call?_step hconsistent hc' with
      ⟨c, hc, hev⟩ | ⟨s, _, _, _, hs, hlast, hmv, hid, -⟩
    · exact Or.inl ⟨c, hc, hev.id⟩
    · obtain ⟨hg, huse⟩ := Registry.Move.use.inj hmv
      refine Or.inr ⟨?_, hid.trans (Stream.Use.open.inj huse).1.symm⟩
      rw [nextPlace, hg, hs]
      exact Prod.ext rfl hlast
  -- the names of the old calls were used before this one
  have hfresh : ∀ p c, a.registry.call? p = some c → c.id ≠ id := by
    intro p c hc hid
    obtain ⟨i, hi, hname⟩ := h.named p c hc
    exact Nat.ne_of_lt hi (hnames (hname.symm.trans hid))
  refine ⟨fun p c' hc' ↦ ?_, fun p q c' d' hc' hd' hid ↦ ?_⟩
  · rcases hcases p c' hc' with ⟨c, hc, hcid⟩ | ⟨-, hcid⟩
    · obtain ⟨i, hi, hname⟩ := h.named p c hc
      exact ⟨i, Nat.lt_succ_of_lt hi, hcid.trans hname⟩
    · exact ⟨a.named, Nat.lt_succ_self _, hcid⟩
  · -- two old calls, an old one and the new one, either way round, or the new one twice
    rcases hcases p c' hc' with ⟨c, hc, hcid⟩ | ⟨rfl, hcid⟩ <;>
      rcases hcases q d' hd' with ⟨d, hd, hdid⟩ | ⟨rfl, hdid⟩
    · exact h.distinct p q c d hc hd (hcid.symm.trans (hid.trans hdid))
    · exact absurd (hcid.symm.trans (hid.trans hdid)) (hfresh p c hc)
    · exact absurd (hdid.symm.trans (hid.symm.trans hcid)) (hfresh q d hd)
    · rfl

/-- **Identifiers stay distinct**, as long as nobody but the agent makes calls. -/
theorem step (h : Numbered a) (hnames : Function.Injective a.names.requestId)
    (hconsistent : a.registry.Consistent) (mv : Move σ)
    (hopen : ∀ g id r d, mv ≠ .registry (.use g (.open id r d))) : Numbered (a.step mv) := by
  obtain ⟨hkept, hle⟩ := a.names_step mv
  -- where no call is new there is nothing to show
  have hquiet : ∀ m, (a.step mv).registry = a.registry.step m →
      (∀ g id r d, m ≠ .use g (.open id r d)) → Numbered (a.step mv) := by
    intro m hm hno
    refine h.of_old hkept hle fun p c' hc' ↦ ?_
    rw [hm] at hc'
    rcases Registry.call?_step hconsistent hc' with ⟨c, hc, hev⟩ | ⟨_, _, _, _, -, -, hmv, -⟩
    · exact ⟨c, hc, hev.id⟩
    · exact absurd hmv (hno _ _ _ _)
  rcases effect_step a mv with ⟨new, haside, -⟩ | ⟨m, hmv, ha'⟩ |
    @⟨b, i, fi, u, hb, -, -, ha'⟩ | @⟨i, g, f, -, -, -, -, ha'⟩
  · obtain ⟨store, hstore⟩ := haside.exists_store
    exact hquiet _ hstore fun _ _ _ _ ↦ Registry.Move.noConfusion
  · refine hquiet m (by rw [ha']) fun g id r d hm ↦ ?_
    exact hopen g id r d (by rw [hmv, hm])
  · obtain ⟨store, hstore⟩ := hb.exists_store
    refine hquiet (.store store) ?_ fun _ _ _ _ ↦ Registry.Move.noConfusion
    rw [ha']
    exact hstore
  · rw [ha']
    exact h.makeCall hnames hconsistent i g f

/-- A new agent has made no call. -/
theorem of_registrations (h : a.registry.registrations = []) : Numbered a := by
  have hnone : ∀ p, a.registry.call? p = none := by
    intro p
    rw [Registry.call?, Registry.stream?, Registry.registration?, h]
    rfl
  refine ⟨fun p c hc ↦ ?_, fun p q c d hc _ _ ↦ ?_⟩
  · rw [hnone p] at hc
    cases hc
  · rw [hnone p] at hc
    cases hc

end Numbered

theorem tallies_injective : Function.Injective tallies.requestId := by
  intro i j h
  have hmarks := String.ofList_injective h
  simpa using congrArg List.length hmarks

end NodeAgent.Agent
