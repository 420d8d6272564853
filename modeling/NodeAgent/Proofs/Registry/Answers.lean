import NodeAgent.Proofs.Registry.Sending

/-!
# Where the responses come from

What a call is given as its response came over the same stream, under the identifier of the call:
a reader makes nothing up and mixes nothing up. `Traced` says so of every frame that waits to be
read and of every response that a call was given, whatever it is that frames are traced to.

## Main statements

* `slot_step`: a move gives a call only a response that arrived for it.
* `Traced.step`: if what a move brings in has an origin, everything has one afterwards.
-/

namespace NodeAgent.Registry

variable {r : Registry} {mv : Move} {i : Nat} {g : Registration} {p : Nat × Nat} {c : Call}
  {m : NodeMessage}

/-- The move brings something to the reader of a registration. -/
def Brings (mv : Move) (i : Nat) (a : Arrival) : Prop :=
  mv = .receive i a ∨
    ∃ allowed arrived ended now, mv = .arrive allowed arrived ended now ∧ a ∈ arrived

theorem mem_tail_of_eq_cons {a b : Arrival} {l rest : List Arrival} (h : l = b :: rest)
    (ha : a ∈ rest) : a ∈ l := by
  rw [h]
  exact List.mem_cons_of_mem b ha

/-- What waits to be read after a move waited before, or the move brought it. -/
theorem arrived_step {a : Arrival} (hg : (r.step mv).registration? i = some g)
    (ha : a ∈ g.arrived) :
    (∃ g, r.registration? i = some g ∧ a ∈ g.arrived) ∨ Brings mv i a := by
  cases hbefore : r.registration? i with
  | none =>
    obtain ⟨ended, now, hmv, -⟩ := registration?_new r mv hbefore hg
    exact Or.inr (Or.inr ⟨_, _, ended, now, hmv, ha⟩)
  | some g₀ =>
    obtain ⟨g', hg', heff⟩ := effect_step r mv hbefore
    rw [hg, Option.some.injEq] at hg'
    subst hg'
    have hmap : ∀ f, (g₀.mapStream f).arrived = g₀.arrived := by
      intro f
      unfold Registration.mapStream
      split <;> rfl
    cases heff with
    | none => exact Or.inl ⟨g, rfl, ha⟩
    | close _ => exact Or.inl ⟨g₀, rfl, hmap _ ▸ ha⟩
    | refuse e _ _ => cases ha
    | accept _ _ harrived => exact Or.inl ⟨g₀, rfl, mem_tail_of_eq_cons harrived ha⟩
    | take _ _ _ harrived => exact Or.inl ⟨g₀, rfl, mem_tail_of_eq_cons harrived ha⟩
    | deliver _ _ _ harrived => exact Or.inl ⟨g₀, rfl, mem_tail_of_eq_cons harrived ha⟩
    | stop _ _ _ _ => cases ha
    | receive b hmv _ =>
      rcases List.mem_append.mp ha with hold | hnew
      · exact Or.inl ⟨g₀, rfl, hold⟩
      · rw [List.mem_singleton.mp hnew]
        exact Or.inr (Or.inl hmv)
    | endInbound _ => exact Or.inl ⟨g₀, rfl, ha⟩
    | use _ => exact Or.inl ⟨g₀, rfl, hmap _ ▸ ha⟩

/-- **A call is given only a response that arrived for it**, over its stream and under its
identifier. -/
theorem slot_step (hr : r.Consistent) (hc : (r.step mv).call? p = some c)
    (hm : c.slot = .filled m) :
    (∃ d, r.call? p = some d ∧ d.slot = .filled m ∧ d.id = c.id) ∨
      ∃ response g, m = .response response ∧ r.registration? p.1 = some g ∧
        .frame ⟨c.id, some m⟩ ∈ g.arrived := by
  obtain ⟨s', hs', hcs'⟩ := stream?_of_call? hc
  cases hs : r.stream? p.1 with
  | none =>
    obtain ⟨node, rfl⟩ := stream_new hs hs'
    cases hcs'
  | some s =>
    obtain ⟨s'', hs'', heff⟩ := stream_step hs mv
    rw [hs', Option.some.injEq] at hs''
    subst hs''
    obtain ⟨l, rfl, hl⟩ := heff.exists_run
    rcases Stream.slot_run (hr p.1 s hs) hcs' hm with ⟨d, hd, hdm⟩ | hdelivered
    · -- given before the move
      obtain ⟨c', hc', hev⟩ := Stream.evolves_run (hr p.1 s hs) l p.2 d hd
      rw [hcs', Option.some.injEq] at hc'
      subst hc'
      exact Or.inl ⟨d, (call?_of_stream? hs p.2).trans hd, hdm, hev.id.symm⟩
    · -- delivered by the reader, from what had arrived
      obtain ⟨late, g, -, hg, id, response, hmv, harrived⟩ := hl _ _ hdelivered
      rw [Stream.Move.deliver.injEq] at hmv
      obtain ⟨rfl, rfl⟩ := hmv
      exact Or.inr ⟨response, g, rfl, hg, harrived⟩

/-- Every frame that waits to be read, and every response that a call was given, has an origin. -/
structure Traced (r : Registry) (origin : Nat → NodeFrame → Prop) : Prop where
  arrived : ∀ i g x, r.registration? i = some g → .frame x ∈ g.arrived → origin i x
  filled : ∀ p c m, r.call? p = some c → c.slot = .filled m →
    ∃ response, m = .response response ∧ origin p.1 ⟨c.id, some m⟩

namespace Traced

variable {origin origin' : Nat → NodeFrame → Prop}

theorem mono (h : r.Traced origin) (horigin : ∀ i x, origin i x → origin' i x) :
    r.Traced origin' := by
  refine ⟨fun i g x hg hx ↦ horigin i x (h.arrived i g x hg hx), fun p c m hc hm ↦ ?_⟩
  obtain ⟨response, hresponse, ho⟩ := h.filled p c m hc hm
  exact ⟨response, hresponse, horigin _ _ ho⟩

/-- **Everything keeps its origin**, and what a move brings in has one. -/
theorem step (h : r.Traced origin) (hr : r.Consistent)
    (hbrings : ∀ i x, Brings mv i (.frame x) → origin i x) : (r.step mv).Traced origin := by
  refine ⟨fun i g x hg hx ↦ ?_, fun p c m hc hm ↦ ?_⟩
  · rcases arrived_step hg hx with ⟨g₀, hg₀, hx₀⟩ | hnew
    · exact h.arrived i g₀ x hg₀ hx₀
    · exact hbrings i x hnew
  · rcases slot_step hr hc hm with ⟨d, hd, hdm, hid⟩ | ⟨response, g, hresponse, hg, harrived⟩
    · rw [← hid]
      exact h.filled p d m hd hdm
    · exact ⟨response, hresponse, h.arrived p.1 g _ hg harrived⟩

end Traced

end NodeAgent.Registry
