import NodeAgent.Proofs.Feed.Run

/-!
# Subscriptions do not disturb each other

A subscriber that reads slowly, or goes away, is noticed by the feed and by nobody else. To see
this, two runs are compared of which one lacks the reads and drops of the others: the feeds that
they lead to are `Alike` for the one subscription that is looked at, and alike feeds answer alike.
-/

namespace NodeAgent.Feed

variable {α : Type} {f g : Feed α} {s : Subscriber α} {id : Nat} {mv : Move α}

/-- Whether a move is about a subscription: the reads and drops of the others are not. -/
def Move.concerns (id : Nat) : Move α → Bool
  | .read j _ | .drop j => j = id
  | _ => true

/-- Two feeds between which a subscription cannot tell. -/
structure Alike (id : Nat) (f g : Feed α) : Prop where
  buffer : f.buffer = g.buffer
  closed : f.closed = g.closed
  asked : f.asked = g.asked
  find? : f.find? id = g.find? id

namespace Alike

theorem refl (id : Nat) (f : Feed α) : Alike id f f := ⟨rfl, rfl, rfl, rfl⟩

theorem symm (h : Alike id f g) : Alike id g f :=
  ⟨h.buffer.symm, h.closed.symm, h.asked.symm, h.find?.symm⟩

theorem fst_subscribe (h : Alike id f g) : f.subscribe.1 = g.subscribe.1 := by
  rw [Feed.fst_subscribe, Feed.fst_subscribe, h.closed, h.asked]

theorem follow (h : Alike id f g) (s : Subscriber α) (mv : Move α) :
    f.follow s mv = g.follow s mv := by
  have htakes : f.takes s = g.takes s := by rw [takes, takes, room, room, h.buffer]
  cases mv <;> simp only [Feed.follow, htakes]

theorem answer (h : Alike id f g) (mv : Move α) : f.answer id mv = g.answer id mv := by
  cases mv with
  | read j limit => simp only [Feed.answer, fst_read, h.find?]
  | subscribe | write _ | drop _ | close | start => rfl

/-- A subscription that one of the feeds opens is opened by the other. -/
theorem find?_new (h : Alike id f g) (hnone : f.find? id = none)
    (hs : (f.step mv).find? id = some s) : (g.step mv).find? id = some s := by
  obtain ⟨rfl, hok, rfl⟩ := find?_step_new hnone hs
  exact find?_subscribe (h.find?.symm.trans hnone) (h.fst_subscribe.symm.trans hok)

theorem step (h : Alike id f g) (mv : Move α) : Alike id (f.step mv) (g.step mv) where
  buffer := by rw [buffer_step, buffer_step, h.buffer]
  closed := by rw [closed_step, closed_step, h.closed]
  asked := by rw [asked_step, asked_step, h.asked]
  find? := by
    cases hf : f.find? id with
    | some s => rw [find?_step hf, find?_step (h.find?.symm.trans hf), h.follow]
    | none =>
      cases hs : (f.step mv).find? id with
      | some s => exact (h.find?_new hf hs).symm
      | none =>
        cases ht : (g.step mv).find? id with
        | none => rfl
        | some t => exact hs.symm.trans (h.symm.find?_new (h.find?.symm.trans hf) ht)

end Alike

/-- A feed before and after a move that is about another subscription. -/
theorem alike_step (f : Feed α) (h : mv.concerns id = false) : Alike id (f.step mv) f where
  buffer := buffer_step f mv
  closed := by
    rw [closed_step]
    cases mv <;> simp_all [Move.concerns]
  asked := by
    rw [asked_step]
    cases mv <;> simp_all [Move.concerns, requests]
  find? := by
    cases hf : f.find? id with
    | some s =>
      rw [find?_step hf]
      have hid := id_of_find? hf
      cases mv <;> simp_all [Move.concerns, follow, eq_comm]
    | none =>
      cases hs : (f.step mv).find? id with
      | none => rfl
      | some s =>
        obtain ⟨rfl, -, -⟩ := find?_step_new hf hs
        cases h

/-- **What a subscription is answered does not depend on the reads and drops of the others.** -/
theorem answers_filter_concerns (f : Feed α) (id : Nat) (moves : List (Move α)) :
    f.answers id (moves.filter (Move.concerns id)) = f.answers id moves := by
  suffices h : ∀ g, Alike id f g →
      f.answers id (moves.filter (Move.concerns id)) = g.answers id moves from h f (.refl id f)
  induction moves generalizing f with
  | nil => exact fun _ _ ↦ rfl
  | cons mv moves ih =>
    intro g h
    cases hmv : mv.concerns id with
    | true =>
      rw [List.filter_cons_of_pos hmv, answers, answers, h.answer,
        ih (f.step mv) (g.step mv) (h.step mv)]
    | false =>
      have hnone : g.answer id mv = [] := by
        cases mv <;> simp_all [Move.concerns, answer]
      rw [List.filter_cons_of_neg (by simp [hmv]), answers, hnone, List.nil_append]
      refine ih f (g.step mv) ?_
      have hg := (alike_step g hmv).symm
      exact ⟨h.buffer.trans hg.buffer, h.closed.trans hg.closed, h.asked.trans hg.asked,
        h.find?.trans hg.find?⟩

end NodeAgent.Feed
