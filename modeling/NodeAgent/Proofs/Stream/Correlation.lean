import NodeAgent.Proofs.Stream.Evolution

/-!
# Responses reach the calls they answer

Callers, the reader of the node's frames, timers and whoever tears the stream down share one table.
A response that comes late, twice or under a foreign identifier must not reach the wrong caller, and
a call that was answered must not be answered again.

The argument goes through the slots. A call returns a response only if its slot holds it
(`Consistent.answered`), a slot is filled only by a delivery that finds the call in the table
(`slot_step`), and what a slot holds never changes (`Evolves`). So the response that a call returns
can be traced back to one delivery, and the delivery to the state in which it came.

Request identifiers may repeat in everything below: the table holds one call under an identifier,
and a call that is displaced from it returns no response at all.
-/

namespace NodeAgent.Stream

variable {s : Stream} {i : Nat} {c c' : Call} {m : NodeMessage} {moves : List Move}

/-- A call waits for a response under an identifier: it is in the table, and neither has its time
run out nor was it told that no response will come. -/
def Waits (s : Stream) (i : Nat) (id : RequestId) : Prop :=
  s.pending.get? id = some i ∧
    ∃ c, s.call? i = some c ∧ c.id = id ∧ c.slot = .empty ∧ c.stage.isWaiting = true

/-- What correlates responses with calls over a run. -/
structure Correlated (s : Stream) (moves : List Move) : Prop where
  /-- A response that is delivered to a call that waits for it is accepted, and from then on the
  call has it and its identifier is out of the table. -/
  delivered : ∀ i id m, (s.run moves).Waits i id →
    ((s.run moves).deliver id m).1 = true ∧
      (∃ c, ((s.run moves).deliver id m).2.call? i = some c ∧ c.slot = .filled m) ∧
      ((s.run moves).deliver id m).2.pending.contains id = false
  /-- A call returns a response only if it was delivered under the identifier of the call while the
  call waited for it. -/
  answered : ∀ i c m, (s.run moves).call? i = some c → c.result? = some (.ok m) →
    ∃ before after, moves = before ++ .deliver c.id m :: after ∧ (s.run before).Waits i c.id
  /-- The first response wins: a call that was delivered one while it waited returns no other. -/
  first : ∀ before after i id m, moves = before ++ .deliver id m :: after →
    (s.run before).Waits i id →
    ∀ c m', (s.run moves).call? i = some c → c.result? = some (.ok m') → m' = m
  /-- What a call returned, it has returned for good. -/
  final : ∀ before after i c r, moves = before ++ after → (s.run before).call? i = some c →
    c.result? = some r → ∃ c', (s.run moves).call? i = some c' ∧ c'.result? = some r
  /-- A delivery changes one call at most. -/
  single : ∀ id m i j, ((s.run moves).deliver id m).2.call? i ≠ (s.run moves).call? i →
    ((s.run moves).deliver id m).2.call? j ≠ (s.run moves).call? j → i = j
  /-- A delivery under an identifier that is not in the table is refused and changes nothing. -/
  unknown : ∀ id m, (s.run moves).pending.contains id = false →
    (s.run moves).deliver id m = (false, s.run moves)

/-! ## Deliveries -/

theorem deliver_of_not_contains {id : RequestId} (h : s.pending.contains id = false) :
    s.deliver id m = (false, s) := by
  have hnone : s.pending.get? id = none := by
    simpa [Table.contains] using h
  rw [deliver, h, resolve, hnone]

theorem get?_of_deliver_changes {id : RequestId}
    (h : (s.deliver id m).2.call? i ≠ s.call? i) : s.pending.get? id = some i := by
  by_contra hne
  refine h ?_
  change (s.resolve id (.fill m)).call? i = s.call? i
  rw [call?_resolve, if_neg hne]

/-- **A delivery to a call that waits** fills its slot and takes it out of the table. -/
theorem deliver_of_waits {id : RequestId} (h : s.Waits i id) (m : NodeMessage) :
    (s.deliver id m).1 = true ∧
      (∃ c, (s.deliver id m).2.call? i = some c ∧ c.slot = .filled m) ∧
      (s.deliver id m).2.pending.contains id = false := by
  obtain ⟨hin, c, hc, -, hempty, -⟩ := h
  refine ⟨?_, ⟨{ c with slot := c.slot.fill m }, ?_, ?_⟩, ?_⟩
  · rw [deliver, Table.contains, hin, Option.isSome_some]
  · rw [deliver, call?_resolve, if_pos hin, hc, Option.map_some]
  · change c.slot.fill m = .filled m
    rw [hempty]
    rfl
  · rw [deliver, Table.contains, get?_resolve, if_pos rfl, Option.isSome_none]

/-! ## Tracing a response back -/

/-- The call behind an entry waits, unless it is lost later on. -/
theorem Consistent.waits (hs : s.Consistent) {mv : Move} (hin : s.pending.get? c'.id = some i)
    (hc' : (s.step mv).call? i = some c') (hlost : c'.stage.isLost = false) :
    s.Waits i c'.id := by
  obtain ⟨c, hc, hid, hempty, hstage⟩ := hs.entry c'.id i hin
  obtain ⟨d, hd, hev⟩ := Evolves.step hs mv i c hc
  rw [hc', Option.some.injEq] at hd
  subst hd
  have hkept : c.stage.isLost = false := hev.stage.isLost_eq_false hlost
  refine ⟨hin, c, hc, hid, hempty, ?_⟩
  cases hc : c.stage <;> simp_all [CallStage.mayBePending, CallStage.isLost, CallStage.isWaiting]

/-- A message in the slot of a call that is not lost was delivered while the call waited for it. -/
theorem delivered_of_filled (hs : s.Consistent) (hempty : s.calls = [])
    (hc : (s.run moves).call? i = some c) (hm : c.slot = .filled m)
    (hlost : c.stage.isLost = false) :
    ∃ before after, moves = before ++ .deliver c.id m :: after ∧ (s.run before).Waits i c.id := by
  induction moves using List.reverseRecOn generalizing c with
  | nil =>
    rw [run_nil, call?, hempty] at hc
    cases hc
  | append_singleton moves mv ih =>
    rw [run_concat] at hc
    rcases slot_step (hs.run moves) hc hm with ⟨d, hd, hdm⟩ | ⟨rfl, hin⟩
    · -- the slot was filled before, so the delivery is further back
      obtain ⟨d', hd', hev⟩ := Evolves.step (hs.run moves) mv i d hd
      rw [hc, Option.some.injEq] at hd'
      subst hd'
      have hdlost : d.stage.isLost = false := hev.stage.isLost_eq_false hlost
      obtain ⟨before, after, rfl, hwaits⟩ := ih hd hdm hdlost
      rw [← hev.id] at hwaits ⊢
      exact ⟨before, after ++ [mv], by simp, hwaits⟩
    · -- the last move is the delivery
      exact ⟨moves, [], rfl, (hs.run moves).waits hin hc hlost⟩

/-- **Responses are correlated with calls over every run** of a stream, in whatever order its calls,
its node and its closing come. -/
theorem correlated_run (node : NodeId) (capacity : Nat) (moves : List Move) :
    Correlated { node, capacity } moves := by
  set s : Stream := { node, capacity }
  have hs : s.Consistent := .of_empty rfl rfl rfl
  have hslot : ∀ {moves i c m}, (s.run moves).call? i = some c → c.result? = some (.ok m) →
      c.slot = .filled m := fun hc h ↦
    (hs.run _).answered _ _ _ hc (Call.result?_eq_some.mp h)
  refine ⟨fun i id m hwaits ↦ deliver_of_waits hwaits m, ?_, ?_, ?_, ?_,
    fun id m h ↦ deliver_of_not_contains h⟩
  · intro i c m hc h
    have hlost : c.stage.isLost = false := by rw [Call.result?_eq_some.mp h]; rfl
    exact delivered_of_filled hs rfl hc (hslot hc h) hlost
  · -- what the delivery put into the slot is what the call finds there
    rintro before after i id m rfl hwaits c m' hc h
    obtain ⟨-, ⟨d, hd, hdm⟩, -⟩ := deliver_of_waits hwaits m
    have hrun : s.run (before ++ .deliver id m :: after) =
        ((s.run before).step (.deliver id m)).run after := run_append s before _
    obtain ⟨c', hc', hev⟩ := evolves_run ((hs.run before).step (.deliver id m)) after i d hd
    rw [← hrun, hc, Option.some.injEq] at hc'
    subst hc'
    have hkept := hev.slot (by rw [hdm]; exact Slot.noConfusion)
    rw [hdm, hslot hc h] at hkept
    exact Slot.filled.inj hkept
  · rintro before after i c r rfl hc h
    obtain ⟨c', hc', hev⟩ := evolves_run (hs.run before) after i c hc
    rw [run_append]
    exact ⟨c', hc', Call.result?_eq_some.mpr (hev.stage.returned r (Call.result?_eq_some.mp h))⟩
  · intro id m i j hi hj
    have hij := (get?_of_deliver_changes hi).symm.trans (get?_of_deliver_changes hj)
    exact Option.some.inj hij

-- two responses come out of order, and one more for a call that was answered
example :
    let calls : List Move := [0, 1].flatMap fun i ↦ List.replicate 4 (.use (.advance i 0))
    let s := run { node := "node", capacity := 2 } (
      .use (.open "a" (.pauseNode "node") (.ofSeconds 1)) ::
      .use (.open "b" (.resumeNode "node") (.ofSeconds 1)) ::
      (calls ++ .deliver "b" (.response (.resumeNode none)) ::
        .deliver "a" (.response (.pauseNode none)) ::
        .deliver "a" (.response (.resumeNode none)) :: calls))
    s.calls.map (·.result?) =
      [some (.ok (.response (.pauseNode none))), some (.ok (.response (.resumeNode none)))] := rfl

end NodeAgent.Stream
