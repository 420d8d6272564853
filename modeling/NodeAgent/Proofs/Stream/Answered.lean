import NodeAgent.Proofs.Stream.Evolution

/-!
# Calls that were given their response

A call that waits and is given a response returns it with its next operation. Until then nothing
takes the response away again: the slot stays as it is, and a call whose slot is filled neither
times out nor notices that the stream was torn down. Only its caller can go away meanwhile.

## Main statements

* `hasAnswer_run`: a call that was given its response keeps it along every run.
* `hasAnswer_deliver`: a delivery gives the call that waits for it its response.
* `advance_hasAnswer`: with its next operation a call that was given its response has returned it.
-/

namespace NodeAgent

/-- The call is about to return a message, has returned it, or was abandoned. -/
def CallStage.Answers (a : CallStage) (m : NodeMessage) : Prop :=
  a = .awaiting ∨ a = .returned (.ok m) ∨ a = .abandoned

/-- The call was given a message while it waited, and its caller has it or can have it at once. -/
structure Call.HasAnswer (c : Call) (m : NodeMessage) : Prop where
  slot : c.slot = .filled m
  stage : c.stage.Answers m

namespace Stream

variable {s s' : Stream} {i j : Nat} {c c' : Call} {m : NodeMessage}

/-! ## The other calls -/

/-- What one call does leaves the stages of the others as they are. -/
theorem stage_acts_of_ne (h : Acts s j s') (hne : j ≠ i) :
    (s'.call? i).map (·.stage) = (s.call? i).map (·.stage) := by
  have hupdate : ∀ (t : Stream) (f : Call → Call), (t.update j f).call? i = t.call? i :=
    fun _ f ↦ call?_update_of_ne hne f
  cases h with
  | idle => rfl
  | move f _ _ _ => rw [hupdate]
  | @enter c _ _ =>
    rw [hupdate]
    exact stage_resolve s c.id .drop i
  | @leave c _ _ _ =>
    rw [hupdate]
    exact stage_resolve s c.id .drop i
  | @offer c _ _ =>
    unfold Stream.offer
    split
    · exact congrArg _ (hupdate _ _)
    · rw [hupdate]
      rfl
  | lose f _ _ _ _ =>
    rw [hupdate]
    rfl

/-- Taking a frame moves on only a call that queues. -/
theorem call?_take (h : Taking s s') (hc : s.call? i = some c) (hstage : c.stage ≠ .queued) :
    s'.call? i = some c := by
  cases h with
  | nothing _ => exact hc
  | free _ _ => exact hc
  | @pass frame rest j waiting d _ _ hd hqueued =>
    have hne : j ≠ i := by
      rintro rfl
      obtain rfl := Option.some.inj (hd.symm.trans hc)
      exact hstage hqueued
    exact (call?_update_of_ne hne _).trans hc

/-! ## The call itself -/

/-- With its next operation a call that was given its response has returned it. -/
theorem advance_hasAnswer (hc : s.call? i = some c) (h : c.HasAnswer m) (now : Instant) :
    ∃ c', (s.advance i now).call? i = some c' ∧ c'.request = c.request ∧
      (c'.stage = .returned (.ok m) ∨ c'.stage = .abandoned) := by
  unfold Stream.advance
  rw [hc]
  dsimp only
  rcases h.stage with hstage | hstage | hstage
  · rw [hstage, h.slot]
    exact ⟨_, call?_update_of_eq hc _, rfl, Or.inl rfl⟩
  · rw [hstage]
    exact ⟨c, hc, rfl, Or.inl hstage⟩
  · rw [hstage]
    exact ⟨c, hc, rfl, Or.inr hstage⟩

theorem insist_hasAnswer (hc : s.call? i = some c) (h : c.HasAnswer m) : s.insist i = s := by
  unfold Stream.insist
  rw [hc]
  dsimp only
  rcases h.stage with hstage | hstage | hstage <;> rw [hstage]

theorem expire_hasAnswer (hc : s.call? i = some c) (h : c.HasAnswer m) (now : Instant) :
    s.expire i now = s := by
  have hstuck : s.isStuck c = false := by
    unfold Stream.isStuck
    rcases h.stage with hstage | hstage | hstage <;> simp [hstage, h.slot]
  unfold Stream.expire
  rw [hc]
  dsimp only
  rw [hstuck]
  rfl

theorem abandon_hasAnswer (hc : s.call? i = some c) (h : c.HasAnswer m) :
    ∃ c', (s.abandon i).call? i = some c' ∧ c'.stage.Answers m := by
  unfold Stream.abandon
  rw [hc]
  dsimp only
  split
  · exact ⟨_, call?_update_of_eq hc _, Or.inr (Or.inr rfl)⟩
  · exact ⟨c, hc, h.stage⟩

/-- What a call does that was given its response is to return it, unless it is abandoned. -/
theorem answers_step (hs : s.Consistent) (hc : s.call? i = some c) (h : c.HasAnswer m) (mv : Move) :
    ∃ c', (s.step mv).call? i = some c' ∧ c'.stage.Answers m := by
  have hsame : ∀ {t : Stream}, (t.call? i).map (·.stage) = (s.call? i).map (·.stage) →
      ∃ c', t.call? i = some c' ∧ c'.stage.Answers m := by
    intro t ht
    rw [hc, Option.map_some] at ht
    obtain ⟨c', hc', hstage⟩ := Option.map_eq_some_iff.mp ht
    exact ⟨c', hc', hstage ▸ h.stage⟩
  -- a call does what it does by itself, or the call of another number does something
  have hacts : ∀ {j t}, Acts s j t →
      (j = i → ∃ c', t.call? i = some c' ∧ c'.stage.Answers m) →
      ∃ c', t.call? i = some c' ∧ c'.stage.Answers m := by
    intro j t hacts hself
    by_cases hj : j = i
    · exact hself hj
    · exact hsame (stage_acts_of_ne hacts hj)
  cases mv with
  | use u =>
    cases u with
    | «open» id r d =>
      have hlt := (List.getElem?_eq_some_iff.mp hc).1
      refine ⟨c, ?_, h.stage⟩
      change (s.open id r d).call? i = some c
      rw [call?_open, if_neg (Nat.ne_of_lt hlt), hc]
    | advance j now =>
      refine hacts (acts_advance s j now) ?_
      rintro rfl
      obtain ⟨c', hc', -, hstage⟩ := advance_hasAnswer hc h now
      exact ⟨c', hc', Or.inr hstage⟩
    | insist j =>
      refine hacts (acts_insist s j) ?_
      rintro rfl
      exact ⟨c, (congrArg (·.call? j) (insist_hasAnswer hc h)).trans hc, h.stage⟩
    | expire j now =>
      refine hacts (acts_expire s j now) ?_
      rintro rfl
      exact ⟨c, (congrArg (·.call? j) (expire_hasAnswer hc h now)).trans hc, h.stage⟩
    | abandon j =>
      refine hacts (acts_abandon s j) ?_
      rintro rfl
      exact abandon_hasAnswer hc h
    | take =>
      refine ⟨c, call?_take (taking_take hs) hc ?_, h.stage⟩
      rcases h.stage with hstage | hstage | hstage <;> rw [hstage] <;> exact CallStage.noConfusion
    | hangUp => exact hsame rfl
  | deliver id q => exact hsame (stage_resolve s id _ i)
  | markClosed => exact hsame rfl
  | clearPending => exact hsame ((Silent.clearPending s).stage i)
  | cancel => exact hsame rfl

theorem hasAnswer_step (hs : s.Consistent) (hc : s.call? i = some c) (h : c.HasAnswer m)
    (mv : Move) : ∃ c', (s.step mv).call? i = some c' ∧ c'.HasAnswer m := by
  obtain ⟨c', hc', hstage⟩ := answers_step hs hc h mv
  obtain ⟨c'', hc'', hev⟩ := Evolves.step hs mv i c hc
  obtain rfl := Option.some.inj (hc''.symm.trans hc')
  refine ⟨c'', hc', ?_, hstage⟩
  rw [hev.slot (by rw [h.slot]; exact Slot.noConfusion), h.slot]

/-- **A response that a call was given stays with it**, along every run. -/
theorem hasAnswer_run (hs : s.Consistent) (hc : s.call? i = some c) (h : c.HasAnswer m)
    (moves : List Move) : ∃ c', (s.run moves).call? i = some c' ∧ c'.HasAnswer m := by
  induction moves using List.reverseRecOn with
  | nil => exact ⟨c, hc, h⟩
  | append_singleton moves mv ih =>
    obtain ⟨c', hc', h'⟩ := ih
    rw [run_concat]
    exact hasAnswer_step (hs.run moves) hc' h' mv

/-- **A delivery gives the call that waits for it its response.** -/
theorem hasAnswer_deliver (hs : s.Consistent) (hc : s.call? i = some c)
    (hstage : c.stage = .awaiting) (hempty : c.slot = .empty) (m : NodeMessage) :
    ∃ c', (s.deliver c.id m).2.call? i = some c' ∧ c'.HasAnswer m := by
  have hin := hs.waiting i c hc (by rw [hstage]; rfl) hempty
  refine ⟨{ c with slot := c.slot.fill m }, ?_, by rw [hempty]; rfl, Or.inl hstage⟩
  change (s.resolve c.id (.fill m)).call? i = _
  rw [call?_resolve, if_pos hin, hc]
  rfl

end Stream

end NodeAgent
