import NodeAgent.Proofs.Stream.Teardown

/-!
# What a single move makes of a call

`Call.Evolves` is about any two points of a run, and `CallStage.Fades` about streams that are
closed. Whoever watches the clock, or asks which move it was that took a caller away, has to know
what one move may make of a call, on any stream. Three things matter:

* until its frame is offered a call waits for nothing, and offering it sets the deadline;
* the deadline stays as it is while the call is held;
* a call that runs no more stays as it is, and only the going away of its caller makes a call an
  abandoned one.
-/

namespace NodeAgent

/-- The frame of the call is not offered yet, and the call waits for nothing. -/
def CallStage.isEarly : CallStage → Bool
  | opening | entering | rechecking => true
  | _ => false

/-- The call was answered or has failed. -/
def CallStage.isOver : CallStage → Bool
  | leaving _ | returned _ => true
  | _ => false

namespace Call

/-- How far a call has come, and by when it must have come to an end. -/
def standing (c : Call) : CallStage × Instant := (c.stage, c.deadline)

/-- What a move may make of a call that `starts` at an instant, and whose caller may be `gone`. -/
inductive Course (starts : Instant → Prop) (gone : Prop) (c c' : Call) : Prop where
  | stay : c'.standing = c.standing → Course starts gone c c'
  | approach : c.stage.isEarly = true → c'.stage.isEarly = true → Course starts gone c c'
  | ready (now : Instant) : starts now → c.stage = .rechecking → c'.stage = .offering →
    c'.deadline = now + c.timeout.nanos → Course starts gone c c'
  | hold : c.stage.isHeld = true → c'.stage.isHeld = true → c'.deadline = c.deadline →
    Course starts gone c c'
  | conclude : c.stage.isRunning = true → c'.stage.isOver = true → Course starts gone c c'
  | abandon : gone → c.stage.isRunning = true → c'.stage = .abandoned → Course starts gone c c'

namespace Course

variable {starts starts' : Instant → Prop} {gone gone' : Prop} {c c' : Call}

theorem mono (h : Course starts gone c c') (hstarts : ∀ now, starts now → starts' now)
    (hgone : gone → gone') : Course starts' gone' c c' := by
  cases h with
  | stay h => exact .stay h
  | approach h h' => exact .approach h h'
  | ready now hnow h h' hdeadline => exact .ready now (hstarts now hnow) h h' hdeadline
  | hold h h' hdeadline => exact .hold h h' hdeadline
  | conclude h h' => exact .conclude h h'
  | abandon h hrun h' => exact .abandon (hgone h) hrun h'

/-- Calls are abandoned by callers that go away, and by nobody else. -/
theorem gone_of_abandoned (h : Course starts gone c c') (hthere : c.stage ≠ .abandoned)
    (habandoned : c'.stage = .abandoned) : gone := by
  cases h with
  | stay h => exact absurd ((congrArg Prod.fst h).symm.trans habandoned) hthere
  | approach _ h => rw [habandoned] at h; cases h
  | ready _ _ _ h _ => rw [habandoned] at h; cases h
  | hold _ h _ => rw [habandoned] at h; cases h
  | conclude _ h => rw [habandoned] at h; cases h
  | abandon h _ _ => exact h

/-- An abandoned call stays abandoned. -/
theorem abandoned (h : Course starts gone c c') (hc : c.stage = .abandoned) :
    c'.stage = .abandoned := by
  cases h with
  | stay h => exact (congrArg Prod.fst h).trans hc
  | approach h _ => rw [hc] at h; cases h
  | ready _ _ h _ _ => rw [hc] at h; cases h
  | hold h _ _ => rw [hc] at h; cases h
  | conclude h _ => rw [hc] at h; cases h
  | abandon _ h _ => rw [hc] at h; cases h

end Course

end Call

namespace Stream

variable {s s' t : Stream} {i : Nat} {c : Call} {starts : Nat → Instant → Prop}
  {gone : Nat → Prop}

/-- Every call became what it may become. -/
def Courses (s : Stream) (starts : Nat → Instant → Prop) (gone : Nat → Prop) (s' : Stream) :
    Prop :=
  ∀ i c c', s.call? i = some c → s'.call? i = some c' → c.Course (starts i) (gone i) c'

/-- Every call stands where it stood. -/
def Stands (s s' : Stream) : Prop :=
  ∀ j, (s'.call? j).map (·.standing) = (s.call? j).map (·.standing)

theorem Stands.resolve (s : Stream) (id : RequestId) (f : Slot → Slot) :
    s.Stands (s.resolve id f) := by
  intro j
  rw [call?_resolve]
  split
  · rw [Option.map_map]
    rfl
  · rfl

theorem Stands.clearPending (s : Stream) : s.Stands s.clearPending := by
  intro j
  rw [call?_clearPending, Option.map_map]
  congr 1
  funext c
  rw [Function.comp_apply]
  split <;> rfl

/-- Whoever is stuck waits for a place in the channel, or for its slot. -/
theorem stage_of_isStuck (h : s.isStuck c = true) :
    c.stage = .queued ∨ c.stage = .awaiting ∧ c.slot = .empty := by
  unfold isStuck at h
  split at h
  · rename_i hstage
    exact Or.inl hstage
  · rename_i hstage
    exact Or.inr ⟨hstage, of_decide_eq_true h⟩
  · cases h

theorem isRunning_of_isStuck (h : s.isStuck c = true) : c.stage.isRunning = true := by
  rcases stage_of_isStuck h with hstage | ⟨hstage, -⟩ <;> rw [hstage] <;> rfl

namespace Courses

theorem of_stands (h : s.Stands s') : s.Courses starts gone s' := by
  intro j c c' hc hc'
  have hj := h j
  rw [hc, hc', Option.map_some, Option.map_some, Option.some.injEq] at hj
  exact .stay hj

/-- One call becomes another. Its slot may have changed before. -/
theorem update {slot : Slot} {f : Call → Call} (h : s.Stands t) (hc : s.call? i = some c)
    (hslot : t.call? i = some { c with slot })
    (hf : c.Course (starts i) (gone i) (f { c with slot })) :
    s.Courses starts gone (t.update i f) := by
  intro j d d' hd hd'
  by_cases hij : i = j
  · subst hij
    rw [hc, Option.some.injEq] at hd
    rw [call?_update_of_eq hslot, Option.some.injEq] at hd'
    exact hd ▸ hd' ▸ hf
  · rw [call?_update_of_ne hij] at hd'
    exact of_stands h j d d' hd hd'

theorem enqueue (hc : s.call? i = some c) (hheld : c.stage.isHeld = true) (d : Call)
    (hcalls : s'.calls = s.calls) : s.Courses starts gone (s'.enqueue i d) := by
  have hcall : ∀ j, ({ s' with channel := s'.channel ++ [d.frame] } : Stream).call? j =
      s.call? j := by
    intro j
    rw [call?, call?, hcalls]
  exact update (fun j ↦ by rw [hcall]) hc ((hcall i).trans hc) (.hold hheld rfl rfl)

theorem giveUp (hc : s.call? i = some c) (hrun : c.stage.isRunning = true) (e : StreamError) :
    s.Courses starts gone (s.giveUp i e) :=
  update (t := { s with senders := s.senders.filter (· ≠ i) }) (fun _ ↦ rfl) hc hc
    (.conclude hrun rfl)

theorem offer (hc : s.call? i = some c) (hheld : c.stage.isHeld = true) :
    s.Courses starts gone (s.offer i c) := by
  unfold Stream.offer
  split
  · exact enqueue hc hheld c rfl
  · exact update (t := { s with senders := s.senders ++ [i] }) (fun _ ↦ rfl) hc hc
      (.hold hheld rfl rfl)

theorem advance (s : Stream) (i : Nat) (now : Instant) (hstarts : starts i now) :
    s.Courses starts gone (s.advance i now) := by
  unfold Stream.advance
  split
  · exact of_stands fun _ ↦ rfl
  · rename_i c hc
    split
    · rename_i hstage
      split
      · exact update (fun _ ↦ rfl) hc hc (.conclude (hstage ▸ rfl) rfl)
      · exact update (fun _ ↦ rfl) hc hc (.approach (hstage ▸ rfl) rfl)
    · rename_i hstage
      obtain ⟨slot, hslot⟩ := exists_call?_resolve hc c.id .drop
      exact update (t := s.enter i c.id) (.resolve s c.id .drop) hc hslot
        (.approach (hstage ▸ rfl) rfl)
    · rename_i hstage
      split
      · exact update (fun _ ↦ rfl) hc hc (.conclude (hstage ▸ rfl) rfl)
      · exact update (fun _ ↦ rfl) hc hc (.ready now hstarts hstage rfl rfl)
    · rename_i hstage
      split
      · exact giveUp hc (hstage ▸ rfl) _
      · exact offer hc (hstage ▸ rfl)
    · rename_i hstage
      split
      · exact giveUp hc (hstage ▸ rfl) _
      · exact of_stands fun _ ↦ rfl
    · rename_i hstage
      split
      · exact of_stands fun _ ↦ rfl
      · exact update (fun _ ↦ rfl) hc hc (.conclude (hstage ▸ rfl) rfl)
      · exact update (fun _ ↦ rfl) hc hc (.conclude (hstage ▸ rfl) rfl)
    · rename_i hstage
      obtain ⟨slot, hslot⟩ := exists_call?_resolve hc c.id .drop
      exact update (t := s.forget c.id) (.resolve s c.id .drop) hc hslot
        (.conclude (hstage ▸ rfl) rfl)
    · exact of_stands fun _ ↦ rfl
    · exact of_stands fun _ ↦ rfl

theorem insist (s : Stream) (i : Nat) : s.Courses starts gone (s.insist i) := by
  unfold Stream.insist
  split
  · exact of_stands fun _ ↦ rfl
  · rename_i c hc
    split
    · rename_i hstage
      split
      · exact offer hc (hstage ▸ rfl)
      · exact of_stands fun _ ↦ rfl
    · exact of_stands fun _ ↦ rfl

theorem expire (s : Stream) (i : Nat) (now : Instant) :
    s.Courses starts gone (s.expire i now) := by
  unfold Stream.expire
  split
  · exact of_stands fun _ ↦ rfl
  · rename_i c hc
    split
    · rename_i h
      exact giveUp hc (isRunning_of_isStuck (Bool.and_eq_true_iff.mp h).1) _
    · exact of_stands fun _ ↦ rfl

theorem abandon (s : Stream) (i : Nat) (hgone : gone i) :
    s.Courses starts gone (s.abandon i) := by
  unfold Stream.abandon
  split
  · exact of_stands fun _ ↦ rfl
  · rename_i c hc
    split
    · rename_i hrun
      exact update (t := { s with senders := s.senders.filter (· ≠ i) }) (fun _ ↦ rfl) hc hc
        (.abandon hgone hrun rfl)
    · exact of_stands fun _ ↦ rfl

theorem take (h : Taking s s') : s.Courses starts gone s' := by
  cases h with
  | nothing _ => exact of_stands fun _ ↦ rfl
  | free _ _ => exact of_stands fun _ ↦ rfl
  | pass _ _ hc hqueued => exact enqueue hc (by rw [hqueued]; rfl) _ rfl

theorem «open» (s : Stream) (id : RequestId) (r : Request) (d : Duration) :
    s.Courses starts gone (s.open id r d) := by
  intro j c c' hc hc'
  have hlt := (List.getElem?_eq_some_iff.mp hc).1
  rw [call?_open, if_neg (by omega), hc, Option.some.injEq] at hc'
  exact .stay (by rw [hc'])

end Courses

/-- **What a move makes of the calls.** A call starts only if the move lets it act, at the instant
of the move, and only its caller makes it go away. -/
theorem courses_step (hs : s.Consistent) (mv : Move) :
    s.Courses (fun i now ↦ mv = .use (.advance i now)) (fun i ↦ mv = .use (.abandon i))
      (s.step mv) := by
  cases mv with
  | use u =>
    cases u with
    | «open» id r d => exact .open s id r d
    | advance i now => exact .advance s i now rfl
    | insist i => exact .insist s i
    | expire i now => exact .expire s i now
    | abandon i => exact .abandon s i rfl
    | take => exact .take (taking_take hs)
    | hangUp => exact .of_stands fun _ ↦ rfl
  | deliver id m => exact .of_stands (.resolve s id _)
  | clearPending => exact .of_stands (.clearPending s)
  | _ => exact .of_stands fun _ ↦ rfl

end Stream

end NodeAgent
