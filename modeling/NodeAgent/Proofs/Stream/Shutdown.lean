import NodeAgent.Proofs.Stream.Teardown

/-!
# Closing a stream while calls are under way

Closing a stream is three operations: the flag that refuses new calls is raised, the table is
emptied, and the calls that queue are told to give up. Others go on between any two of them. A call
may have seen the flag down, and enter the table after it was emptied; another one may offer its
frame, or have it taken, while the table is being emptied; a third one may be about to wait for a
slot that was dropped. If one of them came to wait for something that nobody does any more, its
caller would be left to wait for the time to run out.

A `Shutdown` is a stream with how far its closing has come. Two facts carry the argument. From the
moment at which the table is emptied no call waits with an empty slot (`Stream.IsSettled`), since a
call that enters later finds the flag up at its second look and never comes to wait. And from then
on the table holds nobody whose caller went away (`Sound.attended`), since a caller can go away only
while its call waits, so that the entries that are left are taken out by the calls they belong to.

## Main statements

* `Sound.step`: what every move keeps.
* `complete_run`: once a stream is closed, no caller is left waiting.
-/

namespace NodeAgent

namespace CallStage

/-- The caller may go away: the call has not begun, or it waits. -/
def isPausing : CallStage → Bool
  | opening | queued | awaiting => true
  | _ => false

/-- The call has not begun, or it was refused. -/
def isBarred : CallStage → Bool
  | opening | abandoned | returned (.error .streamClosed) => true
  | _ => false

/-- On a closed stream a call that has not begun is refused. -/
theorem Fades.isBarred {cancelled gone : Prop} {slot : Slot} {a b : CallStage}
    (h : Fades cancelled gone slot a b) (ha : a.isBarred = true) : b.isBarred = true := by
  have hfree : a.isHeld = true → False := by
    cases a <;> simp_all [CallStage.isBarred, CallStage.isHeld]
  cases h with
  | stay => exact ha
  | refused => rfl
  | abandon _ => rfl
  | hold hheld _ => exact (hfree hheld).elim
  | giveUp hheld => exact (hfree hheld).elim
  | expired hheld _ => exact (hfree hheld).elim
  | _ => cases ha

end CallStage

/-- How far the closing of a stream has come. -/
inductive ClosingPhase where
  /-- Nobody closes the stream. -/
  | idle
  /-- New calls are refused, and the table is about to be emptied. -/
  | clearing
  /-- The table was emptied, and the calls that queue are about to be told. -/
  | cancelling
  | done
deriving DecidableEq

/-- Whether the table was emptied. -/
def ClosingPhase.isCleared : ClosingPhase → Bool
  | cancelling | done => true
  | _ => false

/-- A stream that is perhaps being closed. -/
structure Shutdown where
  stream : Stream
  phase : ClosingPhase := .idle

namespace Shutdown

/-! ## Moves -/

/-- One operation on a stream that is perhaps being closed. -/
inductive Move where
  | use (u : Stream.Use)
  | deliver (id : RequestId) (m : NodeMessage)
  /-- Somebody begins to close the stream. Whoever is not the first does nothing. -/
  | close
  /-- Whoever began to close the stream goes on. -/
  | goOn

/-- What a move does to the stream, if anything. -/
def moveOf (s : Shutdown) : Move → Option Stream.Move
  | .use (.abandon i) =>
    if (s.stream.call? i).any (·.stage.isPausing) then some (.use (.abandon i)) else none
  | .use u => some (.use u)
  | .deliver id m => some (.deliver id m)
  | .close => if s.stream.closed then none else some .markClosed
  | .goOn =>
    match s.phase with
    | .clearing => some .clearPending
    | .cancelling => some .cancel
    | .idle | .done => none

/-- How far the closing has come after a move. -/
def phaseAfter (s : Shutdown) : Move → ClosingPhase
  | .close => if s.stream.closed then s.phase else .clearing
  | .goOn =>
    match s.phase with
    | .idle => .idle
    | .clearing => .cancelling
    | .cancelling | .done => .done
  | _ => s.phase

/-- The stream after a move. -/
def step (s : Shutdown) (mv : Move) : Shutdown :=
  ⟨(s.moveOf mv).elim s.stream s.stream.step, s.phaseAfter mv⟩

/-- The stream after a run. -/
def run (s : Shutdown) (moves : List Move) : Shutdown := moves.foldl step s

theorem run_append (s : Shutdown) (l l' : List Move) : s.run (l ++ l') = (s.run l).run l' :=
  List.foldl_append

theorem run_concat (s : Shutdown) (l : List Move) (mv : Move) :
    s.run (l ++ [mv]) = (s.run l).step mv := by
  rw [run_append]
  rfl

variable {s : Shutdown} {mv : Move} {i : Nat} {c c' : Call} {id : RequestId}
  {r : Except StreamError NodeMessage}

/-- Without anybody in between, closing a stream is what `Stream.close` does. -/
theorem close_alone (hphase : s.phase = .idle) (hopen : s.stream.closed = false) :
    s.run [.close, .goOn, .goOn] = ⟨s.stream.close, .done⟩ := by
  obtain ⟨stream, phase⟩ := s
  obtain rfl : phase = .idle := hphase
  change stream.closed = false at hopen
  have hfirst : step ⟨stream, .idle⟩ .close = ⟨stream.markClosed, .clearing⟩ := by
    rw [step, moveOf, phaseAfter, hopen]
    rfl
  change step (step (step ⟨stream, .idle⟩ .close) .goOn) .goOn = _
  rw [hfirst, Stream.close, hopen]
  rfl

/-- A second closing changes nothing. -/
theorem step_close_of_closed (h : s.stream.closed = true) : s.step .close = s := by
  rw [step, moveOf, phaseAfter, if_pos h, if_pos h]
  rfl

theorem step_goOn_of_done (h : s.phase = .done) : s.step .goOn = s := by
  obtain ⟨stream, phase⟩ := s
  obtain rfl : phase = .done := h
  rfl

/-- What holds of a stream before and after each of its moves holds here. -/
theorem stream_step {P : Stream → Prop} (h : P s.stream)
    (hstep : ∀ m, s.moveOf mv = some m → P (s.stream.step m)) : P (s.step mv).stream := by
  change P ((s.moveOf mv).elim s.stream s.stream.step)
  cases hm : s.moveOf mv with
  | none => exact h
  | some m => exact hstep m hm

/-- A caller goes away only where its call has not begun or waits. -/
theorem isPausing_of_abandon (h : s.moveOf mv = some (.use (.abandon i)))
    (hc : s.stream.call? i = some c) : c.stage.isPausing = true := by
  unfold moveOf at h
  split at h
  · rename_i j
    split at h
    · rename_i hpausing
      obtain rfl : j = i := by simpa using h
      rwa [hc, Option.any_some] at hpausing
    · cases h
  · rename_i u hu
    obtain rfl : u = .abandon i := by simpa using h
    exact absurd rfl (hu i)
  · cases h
  · split at h <;> cases h
  · split at h <;> cases h

/-- Only a delivery delivers. -/
theorem eq_deliver_of_moveOf {m : NodeMessage} (h : s.moveOf mv = some (.deliver id m)) :
    mv = .deliver id m := by
  unfold moveOf at h
  split at h
  · split at h <;> cases h
  · cases h
  · obtain ⟨rfl, rfl⟩ := Stream.Move.deliver.inj (Option.some.inj h)
    rfl
  · split at h <;> cases h
  · split at h <;> cases h

end Shutdown

namespace Stream

variable {s : Stream} {i j : Nat} {c c' : Call} {id : RequestId}

/-! ## Entries of the table -/

/-- Only a call that looks at the flag for the second time has just entered the table. -/
theorem entry_step {mv : Move} (h : (s.step mv).pending.get? id = some j) :
    s.pending.get? id = some j ∨ ∃ c, (s.step mv).call? j = some c ∧ c.stage = .rechecking := by
  have hresolve : ∀ {k f}, (s.resolve k f).pending.get? id = some j →
      s.pending.get? id = some j := by
    intro k f hk
    rw [get?_resolve] at hk
    split at hk
    · cases hk
    · exact hk
  have hacts : ∀ {i s'}, Acts s i s' → s'.pending.get? id = some j →
      s.pending.get? id = some j ∨ ∃ c, s'.call? j = some c ∧ c.stage = .rechecking := by
    intro i s' hacts hj
    cases hacts with
    | @enter c hc _ =>
      change ((s.forget c.id).pending.insert c.id i).get? id = some j at hj
      rw [Table.get?_insert] at hj
      split at hj
      · obtain rfl := Option.some.inj hj
        obtain ⟨slot, hd⟩ := exists_call?_resolve hc c.id .drop
        exact Or.inr ⟨_, call?_update_of_eq (s := s.enter i c.id) hd _, rfl⟩
      · exact Or.inl (hresolve hj)
    | leave e _ _ => exact Or.inl (hresolve hj)
    | @offer c _ _ =>
      unfold offer at hj
      split at hj <;> exact Or.inl hj
    | _ => exact Or.inl hj
  cases mv with
  | use u =>
    cases u with
    | «open» id r d => exact Or.inl h
    | advance i now => exact hacts (acts_advance s i now) h
    | insist i => exact hacts (acts_insist s i) h
    | expire i now => exact hacts (acts_expire s i now) h
    | abandon i => exact hacts (acts_abandon s i) h
    | take =>
      refine Or.inl ?_
      change s.take.2.pending.get? id = some j at h
      unfold take admitSenders at h
      split at h
      · exact h
      · dsimp only at h
        split at h
        · exact h
        · split at h <;> exact h
    | hangUp => exact Or.inl h
  | deliver k m => exact Or.inl (hresolve h)
  | clearPending => cases h
  | _ => exact Or.inl h

end Stream

namespace Shutdown

variable {s : Shutdown} {mv : Move} {i : Nat} {c c' : Call} {id : RequestId}
  {r : Except StreamError NodeMessage} {node : NodeId} {capacity : Nat} {moves : List Move}

/-! ## What every move keeps -/

/-- The flags tell how far the closing has come, and since the table was emptied nobody waits with
an empty slot and no entry is left behind by a caller that went away. -/
structure Sound (s : Shutdown) : Prop where
  consistent : s.stream.Consistent
  closed : s.stream.closed = true ↔ s.phase ≠ .idle
  cancelled : s.stream.cancelled = true ↔ s.phase = .done
  settled : s.phase.isCleared = true → s.stream.IsSettled
  attended : s.phase.isCleared = true → ∀ id i c, s.stream.pending.get? id = some i →
    s.stream.call? i = some c → c.stage ≠ .abandoned

namespace Sound

theorem of_new (node : NodeId) (capacity : Nat) : Sound ⟨{ node, capacity }, .idle⟩ :=
  ⟨.of_empty rfl rfl rfl, by simp, by simp, nofun, nofun⟩

theorem closed_of_isCleared (h : s.Sound) (hcleared : s.phase.isCleared = true) :
    s.stream.closed = true := by
  rw [h.closed]
  rintro hidle
  rw [hidle] at hcleared
  cases hcleared

/-- Whoever has an entry now had one before or is about to look at the flag. A caller that went away
in between had a call that waited, with a slot that was no longer empty. -/
theorem attended_step (h : s.Sound) (hcleared : s.phase.isCleared = true) {m : Stream.Move}
    (hm : s.moveOf mv = some m) (hentry : (s.stream.step m).pending.get? id = some i)
    (hc' : (s.stream.step m).call? i = some c') : c'.stage ≠ .abandoned := by
  intro hgone
  rcases Stream.entry_step hentry with hin | ⟨d, hd, hd'⟩
  · obtain ⟨c, hc, -, hempty, hpending⟩ := h.consistent.entry id i hin
    have hfades := Stream.fades_step h.consistent (h.closed_of_isCleared hcleared) m i c c' hc hc'
    rw [hgone] at hfades
    generalize hstage : c.stage = a at hfades
    cases hfades with
    | stay => exact h.attended hcleared id i c hin hc hstage
    | hold _ hheld => cases hheld
    | abandon hwhich =>
      have hpausing := isPausing_of_abandon (hwhich ▸ hm) hc
      have hheld : c.stage.isHeld = true := by
        revert hpausing hpending
        cases c.stage <;> simp [CallStage.isPausing, CallStage.mayBePending, CallStage.isHeld]
      exact h.settled hcleared i c hc hheld hempty
  · rw [hc', Option.some.injEq] at hd
    rw [← hd, hgone] at hd'
    cases hd'

/-- A move that is not one of closing. -/
theorem of_alike (h : s.Sound) (hphase : s.phaseAfter mv = s.phase)
    (halike : ∀ m, s.moveOf mv = some m → Stream.Alike s.stream (s.stream.step m)) :
    (s.step mv).Sound := by
  have hflags : Stream.Alike s.stream (s.step mv).stream :=
    stream_step (P := Stream.Alike s.stream) (.refl _) halike
  have hsame : (s.step mv).phase = s.phase := hphase
  refine ⟨?_, ?_, ?_, fun hcleared ↦ ?_, fun hcleared id i c ↦ ?_⟩
  · exact stream_step (P := Stream.Consistent) h.consistent fun m _ ↦ h.consistent.step m
  · rw [hflags.closed, hsame]
    exact h.closed
  · rw [hflags.cancelled, hsame]
    exact h.cancelled
  · rw [hsame] at hcleared
    exact stream_step (P := Stream.IsSettled) (h.settled hcleared) fun m _ ↦
      (h.settled hcleared).step h.consistent (h.closed_of_isCleared hcleared) m
  · rw [hsame] at hcleared
    exact stream_step (P := fun t ↦ t.pending.get? id = some i → t.call? i = some c →
      c.stage ≠ .abandoned) (h.attended hcleared id i c) fun m hm ↦ h.attended_step hcleared hm

/-- **Every move keeps a shutdown sound.** -/
theorem step (h : s.Sound) (mv : Move) : (s.step mv).Sound := by
  cases mv with
  | use u =>
    refine h.of_alike rfl fun m hm ↦ ?_
    have huse : m = .use u := by
      unfold moveOf at hm
      split at hm
      · rename_i j hu
        rw [Move.use.inj hu]
        split at hm
        · exact (Option.some.inj hm).symm
        · cases hm
      · rename_i hu
        rw [Move.use.inj hu]
        exact (Option.some.inj hm).symm
      all_goals rename_i hu; cases hu
    rw [huse]
    exact .use _ u
  | deliver id m =>
    refine h.of_alike rfl fun m' hm ↦ ?_
    obtain rfl : .deliver id m = m' := Option.some.inj hm
    exact .resolve _ id _
  | close =>
    cases hclosed : s.stream.closed with
    | true =>
      rw [step_close_of_closed hclosed]
      exact h
    | false =>
      have hmarked : s.step .close = ⟨s.stream.markClosed, .clearing⟩ := by
        rw [Shutdown.step, moveOf, phaseAfter, hclosed]
        rfl
      rw [hmarked]
      refine ⟨h.consistent.step .markClosed, by simp [Stream.markClosed], ?_,
        (fun hcleared ↦ by cases hcleared), fun hcleared ↦ by cases hcleared⟩
      have hidle : s.phase = .idle := by
        by_contra hne
        rw [h.closed.mpr hne] at hclosed
        cases hclosed
      change s.stream.cancelled = true ↔ ClosingPhase.clearing = .done
      rw [h.cancelled, hidle]
      simp
  | goOn =>
    cases hphase : s.phase with
    | idle =>
      refine h.of_alike (by rw [phaseAfter, hphase]) fun m hm ↦ ?_
      rw [moveOf, hphase] at hm
      cases hm
    | clearing =>
      have hcleared : s.step .goOn = ⟨s.stream.clearPending, .cancelling⟩ := by
        rw [Shutdown.step, moveOf, phaseAfter, hphase]
        rfl
      rw [hcleared]
      refine ⟨h.consistent.clearPending, ?_, ?_, fun _ ↦
        Stream.isSettled_clearPending h.consistent, fun _ _ _ _ hin ↦ by cases hin⟩
      · exact iff_of_true (h.closed.mpr (by rw [hphase]; exact ClosingPhase.noConfusion))
          ClosingPhase.noConfusion
      · change s.stream.cancelled = true ↔ ClosingPhase.cancelling = .done
        rw [h.cancelled, hphase]
        simp
    | cancelling =>
      have hdone : s.step .goOn = ⟨s.stream.cancel, .done⟩ := by
        rw [Shutdown.step, moveOf, phaseAfter, hphase]
        rfl
      have hcleared : s.phase.isCleared = true := by rw [hphase]; rfl
      rw [hdone]
      refine ⟨h.consistent.step .cancel, ?_, by simp [Stream.cancel], fun _ ↦ h.settled hcleared,
        fun _ ↦ h.attended hcleared⟩
      exact iff_of_true (h.closed_of_isCleared hcleared) ClosingPhase.noConfusion
    | done =>
      refine h.of_alike (by rw [phaseAfter, hphase]) fun m hm ↦ ?_
      rw [moveOf, hphase] at hm
      cases hm

theorem run (h : s.Sound) (moves : List Move) : (s.run moves).Sound := by
  induction moves using List.reverseRecOn with
  | nil => exact h
  | append_singleton moves mv ih =>
    rw [run_concat]
    exact ih.step mv

end Sound

end Shutdown

/-! ## What calls may return -/

/-- The call may still return the result, if its stream is closed and cancelled. -/
def Call.MayReturn (c : Call) (r : Except StreamError NodeMessage) : Prop :=
  match c.stage with
  | .opening | .entering | .rechecking => r = .error .streamClosed
  | .offering | .queued | .awaiting =>
    r = .error .streamClosed ∨ ∃ m, c.slot = .filled m ∧ r = .ok m
  | .leaving e => r = .error e
  | .returned r' => r = r'
  | .abandoned => False

namespace Call.MayReturn

variable {c c' : Call} {r : Except StreamError NodeMessage} {gone : Prop}

theorem of_isHeld (h : c.stage.isHeld = true) :
    c.MayReturn r ↔ r = .error .streamClosed ∨ ∃ m, c.slot = .filled m ∧ r = .ok m := by
  unfold MayReturn
  cases hstage : c.stage <;> simp_all [CallStage.isHeld]

theorem of_result (h : c.result? = some r) : c.MayReturn r := by
  rw [Call.result?_eq_some] at h
  rw [MayReturn, h]

/-- What a call may return later it may return now, unless it waits with an empty slot. -/
theorem of_fades {cancelled : Prop} (h : c'.MayReturn r) (hev : c.Evolves c')
    (hcancelled : cancelled) (hfades : c.stage.Fades cancelled gone c.slot c'.stage)
    (hslot : c.stage.isHeld = true → c.slot ≠ .empty) : c.MayReturn r := by
  generalize ha : c.stage = a at hfades hslot
  generalize hb : c'.stage = b at hfades
  have hkept : a.isHeld = true → c'.slot = c.slot := fun hheld ↦ hev.slot (hslot hheld)
  cases hfades with
  | stay =>
    unfold MayReturn at h ⊢
    rw [ha]
    rw [hb] at h
    cases a <;> simp_all [CallStage.isHeld]
  | hold hheld hheld' =>
    rw [of_isHeld (by rw [hb]; exact hheld'), hkept hheld] at h
    rwa [of_isHeld (by rw [ha]; exact hheld)]
  | giveUp hheld =>
    rw [MayReturn, hb] at h
    rw [of_isHeld (by rw [ha]; exact hheld)]
    exact Or.inl h
  | answered hfilled =>
    rw [MayReturn, hb] at h
    rw [of_isHeld (by rw [ha]; rfl)]
    exact Or.inr ⟨_, hfilled, h⟩
  | expired hheld hempty => exact absurd (hempty hcancelled) (hslot hheld)
  | abandon _ =>
    rw [MayReturn, hb] at h
    exact h.elim
  | _ =>
    rw [MayReturn, hb] at h
    rw [MayReturn, ha]
    exact h

end Call.MayReturn

namespace Shutdown

variable {s : Shutdown} {mv : Move} {i : Nat} {c c' : Call} {id : RequestId}
  {r : Except StreamError NodeMessage} {moves later : List Move}

theorem evolves_step (h : s.Sound) (mv : Move) : s.stream.Evolves (s.step mv).stream :=
  stream_step (P := s.stream.Evolves) (.refl _) fun m _ ↦ .step h.consistent m

theorem evolves_run (h : s.Sound) (moves : List Move) : s.stream.Evolves (s.run moves).stream := by
  induction moves using List.reverseRecOn with
  | nil => exact .refl _
  | append_singleton moves mv ih =>
    rw [run_concat]
    exact ih.trans (evolves_step (h.run moves) mv)

/-- Once the table was emptied, it was. -/
theorem isCleared_run (h : s.phase.isCleared = true) (hsound : s.Sound) (moves : List Move) :
    (s.run moves).phase.isCleared = true := by
  induction moves using List.reverseRecOn with
  | nil => exact h
  | append_singleton moves mv ih =>
    rw [run_concat]
    have hclosed := (hsound.run moves).closed_of_isCleared ih
    change ((s.run moves).phaseAfter mv).isCleared = true
    unfold phaseAfter
    split
    · rw [if_pos hclosed]
      exact ih
    · split
      · rename_i hidle
        rw [hidle] at ih
        cases ih
      · rfl
      · rfl
      · rfl
    · exact ih

/-- A stream that was closed stays so. -/
theorem done_run (h : s.phase = .done) (hsound : s.Sound) (moves : List Move) :
    (s.run moves).phase = .done := by
  induction moves using List.reverseRecOn with
  | nil => exact h
  | append_singleton moves mv ih =>
    rw [run_concat]
    have hclosed : (s.run moves).stream.closed = true := by
      rw [(hsound.run moves).closed, ih]
      exact ClosingPhase.noConfusion
    change (s.run moves).phaseAfter mv = .done
    unfold phaseAfter
    split
    · rw [if_pos hclosed]
      exact ih
    · rw [ih]
    · exact ih

/-- What becomes of a call with a move, if the stream was closed. -/
theorem fades_step (h : s.Sound) (hclosed : s.stream.closed = true)
    (hc : s.stream.call? i = some c) (hc' : (s.step mv).stream.call? i = some c') :
    c.stage.Fades (s.stream.cancelled = true) True c.slot c'.stage := by
  revert hc'
  refine stream_step (P := fun t ↦ t.call? i = some c' → CallStage.Fades _ _ _ _ c'.stage)
    (fun hc' ↦ ?_) fun m _ hc' ↦ ?_
  · rw [hc, Option.some.injEq] at hc'
    rw [hc']
    exact .stay _
  · exact (Stream.fades_step h.consistent hclosed m i c c' hc hc').mono id fun _ ↦ trivial

/-- Since the table was emptied, nobody comes to wait. -/
theorem isHeld_run (h : s.Sound) (hcleared : s.phase.isCleared = true)
    (hc : s.stream.call? i = some c) (hc' : (s.run moves).stream.call? i = some c')
    (hheld : c'.stage.isHeld = true) : c.stage.isHeld = true := by
  induction moves using List.reverseRecOn generalizing c' with
  | nil =>
    change s.stream.call? i = some c' at hc'
    rw [hc, Option.some.injEq] at hc'
    rwa [hc']
  | append_singleton moves mv ih =>
    rw [run_concat] at hc'
    obtain ⟨d, hd, -⟩ := evolves_run h moves i c hc
    have hclosed := (h.run moves).closed_of_isCleared (isCleared_run hcleared h moves)
    exact ih hd ((fades_step (h.run moves) hclosed hd hc').isHeld hheld)

/-- What a call may return after a run it may return now, if the stream is closed. -/
theorem mayReturn_run (h : s.Sound) (hdone : s.phase = .done) (hc : s.stream.call? i = some c)
    (hc' : (s.run moves).stream.call? i = some c') (hmay : c'.MayReturn r) : c.MayReturn r := by
  induction moves using List.reverseRecOn generalizing c' with
  | nil =>
    change s.stream.call? i = some c' at hc'
    rw [hc, Option.some.injEq] at hc'
    rwa [hc']
  | append_singleton moves mv ih =>
    rw [run_concat] at hc'
    obtain ⟨d, hd, -⟩ := evolves_run h moves i c hc
    have hsound := h.run moves
    have hphase := done_run hdone h moves
    have hcleared : (s.run moves).phase.isCleared = true := by rw [hphase]; rfl
    have hclosed := hsound.closed_of_isCleared hcleared
    obtain ⟨e, he, hev⟩ := evolves_step hsound mv i d hd
    rw [hc', Option.some.injEq] at he
    subst he
    exact ih hd (hmay.of_fades hev (hsound.cancelled.mpr hphase)
      (fades_step hsound hclosed hd hc') (hsound.settled hcleared i d hd))

/-! ## Responses that came before -/

/-- A message in the slot of a call that is not lost was delivered while the call waited for it. -/
theorem delivered_of_filled {m : NodeMessage} (h : s.Sound) (hempty : s.stream.calls = [])
    (hc : (s.run moves).stream.call? i = some c) (hm : c.slot = .filled m)
    (hlost : c.stage.isLost = false) :
    ∃ before after, moves = before ++ .deliver c.id m :: after ∧
      (s.run before).stream.Waits i c.id := by
  induction moves using List.reverseRecOn generalizing c with
  | nil =>
    change s.stream.call? i = some c at hc
    rw [Stream.call?, hempty] at hc
    cases hc
  | append_singleton moves mv ih =>
    have hsound := h.run moves
    rw [run_concat] at hc
    have hback : ∀ d, (s.run moves).stream.call? i = some d → d.slot = .filled m →
        ∃ before after, moves ++ [mv] = before ++ .deliver c.id m :: after ∧
          (s.run before).stream.Waits i c.id := by
      intro d hd hdm
      obtain ⟨e, he, hev⟩ := evolves_step hsound mv i d hd
      rw [hc, Option.some.injEq] at he
      subst he
      obtain ⟨before, after, rfl, hwaits⟩ := ih hd hdm (hev.stage.isLost_eq_false hlost)
      rw [← hev.id] at hwaits ⊢
      exact ⟨before, after ++ [mv], by simp, hwaits⟩
    revert hc
    refine stream_step (P := fun t ↦ t.call? i = some c → _) (fun hc ↦ hback c hc hm)
      fun q hq hc ↦ ?_
    rcases Stream.slot_step hsound.consistent hc hm with ⟨d, hd, hdm⟩ | ⟨rfl, hin⟩
    · exact hback d hd hdm
    · -- the last move is the delivery
      have hmv : mv = .deliver c.id m := eq_deliver_of_moveOf hq
      exact ⟨moves, [], by rw [hmv], hsound.consistent.waits hin hc hlost⟩

/-! ## Completion -/

/-- A call that is allowed three operations of its own returns, if the stream was closed. -/
theorem advanceBy_returns (h : s.Sound) (hdone : s.phase = .done)
    (hc : s.stream.call? i = some c) (hthere : c.stage ≠ .abandoned) (now : Instant) :
    ∃ c' r, (s.stream.advanceBy i now 3).call? i = some c' ∧ c'.result? = some r := by
  have hcleared : s.phase.isCleared = true := by rw [hdone]; rfl
  have hclosed := h.closed_of_isCleared hcleared
  obtain ⟨c', hc', hthere', hle⟩ := Stream.advanceBy_settled h.consistent hclosed
    (h.cancelled.mpr hdone) (h.settled hcleared) hc hthere now 3
  have hbound := c.stage.toReturn_le
  obtain ⟨r, hr⟩ := CallStage.exists_returned (by omega) hthere'
  exact ⟨c', r, hc', Call.result?_eq_some.mpr hr⟩

/-- A call that was made after the stream was closed is refused. -/
theorem isBarred_run (h : s.Sound) (hdone : s.phase = .done) (hnone : s.stream.call? i = none)
    (hc : (s.run moves).stream.call? i = some c) : c.stage.isBarred = true := by
  induction moves using List.reverseRecOn generalizing c with
  | nil =>
    change s.stream.call? i = some c at hc
    rw [hnone] at hc
    cases hc
  | append_singleton moves mv ih =>
    rw [run_concat] at hc
    have hsound := h.run moves
    have hphase := done_run hdone h moves
    have hclosed := hsound.closed_of_isCleared (by rw [hphase]; rfl)
    cases hbefore : (s.run moves).stream.call? i with
    | none =>
      revert hc
      refine stream_step (P := fun t ↦ t.call? i = some c → c.stage.isBarred = true) (fun hc ↦ ?_)
        fun m _ hc ↦ by rw [Stream.stage_of_new hbefore hc]; rfl
      rw [hbefore] at hc
      cases hc
    | some d =>
      exact (fades_step hsound hclosed hbefore hc).isBarred (ih hbefore)

/-- Only calls that were made before the stream was closed send frames. -/
theorem channel_run (h : s.Sound) (hdone : s.phase = .done) {f : RequestFrame}
    (hf : f ∈ (s.run moves).stream.channel) :
    f ∈ s.stream.channel ∨ ∃ i c, s.stream.call? i = some c ∧ f = c.frame := by
  induction moves using List.reverseRecOn with
  | nil => exact Or.inl hf
  | append_singleton moves mv ih =>
    rw [run_concat] at hf
    have hsound := h.run moves
    have hstep : ((s.run moves).step mv).stream = (s.run moves).stream ∨
        ∃ m, ((s.run moves).step mv).stream = (s.run moves).stream.step m :=
      stream_step (P := fun t ↦ t = (s.run moves).stream ∨ ∃ m, t = (s.run moves).stream.step m)
        (Or.inl rfl) fun m _ ↦ Or.inr ⟨m, rfl⟩
    rcases hstep with hlast | ⟨m, hlast⟩
    · rw [hlast] at hf
      exact ih hf
    · rw [hlast] at hf
      obtain ⟨l, hsends⟩ := Stream.sends_step hsound.consistent m
      have hkept : ∀ f ∈ (s.run moves).stream.kept m, f ∈ (s.run moves).stream.channel := by
        intro f hf
        unfold Stream.kept at hf
        split at hf
        · exact List.mem_of_mem_tail hf
        · cases hf
        · exact hf
      cases hsends with
      | nothing hchannel _ =>
        rw [hchannel] at hf
        exact ih (hkept f hf)
      | @frame i d hd hunsent hchannel hawaits _ =>
        rw [hchannel] at hf
        rcases List.mem_append.mp hf with hf | hf
        · exact ih (hkept f hf)
        · rw [List.mem_singleton.mp hf]
          cases hc : s.stream.call? i with
          | some c =>
            obtain ⟨d', hd', hev⟩ := evolves_run h moves i c hc
            rw [hd, Option.some.injEq] at hd'
            exact Or.inr ⟨i, c, hc, by rw [hd', hev.frame]⟩
          | none =>
            -- a call that was made since is refused, and does not come to wait
            obtain ⟨e, he, hstage⟩ := Stream.exists_of_awaits hawaits
            rw [← hlast, ← run_concat] at he
            have hbarred := isBarred_run h hdone hc he
            rw [hstage] at hbarred
            cases hbarred

/-- The table is empty when no call runs any more, if the stream was closed. -/
theorem pendingCount_eq_zero (h : s.Sound) (hcleared : s.phase.isCleared = true)
    (hover : ∀ i c, s.stream.call? i = some c → c.stage.isRunning = false) :
    s.stream.pendingCount = 0 := by
  have hnone : ∀ id, s.stream.pending.get? id = none := by
    intro id
    cases hin : s.stream.pending.get? id with
    | none => rfl
    | some i =>
      obtain ⟨c, hc, -, -, hpending⟩ := h.consistent.entry id i hin
      have hover := hover i c hc
      have hthere := h.attended hcleared id i c hin hc
      exfalso
      revert hpending hover hthere
      cases c.stage <;> simp [CallStage.mayBePending, CallStage.isRunning]
  rw [Stream.pendingCount, Table.size, Table.entries_eq_nil hnone, List.length_nil]

/-- What holds of a stream once it was closed: of the calls that were in progress then, of those
that came later, and of the table. -/
structure Complete (start : Shutdown) (moves : List Move) : Prop where
  /-- Whichever call is allowed three operations of its own, at whatever time, returns: it needs no
  response, and its time need not run out. -/
  soon : ∀ later i c now, let s := ((start.run moves).run later).stream
    s.call? i = some c → c.stage ≠ .abandoned →
    ∃ c' r, (s.advanceBy i now 3).call? i = some c' ∧ c'.result? = some r
  /-- A call in progress returns that the stream was closed, or that its time ran out, which it had
  found out by then, or the response that it was delivered while it waited and before the table was
  emptied. -/
  outcome : ∀ i c, (start.run moves).stream.call? i = some c → c.stage.isRunning = true →
    ∀ later c' r, ((start.run moves).run later).stream.call? i = some c' → c'.result? = some r →
      r = .error .streamClosed ∨
      (∃ d, r = .error (.timeout d) ∧ c.stage = .leaving (.timeout d)) ∨
      ∃ m before after, r = .ok m ∧ moves = before ++ .deliver c.id m :: after ∧
        (start.run before).stream.Waits i c.id ∧ (start.run before).phase.isCleared = false
  /-- A call that is made later returns that the stream was closed, -/
  refused : ∀ i, (start.run moves).stream.call? i = none → ∀ later c,
    ((start.run moves).run later).stream.call? i = some c →
      c.stage = .opening ∨ c.stage = .abandoned ∨ c.stage = .returned (.error .streamClosed)
  /-- and queues no frame: all that is in the channel are frames of earlier calls. -/
  unsent : ∀ later, ∀ f ∈ ((start.run moves).run later).stream.channel,
    f ∈ (start.run moves).stream.channel ∨
      ∃ i c, (start.run moves).stream.call? i = some c ∧ f = c.frame
  /-- The table is empty whenever no call runs. -/
  emptied : ∀ later, let s := ((start.run moves).run later).stream
    (∀ i c, s.call? i = some c → c.stage.isRunning = false) → s.pendingCount = 0
  /-- Closing the stream once more changes nothing. -/
  again : ∀ later, let s := (start.run moves).run later
    s.step .close = s ∧ s.step .goOn = s ∧ s.stream.close = s.stream

/-- What a call in progress may still return when the stream was closed. -/
theorem outcome_of_mayReturn (h : s.Sound) (hempty : s.stream.calls = [])
    (hc : (s.run moves).stream.call? i = some c) (hrun : c.stage.isRunning = true)
    (hmay : c.MayReturn r) : r = .error .streamClosed ∨
      (∃ d, r = .error (.timeout d) ∧ c.stage = .leaving (.timeout d)) ∨
      ∃ m before after, r = .ok m ∧ moves = before ++ .deliver c.id m :: after ∧
        (s.run before).stream.Waits i c.id ∧ (s.run before).phase.isCleared = false := by
  have hheld : c.stage.isHeld = true → r = .error .streamClosed ∨
      ∃ m before after, r = .ok m ∧ moves = before ++ .deliver c.id m :: after ∧
        (s.run before).stream.Waits i c.id ∧ (s.run before).phase.isCleared = false := by
    intro hheld
    rcases (Call.MayReturn.of_isHeld hheld).mp hmay with hr | ⟨m, hfilled, hr⟩
    · exact Or.inl hr
    · have hlost : c.stage.isLost = false := by
        revert hheld
        cases c.stage <;> simp [CallStage.isHeld, CallStage.isLost]
      obtain ⟨before, after, hmoves, hwaits⟩ := delivered_of_filled h hempty hc hfilled hlost
      refine Or.inr ⟨m, before, after, hr, hmoves, hwaits, ?_⟩
      rw [Bool.eq_false_iff]
      intro hcleared
      -- since the table was emptied nobody waits with an empty slot, and nobody comes to wait
      have hsound := h.run before
      obtain ⟨-, d, hd, -, hslot, -⟩ := hwaits
      rw [hmoves, run_append] at hc
      exact hsound.settled hcleared i d hd (isHeld_run hsound hcleared hd hc hheld) hslot
  unfold Call.MayReturn at hmay
  cases hstage : c.stage with
  | leaving e =>
    rw [hstage] at hmay
    have hof := (h.run moves).consistent.failed i c e hc (Or.inl hstage)
    cases e with
    | streamClosed => exact Or.inl hmay
    | timeout d => exact Or.inr (Or.inl ⟨d, hmay, rfl⟩)
    | _ => cases hof
  | returned _ => rw [hstage] at hrun; cases hrun
  | abandoned => rw [hstage] at hrun; cases hrun
  | offering => exact (hheld (by rw [hstage]; rfl)).imp_right Or.inr
  | queued => exact (hheld (by rw [hstage]; rfl)).imp_right Or.inr
  | awaiting => exact (hheld (by rw [hstage]; rfl)).imp_right Or.inr
  | _ => rw [hstage] at hmay; exact Or.inl hmay

/-- **Closing a stream leaves no caller waiting**, whatever its calls do meanwhile. -/
theorem complete_run (node : NodeId) (capacity : Nat) (moves : List Move)
    (hdone : (run ⟨{ node, capacity }, .idle⟩ moves).phase = .done) :
    Complete ⟨{ node, capacity }, .idle⟩ moves := by
  set start : Shutdown := ⟨{ node, capacity }, .idle⟩
  have hstart : start.Sound := .of_new node capacity
  have h := hstart.run moves
  have hlater : ∀ later, ((start.run moves).run later).phase = .done := fun later ↦
    done_run hdone h later
  have hcleared : ∀ later, ((start.run moves).run later).phase.isCleared = true := by
    intro later
    rw [hlater]
    rfl
  refine ⟨fun later i c now hc hthere ↦ ?_, fun i c hc hrun later c' r hc' hr ↦ ?_,
    fun i hnone later c hc ↦ ?_, fun later f hf ↦ channel_run h hdone hf, fun later hover ↦ ?_,
    fun later ↦ ?_⟩
  · exact advanceBy_returns (h.run later) (hlater later) hc hthere now
  · exact outcome_of_mayReturn hstart rfl hc hrun
      (mayReturn_run h hdone hc hc' (.of_result hr))
  · have hbarred := isBarred_run h hdone hnone hc
    unfold CallStage.isBarred at hbarred
    split at hbarred <;> simp_all
  · exact pendingCount_eq_zero (h.run later) (hcleared later) hover
  · have hclosed := (h.run later).closed_of_isCleared (hcleared later)
    exact ⟨step_close_of_closed hclosed, step_goOn_of_done (hlater later),
      Stream.close_of_closed hclosed⟩

/-- One call waits, another one has looked at the flag and not entered the table yet, and the stream
is closed. A third one comes when the table has just been emptied. -/
def overtaken : List Move :=
  .use (.open "a" (.pauseNode "node") (.ofSeconds 60)) ::
  .use (.open "b" (.resumeNode "node") (.ofSeconds 60)) ::
  (List.replicate 4 (.use (.advance 0 0)) ++ .use (.advance 1 0) :: .close :: .goOn ::
    .use (.advance 1 0) :: .use (.open "c" (.certTypes "node") (.ofSeconds 60)) ::
    [.close, .goOn])

/-- All three return that the stream was closed, and the table is empty then. -/
theorem complete_overtaken :
    (run ⟨{ node := "node", capacity := 1 }, .idle⟩ overtaken).phase = .done ∧
      Complete ⟨{ node := "node", capacity := 1 }, .idle⟩ overtaken ∧
      let s := run ⟨{ node := "node", capacity := 1 }, .idle⟩ overtaken
      let t := ((s.stream.advanceBy 0 0 3).advanceBy 1 0 3).advanceBy 2 0 3
      s.stream.pendingCount = 1 ∧ t.pendingCount = 0 ∧
        t.calls.map (·.result?) = List.replicate 3 (some (.error .streamClosed)) :=
  have hdone : (run ⟨{ node := "node", capacity := 1 }, .idle⟩ overtaken).phase = .done := rfl
  ⟨hdone, complete_run "node" 1 overtaken hdone, rfl, rfl, rfl⟩

end Shutdown

end NodeAgent
