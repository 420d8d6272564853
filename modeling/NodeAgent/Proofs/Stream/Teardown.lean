import NodeAgent.Proofs.Stream.Correlation

/-!
# Streams that are torn down

Tearing a stream down drops the slots of the calls in the table and raises two flags; it does not
touch the calls otherwise. Each of them has yet to find out, wherever it stands: before it looks at
the flags for the first time, between its two looks, queueing for a place, or waiting for its slot.
Meanwhile others go on to open calls, to deliver responses and to take frames.

`Fades` lists what may become of the stage of a call on a stream that is closed, whether or not it
is cancelled yet. A call that is *doomed* stays so under all of it, and returns as soon as it is
allowed to run.

## Main statements

* `fades_step`: nothing else becomes of a call on a stream that is closed.
* `Whole.fails_close`: a call that waits when a stream is torn down returns `streamClosed`, nothing
  else, and at once.
-/

namespace NodeAgent

namespace CallStage

/-- The call waits for a place in the channel or for its slot, or is about to. -/
def isHeld : CallStage → Bool
  | offering | queued | awaiting => true
  | _ => false

/-- What may become of the stage of a call with the given slot on a stream that is closed, and
perhaps `cancelled`. Its caller may be `gone`. -/
inductive Fades (cancelled gone : Prop) (slot : Slot) : CallStage → CallStage → Prop where
  | stay (a : CallStage) : Fades cancelled gone slot a a
  | refused : Fades cancelled gone slot .opening (.returned (.error .streamClosed))
  | enter : Fades cancelled gone slot .entering .rechecking
  | overtaken : Fades cancelled gone slot .rechecking (.leaving .streamClosed)
  /-- The frame is offered after all, or gets a place that somebody freed. -/
  | hold {a b : CallStage} : a.isHeld = true → b.isHeld = true → Fades cancelled gone slot a b
  | giveUp {a : CallStage} : a.isHeld = true → Fades cancelled gone slot a (.leaving .streamClosed)
  | answered {m : NodeMessage} : slot = .filled m →
    Fades cancelled gone slot .awaiting (.returned (.ok m))
  /-- On a cancelled stream time can run out only for a call whose slot was not dropped. -/
  | expired {a : CallStage} {d : Duration} : a.isHeld = true → (cancelled → slot = .empty) →
    Fades cancelled gone slot a (.leaving (.timeout d))
  | leave {e : StreamError} : Fades cancelled gone slot (.leaving e) (.returned (.error e))
  | abandon {a : CallStage} : gone → Fades cancelled gone slot a .abandoned

namespace Fades

variable {cancelled cancelled' gone gone' : Prop} {slot : Slot} {a b : CallStage}

/-- Whoever is held was held before. -/
theorem isHeld (h : Fades cancelled gone slot a b) (hb : b.isHeld = true) : a.isHeld = true := by
  cases h with
  | stay => exact hb
  | hold ha _ => exact ha
  | _ => cases hb

theorem mono (h : Fades cancelled gone slot a b) (hcancelled : cancelled' → cancelled)
    (hgone : gone → gone') : Fades cancelled' gone' slot a b := by
  cases h with
  | stay => exact .stay _
  | refused => exact .refused
  | enter => exact .enter
  | overtaken => exact .overtaken
  | hold ha hb => exact .hold ha hb
  | giveUp ha => exact .giveUp ha
  | answered hslot => exact .answered hslot
  | expired ha hslot => exact .expired ha fun h ↦ hslot (hcancelled h)
  | leave => exact .leave
  | abandon h => exact .abandon (hgone h)

end Fades

/-- How many operations a call that fails is away from returning. -/
def toReturn : CallStage → Nat
  | returned _ | abandoned => 0
  | opening | leaving _ => 1
  | rechecking | offering | queued | awaiting => 2
  | entering => 3

theorem toReturn_le (a : CallStage) : a.toReturn ≤ 3 := by cases a <;> simp [toReturn]

theorem exists_returned {a : CallStage} (h : a.toReturn = 0) (hthere : a ≠ .abandoned) :
    ∃ r, a = .returned r := by
  cases a <;> simp_all [toReturn]

end CallStage

/-- All that the call can still return is that the stream was closed, if the stream is torn down. -/
def Call.IsDoomed (c : Call) : Prop :=
  match c.stage with
  | .opening | .entering | .rechecking | .abandoned => True
  | .offering | .queued | .awaiting => c.slot = .dropped
  | .leaving e | .returned (.error e) => e = .streamClosed
  | .returned (.ok _) => False

namespace Call.IsDoomed

variable {c c' : Call} {cancelled gone : Prop}

theorem of_isHeld (hstage : c.stage.isHeld = true) : c.IsDoomed ↔ c.slot = .dropped := by
  unfold IsDoomed
  cases h : c.stage <;> simp_all [CallStage.isHeld]

/-- A doomed call stays doomed. -/
theorem fades (h : c.IsDoomed) (hev : c.Evolves c') (hcancelled : cancelled)
    (hfades : c.stage.Fades cancelled gone c.slot c'.stage) : c'.IsDoomed := by
  have hdropped : c.slot = .dropped → c'.slot = .dropped := by
    intro hslot
    rw [hev.slot (by rw [hslot]; exact Slot.noConfusion), hslot]
  generalize ha : c.stage = a at hfades
  generalize hb : c'.stage = b at hfades
  cases hfades with
  | stay =>
    unfold IsDoomed at h ⊢
    rw [ha] at h
    rw [hb]
    split at h <;> simp_all
  | hold hheld hheld' =>
    rw [of_isHeld (by rw [ha]; exact hheld)] at h
    rw [of_isHeld (by rw [hb]; exact hheld')]
    exact hdropped h
  | answered hslot =>
    rw [of_isHeld (by rw [ha]; rfl), hslot] at h
    cases h
  | expired hheld hslot =>
    rw [of_isHeld (by rw [ha]; exact hheld), hslot hcancelled] at h
    cases h
  | leave =>
    unfold IsDoomed at h ⊢
    rw [ha] at h
    rw [hb]
    exact h
  | _ => simp [IsDoomed, hb]

/-- A doomed call that returned has failed. -/
theorem result (h : c.IsDoomed) {r : Except StreamError NodeMessage} (hr : c.result? = some r) :
    r = .error .streamClosed := by
  rw [Call.result?_eq_some] at hr
  unfold IsDoomed at h
  rw [hr] at h
  cases r with
  | ok m => exact h.elim
  | error e => exact congrArg Except.error h

end Call.IsDoomed

namespace Stream

variable {s s' : Stream} {i : Nat} {c c' : Call} {id : RequestId} {gone : Nat → Prop}

/-! ## What becomes of calls -/

/-- The stages of all calls become what they may on a stream that is closed. -/
def Fading (s : Stream) (gone : Nat → Prop) (s' : Stream) : Prop :=
  ∀ i c c', s.call? i = some c → s'.call? i = some c' →
    c.stage.Fades (s.cancelled = true) (gone i) c.slot c'.stage

namespace Fading

theorem of_stages (h : ∀ j, (s'.call? j).map (·.stage) = (s.call? j).map (·.stage)) :
    s.Fading gone s' := by
  intro j c c' hc hc'
  have hj := h j
  rw [hc, hc', Option.map_some, Option.map_some, Option.some.injEq] at hj
  rw [hj]
  exact .stay _

/-- One call comes to another stage. -/
theorem update (s₀ : Stream) (h : ∀ j, (s₀.call? j).map (·.stage) = (s.call? j).map (·.stage))
    (hc : s.call? i = some c) {f : Call → Call} {b : CallStage} (hf : ∀ d, (f d).stage = b)
    (hfades : c.stage.Fades (s.cancelled = true) (gone i) c.slot b) :
    s.Fading gone (s₀.update i f) := by
  intro j d d' hd hd'
  by_cases hij : i = j
  · subst hij
    rw [hc, Option.some.injEq] at hd
    subst hd
    rw [call?_update, if_pos rfl, Option.map_eq_some_iff] at hd'
    obtain ⟨e, -, rfl⟩ := hd'
    rw [hf]
    exact hfades
  · rw [call?_update_of_ne hij] at hd'
    exact of_stages h j d d' hd hd'

theorem enqueue (hc : s.call? i = some c) (hheld : c.stage.isHeld = true) (d : Call)
    (hcalls : s'.calls = s.calls) : s.Fading gone (s'.enqueue i d) := by
  refine update { s' with channel := s'.channel ++ [d.frame] } (fun j ↦ ?_) hc (fun _ ↦ rfl)
    (.hold hheld rfl)
  change (s'.calls[j]?).map _ = _
  rw [hcalls]
  rfl

theorem giveUp (hc : s.call? i = some c) (e : StreamError)
    (hfades : c.stage.Fades (s.cancelled = true) (gone i) c.slot (.leaving e)) :
    s.Fading gone (s.giveUp i e) :=
  update { s with senders := s.senders.filter (· ≠ i) } (fun _ ↦ rfl) hc (fun _ ↦ rfl) hfades

/-- The frame of a call that was held is offered. -/
theorem offer (hc : s.call? i = some c) (hheld : c.stage.isHeld = true) :
    s.Fading gone (s.offer i c) := by
  unfold Stream.offer
  split
  · exact enqueue hc hheld c rfl
  · exact update { s with senders := s.senders ++ [i] } (b := .queued) (fun _ ↦ rfl) hc
      (fun _ ↦ rfl) (.hold hheld rfl)

theorem advance (hclosed : s.closed = true) (i : Nat) (now : Instant) :
    s.Fading gone (s.advance i now) := by
  unfold Stream.advance
  split
  · exact of_stages fun _ ↦ rfl
  · rename_i c hc
    split
    · rename_i hstage
      rw [if_pos hclosed]
      exact update s (fun _ ↦ rfl) hc (fun _ ↦ rfl) (hstage ▸ .refused)
    · rename_i hstage
      exact update (s.enter i c.id) (stage_resolve s c.id .drop) hc (fun _ ↦ rfl) (hstage ▸ .enter)
    · rename_i hstage
      rw [if_pos hclosed]
      exact update s (fun _ ↦ rfl) hc (fun _ ↦ rfl) (hstage ▸ .overtaken)
    · rename_i hstage
      split
      · exact giveUp hc _ (hstage ▸ .giveUp rfl)
      · exact offer hc (hstage ▸ rfl)
    · rename_i hstage
      split
      · exact giveUp hc _ (hstage ▸ .giveUp rfl)
      · exact of_stages fun _ ↦ rfl
    · rename_i hstage
      split
      · exact of_stages fun _ ↦ rfl
      · rename_i m hslot
        exact update s (fun _ ↦ rfl) hc (fun _ ↦ rfl) (hstage ▸ .answered hslot)
      · exact update s (fun _ ↦ rfl) hc (fun _ ↦ rfl) (hstage ▸ .giveUp rfl)
    · rename_i e hstage
      exact update (s.forget c.id) (stage_resolve s c.id .drop) hc (fun _ ↦ rfl) (hstage ▸ .leave)
    · exact of_stages fun _ ↦ rfl
    · exact of_stages fun _ ↦ rfl

theorem insist (s : Stream) (i : Nat) : s.Fading gone (s.insist i) := by
  unfold Stream.insist
  split
  · exact of_stages fun _ ↦ rfl
  · rename_i c hc
    split
    · rename_i hstage
      split
      · exact offer hc (hstage ▸ rfl)
      · exact of_stages fun _ ↦ rfl
    · exact of_stages fun _ ↦ rfl

/-- On a cancelled stream a call that queues does not run out of time, since it finds that it must
give up. -/
theorem expire (s : Stream) (i : Nat) (now : Instant) : s.Fading gone (s.expire i now) := by
  unfold Stream.expire
  split
  · exact of_stages fun _ ↦ rfl
  · rename_i c hc
    split
    · rename_i h
      have hstuck : s.isStuck c = true := (Bool.and_eq_true_iff.mp h).1
      unfold isStuck at hstuck
      split at hstuck
      · rename_i hstage
        refine giveUp hc _ (hstage ▸ .expired rfl fun hcancelled ↦ ?_)
        rw [refusesFrames, hcancelled] at hstuck
        cases hstuck
      · rename_i hstage
        exact giveUp hc _ (hstage ▸ .expired rfl fun _ ↦ of_decide_eq_true hstuck)
      · cases hstuck
    · exact of_stages fun _ ↦ rfl

theorem abandon (s : Stream) (i : Nat) (hgone : gone i) : s.Fading gone (s.abandon i) := by
  unfold Stream.abandon
  split
  · exact of_stages fun _ ↦ rfl
  · rename_i c hc
    split
    · exact update { s with senders := s.senders.filter (· ≠ i) } (fun _ ↦ rfl) hc
        (fun _ ↦ rfl) (.abandon hgone)
    · exact of_stages fun _ ↦ rfl

theorem take (h : Taking s s') : s.Fading gone s' := by
  cases h with
  | nothing _ => exact of_stages fun _ ↦ rfl
  | free _ _ => exact of_stages fun _ ↦ rfl
  | pass _ _ hc hqueued => exact enqueue hc (by rw [hqueued]; rfl) _ rfl

theorem «open» (s : Stream) (id : RequestId) (r : Request) (d : Duration) :
    s.Fading gone (s.open id r d) := by
  intro j c c' hc hc'
  have hlt := (List.getElem?_eq_some_iff.mp hc).1
  rw [call?_open, if_neg (by omega), hc, Option.some.injEq] at hc'
  subst hc'
  exact .stay _

end Fading

/-- **Nothing else becomes of a call** on a stream that is closed. -/
theorem fades_step (hs : s.Consistent) (hclosed : s.closed = true) (mv : Move) :
    s.Fading (fun i ↦ mv = .use (.abandon i)) (s.step mv) := by
  cases mv with
  | use u =>
    cases u with
    | «open» id r d => exact .open s id r d
    | advance i now => exact .advance hclosed i now
    | insist i => exact .insist s i
    | expire i now => exact .expire s i now
    | abandon i => exact .abandon s i rfl
    | take => exact .take (taking_take hs)
    | hangUp => exact .of_stages fun _ ↦ rfl
  | deliver id m => exact .of_stages (stage_resolve s id _)
  | clearPending => exact .of_stages (Silent.clearPending s).stage
  | _ => exact .of_stages fun _ ↦ rfl

/-! ## Calls that wait for nothing -/

/-- No call is held with an empty slot, so none waits for a response that nobody may deliver. -/
def IsSettled (s : Stream) : Prop :=
  ∀ i c, s.call? i = some c → c.stage.isHeld = true → c.slot ≠ .empty

/-- Only opening makes calls, and a new call is at the beginning of its course. -/
theorem stage_of_new {mv : Move} (h : s.call? i = none) (hc : (s.step mv).call? i = some c) :
    c.stage = .opening := by
  have hold : (s.step mv).calls.length ≠ s.calls.length := by
    intro hlength
    have hlt := (List.getElem?_eq_some_iff.mp hc).1
    have hge := List.getElem?_eq_none_iff.mp h
    omega
  cases mv with
  | use u =>
    cases u with
    | «open» id r d =>
      change (s.open id r d).call? i = some c at hc
      rw [call?_open, h] at hc
      split at hc
      · cases hc
        rfl
      · cases hc
    | _ => exact absurd (length_calls_use s _ (by simp)) hold
  | deliver id m => exact absurd (length_calls_resolve s id _) hold
  | clearPending => exact absurd List.length_mapIdx hold
  | _ => exact absurd rfl hold

theorem IsSettled.step (h : s.IsSettled) (hs : s.Consistent) (hclosed : s.closed = true)
    (mv : Move) : (s.step mv).IsSettled := by
  intro i c' hc' hheld
  cases hc : s.call? i with
  | none =>
    rw [stage_of_new hc hc'] at hheld
    cases hheld
  | some c =>
    obtain ⟨d, hd, hev⟩ := Evolves.step hs mv i c hc
    rw [hc', Option.some.injEq] at hd
    subst hd
    have hbefore := (fades_step hs hclosed mv i c c' hc hc').isHeld hheld
    have hslot := h i c hc hbefore
    rw [hev.slot hslot]
    exact hslot

/-- Emptying the table drops every slot that somebody may wait for. -/
theorem isSettled_clearPending (hs : s.Consistent) : s.clearPending.IsSettled := by
  intro i c' hc' hheld
  rw [call?_clearPending, Option.map_eq_some_iff] at hc'
  obtain ⟨c, hc, rfl⟩ := hc'
  split
  · cases hslot : c.slot <;> simp [Slot.drop]
  · rename_i hnot
    rw [if_neg hnot] at hheld
    intro hempty
    have hwaiting : c.stage.isWaiting = true := by
      cases hstage : c.stage <;> simp_all [CallStage.isHeld, CallStage.isWaiting]
    have hin := hs.waiting i c hc hwaiting hempty
    exact hnot ((Table.mem_values_iff hs.keys).mpr ⟨c.id, hin⟩)

/-- A call that waits for nothing comes closer to returning with every operation. -/
theorem advance_settled (hclosed : s.closed = true) (hcancelled : s.cancelled = true)
    (hc : s.call? i = some c) (hslot : c.stage.isHeld = true → c.slot ≠ .empty)
    (hthere : c.stage ≠ .abandoned) (now : Instant) :
    ∃ c', (s.advance i now).call? i = some c' ∧ c'.stage ≠ .abandoned ∧
      c'.stage.toReturn ≤ c.stage.toReturn - 1 := by
  have hrefuses : s.refusesFrames = true := by rw [refusesFrames, hcancelled]; rfl
  have hfail : ∀ s₀ : Stream, s₀.call? i = some c → 1 < c.stage.toReturn →
      ∃ c', (s₀.update i (Call.fail .streamClosed)).call? i = some c' ∧ c'.stage ≠ .abandoned ∧
        c'.stage.toReturn ≤ c.stage.toReturn - 1 := by
    intro s₀ hc₀ hlt
    exact ⟨_, call?_update_of_eq hc₀ _, CallStage.noConfusion, Nat.le_sub_one_of_lt hlt⟩
  unfold advance
  rw [hc]
  dsimp only
  split
  · rw [if_pos hclosed]
    exact ⟨_, call?_update_of_eq hc _, CallStage.noConfusion, Nat.zero_le _⟩
  · rename_i hstage
    obtain ⟨slot, hd⟩ := exists_call?_resolve hc c.id .drop
    refine ⟨_, call?_update_of_eq (s := s.enter i c.id) hd _, CallStage.noConfusion, ?_⟩
    exact hstage ▸ Nat.le_refl 2
  · rename_i hstage
    rw [if_pos hclosed]
    exact hfail s hc (by rw [hstage]; decide)
  · rename_i hstage
    rw [if_pos hrefuses]
    exact hfail _ hc (by rw [hstage]; decide)
  · rename_i hstage
    rw [if_pos hrefuses]
    exact hfail _ hc (by rw [hstage]; decide)
  · rename_i hstage
    split
    · rename_i hempty
      exact absurd hempty (hslot (by rw [hstage]; rfl))
    · exact ⟨_, call?_update_of_eq hc _, CallStage.noConfusion, Nat.zero_le _⟩
    · exact hfail s hc (by rw [hstage]; decide)
  · obtain ⟨slot, hd⟩ := exists_call?_resolve hc c.id .drop
    exact ⟨_, call?_update_of_eq (s := s.forget c.id) hd _, CallStage.noConfusion, Nat.zero_le _⟩
  · rename_i hstage
    exact ⟨c, hc, hthere, hstage ▸ Nat.le_refl 0⟩
  · rename_i hstage
    exact absurd hstage hthere

/-- A call on a stream on which nobody waits for anything returns after a few operations. -/
theorem advanceBy_settled (hs : s.Consistent) (hclosed : s.closed = true)
    (hcancelled : s.cancelled = true) (hsettled : s.IsSettled) (hc : s.call? i = some c)
    (hthere : c.stage ≠ .abandoned) (now : Instant) (n : Nat) :
    ∃ c', (s.advanceBy i now n).call? i = some c' ∧ c'.stage ≠ .abandoned ∧
      c'.stage.toReturn ≤ c.stage.toReturn - n := by
  induction n generalizing s c with
  | zero => exact ⟨c, hc, hthere, Nat.le_refl _⟩
  | succ n ih =>
    obtain ⟨d, hd, hthere', hle⟩ :=
      advance_settled hclosed hcancelled hc (hsettled i c hc) hthere now
    have halike := Alike.use s (.advance i now)
    obtain ⟨c', hc', hthere'', hle'⟩ := ih (hs.step (.use (.advance i now)))
      (halike.closed.trans hclosed) (halike.cancelled.trans hcancelled)
      (hsettled.step hs hclosed (.use (.advance i now))) hd hthere'
    exact ⟨c', hc', hthere'', by omega⟩

/-! ## Doomed calls -/

/-- A stream that is closed and cancelled stays so. -/
theorem cancelled_step (h : s.cancelled = true) (mv : Move) : (s.step mv).cancelled = true := by
  cases mv with
  | use u => exact (Alike.use s u).cancelled.trans h
  | deliver id m => exact (Alike.resolve s id (.fill m)).cancelled.trans h
  | markClosed => exact h
  | clearPending => exact h
  | cancel => rfl

theorem cancelled_run (h : s.cancelled = true) (moves : List Move) :
    (s.run moves).cancelled = true := by
  induction moves using List.reverseRecOn with
  | nil => exact h
  | append_singleton moves mv ih =>
    rw [run_concat]
    exact cancelled_step ih mv

theorem doomed_run (hs : s.Consistent) (hclosed : s.closed = true) (hcancelled : s.cancelled = true)
    (hc : s.call? i = some c) (hdoomed : c.IsDoomed) (moves : List Move) :
    ∃ c', (s.run moves).call? i = some c' ∧ c'.IsDoomed := by
  induction moves using List.reverseRecOn with
  | nil => exact ⟨c, hc, hdoomed⟩
  | append_singleton moves mv ih =>
    obtain ⟨d, hd, hdoomed⟩ := ih
    rw [run_concat]
    obtain ⟨d', hd', hev⟩ := Evolves.step (hs.run moves) mv i d hd
    have hfades := fades_step (hs.run moves) (closed_run hclosed moves) mv i d d' hd hd'
    exact ⟨d', hd', hdoomed.fades hev (cancelled_run hcancelled moves) hfades⟩

/-- A doomed call that is allowed an operation comes closer to returning. -/
theorem advance_doomed (hs : s.Consistent) (hclosed : s.closed = true)
    (hcancelled : s.cancelled = true) (hc : s.call? i = some c) (hdoomed : c.IsDoomed)
    (hthere : c.stage ≠ .abandoned) (now : Instant) :
    ∃ c', (s.advance i now).call? i = some c' ∧ c'.IsDoomed ∧ c'.stage ≠ .abandoned ∧
      c'.stage.toReturn ≤ c.stage.toReturn - 1 := by
  have hslot : c.stage.isHeld = true → c.slot ≠ .empty := by
    intro hheld
    rw [(Call.IsDoomed.of_isHeld hheld).mp hdoomed]
    exact Slot.noConfusion
  obtain ⟨c', hc', hthere', hle⟩ := advance_settled hclosed hcancelled hc hslot hthere now
  obtain ⟨d, hd, hev⟩ := Evolves.step hs (.use (.advance i now)) i c hc
  change (s.advance i now).call? i = some d at hd
  rw [hc', Option.some.injEq] at hd
  subst hd
  have hfades := fades_step hs hclosed (.use (.advance i now)) i c c' hc hc'
  exact ⟨c', hc', hdoomed.fades hev hcancelled hfades, hthere', hle⟩

theorem advanceBy_doomed (hs : s.Consistent) (hclosed : s.closed = true)
    (hcancelled : s.cancelled = true) (hc : s.call? i = some c) (hdoomed : c.IsDoomed)
    (hthere : c.stage ≠ .abandoned) (now : Instant) (n : Nat) :
    ∃ c', (s.advanceBy i now n).call? i = some c' ∧ c'.IsDoomed ∧ c'.stage ≠ .abandoned ∧
      c'.stage.toReturn ≤ c.stage.toReturn - n := by
  induction n generalizing s c with
  | zero => exact ⟨c, hc, hdoomed, hthere, Nat.le_refl _⟩
  | succ n ih =>
    obtain ⟨d, hd, hdoomed', hthere', hle⟩ :=
      advance_doomed hs hclosed hcancelled hc hdoomed hthere now
    have halike := Alike.use s (.advance i now)
    obtain ⟨c', hc', hdoomed'', hthere'', hle'⟩ := ih (hs.step (.use (.advance i now)))
      (halike.closed.trans hclosed) (halike.cancelled.trans hcancelled) hd hdoomed' hthere'
    exact ⟨c', hc', hdoomed'', hthere'', by omega⟩

/-- A doomed call returns when it is allowed to do all that it can. -/
theorem poll_doomed (hs : s.Consistent) (hclosed : s.closed = true)
    (hcancelled : s.cancelled = true) (hc : s.call? i = some c) (hdoomed : c.IsDoomed)
    (hthere : c.stage ≠ .abandoned) (now : Instant) :
    ∃ c', (s.poll i now).call? i = some c' ∧ c'.result? = some (.error .streamClosed) := by
  obtain ⟨c', hc', hdoomed', hthere', hle⟩ :=
    advanceBy_doomed hs hclosed hcancelled hc hdoomed hthere now 7
  have hbound := c.stage.toReturn_le
  obtain ⟨r, hr⟩ := CallStage.exists_returned (by omega) hthere'
  have hresult : c'.result? = some r := Call.result?_eq_some.mpr hr
  -- neither the time that runs out nor a further operation matters to a call that returned
  have hexpire : (s.advanceBy i now 7).expire i now = s.advanceBy i now 7 := by
    have hstuck : (s.advanceBy i now 7).isStuck c' = false := by rw [isStuck, hr]
    rw [expire, hc']
    dsimp only
    rw [hstuck]
    rfl
  have hpoll : s.poll i now = s.advanceBy i now 7 := by
    rw [poll, hexpire, advance, hc']
    dsimp only
    rw [hr]
  exact ⟨c', hpoll ▸ hc', by rw [hresult, hdoomed'.result hresult]⟩

/-! ## Streams that are torn down as a whole -/

/-- The call fails: it returns nothing but that the stream was closed, whatever happens, and it does
so whenever it is allowed to run, unless its caller went away. -/
structure Fails (s : Stream) (i : Nat) : Prop where
  only : ∀ moves c r, (s.run moves).call? i = some c → c.result? = some r →
    r = .error .streamClosed
  soon : ∀ moves c now, (s.run moves).call? i = some c → c.stage ≠ .abandoned →
    ∃ c', ((s.run moves).poll i now).call? i = some c' ∧
      c'.result? = some (.error .streamClosed)

theorem Fails.run (h : s.Fails i) (l : List Move) : (s.run l).Fails i where
  only moves := by
    rw [← run_append]
    exact h.only (l ++ moves)
  soon moves := by
    rw [← run_append]
    exact h.soon (l ++ moves)

theorem fails_of_doomed (hs : s.Consistent) (hclosed : s.closed = true)
    (hcancelled : s.cancelled = true) (hc : s.call? i = some c) (hdoomed : c.IsDoomed) :
    s.Fails i := by
  have hrun : ∀ moves c', (s.run moves).call? i = some c' → c'.IsDoomed := by
    intro moves c' hc'
    obtain ⟨d, hd, h⟩ := doomed_run hs hclosed hcancelled hc hdoomed moves
    rw [hc', Option.some.injEq] at hd
    exact hd ▸ h
  exact ⟨fun moves c' r hc' hr ↦ (hrun moves c' hc').result hr, fun moves c' now hc' hthere ↦
    poll_doomed (hs.run moves) (closed_run hclosed moves) (cancelled_run hcancelled moves) hc'
      (hrun moves c' hc') hthere now⟩

theorem call?_close (hopen : s.closed = false) (j : Nat) :
    s.close.call? j = (s.call? j).map fun c ↦
      if j ∈ s.pending.values then { c with slot := c.slot.drop } else c := by
  unfold close
  rw [hopen]
  exact call?_clearPending s.markClosed j

/-- A stream is torn down as a whole or not at all, as whoever drives it finds it. -/
structure Whole (s : Stream) : Prop where
  consistent : s.Consistent
  cancelled : s.cancelled = s.closed
  settled : s.closed = true → s.IsSettled

namespace Whole

/-- A stream without calls. -/
theorem of_new (node : NodeId) : Whole { node } :=
  ⟨.of_empty rfl rfl rfl, rfl, fun h ↦ by cases h⟩

/-- A move that does nothing to the flags leaves a stream whole. -/
theorem of_alike (h : s.Whole) (mv : Move) (halike : Alike s (s.step mv)) : (s.step mv).Whole := by
  refine ⟨h.consistent.step mv, halike.cancelled.trans (h.cancelled.trans halike.closed.symm), ?_⟩
  intro hclosed
  rw [halike.closed] at hclosed
  exact (h.settled hclosed).step h.consistent hclosed mv

theorem use (h : s.Whole) (u : Use) : (s.use u).Whole := h.of_alike (.use u) (.use s u)

theorem deliver (h : s.Whole) (id : RequestId) (m : NodeMessage) :
    (s.step (.deliver id m)).Whole := h.of_alike (.deliver id m) (.resolve s id _)

theorem cancelled_close (h : s.Whole) : s.close.cancelled = true := by
  unfold Stream.close
  split
  · rename_i hclosed
    exact h.cancelled.trans hclosed
  · rfl

/-- A stream that is torn down is torn down as a whole. -/
theorem close (h : s.Whole) : s.close.Whole := by
  cases hopen : s.closed with
  | true =>
    rw [close_of_closed hopen]
    exact h
  | false =>
    refine ⟨?_, h.cancelled_close.trans s.closed_close.symm, fun _ ↦ ?_⟩
    · rw [close_eq_run]
      exact h.consistent.run _
    · have hcalls : s.close.calls = s.markClosed.clearPending.calls := by
        unfold Stream.close
        rw [hopen]
        rfl
      have hmarked : s.markClosed.Consistent := h.consistent.step .markClosed
      intro i c hc
      rw [call?, hcalls] at hc
      exact isSettled_clearPending hmarked i c hc

/-- **Whoever waits when a stream is torn down fails.** -/
theorem fails_close (h : s.Whole) (hwaits : s.Waits i id) : s.close.Fails i := by
  obtain ⟨hin, c, hc, hid, hempty, hwaiting⟩ := hwaits
  obtain ⟨c', hc', hstage, hslot⟩ : ∃ c', s.close.call? i = some c' ∧ c'.stage = c.stage ∧
      (c.stage.isHeld = true → c'.slot = .dropped) := by
    cases hopen : s.closed with
    | true =>
      rw [close_of_closed hopen]
      exact ⟨c, hc, rfl, fun hheld ↦ absurd hempty (h.settled hopen i c hc hheld)⟩
    | false =>
      rw [call?_close hopen, hc, Option.map_some,
        if_pos ((Table.mem_values_iff h.consistent.keys).mpr ⟨id, hin⟩)]
      exact ⟨_, rfl, rfl, fun _ ↦ by rw [hempty]; rfl⟩
  have hdoomed : c'.IsDoomed := by
    rw [← hstage] at hwaiting hslot
    clear hstage
    unfold Call.IsDoomed
    cases hstage : c'.stage <;> simp_all [CallStage.isWaiting, CallStage.isHeld]
  exact fails_of_doomed h.close.consistent s.closed_close h.cancelled_close hc' hdoomed

end Whole

end Stream

end NodeAgent
