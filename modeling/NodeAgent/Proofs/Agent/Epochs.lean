import NodeAgent.Proofs.Agent.Forwarding

/-!
# Closing, opening again, and requests that are on their way

A request that is sent on belongs to the epoch in which it was made. A closing ends the epoch, and
opening again begins another one, so a request can tell at any time whether a closing has come since
it was made, however soon the agent was open again. It asks before each attempt and when it waits
for the next one.

## Main statements

* `exists_modify_goOn`: what a request makes of itself when it goes on depends on closings only
  through whether its epoch has ended.
* `ended_run`: a request whose epoch has ended begins no attempt.
* `unrevived_run`: a request that a closing found begins no further attempt, and one that was made
  since is as if there had been no closing.
-/

namespace NodeAgent

/-- Between two attempts, or before the first one. -/
def Retry.IsBetween {α : Type} (r : Retry α) : Prop :=
  r.phase = .ready ∨ ∃ till, r.phase = .waiting till

/-- The request ended because the agent was closed. -/
def Retry.WasCut {α : Type} (r : Retry α) : Prop :=
  ∃ since, r.phase = .finished (.error .handlerClosed) since

namespace Agent

variable {σ : Type} {a a' a'' : Agent σ} {n : Nat} {f f' : Forward} {mv : Move σ}
  {moves : List (Move σ)} {now : Instant}

/-! ## What answering leaves alone -/

/-- The second agent has the settings of the first, is closed like the first, and has the same
subscriptions. -/
structure Quiet (a a' : Agent σ) : Prop where
  site : a'.site = a.site
  config : a'.config = a.config
  epoch : a'.epoch = a.epoch
  closed : a'.closed = a.closed
  nodeFeed : a'.nodeFeed = a.nodeFeed
  subjectsFeed : a'.subjectsFeed = a.subjectsFeed
  certFeeds : a'.certFeeds = a.certFeeds

/-- A request as it is when it was just accepted. -/
def newForward (a : Agent σ) (r : Request) : Forward :=
  { request := r, epoch := a.epoch, retry := { policy := a.config.retry } }

namespace Quiet

theorem refl (a : Agent σ) : Quiet a a := ⟨rfl, rfl, rfl, rfl, rfl, rfl, rfl⟩

theorem trans (h : Quiet a a') (h' : Quiet a' a'') : Quiet a a'' :=
  ⟨h'.site.trans h.site, h'.config.trans h.config, h'.epoch.trans h.epoch,
    h'.closed.trans h.closed, h'.nodeFeed.trans h.nodeFeed,
    h'.subjectsFeed.trans h.subjectsFeed, h'.certFeeds.trans h.certFeeds⟩

theorem setStatus (a : Agent σ) (node : NodeId) (s : NodeStatus) :
    Quiet a (a.setStatus node s).2 := by
  unfold Agent.setStatus
  dsimp only
  split <;> exact ⟨rfl, rfl, rfl, rfl, rfl, rfl, rfl⟩

theorem conclude (a : Agent σ) (r : Request) (response : Response) :
    Quiet a (a.conclude r response).2 := by
  unfold Agent.conclude
  split
  · exact refl a
  · split
    · exact refl a
    · exact setStatus a _ _

theorem carryOut (a : Agent σ) (r : Request) (subject : Except ServiceError String) :
    Quiet a (a.carryOut r subject).2 := by
  unfold Agent.carryOut
  split
  · exact ⟨rfl, rfl, rfl, rfl, rfl, rfl, rfl⟩
  · generalize a.site.perform r a.world = performed
    have hworld : Quiet a { a with world := performed.2 } := ⟨rfl, rfl, rfl, rfl, rfl, rfl, rfl⟩
    exact hworld.trans (conclude _ r _)

end Quiet

/-- The second agent is quiet, and of its requests those are new that it was just asked for. -/
def Accepts (a a' : Agent σ) : Prop :=
  Quiet a a' ∧ ∃ rs : List Request, a'.forwards = a.forwards ++ rs.map a.newForward

namespace Accepts

theorem of_quiet (h : Quiet a a') (hforwards : a'.forwards = a.forwards) : Accepts a a' :=
  ⟨h, [], by rw [hforwards, List.map_nil, List.append_nil]⟩

theorem of_aside (h : Quiet a a') (haside : Aside a a' []) : Accepts a a' :=
  of_quiet h (haside.forwards.trans (List.append_nil _))

theorem refl (a : Agent σ) : Accepts a a := of_quiet (.refl a) rfl

theorem administer (a : Agent σ) (r : Request) : Accepts a (a.administer r).2 := by
  have hcarried : ∀ r subject, Accepts a (a.carryOut r subject).2 := fun r subject ↦
    of_aside (.carryOut a r subject) (.carryOut a r subject)
  have hforward : ∀ r, Accepts a (a.forward r) := fun r ↦
    ⟨⟨rfl, rfl, rfl, rfl, rfl, rfl, rfl⟩, [r], rfl⟩
  unfold Agent.administer
  dsimp only
  split
  · split
    · exact refl a
    · split
      · exact hcarried _ _
      · exact hforward _
  · split
    · exact hcarried _ _
    · exact hforward _

theorem respond (a : Agent σ) (rpc : Rpc) : Accepts a (a.respond rpc).2 := by
  have hperms : ∀ (p : PermissionRegistry) (k : Nat),
      Accepts a { a with permissions := some p, named := k } := fun p k ↦
    of_quiet ⟨rfl, rfl, rfl, rfl, rfl, rfl, rfl⟩ rfl
  unfold Agent.respond
  split
  · exact refl a
  · exact refl a
  · split <;> exact refl a
  · split <;> exact refl a
  · split <;> exact refl a
  · split <;> exact refl a
  · exact refl a
  · exact refl a
  · exact administer a _
  · exact refl a
  · exact refl a
  · split
    · exact refl a
    · exact hperms _ _
  · split
    · exact refl a
    · exact hperms _ _

end Accepts

/-! ## What a request makes of itself -/

/-- What one operation of its own makes of a forwarded request, whose epoch has or has not
`ended`. -/
def turned (a : Agent σ) (ended : Bool) (now : Instant) (f : Forward) : Forward :=
  match f.retry.phase with
  | .ready => { f with retry := f.retry.start ended now }
  | .attempting =>
    match f.call with
    | none =>
      match a.registry.find? f.request.node with
      | none => { f with retry := f.retry.ended (.error .streamNotFound) now }
      | some g => { f with call := some (a.nextPlace g) }
    | some p =>
      match a.response? p with
      | none => f
      | some r => { f with retry := f.retry.ended r now, call := none }
  | .waiting _ => { f with retry := f.retry.wake ended now }
  | .finished result _ =>
    if f.outcome.isSome then f else { f with outcome := some (a.told f result) }

/-- **Whether its epoch has ended is all that a request sees of closings.** -/
theorem exists_modify_goOn (a : Agent σ) (n : Nat) (f : Forward) (now : Instant) :
    ∃ u, (a.goOn n f now).forwards = a.forwards.modify n u ∧
      u f = a.turned (a.hasEnded f.epoch) now f := by
  have hsame : a.forwards = a.forwards.modify n id := (List.modify_id ..).symm
  unfold goOn
  split
  · rename_i g hphase hcall hg
    refine ⟨fun f ↦ { f with call := some (a.nextPlace g) }, rfl, ?_⟩
    simp only [turned, hphase, hcall, hg]
  · rename_i hnot
    unfold stepForward turned
    cases hphase : f.retry.phase with
    | ready => exact ⟨fun f ↦ { f with retry := f.retry.start (a.hasEnded f.epoch) now }, rfl, rfl⟩
    | waiting till =>
      exact ⟨fun f ↦ { f with retry := f.retry.wake (a.hasEnded f.epoch) now }, rfl, rfl⟩
    | attempting =>
      cases hcall : f.call with
      | none =>
        cases hg : a.registry.find? f.request.node with
        | none =>
          refine ⟨fun f ↦ { f with retry := f.retry.ended (.error .streamNotFound) now }, ?_, ?_⟩
          · simp only [attempt, hg]
            rfl
          · simp only [hcall]
        | some g => exact absurd hg (hnot g hphase hcall)
      | some p =>
        dsimp only
        cases a.response? p with
        | none => exact ⟨id, hsame, rfl⟩
        | some r => exact ⟨fun f ↦ { f with retry := f.retry.ended r now, call := none }, rfl, rfl⟩
    | finished result since =>
      dsimp only
      split
      · exact ⟨id, hsame, rfl⟩
      · unfold answerForward
        cases result with
        | error e => exact ⟨fun f ↦ { f with outcome := some (.error e.toStatus) }, rfl, rfl⟩
        | ok response =>
          refine ⟨fun g ↦ { g with outcome := some (.ok (a.conclude f.request response).1) },
            ?_, rfl⟩
          exact congrArg (List.modify · n _)
            ((Aside.conclude a f.request response).forwards.trans (List.append_nil _))

theorem Quiet.goOn (a : Agent σ) (n : Nat) (f : Forward) (now : Instant) :
    Quiet a (a.goOn n f now) := by
  have hupdate : ∀ u, Quiet a (a.updateForward n u) := fun _ ↦
    ⟨rfl, rfl, rfl, rfl, rfl, rfl, rfl⟩
  unfold Agent.goOn
  split
  · exact ⟨rfl, rfl, rfl, rfl, rfl, rfl, rfl⟩
  · unfold stepForward
    split
    · exact hupdate _
    · split
      · unfold attempt
        split
        · exact hupdate _
        · exact ⟨rfl, rfl, rfl, rfl, rfl, rfl, rfl⟩
      · split
        · exact refl a
        · exact hupdate _
    · exact hupdate _
    · split
      · exact refl a
      · unfold answerForward
        split
        · exact hupdate _
        · rename_i response _
          exact (conclude a f.request response).trans ⟨rfl, rfl, rfl, rfl, rfl, rfl, rfl⟩

theorem Quiet.step_goOn (a : Agent σ) (n : Nat) (now : Instant) :
    Quiet a (a.step (.goOn n now)) := by
  change Quiet a (((a.forwards[n]?).map fun f ↦ a.goOn n f now).getD a)
  cases a.forwards[n]? with
  | none => exact refl a
  | some f => exact goOn a n f now

/-- Answering a call is quiet, and after that what changed is handed on. -/
theorem exists_quiet_call (a : Agent σ) (l : Listener) (rpc : Rpc) :
    ∃ b, Quiet a b ∧ ((a.call l rpc).2 = b ∨ (a.call l rpc).2 = b.relay) := by
  unfold Agent.call
  split
  · exact ⟨(a.respond rpc).2, (Accepts.respond a rpc).1, Or.inr rfl⟩
  · exact ⟨a, .refl a, Or.inl rfl⟩

/-! ## What a move makes of requests -/

/-- Only a request that goes on changes. -/
theorem forwards_step (hmv : ∀ n now, mv ≠ .goOn n now) :
    ∃ rs : List Request, (a.step mv).forwards = a.forwards ++ rs.map a.newForward := by
  have hnone : ∀ {a' : Agent σ}, Aside a a' [] →
      ∃ rs : List Request, a'.forwards = a.forwards ++ rs.map a.newForward :=
    fun h ↦ ⟨[], h.forwards⟩
  cases mv with
  | goOn n now => exact absurd rfl (hmv n now)
  | registry m => exact ⟨[], (List.append_nil _).symm⟩
  | call l rpc =>
    change ∃ rs, (a.call l rpc).2.forwards = _
    unfold Agent.call
    split
    · exact (Accepts.respond a rpc).2
    · exact ⟨[], (List.append_nil _).symm⟩
  | subscribe l topic => exact hnone (.subscribe a l topic)
  | unsubscribe h => exact hnone (.unsubscribe a h)
  | readEvents limit h => exact hnone (.readEvents a limit h)
  | relay => exact hnone (.relay a)
  | close => exact ⟨[], (List.append_nil _).symm⟩
  | reopen => exact ⟨[], (List.append_nil _).symm⟩
  | world w => exact ⟨[], (List.append_nil _).symm⟩

theorem forward_goOn (hf : a.forwards[n]? = some f) (now : Instant) :
    (a.step (.goOn n now)).forwards[n]? = some (a.turned (a.hasEnded f.epoch) now f) := by
  obtain ⟨u, hu, huf⟩ := a.exists_modify_goOn n f now
  change (((a.forwards[n]?).map fun f ↦ a.goOn n f now).getD a).forwards[n]? = _
  rw [hf, Option.map_some, Option.getD_some, hu, List.getElem?_modify_eq, hf, ← huf]
  rfl

theorem forward_of_ne (hf : a.forwards[n]? = some f) (h : ∀ now, mv ≠ .goOn n now) :
    (a.step mv).forwards[n]? = some f := by
  by_cases hgoOn : ∃ m now, mv = .goOn m now
  · obtain ⟨m, now, rfl⟩ := hgoOn
    have hm : m ≠ n := by
      rintro rfl
      exact h now rfl
    change (((a.forwards[m]?).map fun g ↦ a.goOn m g now).getD a).forwards[n]? = _
    cases hg : a.forwards[m]? with
    | none => exact hf
    | some g =>
      obtain ⟨u, hu, -⟩ := a.exists_modify_goOn m g now
      rw [Option.map_some, Option.getD_some, hu, List.getElem?_modify_ne u _ hm, hf]
  · obtain ⟨rs, hrs⟩ := forwards_step (a := a) fun n now hmv ↦ hgoOn ⟨n, now, hmv⟩
    rw [hrs, List.getElem?_append_left (List.getElem?_eq_some_iff.mp hf).1, hf]

/-- What is true of a request and of what it makes of itself is true of it after a move. -/
theorem forward_step_of (mv : Move σ) {p : Forward → Prop} (hf : a.forwards[n]? = some f) (h : p f)
    (hturned : ∀ now, p (a.turned (a.hasEnded f.epoch) now f)) :
    ∃ f', (a.step mv).forwards[n]? = some f' ∧ p f' := by
  by_cases hgoOn : ∃ now, mv = .goOn n now
  · obtain ⟨now, rfl⟩ := hgoOn
    exact ⟨_, forward_goOn hf now, hturned now⟩
  · exact ⟨f, forward_of_ne hf fun now hmv ↦ hgoOn ⟨now, hmv⟩, h⟩

/-- A new request is as it was accepted. -/
theorem eq_newForward (hn : a.forwards[n]? = none) (hf : (a.step mv).forwards[n]? = some f) :
    ∃ r, f = a.newForward r := by
  by_cases hgoOn : ∃ m now, mv = .goOn m now
  · obtain ⟨m, now, rfl⟩ := hgoOn
    change (((a.forwards[m]?).map fun g ↦ a.goOn m g now).getD a).forwards[n]? = _ at hf
    cases hg : a.forwards[m]? with
    | none =>
      rw [hg] at hf
      cases hn.symm.trans hf
    | some g =>
      obtain ⟨u, hu, -⟩ := a.exists_modify_goOn m g now
      rw [hg, Option.map_some, Option.getD_some, hu, List.getElem?_modify, hn] at hf
      cases hf
  · obtain ⟨rs, hrs⟩ := forwards_step (a := a) fun n now hmv ↦ hgoOn ⟨n, now, hmv⟩
    rw [hrs, List.getElem?_append_right (List.getElem?_eq_none_iff.mp hn)] at hf
    obtain ⟨r, -, hr⟩ := List.mem_map.mp (List.mem_of_getElem? hf)
    exact ⟨r, hr.symm⟩

/-! ## Epochs -/

theorem hasEnded_iff {e : Nat} :
    a.hasEnded e = true ↔ e < a.epoch ∨ a.closed = true ∧ e = a.epoch := by
  simp [hasEnded]

theorem readEvents_eq (a : Agent σ) (limit : Nat) (h : SubscriptionHandle) :
    ∃ nodes subjects certs, (a.readEvents limit h).2 =
      { a with nodeFeed := nodes, subjectsFeed := subjects, certFeeds := certs } := by
  cases h with
  | nodes k => exact ⟨_, _, _, rfl⟩
  | subjects k => exact ⟨_, _, _, rfl⟩
  | certs id =>
    unfold Agent.readEvents
    dsimp only
    split <;> exact ⟨_, _, _, rfl⟩

/-- Only closing and opening again have to do with epochs, and nothing with the settings. -/
theorem fixed_step (a : Agent σ) (mv : Move σ) :
    (a.step mv).config = a.config ∧ (mv ≠ .close → mv ≠ .reopen →
      (a.step mv).epoch = a.epoch ∧ (a.step mv).closed = a.closed) := by
  have hquiet : ∀ {a' : Agent σ}, Quiet a a' → a'.config = a.config ∧
      (mv ≠ .close → mv ≠ .reopen → a'.epoch = a.epoch ∧ a'.closed = a.closed) :=
    fun h ↦ ⟨h.config, fun _ _ ↦ ⟨h.epoch, h.closed⟩⟩
  cases mv with
  | goOn n now => exact hquiet (.step_goOn a n now)
  | call l rpc =>
    change (a.call l rpc).2.config = _ ∧ (_ → _ → (a.call l rpc).2.epoch = _ ∧
      (a.call l rpc).2.closed = _)
    obtain ⟨b, hb, hcall | hcall⟩ := a.exists_quiet_call l rpc
    · exact hcall ▸ hquiet hb
    · rw [hcall]
      exact ⟨hb.config, fun _ _ ↦ ⟨hb.epoch, hb.closed⟩⟩
  | subscribe l topic =>
    change (a.subscribe l topic).2.config = _ ∧ (_ → _ → (a.subscribe l topic).2.epoch = _ ∧
      (a.subscribe l topic).2.closed = _)
    unfold Agent.subscribe
    split
    · exact ⟨rfl, fun _ _ ↦ ⟨rfl, rfl⟩⟩
    · split
      · exact ⟨rfl, fun _ _ ↦ ⟨rfl, rfl⟩⟩
      · exact ⟨rfl, fun _ _ ↦ ⟨rfl, rfl⟩⟩
      · split <;> exact ⟨rfl, fun _ _ ↦ ⟨rfl, rfl⟩⟩
  | unsubscribe h => cases h <;> exact ⟨rfl, fun _ _ ↦ ⟨rfl, rfl⟩⟩
  | readEvents limit h =>
    change (a.readEvents limit h).2.config = _ ∧ (_ → _ → (a.readEvents limit h).2.epoch = _ ∧
      (a.readEvents limit h).2.closed = _)
    obtain ⟨_, _, _, hread⟩ := a.readEvents_eq limit h
    rw [hread]
    exact ⟨rfl, fun _ _ ↦ ⟨rfl, rfl⟩⟩
  | close => exact ⟨rfl, fun hclose _ ↦ absurd rfl hclose⟩
  | reopen => exact ⟨rfl, fun _ hreopen ↦ absurd rfl hreopen⟩
  | _ => exact ⟨rfl, fun _ _ ↦ ⟨rfl, rfl⟩⟩

theorem epoch_step (hclose : mv ≠ .close) (hreopen : mv ≠ .reopen) :
    (a.step mv).epoch = a.epoch ∧ (a.step mv).closed = a.closed :=
  (a.fixed_step mv).2 hclose hreopen

theorem epoch_le_step (a : Agent σ) (mv : Move σ) : a.epoch ≤ (a.step mv).epoch := by
  by_cases hreopen : mv = .reopen
  · subst hreopen
    change a.epoch ≤ if a.closed then a.epoch + 1 else a.epoch
    split
    · exact Nat.le_succ _
    · exact Nat.le_refl _
  · by_cases hclose : mv = .close
    · subst hclose
      exact Nat.le_refl _
    · exact Nat.le_of_eq (epoch_step hclose hreopen).1.symm

/-- What has ended stays ended. -/
theorem hasEnded_step {e : Nat} (h : a.hasEnded e = true) (mv : Move σ) :
    (a.step mv).hasEnded e = true := by
  rw [hasEnded_iff] at h ⊢
  rcases h with hlt | ⟨hclosed, rfl⟩
  · exact Or.inl (Nat.lt_of_lt_of_le hlt (a.epoch_le_step mv))
  · by_cases hreopen : mv = .reopen
    · subst hreopen
      refine Or.inl ?_
      change a.epoch < if a.closed then a.epoch + 1 else a.epoch
      rw [if_pos hclosed]
      exact Nat.lt_succ_self _
    · by_cases hclose : mv = .close
      · subst hclose
        exact Or.inr ⟨rfl, rfl⟩
      · obtain ⟨hepoch, hsame⟩ := epoch_step (a := a) hclose hreopen
        exact Or.inr ⟨hsame.trans hclosed, hepoch.symm⟩

theorem hasEnded_run {e : Nat} (h : a.hasEnded e = true) (moves : List (Move σ)) :
    (a.run moves).hasEnded e = true := by
  induction moves using List.reverseRecOn with
  | nil => exact h
  | append_singleton moves mv ih =>
    rw [run_concat]
    exact hasEnded_step ih mv

/-! ## Requests whose epoch has ended -/

theorem epoch_turned (a : Agent σ) (ended : Bool) (now : Instant) (f : Forward) :
    (a.turned ended now f).epoch = f.epoch := by
  unfold turned
  split
  · rfl
  · split
    · split <;> rfl
    · split <;> rfl
  · rfl
  · split <;> rfl

theorem starts_retry_ended (r : Retry Response) (outcome : Except StreamError Response)
    (now : Instant) : (r.ended outcome now).starts = r.starts := by
  unfold Retry.ended
  split
  · rfl
  · split <;> rfl
  · rfl

/-- A request whose epoch has ended begins no attempt. -/
theorem starts_turned (a : Agent σ) (now : Instant) (f : Forward) :
    (a.turned true now f).retry.starts = f.retry.starts := by
  unfold turned
  split
  · rename_i hphase
    simp only [Retry.start, hphase]
    rfl
  · split
    · split
      · exact starts_retry_ended _ _ _
      · rfl
    · split
      · rfl
      · exact starts_retry_ended _ _ _
  · rename_i hphase
    simp only [Retry.wake, hphase]
    rfl
  · split <;> rfl

/-- It ends where it would have begun one, or waited for one. -/
theorem wasCut_turned (h : f.retry.IsBetween) (now : Instant) :
    (a.turned true now f).retry.WasCut ∧ (a.turned true now f).call = f.call ∧
      (a.turned true now f).outcome = f.outcome := by
  rcases h with hphase | ⟨till, hphase⟩
  · refine ⟨⟨now, ?_⟩, ?_, ?_⟩ <;> simp [turned, Retry.start, Retry.finish, hphase]
  · refine ⟨⟨now, ?_⟩, ?_, ?_⟩ <;> simp [turned, Retry.wake, Retry.finish, hphase]

/-- Nothing but the answer to its peer is left for a request that has ended. -/
theorem turned_of_finished {r : Except StreamError Response} {since : Instant}
    (h : f.retry.phase = .finished r since) (ended : Bool) (now : Instant) :
    a.turned ended now f =
      if f.outcome.isSome then f else { f with outcome := some (a.told f r) } := by
  rw [turned, h]

/-- A request is not answered before it has ended. -/
theorem outcome_turned (hphase : ∀ r since, f.retry.phase ≠ .finished r since) (ended : Bool)
    (now : Instant) : (a.turned ended now f).outcome = f.outcome := by
  unfold turned
  split
  · rfl
  · split
    · split <;> rfl
    · split <;> rfl
  · rfl
  · rename_i r since hfinished
    exact absurd hfinished (hphase r since)

/-- A request was made in an epoch that has been, and its peer was told how it ended if at all. -/
structure Regular (a : Agent σ) (f : Forward) : Prop where
  epoch : f.epoch ≤ a.epoch
  outcome : ∀ o, f.outcome = some o → ∃ r since, f.retry.phase = .finished r since ∧
    ∀ e, r = .error e → o = .error e.toStatus

theorem Regular.turned (h : Regular a f) (ended : Bool) (now : Instant) :
    Regular a (a.turned ended now f) := by
  refine ⟨Nat.le_trans (Nat.le_of_eq (a.epoch_turned ended now f)) h.epoch, fun o ho ↦ ?_⟩
  by_cases hfinished : ∃ r since, f.retry.phase = .finished r since
  · obtain ⟨r, since, hphase⟩ := hfinished
    rw [turned_of_finished hphase] at ho ⊢
    split at ho
    · rename_i hsome
      rw [if_pos hsome]
      exact h.outcome o ho
    · rename_i hsome
      rw [if_neg hsome]
      refine ⟨r, since, hphase, fun e he ↦ ?_⟩
      rw [← Option.some.inj ho, he]
      rfl
  · -- a request that has not ended has no answer, and gets none
    have hnone : f.outcome = none := by
      by_contra hne
      obtain ⟨o, ho⟩ := Option.ne_none_iff_exists'.mp hne
      obtain ⟨r, since, hphase, -⟩ := h.outcome o ho
      exact hfinished ⟨r, since, hphase⟩
    have hsame := outcome_turned (a := a) (fun r since hphase ↦ hfinished ⟨r, since, hphase⟩)
      ended now
    rw [hsame, hnone] at ho
    cases ho

theorem regular_run (hnew : a.forwards = []) (moves : List (Move σ))
    (hf : (a.run moves).forwards[n]? = some f) : Regular (a.run moves) f := by
  induction moves using List.reverseRecOn generalizing f with
  | nil =>
    rw [run_nil, hnew] at hf
    cases hf
  | append_singleton moves mv ih =>
    rw [run_concat] at hf ⊢
    have hle := (a.run moves).epoch_le_step mv
    cases hf₀ : (a.run moves).forwards[n]? with
    | none =>
      obtain ⟨r, rfl⟩ := eq_newForward hf₀ hf
      exact ⟨hle, fun o ho ↦ by cases ho⟩
    | some f₀ =>
      have hregular := ih hf₀
      obtain ⟨f', hf', h⟩ := forward_step_of mv (p := Regular (a.run moves)) hf₀ hregular
        fun now ↦ hregular.turned _ now
      rw [hf, Option.some.injEq] at hf'
      subst hf'
      exact ⟨Nat.le_trans h.epoch hle, h.outcome⟩

/-- What has become of a request since its epoch ended. -/
structure Ended (f f' : Forward) : Prop where
  epoch : f'.epoch = f.epoch
  /-- It began no attempt, -/
  starts : f'.retry.starts = f.retry.starts
  /-- and if it was between two attempts it made no call, and is there or was cut short. -/
  between : f.retry.IsBetween → f'.call = f.call ∧
    (f'.retry.phase = f.retry.phase ∨ f'.retry.WasCut)

theorem Ended.turned (h : Ended f f') (now : Instant) : Ended f (a.turned true now f') := by
  refine ⟨(a.epoch_turned true now f').trans h.epoch,
    (a.starts_turned now f').trans h.starts, fun hbetween ↦ ?_⟩
  obtain ⟨hcall, hphase | ⟨since, hcut⟩⟩ := h.between hbetween
  · have hthere : f'.retry.IsBetween := by
      unfold Retry.IsBetween
      rw [hphase]
      exact hbetween
    obtain ⟨hcut, hsame, -⟩ := wasCut_turned (a := a) hthere now
    exact ⟨hsame.trans hcall, Or.inr hcut⟩
  · rw [turned_of_finished hcut]
    split
    · exact ⟨hcall, Or.inr ⟨since, hcut⟩⟩
    · exact ⟨hcall, Or.inr ⟨since, hcut⟩⟩

/-- **A request whose epoch has ended begins no attempt**, whatever happens since. -/
theorem ended_run (hf : a.forwards[n]? = some f) (hended : a.hasEnded f.epoch = true)
    (moves : List (Move σ)) : ∃ f', (a.run moves).forwards[n]? = some f' ∧ Ended f f' := by
  induction moves using List.reverseRecOn with
  | nil => exact ⟨f, hf, rfl, rfl, fun _ ↦ ⟨rfl, Or.inl rfl⟩⟩
  | append_singleton moves mv ih =>
    obtain ⟨f', hf', h⟩ := ih
    rw [run_concat]
    refine forward_step_of mv hf' h fun now ↦ ?_
    rw [h.epoch, hasEnded_run hended moves]
    exact h.turned now

/-- As soon as it goes on, its peer is told that the agent was closed. -/
theorem told_of_ended (hregular : Regular a f) (hf : a.forwards[n]? = some f)
    (hended : a.hasEnded f.epoch = true) (h : f.retry.IsBetween ∨ f.retry.WasCut)
    (now now' : Instant) :
    ∃ f', (a.run [.goOn n now, .goOn n now']).forwards[n]? = some f' ∧
      f'.outcome = some (.error StreamError.handlerClosed.toStatus) := by
  have hfirst := forward_goOn hf now
  rw [hended] at hfirst
  obtain ⟨since, hcut⟩ : (a.turned true now f).retry.WasCut := by
    rcases h with hbetween | ⟨since, hcut⟩
    · exact (wasCut_turned hbetween now).1
    · rw [turned_of_finished hcut]
      split <;> exact ⟨since, hcut⟩
  refine ⟨_, forward_goOn hfirst now', ?_⟩
  rw [turned_of_finished hcut]
  split
  · rename_i hsome
    obtain ⟨o, ho⟩ := Option.isSome_iff_exists.mp hsome
    obtain ⟨r, since', hphase, htold⟩ := (hregular.turned true now).outcome o ho
    rw [hcut, RetryPhase.finished.injEq] at hphase
    rw [ho, htold _ hphase.1.symm]
  · rfl

/-! ## Requests that were made since -/

/-- The agent is open, in the given epoch. -/
def IsOpenIn (a : Agent σ) (e : Nat) : Prop := a.closed = false ∧ a.epoch = e

theorem IsOpenIn.step {e : Nat} (h : a.IsOpenIn e) (hclose : mv ≠ .close) :
    (a.step mv).IsOpenIn e := by
  by_cases hreopen : mv = .reopen
  · subst hreopen
    refine ⟨rfl, ?_⟩
    change (if a.closed then a.epoch + 1 else a.epoch) = e
    rw [h.1]
    exact h.2
  · obtain ⟨hepoch, hclosed⟩ := epoch_step (a := a) hclose hreopen
    exact ⟨hclosed.trans h.1, hepoch.trans h.2⟩

theorem IsOpenIn.hasEnded {e : Nat} (h : a.IsOpenIn e) : a.hasEnded e = false := by
  rw [Bool.eq_false_iff, ne_eq, hasEnded_iff, h.1, h.2]
  simp

/-- A request that sees no closing is not cut short. -/
theorem not_wasCut_turned (hconsistent : a.registry.Consistent) (h : ¬f.retry.WasCut)
    (now : Instant) : ¬(a.turned false now f).retry.WasCut := by
  rintro ⟨since, hcut⟩
  unfold turned at hcut
  split at hcut
  · rename_i hphase
    simp only [Retry.start, hphase] at hcut
    cases hcut
  · rename_i hphase
    split at hcut
    · split at hcut
      · cases finished_of_ended hphase hcut
      · rw [hphase] at hcut
        cases hcut
    · rename_i p _
      split at hcut
      · rw [hphase] at hcut
        cases hcut
      · rename_i r hr
        cases r with
        | ok response =>
          simp only [Retry.ended, hphase] at hcut
          cases hcut
        | error e =>
          obtain ⟨c, hc, hce⟩ := Option.bind_eq_some_iff.mp hr
          obtain ⟨s, hs, hcs⟩ := Registry.stream?_of_call? hc
          have hfailed := fun e ↦ (hconsistent _ s hs).failed p.2 c e hcs
          have he := finished_of_ended hphase hcut
          exact (Call.response?_error hfailed hce).2.1 (Except.error.inj he).symm
  · rename_i till hphase
    simp only [Retry.wake, hphase, Bool.false_eq_true, if_false] at hcut
    split at hcut
    · cases hcut
    · rw [hphase] at hcut
      cases hcut
  · split at hcut <;> exact h ⟨since, hcut⟩

theorem IsOpenIn.run {e : Nat} (h : a.IsOpenIn e) (hclose : .close ∉ moves) :
    (a.run moves).IsOpenIn e := by
  induction moves using List.reverseRecOn with
  | nil => exact h
  | append_singleton moves mv ih =>
    rw [run_concat]
    refine (ih fun hmem ↦ hclose (List.mem_append_left _ hmem)).step ?_
    rintro rfl
    exact hclose (List.mem_append_right _ List.mem_cons_self)

/-- **A request that was made since the agent opened is not cut short**, while it stays open. -/
theorem fresh_run {e : Nat} (ha : Steady a fun _ ↦ []) {before after : List (Move σ)}
    (hopen : (a.run before).IsOpenIn e) (hn : (a.run before).forwards[n]? = none)
    (hclose : .close ∉ after) (hf : (a.run (before ++ after)).forwards[n]? = some f) :
    f.epoch = e ∧ ¬f.retry.WasCut := by
  induction after using List.reverseRecOn generalizing f with
  | nil =>
    rw [List.append_nil, hn] at hf
    cases hf
  | append_singleton after mv ih =>
    have hclose' : .close ∉ after := fun hmem ↦ hclose (List.mem_append_left _ hmem)
    have hopen' : (a.run (before ++ after)).IsOpenIn e := by
      rw [run_append]
      exact hopen.run hclose'
    rw [← List.append_assoc, run_concat] at hf
    cases hf₀ : (a.run (before ++ after)).forwards[n]? with
    | none =>
      obtain ⟨r, rfl⟩ := eq_newForward hf₀ hf
      exact ⟨hopen'.2, fun ⟨_, hcut⟩ ↦ by cases hcut⟩
    | some f₀ =>
      obtain ⟨hepoch, hcut⟩ := ih hclose' hf₀
      obtain ⟨f', hf', h⟩ := forward_step_of mv
        (p := fun f ↦ f.epoch = e ∧ ¬f.retry.WasCut) hf₀ ⟨hepoch, hcut⟩ fun now ↦ by
          rw [hepoch, hopen'.hasEnded]
          exact ⟨(epoch_turned _ _ now f₀).trans hepoch,
            not_wasCut_turned (ha.run (before ++ after)).consistent hcut now⟩
      rw [hf, Option.some.injEq] at hf'
      exact hf' ▸ h

/-- What closing an agent and opening it again does to requests that are on their way. -/
structure Unrevived (a : Agent σ) (moves : List (Move σ)) : Prop where
  /-- Whichever requests there were when the agent closed begin no attempt after that, and those
  that were between two attempts make no call and are there or were cut short. -/
  ended : ∀ before after : List (Move σ), moves = before ++ .close :: after →
    ∀ (n : Nat) f, (a.run before).forwards[n]? = some f →
      ∃ f', (a.run moves).forwards[n]? = some f' ∧ f'.retry.starts = f.retry.starts ∧
        (f.retry.IsBetween → f'.call = f.call ∧
          (f'.retry.phase = f.retry.phase ∨ f'.retry.WasCut))
  /-- Those that are between two attempts, or were cut short, tell their peers that the agent was
  closed, as soon as they go on. -/
  told : ∀ before after : List (Move σ), moves = before ++ .close :: after →
    ∀ (n : Nat) f f', (a.run before).forwards[n]? = some f →
      (a.run moves).forwards[n]? = some f' → f'.retry.IsBetween ∨ f'.retry.WasCut →
      ∀ now now', ∃ g, ((a.run moves).run [.goOn n now, .goOn n now']).forwards[n]? = some g ∧
        g.outcome = some (.error StreamError.handlerClosed.toStatus)
  /-- Requests that were made since the agent opened are not cut short, and do what they would do if
  no agent were ever closed. -/
  fresh : ∀ before after : List (Move σ), moves = before ++ .reopen :: after → .close ∉ after →
    ∀ (n : Nat) f, (a.run (before ++ [.reopen])).forwards[n]? = none →
      (a.run moves).forwards[n]? = some f →
      ¬f.retry.WasCut ∧ ∀ now, ((a.run moves).step (.goOn n now)).forwards[n]? =
        some ((a.run moves).turned false now f)

/-- **A restart revives no request**, however many there are and whatever happens in between. -/
theorem unrevived_run {site : Site σ} {config : AgentConfig} {names : NameSupply}
    {timeout : Duration} {store : NodeStore} {permissions : Option PermissionRegistry} {w : σ}
    (h : Agent.new site config names { firstFrameTimeout := timeout, store } permissions w = .ok a)
    (moves : List (Move σ)) : Unrevived a moves := by
  obtain ⟨-, hforwards, hregistrations, hlinks⟩ := fields_of_new h
  have hnew : Steady a fun _ ↦ [] := .of_empty hregistrations hlinks hforwards
  have hended : ∀ {before after}, moves = before ++ .close :: after → ∀ {n : Nat} {f},
      (a.run before).forwards[n]? = some f → ((a.run before).step .close).hasEnded f.epoch = true ∧
        ∃ f', (a.run moves).forwards[n]? = some f' ∧ Ended f f' := by
    rintro before after rfl n f hf
    have hclosed : ((a.run before).step .close).hasEnded f.epoch = true := by
      rw [hasEnded_iff]
      rcases Nat.lt_or_eq_of_le (regular_run hforwards before hf).epoch with hlt | heq
      · exact Or.inl hlt
      · exact Or.inr ⟨rfl, heq⟩
    refine ⟨hclosed, ?_⟩
    rw [run_append, run_cons]
    exact ended_run (forward_of_ne hf fun _ hmv ↦ by cases hmv) hclosed after
  refine ⟨fun before after hmoves n f hf ↦ ?_, fun before after hmoves n f f' hf hf' hthere ↦ ?_,
    ?_⟩
  · obtain ⟨-, f', hf', h⟩ := hended hmoves hf
    exact ⟨f', hf', h.starts, h.between⟩
  · obtain ⟨hclosed, f'', hf'', h⟩ := hended hmoves hf
    rw [hf', Option.some.injEq] at hf''
    subst hf''
    have hstill : (a.run moves).hasEnded f'.epoch = true := by
      rw [h.epoch, hmoves, run_append, run_cons]
      exact hasEnded_run hclosed after
    exact told_of_ended (regular_run hforwards moves hf') hf' hstill hthere
  · rintro before after rfl hclose n f hn hf
    have hopen : (a.run (before ++ [.reopen])).IsOpenIn (a.run (before ++ [.reopen])).epoch :=
      ⟨by rw [run_concat]; rfl, rfl⟩
    rw [List.append_cons] at hf ⊢
    obtain ⟨hepoch, hcut⟩ := fresh_run hnew hopen hn hclose hf
    refine ⟨hcut, fun now ↦ ?_⟩
    have hnow : (a.run (before ++ [.reopen] ++ after)).hasEnded f.epoch = false := by
      rw [hepoch, run_append]
      exact (hopen.run hclose).hasEnded
    rw [forward_goOn hf now, hnow]

/-- A request waits for its second attempt while the agent closes and opens again, and another one
is made after that. -/
def reloading : List (Move Rehearsal) :=
  [.call .protectedSide (.administer (.pauseNode "node")), .goOn 0 0, .goOn 0 0, .close, .reopen,
    .call .protectedSide (.administer (.pauseNode "node")), .goOn 0 0, .goOn 0 0, .goOn 1 0,
    .goOn 1 0]

/-- The first one is over after one attempt, and the second one waits for its next. -/
theorem unrevived_reloading :
    ∃ a, Agent.new (Rehearsal.site false) {} tallies
        { firstFrameTimeout := .ofSeconds 30, store := {} } none mainWorld = .ok a ∧
      Unrevived a reloading ∧
      (a.run reloading).forwards.map (·.retry.starts) = [[0], [0]] ∧
      (a.run reloading).forwards.map (·.outcome) =
        [some (.error StreamError.handlerClosed.toStatus), none] := by
  have hrun : ∃ a, Agent.new (Rehearsal.site false) {} tallies
      { firstFrameTimeout := .ofSeconds 30, store := {} } none mainWorld = .ok a ∧
      (a.run reloading).forwards.map (·.retry.starts) = [[0], [0]] ∧
      (a.run reloading).forwards.map (·.outcome) =
        [some (.error StreamError.handlerClosed.toStatus), none] := ⟨_, rfl, rfl, rfl⟩
  obtain ⟨a, hnew, hstarts, houtcome⟩ := hrun
  exact ⟨a, hnew, unrevived_run hnew reloading, hstarts, houtcome⟩

end Agent

end NodeAgent
