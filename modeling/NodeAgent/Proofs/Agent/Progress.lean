import NodeAgent.Proofs.Agent.Timing
import Mathlib.Algebra.Order.BigOperators.Group.Finset

/-!
# That forwarded requests never hold up the clock

Time does not pass while a request has something to do, so a bound on the time that it takes says
nothing of a request that could act for ever at one instant. None can. What a request has left to do
(`rank`) never grows, whatever the agent does, and each operation of its own makes it less. All
requests together have less and less to do (`toDo`), until each of them waits for a timer and time
passes.

## Main statements

* `rank_le_step`, `rank_nextMove`: nothing that others do gives a request more to do, and each
  operation of its own leaves it less.
* `Timed.exists_paused`: all requests come to wait for a timer, at every instant.
* `timely_run`: a request is under way no longer than its waits and one response may take, and the
  clock reaches every instant.
-/

namespace NodeAgent

/-- How many operations a call has left at most. -/
def CallStage.rank : CallStage → Nat
  | opening => 7
  | entering => 6
  | rechecking => 5
  | offering => 4
  | queued => 3
  | awaiting => 2
  | leaving _ => 1
  | returned _ | abandoned => 0

theorem CallStage.one_le_rank {k : CallStage} (h : k.isRunning = true) : 1 ≤ k.rank := by
  cases k with
  | returned _ | abandoned => cases h
  | _ => exact Nat.le_of_ble_eq_true rfl

namespace Stream

variable {s s' s'' : Stream} {i : Nat} {c : Call}

/-! ### A call that acts -/

/-- A call that gives up has nothing left to do but to leave the table. -/
theorem rank_giveUp (hc : s.call? i = some c) (e : StreamError) :
    ∃ c', (s.giveUp i e).call? i = some c' ∧ c'.stage.rank = 1 :=
  ⟨_, call?_update_of_eq (s := { s with senders := s.senders.filter (· ≠ i) }) hc _, rfl⟩

/-- A call that waits for nothing comes closer to its end. -/
theorem rank_advance (hc : s.call? i = some c) (hrun : c.stage.isRunning = true)
    (hstuck : s.isStuck c = false) (now : Instant) :
    ∃ c', (s.advance i now).call? i = some c' ∧ c'.stage.rank < c.stage.rank := by
  have hupdate : ∀ {t : Stream} {d : Call} {f : Call → Call} (k : Nat), t.call? i = some d →
      (f d).stage.rank = k → k < c.stage.rank →
      ∃ c', (t.update i f).call? i = some c' ∧ c'.stage.rank < c.stage.rank :=
    fun _ hd hk hlt ↦ ⟨_, call?_update_of_eq hd _, hk ▸ hlt⟩
  have hgiveUp : ∀ e, 1 < c.stage.rank →
      ∃ c', (s.giveUp i e).call? i = some c' ∧ c'.stage.rank < c.stage.rank := by
    intro e hlt
    obtain ⟨c', hc', hrank⟩ := rank_giveUp hc e
    exact ⟨c', hc', hrank ▸ hlt⟩
  unfold advance
  rw [hc]
  dsimp only
  split
  · rename_i hstage
    split
    · exact hupdate 0 hc rfl (by rw [hstage]; decide)
    · exact hupdate 6 hc rfl (by rw [hstage]; decide)
  · rename_i hstage
    obtain ⟨slot, hslot⟩ := exists_call?_resolve hc c.id .drop
    exact hupdate (t := s.enter i c.id) 5 hslot rfl (by rw [hstage]; decide)
  · rename_i hstage
    split
    · exact hupdate 1 hc rfl (by rw [hstage]; decide)
    · exact hupdate 4 hc rfl (by rw [hstage]; decide)
  · rename_i hstage
    split
    · exact hgiveUp _ (by rw [hstage]; decide)
    · unfold offer
      split
      · exact hupdate (t := { s with channel := s.channel ++ [c.frame] }) 2 hc rfl
          (by rw [hstage]; decide)
      · exact hupdate (t := { s with senders := s.senders ++ [i] }) 3 hc rfl
          (by rw [hstage]; decide)
  · rename_i hstage
    split
    · exact hgiveUp _ (by rw [hstage]; decide)
    · rename_i hrefuses
      rw [isStuck, hstage] at hstuck
      exact absurd hstuck (by simpa using hrefuses)
  · rename_i hstage
    split
    · rename_i hslot
      rw [isStuck, hstage] at hstuck
      exact absurd hstuck (by simpa using hslot)
    · exact hupdate 0 hc rfl (by rw [hstage]; decide)
    · exact hupdate 1 hc rfl (by rw [hstage]; decide)
  · rename_i e hstage
    obtain ⟨slot, hslot⟩ := exists_call?_resolve hc c.id .drop
    exact hupdate (t := s.forget c.id) 0 hslot rfl (by rw [hstage]; exact Nat.one_pos)
  · rename_i hstage
    rw [hstage] at hrun
    cases hrun
  · rename_i hstage
    rw [hstage] at hrun
    cases hrun

/-- A call whose time is up comes closer to its end. -/
theorem rank_expire {now : Instant} (hc : s.call? i = some c) (hstuck : s.isStuck c = true)
    (hdue : c.deadline ≤ now) :
    ∃ c', (s.expire i now).call? i = some c' ∧ c'.stage.rank < c.stage.rank := by
  obtain ⟨c', hc', hrank⟩ := rank_giveUp hc (.timeout c.timeout)
  refine ⟨c', ?_, ?_⟩
  · unfold expire
    rw [hc]
    dsimp only
    rw [hstuck, Bool.true_and, if_pos (decide_eq_true hdue)]
    exact hc'
  · rw [hrank]
    rcases stage_of_isStuck hstuck with hstage | ⟨hstage, -⟩ <;> rw [hstage] <;> decide

/-! ### All calls -/

/-- No call of the first stream is further from its end in the second one. -/
def Nears (s s' : Stream) : Prop :=
  ∀ i c, s.call? i = some c → ∃ c', s'.call? i = some c' ∧ c'.stage.rank ≤ c.stage.rank

theorem Follows.rank_lt {slot : Slot} {k k' : CallStage} (h : Follows slot k k') :
    k'.rank < k.rank := by
  cases h <;> simp [CallStage.rank]

namespace Nears

theorem refl (s : Stream) : s.Nears s := fun _ c hc ↦ ⟨c, hc, Nat.le_refl _⟩

theorem trans (h : s.Nears s') (h' : s'.Nears s'') : s.Nears s'' := by
  intro i c hc
  obtain ⟨c', hc', hle⟩ := h i c hc
  obtain ⟨c'', hc'', hle'⟩ := h' i c' hc'
  exact ⟨c'', hc'', Nat.le_trans hle' hle⟩

theorem of_stands (h : s.Stands s') : s.Nears s' := by
  intro i c hc
  have hi := h i
  rw [hc, Option.map_some] at hi
  obtain ⟨c', hc', hstanding⟩ := Option.map_eq_some_iff.mp hi
  exact ⟨c', hc', Nat.le_of_eq (congrArg (CallStage.rank ·.1) hstanding)⟩

theorem update (hc : s.call? i = some c) {f : Call → Call}
    (h : (f c).stage.rank ≤ c.stage.rank) : s.Nears (s.update i f) := by
  intro j d hd
  by_cases hij : i = j
  · subst hij
    rw [hc, Option.some.injEq] at hd
    exact ⟨f c, call?_update_of_eq hc f, hd ▸ h⟩
  · exact ⟨d, (call?_update_of_ne hij f).trans hd, Nat.le_refl _⟩

theorem enqueue (hc : s'.call? i = some c) (h : 2 ≤ c.stage.rank) (d : Call)
    (hcalls : s'.calls = s.calls) : s.Nears (s'.enqueue i d) := by
  have hsame : s.Nears { s' with channel := s'.channel ++ [d.frame] } :=
    of_stands fun j ↦ by rw [call?, call?, hcalls]
  exact hsame.trans (update (c := c) hc h)

theorem acts (h : Acts s i s') : s.Nears s' := by
  cases h with
  | idle => exact refl s
  | move f hc _ hnext => exact update hc hnext.rank_lt.le
  | @enter c hc hstage =>
    obtain ⟨slot, hslot⟩ := exists_call?_resolve hc c.id .drop
    have hentered : s.Nears (s.enter i c.id) := of_stands (.resolve s c.id _)
    exact hentered.trans (update hslot (by simp [hstage, CallStage.rank]))
  | @leave c e hc hstage =>
    obtain ⟨slot, hslot⟩ := exists_call?_resolve hc c.id .drop
    have hleft : s.Nears (s.forget c.id) := of_stands (.resolve s c.id _)
    exact hleft.trans (update hslot (Nat.zero_le _))
  | @offer c hc hstage =>
    unfold Stream.offer
    split
    · exact enqueue hc (by rw [hstage]; decide) c rfl
    · have hqueued : s.Nears { s with senders := s.senders ++ [i] } := of_stands fun _ ↦ rfl
      exact hqueued.trans (update (c := c) hc (by simp [hstage, CallStage.rank]))
  | @lose c f hc hrun _ hlost =>
    have hfiltered : s.Nears { s with senders := s.senders.filter (· ≠ i) } :=
      of_stands fun _ ↦ rfl
    refine hfiltered.trans (update (c := c) hc ?_)
    rcases hlost with ⟨e, -, hstage⟩ | hstage
    · exact hstage ▸ CallStage.one_le_rank hrun
    · exact hstage ▸ Nat.zero_le _

theorem take (h : Taking s s') : s.Nears s' := by
  cases h with
  | nothing _ => exact refl s
  | free _ _ => exact of_stands fun _ ↦ rfl
  | @pass frame rest i waiting c _ _ hc hqueued =>
    exact enqueue (c := c) hc (by rw [hqueued]; decide) c rfl

theorem «open» (s : Stream) (id : RequestId) (r : Request) (d : Duration) :
    s.Nears (s.open id r d) := by
  intro j c hc
  have hlt := (List.getElem?_eq_some_iff.mp hc).1
  exact ⟨c, by rw [call?_open, if_neg (by omega), hc], Nat.le_refl _⟩

end Nears

/-- **No call gets further from its end**, whatever is done with its stream. -/
theorem nears_use (hs : s.Consistent) (u : Use) : s.Nears (s.use u) := by
  cases u with
  | «open» id r d => exact .open s id r d
  | advance i now => exact .acts (acts_advance s i now)
  | insist i => exact .acts (acts_insist s i)
  | expire i now => exact .acts (acts_expire s i now)
  | abandon i => exact .acts (acts_abandon s i)
  | take => exact .take (taking_take hs)
  | hangUp => exact .of_stands fun _ ↦ rfl

end Stream

/-- No call gets further from its end, whatever the registry does. -/
theorem Registry.rank_step {r : Registry} {p : Nat × Nat} {c : Call} (hr : r.Consistent)
    (hc : r.call? p = some c) (mv : Move) :
    ∃ c', (r.step mv).call? p = some c' ∧ c'.stage.rank ≤ c.stage.rank := by
  obtain ⟨s, hs, hcs⟩ := stream?_of_call? hc
  obtain ⟨s', hs', heff⟩ := stream_step hs mv
  have hnears : s.Nears s' := by
    cases heff with
    | deliver l hl => exact .of_stands (stands_deliveries hl s)
    | close l hl => exact .of_stands ((stands_deliveries hl s).trans (.close _))
    | @use u _ => exact Stream.nears_use (hr p.1 s hs) u
  obtain ⟨c', hc', hle⟩ := hnears p.2 c hcs
  exact ⟨c', (call?_of_stream? hs' p.2).trans hc', hle⟩

namespace Agent

variable {σ : Type} {a a' : Agent σ} {n : Nat} {f f' : Forward} {now began : Instant}
  {span : Nat}

/-! ## What a request does next -/

/-- The next operation of a request, or of the call that it waits for. -/
def nextMove (a : Agent σ) (n : Nat) (f : Forward) (now : Instant) : Move σ :=
  match f.retry.phase, f.call with
  | .attempting, some p =>
    if (a.response? p).isSome then .goOn n now
    else if (a.registry.callDue? p).isSome then .registry (.use p.1 (.expire p.2 now))
    else .registry (.use p.1 (.advance p.2 now))
  | _, _ => .goOn n now

/-- How many operations a request has left at most, if it is not answered and need not wait. -/
def rank (a : Agent σ) (f : Forward) : Nat :=
  let left := f.retry.policy.limit - f.retry.starts.length
  match f.retry.phase with
  | .ready => 3 * left + 8
  | .attempting =>
    match f.call with
    | none => 3 * left + 10
    | some p => ((a.registry.call? p).map (·.stage.rank)).getD 0 + 2
  | .waiting _ => 3 * left + 9
  | .finished _ _ => if f.outcome.isNone then 1 else 0

/-- The request was answered, or has to wait for a later instant. -/
def HasPaused (a : Agent σ) (now : Instant) (f : Forward) : Prop :=
  a.isUnderWay f = false ∨ ∃ due, a.due? f = some due ∧ now < due

/-! ## Closer to the end -/

theorem stamp_nextMove (a : Agent σ) (n : Nat) (f : Forward) (now : Instant) :
    (a.nextMove n f now).stamp now = a.nextMove n f now := by
  unfold nextMove
  split
  · split
    · rfl
    · split <;> rfl
  · rfl

theorem nextMove_ne {m : Nat} (h : m ≠ n) (t : Instant) : a.nextMove n f now ≠ .goOn m t := by
  have hgoOn : Move.goOn (σ := σ) n now ≠ .goOn m t := fun heq ↦ h (Move.goOn.inj heq).1.symm
  unfold nextMove
  split
  · split
    · exact hgoOn
    · split <;> nofun
  · exact hgoOn

/-- A request that does an operation of its own comes closer to its end. -/
theorem rank_goOn {calls : Nat → List (Nat × Nat)} (ha : Steady a calls)
    (hf : a.forwards[n]? = some f) (h : OnSchedule a now began span f) (hnone : f.outcome = none)
    (hnext : a.nextMove n f now = .goOn n now)
    (hdue : ∀ due, a.due? f = some due → due ≤ now) :
    (a.step (.goOn n now)).rank (a.turned (a.hasEnded f.epoch) now f) < a.rank f := by
  cases h with
  | ready hphase hcall _ hlt =>
    simp only [turned, hphase, Retry.start]
    split
    · simp only [rank, hphase, Retry.finish, hnone, Option.isNone_none, if_true]
      omega
    · simp only [rank, hphase, hcall, List.length_append, List.length_singleton]
      omega
  | waiting hphase hcall _ hlt _ =>
    simp only [due?, hphase] at hdue
    simp only [turned, hphase, Retry.wake]
    split
    · simp only [rank, hphase, Retry.finish, hnone, Option.isNone_none, if_true]
      omega
    · rename_i hopen
      rw [if_neg hopen] at hdue
      rw [if_pos (hdue _ rfl)]
      simp only [rank, hphase]
      omega
  | finished hphase _ _ =>
    simp only [turned, hphase, hnone, Option.isSome_none, Bool.false_eq_true, if_false, rank,
      Option.isNone_some, Option.isNone_none, if_true, Nat.one_pos]
  | trying k hphase hcall _ _ _ =>
    cases hg : a.registry.find? f.request.node with
    | none =>
      simp only [turned, hphase, hcall, hg, Retry.ended]
      split
      · simp only [rank, hphase, hcall]
        omega
      · simp only [rank, hphase, hcall, Retry.finish, hnone, Option.isNone_none, if_true]
        omega
    | some g =>
      obtain ⟨s, hs⟩ := ha.linked _ g hg
      simp only [turned, hphase, hcall, hg]
      rw [step_goOn_of_find? hf hphase hcall hg now]
      simp only [rank, hphase, hcall, call?_nextPlace hs, Option.map_some, Option.getD_some,
        CallStage.rank]
      omega
  | @calling p c k hphase hcall hc _ _ _ =>
    cases hr : a.response? p with
    | none =>
      simp only [nextMove, hphase, hcall, hr, Option.isSome_none, Bool.false_eq_true,
        if_false] at hnext
      split at hnext <;> cases hnext
    | some r =>
      have hended := phase_ended_response ha.consistent hphase hr now
      simp only [turned, hphase, hcall, hr, rank, hended, hnone, Option.isNone_none, if_true]
      omega

/-- So does one whose call does an operation. -/
theorem rank_use {p : Nat × Nat} {c : Call} (hphase : f.retry.phase = .attempting)
    (hcall : f.call = some p)
    (hc : a.registry.call? p = some c) (hrun : c.stage.isRunning = true)
    (hnext : a.nextMove n f now ≠ .goOn n now)
    (hdue : ∀ due, a.due? f = some due → due ≤ now) :
    (a.step (a.nextMove n f now)).rank f < a.rank f := by
  obtain ⟨s, hs, hcs⟩ := Registry.stream?_of_call? hc
  have huse : ∀ u c', (s.use u).call? p.2 = some c' → c'.stage.rank < c.stage.rank →
      (a.step (.registry (.use p.1 u))).rank f < a.rank f := by
    intro u c' hc' hlt
    have hplace : (a.step (.registry (.use p.1 u))).registry.call? p = some c' :=
      (Registry.call?_of_stream? (Registry.stream?_updateStream hs (·.use u)) p.2).trans hc'
    simp only [rank, hphase, hcall, hc, hplace, Option.map_some, Option.getD_some]
    omega
  have hdue? := Registry.callDue?_of_call? hs hcs
  unfold nextMove at hnext ⊢
  rw [hphase, hcall] at hnext ⊢
  dsimp only at hnext ⊢
  split at hnext
  · exact absurd rfl hnext
  · rename_i hr
    rw [if_neg hr]
    by_cases hstuck : s.isStuck c = true
    · rw [if_pos hstuck] at hdue?
      rw [hdue?, Option.isSome_some, if_pos rfl]
      have hle : c.deadline ≤ now := hdue _ (by
        simp only [due?, hphase, hcall, Option.bind_some, hdue?])
      obtain ⟨c', hc', hlt⟩ := Stream.rank_expire hcs hstuck hle
      exact huse _ c' hc' hlt
    · rw [if_neg hstuck] at hdue?
      rw [hdue?, Option.isSome_none, if_neg Bool.false_ne_true]
      obtain ⟨c', hc', hlt⟩ :=
        Stream.rank_advance hcs hrun (Bool.eq_false_iff.mpr hstuck) now
      exact huse _ c' hc' hlt

/-- What is next for a request that waits for no response is its own. -/
theorem nextMove_eq_goOn (h : ∀ p, f.retry.phase = .attempting → f.call = some p →
    (a.response? p).isSome = true) : a.nextMove n f now = .goOn n now := by
  unfold nextMove
  split
  · rename_i p hphase hcall
    rw [if_pos (h p hphase hcall)]
  · rfl

/-- If what is next for a request on schedule is not its own, it waits for a response. -/
theorem OnSchedule.exists_awaited (h : OnSchedule a now began span f)
    (hnext : a.nextMove n f now ≠ .goOn n now) :
    ∃ p c, f.retry.phase = .attempting ∧ f.call = some p ∧ a.registry.call? p = some c ∧
      a.response? p = none := by
  have hidle : (f.retry.phase = .attempting → f.call = none) → False := fun hnone ↦
    hnext (nextMove_eq_goOn fun p hphase hcall ↦ by rw [hnone hphase] at hcall; cases hcall)
  cases h with
  | ready hphase hcall _ _ => exact (hidle fun _ ↦ hcall).elim
  | waiting hphase hcall _ _ _ => exact (hidle fun _ ↦ hcall).elim
  | finished hphase hcall _ => exact (hidle fun _ ↦ hcall).elim
  | trying k _ hcall _ _ _ => exact (hidle fun _ ↦ hcall).elim
  | @calling p c k hphase hcall hc _ _ _ =>
    refine ⟨p, c, hphase, hcall, hc, Option.not_isSome_iff_eq_none.mp fun hsome ↦ hnext ?_⟩
    refine nextMove_eq_goOn fun q _ hq ↦ ?_
    rwa [← Option.some.inj (hcall.symm.trans hq)]

/-- **Each operation of its own brings a request closer to its end**, unless it has to wait. -/
theorem rank_nextMove {calls : Nat → List (Nat × Nat)} (ha : Steady a calls)
    (hf : a.forwards[n]? = some f) (h : Paced a now began span f)
    (hnot : ¬a.HasPaused now f) :
    ∃ f', (a.step (a.nextMove n f now)).forwards[n]? = some f' ∧
      (a.step (a.nextMove n f now)).rank f' < a.rank f := by
  have hunder : a.isUnderWay f = true := by
    by_contra hover
    exact hnot (Or.inl (Bool.eq_false_iff.mpr hover))
  have hdue : ∀ due, a.due? f = some due → due ≤ now := fun due hdue ↦
    Nat.le_of_not_lt fun hlt ↦ hnot (Or.inr ⟨due, hdue, hlt⟩)
  obtain ⟨hnone, hthere⟩ := Bool.and_eq_true_iff.mp hunder
  have hschedule := h.schedule (Option.isNone_iff_eq_none.mp hnone)
  by_cases hnext : a.nextMove n f now = .goOn n now
  · rw [hnext]
    exact ⟨_, forward_goOn hf now,
      rank_goOn ha hf hschedule (Option.isNone_iff_eq_none.mp hnone) hnext hdue⟩
  · obtain ⟨p, c, hphase, hcall, hc, hr⟩ := hschedule.exists_awaited hnext
    have hrun : c.stage.isRunning = true := by
      cases hstage : c.stage with
      | returned r =>
        rw [response?_of_call? hc, Call.response?, Call.result?_eq_some.mpr hstage] at hr
        cases hr
      | abandoned =>
        rw [hcall, Option.any_some, hc, Option.any_some, hstage] at hthere
        cases hthere
      | _ => rfl
    refine ⟨f, forward_of_ne hf fun t ht ↦ hnext ?_,
      rank_use hphase hcall hc hrun hnext hdue⟩
    rw [ht, eq_now_of_stamp ((stamp_nextMove a n f now).trans ht)]

/-- Nothing that others do takes a request further from its end. -/
theorem rank_le_step {calls : Nat → List (Nat × Nat)} (ha : Steady a calls)
    (hf : a.forwards[n]? = some f) (mv : Move σ) : (a.step mv).rank f ≤ a.rank f := by
  unfold rank
  dsimp only
  split
  · exact Nat.le_refl _
  · rename_i hphase
    have hstands := ha.stands n f hf
    generalize calls n = l at hstands
    cases hstands with
    | uncalled hcall _ => rw [hcall]
    | calling hc _ hcall _ =>
      obtain ⟨m, hm, -⟩ := a.exists_registry_step mv
      obtain ⟨c', hc', hle⟩ := Registry.rank_step ha.consistent hc m
      simp only [hcall, hm, hc, hc', Option.map_some, Option.getD_some]
      omega
    | returned _ _ _ hfinished _ =>
      rw [hphase] at hfinished
      cases hfinished
  · exact Nat.le_refl _
  · exact Nat.le_refl _

/-! ## All requests -/

/-- How many operations all requests have left at most. -/
def toDo (a : Agent σ) : Nat :=
  ∑ n ∈ Finset.range a.forwards.length, ((a.forwards[n]?).map a.rank).getD 0

/-- No request begins while others go on. -/
theorem length_nextMove (a : Agent σ) (n : Nat) (f : Forward) (now : Instant) :
    (a.step (a.nextMove n f now)).forwards.length = a.forwards.length := by
  have hgoOn : (a.step (.goOn n now)).forwards.length = a.forwards.length := by
    change (((a.forwards[n]?).map fun g ↦ a.goOn n g now).getD a).forwards.length = _
    cases a.forwards[n]? with
    | none => rfl
    | some g =>
      obtain ⟨u, hu, -⟩ := a.exists_modify_goOn n g now
      rw [Option.map_some, Option.getD_some, hu, List.length_modify]
  unfold nextMove
  split
  · split
    · exact hgoOn
    · split <;> rfl
  · exact hgoOn

/-- An operation of one request leaves all requests together less to do. -/
theorem toDo_nextMove {calls : Nat → List (Nat × Nat)} (ha : Steady a calls)
    (hf : a.forwards[n]? = some f) (h : Paced a now began span f) (hnot : ¬a.HasPaused now f) :
    (a.step (a.nextMove n f now)).toDo < a.toDo := by
  obtain ⟨f', hf', hlt⟩ := rank_nextMove ha hf h hnot
  unfold toDo
  rw [length_nextMove]
  -- the requests are the same ones, none has more to do, and the one that went on has less
  refine Finset.sum_lt_sum (fun m hm ↦ ?_) ⟨n, ?_, ?_⟩
  · by_cases hmn : m = n
    · subst hmn
      rw [hf, hf', Option.map_some, Option.map_some, Option.getD_some, Option.getD_some]
      exact hlt.le
    · have hg := List.getElem?_eq_getElem (Finset.mem_range.mp hm)
      rw [forward_of_ne hg fun t ↦ nextMove_ne hmn t, hg]
      exact rank_le_step ha hg _
  · exact Finset.mem_range.mpr (List.getElem?_eq_some_iff.mp hf).1
  · rw [hf, hf', Option.map_some, Option.map_some, Option.getD_some, Option.getD_some]
    exact hlt

/-- Time may pass once every request has to wait. -/
theorem mayPass_of_paused (h : ∀ f ∈ a.forwards, a.HasPaused now f) :
    a.mayPass (now + 1) = true := by
  refine List.all_eq_true.mpr fun f hf ↦ ?_
  rcases h f hf with hover | ⟨due, hdue, hlt⟩
  · rw [hover]
    rfl
  · rw [hdue, Option.any_some, decide_eq_true (Nat.succ_le_of_lt hlt), Bool.or_true]

namespace Timed

variable {t : Timed σ}

/-- Whether all that happens is that requests go on and that time passes. -/
def Tick.isOwn : Tick σ → Bool
  | .pass _ | .act (.goOn _ _) => true
  | .act (.registry (.use _ (.advance _ _))) | .act (.registry (.use _ (.expire _ _))) => true
  | _ => false

theorem isOwn_nextMove (a : Agent σ) (n : Nat) (f : Forward) (now : Instant) :
    (Tick.act (a.nextMove n f now)).isOwn = true := by
  unfold nextMove
  split
  · split
    · rfl
    · split <;> rfl
  · rfl

/-- Every request is on schedule, since some instant. -/
theorem exists_paced (ha : Steady t.agent fun _ ↦ []) (hnew : t.agent.forwards = [])
    (ticks : List (Tick σ)) (hf : (t.run ticks).agent.forwards[n]? = some f) :
    ∃ began span, Paced (t.run ticks).agent (t.run ticks).now began span f := by
  have hbegan : ∃ before tick after, ticks = before ++ tick :: after ∧
      (t.run before).agent.forwards[n]? = none ∧
      (t.run (before ++ [tick])).agent.forwards[n]? ≠ none := by
    clear ha
    induction ticks using List.reverseRecOn generalizing f with
    | nil =>
      rw [run_nil, hnew] at hf
      cases hf
    | append_singleton ticks tick ih =>
      cases hthere : (t.run ticks).agent.forwards[n]? with
      | none => exact ⟨ticks, tick, [], rfl, hthere, hf ▸ Option.some_ne_none f⟩
      | some g =>
        obtain ⟨before, first, after, rfl, hnone, hsome⟩ := ih hthere
        exact ⟨before, first, after ++ [tick], by rw [List.append_assoc, List.cons_append], hnone,
          hsome⟩
  obtain ⟨before, tick, after, rfl, hnone, hsome⟩ := hbegan
  rw [List.append_cons] at hf ⊢
  obtain ⟨f', hf', hpaced, -⟩ := paced_run ha hnone hsome after
  rw [hf, Option.some.injEq] at hf'
  exact ⟨_, _, hf' ▸ hpaced⟩

/-- **All requests come to wait for a timer, at every instant**, if only they go on. -/
theorem exists_paused (ha : Steady t.agent fun _ ↦ []) (hnew : t.agent.forwards = [])
    (ticks : List (Tick σ)) :
    ∃ later : List (Tick σ), later.all (·.isOwn) = true ∧
      (t.run (ticks ++ later)).now = (t.run ticks).now ∧
      ∀ f ∈ (t.run (ticks ++ later)).agent.forwards,
        (t.run (ticks ++ later)).agent.HasPaused (t.run ticks).now f := by
  -- as long as one of them has something to do, let it go on: that leaves less to do
  induction hleft : (t.run ticks).agent.toDo using Nat.strong_induction_on generalizing ticks with
  | _ left ih =>
    by_cases hpaused : ∀ f ∈ (t.run ticks).agent.forwards,
        (t.run ticks).agent.HasPaused (t.run ticks).now f
    · exact ⟨[], rfl, by rw [List.append_nil], by rw [List.append_nil]; exact hpaused⟩
    · obtain ⟨f, hmem, hnot⟩ := by simpa only [not_forall] using hpaused
      obtain ⟨n, hf⟩ := List.getElem?_of_mem hmem
      obtain ⟨calls, hsteady⟩ := exists_steady ha ticks
      obtain ⟨began, span, hpaced⟩ := exists_paced ha hnew ticks hf
      have hless := toDo_nextMove hsteady hf hpaced hnot
      have hstep : t.run (ticks ++ [.act ((t.run ticks).agent.nextMove n f (t.run ticks).now)]) =
          ⟨(t.run ticks).agent.step ((t.run ticks).agent.nextMove n f (t.run ticks).now),
            (t.run ticks).now⟩ := by
        rw [run_concat, step, stamp_nextMove]
      obtain ⟨later, hown, hnow, hlater⟩ := ih _ (hleft ▸ hless) _ (by rw [hstep])
      refine ⟨.act ((t.run ticks).agent.nextMove n f (t.run ticks).now) :: later, ?_, ?_, ?_⟩
      · rw [List.all_cons, isOwn_nextMove, hown]
        rfl
      · rw [List.append_cons, hnow, hstep]
      · rw [List.append_cons]
        rw [hstep] at hlater
        exact hlater

/-- **The clock reaches every instant**, if requests go on. -/
theorem exists_reached (ha : Steady t.agent fun _ ↦ []) (hnew : t.agent.forwards = [])
    (ticks : List (Tick σ)) {till : Instant} (htill : (t.run ticks).now ≤ till) :
    ∃ later : List (Tick σ), later.all (·.isOwn) = true ∧ (t.run (ticks ++ later)).now = till := by
  induction till, htill using Nat.le_induction with
  | base => exact ⟨[], rfl, by rw [List.append_nil]⟩
  | succ till _ ih =>
    obtain ⟨later, hown, hnow⟩ := ih
    obtain ⟨more, hmore, hsame, hpaused⟩ := exists_paused ha hnew (ticks ++ later)
    rw [← hsame] at hpaused
    refine ⟨later ++ more ++ [.pass (till + 1)], ?_, ?_⟩
    · rw [List.all_append, List.all_append, hown, hmore]
      rfl
    · have hpass := mayPass_of_paused hpaused
      rw [hsame, hnow] at hpass
      have hle : (t.run (ticks ++ later ++ more)).now ≤ till + 1 :=
        (hsame.trans hnow).le.trans (Nat.le_succ till)
      rw [← List.append_assoc, ← List.append_assoc, run_concat, step, if_pos ⟨hle, hpass⟩]

end Timed

/-! ## Every run with a clock -/

/-- What the clock shows of forwarded requests. -/
structure Timely (t : Timed σ) (ticks : List (Timed.Tick σ)) : Prop where
  /-- Whoever is under way began no longer ago than the waits between its attempts and one response
  may take. -/
  within : ∀ before tick after, ticks = before ++ tick :: after → ∀ (n : Nat) f,
    (t.run before).agent.forwards[n]? = none →
      (t.run (before ++ [tick])).agent.forwards[n]? ≠ none →
      (t.run ticks).agent.forwards[n]? = some f → (t.run ticks).agent.isUnderWay f = true →
      (t.run ticks).now ≤ (t.run before).now +
        ((max 1 t.agent.config.retry.maxAttempts - 1) * t.agent.config.retry.interval.nanos +
          (t.agent.timeoutOf f.request).nanos)
  /-- The clock can reach every instant, without anybody else's doing. -/
  reached : ∀ till, (t.run ticks).now ≤ till →
    ∃ later : List (Timed.Tick σ), later.all (·.isOwn) = true ∧ (t.run (ticks ++ later)).now = till

/-- **No forwarded request takes longer than its waits and one response may take**, whatever the
registry and the nodes do. -/
theorem timely_run {site : Site σ} {config : AgentConfig} {names : NameSupply}
    {timeout : Duration} {store : NodeStore} {permissions : Option PermissionRegistry} {w : σ}
    (h : Agent.new site config names { firstFrameTimeout := timeout, store } permissions w = .ok a)
    (start : Instant) (ticks : List (Timed.Tick σ)) : Timely ⟨a, start⟩ ticks := by
  obtain ⟨-, hforwards, hregistrations, hlinks⟩ := fields_of_new h
  have hnew : Steady a fun _ ↦ [] := .of_empty hregistrations hlinks hforwards
  refine ⟨?_, fun till ↦ Timed.exists_reached hnew hforwards ticks⟩
  rintro before tick after rfl n f hn hmade hf hunder
  rw [List.append_cons] at hf hunder ⊢
  obtain ⟨f', hf', hpaced, hpolicy⟩ := Timed.paced_run hnew hn hmade after
  rw [hf, Option.some.injEq] at hf'
  subst hf'
  have hnow := hpaced.now_le hunder
  rwa [hpolicy] at hnow

/-- A request is attempted twice. The node comes before the second attempt and takes the frame, but
does not answer. -/
def holding : List (Timed.Tick Rehearsal) :=
  [.act (.call .protectedSide (.administer (.pauseNode "node"))), .act (.goOn 0 0),
    .act (.goOn 0 0), .pass 1000000000,
    .act (.registry (.arrive [.provisioned]
      [.frame ⟨"", some (.info { nodeId := "node", statusCode := 2 })⟩] false 0)),
    .act (.registry (.review 0 0)), .act (.goOn 0 0), .act (.goOn 0 0), .act (.goOn 0 0)] ++
  (callActs 5).map .act ++ [.pass 61000000000]

/-- It is under way up to the sum of one wait and the time for one response, and no further. -/
theorem timely_holding :
    ∃ a, Agent.new (Rehearsal.site false)
        { retry := { maxAttempts := 2, interval := .ofSeconds 1 } } tallies
        { firstFrameTimeout := .ofSeconds 30, store := {} } none mainWorld = .ok a ∧
      Timely ⟨a, 0⟩ holding ∧
      (Timed.run ⟨a, 0⟩ holding).now = 61000000000 ∧
      (Timed.run ⟨a, 0⟩ holding).agent.forwards.map
        (Timed.run ⟨a, 0⟩ holding).agent.isUnderWay = [true] ∧
      (Timed.run ⟨a, 0⟩ holding).agent.mayPass 61000000001 = false := by
  have hrun : ∃ a, Agent.new (Rehearsal.site false)
        { retry := { maxAttempts := 2, interval := .ofSeconds 1 } } tallies
        { firstFrameTimeout := .ofSeconds 30, store := {} } none mainWorld = .ok a ∧
      (Timed.run ⟨a, 0⟩ holding).now = 61000000000 ∧
      (Timed.run ⟨a, 0⟩ holding).agent.forwards.map
        (Timed.run ⟨a, 0⟩ holding).agent.isUnderWay = [true] ∧
      (Timed.run ⟨a, 0⟩ holding).agent.mayPass 61000000001 = false := ⟨_, rfl, rfl, rfl, rfl⟩
  obtain ⟨a, hnew, hnow, hunder, hpass⟩ := hrun
  exact ⟨a, hnew, timely_run hnew 0 holding, hnow, hunder, hpass⟩

end Agent

end NodeAgent
