import NodeAgent.Proofs.Stream.Answered
import NodeAgent.Proofs.Stream.Course
import NodeAgent.Proofs.Stream.Shutdown
import Mathlib.Data.Set.Card

/-!
# Whom the pending table holds

A call takes its entry out of the table on every way on which it returns. A caller that goes away
returns nothing, and nothing of its call runs any more, so an entry that it leaves behind stays: until
a response comes under its identifier, another call takes the identifier, or the stream is closed.
Whoever counts the entries, or asks whether a response found somebody waiting, counts these as well.

The argument follows the entries. One that is in the table stays there as long as the slot of its
call stays empty (`retains_step`), and a call that comes to be abandoned while it has an entry was
deserted by its caller at that very moment (`deserts_of_abandoned`). So what the table holds when
everybody has done what they can are the calls that wait and the calls that were deserted, and no
others.

## Main statements

* `get?_iff`: whose entries the table has, whenever nobody has anything to do.
* `accounted_run`: over every run, the table holds exactly the calls that wait if and only if no
  entry was left behind.
-/

namespace NodeAgent

namespace Stream

variable {s s' s₀ : Stream} {i j : Nat} {c c' : Call} {id : RequestId} {p : Nat → Call → Prop}

/-! ## Tables and the calls they hold -/

/-- The table holds the calls of which something is true: their identifiers are its keys, it counts
each of them once, and whoever delivers a response learns whether there is one. -/
structure HoldsExactly (s : Stream) (p : Nat → Call → Prop) : Prop where
  keys : ∀ id, id ∈ s.pending.keys ↔ ∃ i c, s.call? i = some c ∧ p i c ∧ c.id = id
  count : s.pendingCount = {i | ∃ c, s.call? i = some c ∧ p i c}.ncard
  found : ∀ id m, (s.deliver id m).1 = true ↔ ∃ i c, s.call? i = some c ∧ p i c ∧ c.id = id

/-- A call has one entry at most. -/
theorem Consistent.nodup_values (hs : s.Consistent) : s.pending.values.Nodup := by
  have hentries : s.pending.entries.Nodup := List.Nodup.of_map _ hs.keys
  refine hentries.map_on fun e he e' he' hvalue ↦ ?_
  have hget : ∀ {k v}, (k, v) ∈ s.pending.entries → s.pending.get? k = some v := fun h ↦
    Table.find_of_mem hs.keys h
  obtain ⟨c, hc, hid, -⟩ := hs.entry e.1 e.2 (hget he)
  have hid' := hs.get?_id (hvalue ▸ hc) (hget he')
  exact Prod.ext (hid.symm.trans hid') hvalue

/-- The table holds those whose entries are in it. -/
theorem Consistent.holdsExactly (hs : s.Consistent)
    (h : ∀ i c, s.call? i = some c → (s.pending.get? c.id = some i ↔ p i c)) :
    s.HoldsExactly p := by
  have hfound : ∀ id, s.pending.get? id ≠ none ↔
      ∃ i c, s.call? i = some c ∧ p i c ∧ c.id = id := by
    intro id
    constructor
    · intro hin
      obtain ⟨i, hi⟩ := Option.ne_none_iff_exists'.mp hin
      obtain ⟨c, hc, rfl, -⟩ := hs.entry id i hi
      exact ⟨i, c, hc, (h i c hc).mp hi, rfl⟩
    · rintro ⟨i, c, hc, hp, rfl⟩
      rw [(h i c hc).mpr hp]
      exact Option.some_ne_none i
  refine ⟨fun id ↦ Table.mem_keys_iff.trans (hfound id), ?_, fun id m ↦ ?_⟩
  · have hvalues : {i | ∃ c, s.call? i = some c ∧ p i c} = (s.pending.values.toFinset : Set Nat) := by
      ext i
      rw [Set.mem_ofPred_eq, Finset.mem_coe, List.mem_toFinset, Table.mem_values_iff hs.keys]
      constructor
      · rintro ⟨c, hc, hp⟩
        exact ⟨c.id, (h i c hc).mpr hp⟩
      · rintro ⟨id, hi⟩
        obtain ⟨c, hc, rfl, -⟩ := hs.entry id i hi
        exact ⟨c, hc, (h i c hc).mp hi⟩
    rw [hvalues, Set.ncard_coe_finset, List.toFinset_card_of_nodup hs.nodup_values]
    exact (List.length_map ..).symm
  · rw [← hfound]
    exact Option.isSome_iff_ne_none

/-! ## Entries stay -/

/-- An entry stays unless something came for its call. -/
def Retains (s s' : Stream) : Prop :=
  ∀ id i, s.pending.get? id = some i →
    s'.pending.get? id = some i ∨ ∃ c, s'.call? i = some c ∧ c.slot ≠ .empty

namespace Retains

theorem of_pending (h : s'.pending = s.pending) : s.Retains s' := by
  intro id i hi
  rw [h]
  exact Or.inl hi

/-- A call comes to another stage. -/
theorem update (h : s.Retains s₀) (j : Nat) {f : Call → Call} (hf : ∀ d, (f d).slot = d.slot) :
    s.Retains (s₀.update j f) := by
  intro id i hi
  rcases h id i hi with hin | ⟨c, hc, hslot⟩
  · exact Or.inl hin
  · refine Or.inr ?_
    rw [call?_update, hc]
    split
    · exact ⟨f c, rfl, by rwa [hf]⟩
    · exact ⟨c, rfl, hslot⟩

theorem resolve (hs : s.Consistent) (id : RequestId) {f : Slot → Slot} (hf : f .empty ≠ .empty) :
    s.Retains (s.resolve id f) := by
  intro k i hi
  rw [get?_resolve]
  split
  · rename_i hk
    obtain ⟨c, hc, -, hempty, -⟩ := hs.entry k i hi
    refine Or.inr ⟨{ c with slot := f c.slot }, ?_, by rwa [hempty]⟩
    rw [call?_resolve, if_pos (hk ▸ hi), hc, Option.map_some]
  · exact Or.inl hi

theorem forget (hs : s.Consistent) (id : RequestId) : s.Retains (s.forget id) :=
  resolve hs id (by simp [Slot.drop])

/-- Whoever enters displaces the call that has its identifier, and no other. -/
theorem enter (hs : s.Consistent) (i : Nat) (id : RequestId) : s.Retains (s.enter i id) := by
  intro k j hj
  rcases forget hs id k j hj with hin | hslot
  · refine Or.inl ?_
    change ((s.forget id).pending.insert id i).get? k = some j
    rw [Table.get?_insert, if_neg, hin]
    rintro rfl
    rw [Stream.forget, get?_resolve, if_pos rfl] at hin
    cases hin
  · exact Or.inr hslot

theorem clearPending (hs : s.Consistent) : s.Retains s.clearPending := by
  intro id i hi
  obtain ⟨c, hc, -, hempty, -⟩ := hs.entry id i hi
  refine Or.inr ⟨{ c with slot := c.slot.drop }, ?_, by simp [hempty, Slot.drop]⟩
  rw [call?_clearPending, hc, Option.map_some, if_pos]
  exact (Table.mem_values_iff hs.keys).mpr ⟨id, hi⟩

theorem acts (hs : s.Consistent) (h : Acts s i s') : s.Retains s' := by
  cases h with
  | idle => exact of_pending rfl
  | move f _ _ _ => exact of_pending rfl
  | @enter c _ _ =>
    exact (enter hs i c.id).update (f := fun c ↦ { c with stage := .rechecking }) i fun _ ↦ rfl
  | @leave c e _ _ =>
    exact (forget hs c.id).update (f := fun c ↦ { c with stage := .returned (.error e) }) i
      fun _ ↦ rfl
  | @offer c _ _ =>
    unfold Stream.offer
    split <;> exact of_pending rfl
  | lose f _ _ _ _ => exact of_pending rfl

end Retains

theorem pending_take (s : Stream) : s.take.2.pending = s.pending := by
  unfold take admitSenders
  split
  · rfl
  · dsimp only
    split
    · rfl
    · split <;> rfl

/-- **An entry stays while the slot of its call stays empty.** -/
theorem retains_step (hs : s.Consistent) (mv : Move) : s.Retains (s.step mv) := by
  cases mv with
  | use u =>
    cases u with
    | «open» id r d => exact .of_pending rfl
    | advance i now => exact .acts hs (acts_advance s i now)
    | insist i => exact .acts hs (acts_insist s i)
    | expire i now => exact .acts hs (acts_expire s i now)
    | abandon i => exact .acts hs (acts_abandon s i)
    | take => exact .of_pending s.pending_take
    | hangUp => exact .of_pending rfl
  | deliver id m => exact .resolve hs id (by simp [Slot.fill])
  | clearPending => exact .clearPending hs
  | _ => exact .of_pending rfl

/-- The call is abandoned, and it has its entry as long as nothing came for it. -/
def Lingers (s : Stream) (i : Nat) : Prop :=
  ∃ c, s.call? i = some c ∧ c.stage = .abandoned ∧
    (c.slot = .empty → s.pending.get? c.id = some i)

theorem Lingers.step (h : s.Lingers i) (hs : s.Consistent) (mv : Move) :
    (s.step mv).Lingers i := by
  obtain ⟨c, hc, habandoned, hin⟩ := h
  obtain ⟨c', hc', hev⟩ := Evolves.step hs mv i c hc
  refine ⟨c', hc', (courses_step hs mv i c c' hc hc').abandoned habandoned, fun hempty ↦ ?_⟩
  have hbefore : c.slot = .empty := by
    by_contra hne
    exact hne ((hev.slot hne).symm.trans hempty)
  rw [hev.id]
  rcases retains_step hs mv c.id i (hin hbefore) with hstays | ⟨d, hd, hslot⟩
  · exact hstays
  · rw [hc', Option.some.injEq] at hd
    exact absurd (hd ▸ hempty) hslot

/-! ## Calls that have not sent their frames

Nobody knows the identifier of a request before its frame was sent. As long as no response comes
under such an identifier, and identifiers do not repeat, nothing takes the entry away from a call
that has yet to send its frame. -/

/-- No two calls have one identifier. -/
def DistinctIds (s : Stream) : Prop :=
  ∀ i j c d, s.call? i = some c → s.call? j = some d → c.id = d.id → i = j

/-- No call that has yet to send its frame has the identifier. -/
def Unheard (s : Stream) (id : RequestId) : Prop :=
  ∀ i c, s.call? i = some c → c.id = id → c.stage.isUnsent = false

/-- Every call that has yet to send its frame and waits has its entry. -/
def AllEntered (s : Stream) : Prop :=
  ∀ i c, s.call? i = some c → c.stage.isUnsent = true → c.stage.isWaiting = true →
    s.pending.get? c.id = some i

theorem waiting_of_stage {t : Stream} (hc : s.call? i = some c) (hc' : t.call? i = some c')
    (hsame : (t.call? i).map (·.stage) = (s.call? i).map (·.stage))
    (hwaiting : c'.stage.isWaiting = true) : c.stage.isWaiting = true := by
  rw [hc, hc', Option.map_some, Option.map_some, Option.some.injEq] at hsame
  exact hsame ▸ hwaiting

/-- A call that acts comes to wait by entering the table, and no other call does. -/
theorem waiting_acts {j : Nat} {t : Stream} (h : Acts s j t) (hc : s.call? i = some c)
    (hc' : t.call? i = some c') (hwaiting : c'.stage.isWaiting = true) :
    c.stage.isWaiting = true ∨ t.pending.get? c.id = some i := by
  by_cases hj : j = i
  · subst hj
    cases h with
    | idle => exact Or.inl (waiting_of_stage hc hc' rfl hwaiting)
    | @move d f hd _ hnext =>
      rw [hc, Option.some.injEq] at hd
      subst hd
      rw [call?_update_of_eq hc, Option.some.injEq] at hc'
      exact Or.inl (hnext.waiting (hc' ▸ hwaiting))
    | @enter d hd _ =>
      rw [hc, Option.some.injEq] at hd
      refine Or.inr ((Table.get?_insert _ _ _ _).trans ?_)
      rw [if_pos (congrArg Call.id hd.symm)]
    | @leave d e hd _ =>
      obtain ⟨slot, hslot⟩ := exists_call?_resolve hc d.id .drop
      have hself := (call?_update_of_eq (s := s.forget d.id) hslot _).symm.trans hc'
      rw [← Option.some.inj hself] at hwaiting
      cases hwaiting
    | @offer d hd hstage =>
      rw [hc, Option.some.injEq] at hd
      exact Or.inl (by rw [hd, hstage]; rfl)
    | @lose d f hd _ _ hlost =>
      rw [hc, Option.some.injEq] at hd
      subst hd
      have hself : f c = c' := Option.some.inj ((call?_update_of_eq hc f).symm.trans hc')
      rw [← hself] at hwaiting
      rcases hlost with ⟨e, -, h⟩ | h <;> rw [h] at hwaiting <;> cases hwaiting
  · exact Or.inl (waiting_of_stage hc hc' (stage_acts_of_ne h hj) hwaiting)

/-- A call comes to wait by entering the table. -/
theorem waiting_step {mv : Move} (hs : s.Consistent) (hc : s.call? i = some c)
    (hc' : (s.step mv).call? i = some c') (hwaiting : c'.stage.isWaiting = true) :
    c.stage.isWaiting = true ∨ (s.step mv).pending.get? c.id = some i := by
  have hsame : ((s.step mv).call? i).map (·.stage) = (s.call? i).map (·.stage) →
      c.stage.isWaiting = true := fun h ↦ waiting_of_stage hc hc' h hwaiting
  cases mv with
  | use u =>
    cases u with
    | «open» id r d =>
      refine Or.inl (hsame ?_)
      change ((s.open id r d).call? i).map _ = _
      rw [call?_open, if_neg (Nat.ne_of_lt (List.getElem?_eq_some_iff.mp hc).1)]
    | advance j now => exact waiting_acts (acts_advance s j now) hc hc' hwaiting
    | insist j => exact waiting_acts (acts_insist s j) hc hc' hwaiting
    | expire j now => exact waiting_acts (acts_expire s j now) hc hc' hwaiting
    | abandon j => exact waiting_acts (acts_abandon s j) hc hc' hwaiting
    | take =>
      by_cases hqueued : c.stage = .queued
      · exact Or.inl (by rw [hqueued]; rfl)
      · exact Or.inl (hsame (congrArg _ ((call?_take (taking_take hs) hc hqueued).trans hc.symm)))
    | hangUp => exact Or.inl (hsame rfl)
  | deliver id m => exact Or.inl (hsame (stage_resolve s id _ i))
  | clearPending => exact Or.inl (hsame ((Silent.clearPending s).stage i))
  | _ => exact Or.inl (hsame rfl)

theorem get?_resolve_of_ne {k : RequestId} (h : k ≠ id) (f : Slot → Slot) :
    (s.resolve k f).pending.get? id = s.pending.get? id := by
  rw [get?_resolve, if_neg h]

/-- A call that acts takes out no entry but its own. -/
theorem get?_acts {j : Nat} {t : Stream} (h : Acts s j t) (hs : s.Consistent)
    (hids : s.DistinctIds) (hc : s.call? i = some c) (hin : s.pending.get? c.id = some i)
    (hleaving : ∀ e, c.stage ≠ .leaving e) : t.pending.get? c.id = some i := by
  cases h with
  | @enter d hd hstage =>
    have hne : d.id ≠ c.id := by
      intro hid
      obtain rfl := hids j i d c hd hc hid
      exact hs.notPending hd (by rw [hstage]; rfl) hin
    change ((s.forget d.id).pending.insert d.id j).get? c.id = some i
    rw [Table.get?_insert, if_neg hne]
    exact (get?_resolve_of_ne hne _).trans hin
  | @leave d e hd hstage =>
    refine (get?_resolve_of_ne (fun hid ↦ ?_) _).trans hin
    obtain rfl := hids j i d c hd hc hid
    rw [hc, Option.some.injEq] at hd
    exact hleaving e (hd ▸ hstage)
  | @offer d _ _ =>
    unfold offer
    split <;> exact hin
  | _ => exact hin

/-- An entry is taken out by a response, with the whole table, or by its call. -/
theorem get?_step {mv : Move} (hs : s.Consistent) (hids : s.DistinctIds) (hc : s.call? i = some c)
    (hin : s.pending.get? c.id = some i) (hleaving : ∀ e, c.stage ≠ .leaving e)
    (hclear : mv ≠ .clearPending) (hdeliver : ∀ m, mv ≠ .deliver c.id m) :
    (s.step mv).pending.get? c.id = some i := by
  cases mv with
  | use u =>
    cases u with
    | «open» id r d => exact hin
    | advance j now => exact get?_acts (acts_advance s j now) hs hids hc hin hleaving
    | insist j => exact get?_acts (acts_insist s j) hs hids hc hin hleaving
    | expire j now => exact get?_acts (acts_expire s j now) hs hids hc hin hleaving
    | abandon j => exact get?_acts (acts_abandon s j) hs hids hc hin hleaving
    | take =>
      change s.take.2.pending.get? c.id = some i
      rw [pending_take, hin]
    | hangUp => exact hin
  | deliver id m =>
    refine (get?_resolve_of_ne ?_ _).trans hin
    rintro rfl
    exact hdeliver m rfl
  | clearPending => exact absurd rfl hclear
  | _ => exact hin

theorem AllEntered.step {mv : Move} (h : s.AllEntered) (hs : s.Consistent) (hids : s.DistinctIds)
    (hclear : mv ≠ .clearPending) (hdeliver : ∀ id m, mv = .deliver id m → s.Unheard id) :
    (s.step mv).AllEntered := by
  intro i c' hc' hunsent hwaiting
  cases hc : s.call? i with
  | none =>
    rw [stage_of_new hc hc'] at hwaiting
    cases hwaiting
  | some c =>
    obtain ⟨d, hd, hev⟩ := Evolves.step hs mv i c hc
    rw [hc', Option.some.injEq] at hd
    subst hd
    have hbefore : c.stage.isUnsent = true := hev.stage.unsent hunsent
    rw [hev.id]
    rcases waiting_step hs hc hc' hwaiting with hwas | hin
    · refine get?_step hs hids hc (h i c hc hbefore hwas) (fun e he ↦ ?_) hclear fun m hm ↦ ?_
      · rw [he] at hbefore
        cases hbefore
      · rw [hdeliver c.id m hm i c hc rfl] at hbefore
        cases hbefore
    · exact hin

end Stream

namespace Shutdown

variable {s : Shutdown} {mv : Move} {i : Nat} {c c' : Call} {id : RequestId}
  {moves : List Move}

/-! ## Callers that go away -/

/-- Nobody has anything to do: the stream is not in the middle of being closed, and every call that
still runs waits for something that has not happened. -/
def IsAtRest (s : Shutdown) : Prop :=
  (s.phase = .idle ∨ s.phase = .done) ∧
    ∀ i c, s.stream.call? i = some c → c.stage.isRunning = true → s.stream.isStuck c = true

/-- The caller of a call went away while the call waited and nothing had come for it. -/
def Deserts (s : Shutdown) (moves : List Move) (i : Nat) : Prop :=
  ∃ before after c, moves = before ++ .use (.abandon i) :: after ∧
    (s.run before).stream.call? i = some c ∧ (c.stage = .queued ∨ c.stage = .awaiting) ∧
    c.slot = .empty

theorem Deserts.concat (h : s.Deserts moves i) (mv : Move) : s.Deserts (moves ++ [mv]) i := by
  obtain ⟨before, after, c, rfl, hc⟩ := h
  exact ⟨before, after ++ [mv], c, by simp, hc⟩

/-- Whatever happens next to a call that lingers, it lingers. -/
theorem lingers_run (hs : s.Sound) (h : s.stream.Lingers i) (moves : List Move) :
    (s.run moves).stream.Lingers i := by
  induction moves using List.reverseRecOn with
  | nil => exact h
  | append_singleton moves mv ih =>
    rw [run_concat]
    exact stream_step (P := fun t ↦ t.Lingers i) ih fun m _ ↦ ih.step (hs.run moves).consistent m

/-- Only whoever uses a stream makes a use of it. -/
theorem eq_use_of_moveOf {u : Stream.Use} (h : s.moveOf mv = some (.use u)) : mv = .use u := by
  unfold moveOf at h
  split at h
  · split at h
    · rw [Stream.Move.use.inj (Option.some.inj h)]
    · cases h
  · rw [Stream.Move.use.inj (Option.some.inj h)]
  · cases h
  · split at h <;> cases h
  · split at h <;> cases h

/-- **A call that was deserted keeps its entry** until something comes for it. -/
theorem lingers_of_deserts (hs : s.Sound) (h : s.Deserts moves i) :
    (s.run moves).stream.Lingers i := by
  obtain ⟨before, after, c, rfl, hc, hstage, hempty⟩ := h
  have hrun : s.run (before ++ .use (.abandon i) :: after) =
      ((s.run before).step (.use (.abandon i))).run after := run_append s before _
  rw [hrun]
  refine lingers_run ((hs.run before).step _) ?_ after
  have hmove : (s.run before).moveOf (.use (.abandon i)) = some (.use (.abandon i)) := by
    refine if_pos ?_
    rw [hc, Option.any_some]
    rcases hstage with hstage | hstage <;> rw [hstage] <;> rfl
  have hwaiting : c.stage.isWaiting = true := by
    rcases hstage with hstage | hstage <;> rw [hstage] <;> rfl
  have hrunning : c.stage.isRunning = true := by
    rcases hstage with hstage | hstage <;> rw [hstage] <;> rfl
  change Stream.Lingers (((s.run before).moveOf _).elim _ _) i
  rw [hmove]
  change Stream.Lingers ((s.run before).stream.abandon i) i
  unfold Stream.abandon
  rw [hc]
  dsimp only
  rw [if_pos hrunning]
  exact ⟨_, Stream.call?_update_of_eq hc _, rfl, fun _ ↦
    (hs.run before).consistent.waiting i c hc hwaiting hempty⟩

/-- A call that has an entry and is abandoned was deserted. -/
theorem deserts_of_abandoned (hs : s.Sound) (hnew : s.stream.calls = [])
    (hc : (s.run moves).stream.call? i = some c) (habandoned : c.stage = .abandoned)
    (hin : (s.run moves).stream.pending.get? id = some i) : s.Deserts moves i := by
  induction moves using List.reverseRecOn generalizing c with
  | nil =>
    change s.stream.calls[i]? = some c at hc
    rw [hnew] at hc
    cases hc
  | append_singleton moves mv ih =>
    rw [run_concat] at hc hin
    have hsound := hs.run moves
    cases hm : (s.run moves).moveOf mv with
    | none =>
      have hsame : ((s.run moves).step mv).stream = (s.run moves).stream := by
        rw [step, hm]
        rfl
      rw [hsame] at hc hin
      exact (ih hc habandoned hin).concat mv
    | some m =>
      have hmoved : ((s.run moves).step mv).stream = (s.run moves).stream.step m := by
        rw [step, hm]
        rfl
      rw [hmoved] at hc hin
      rcases Stream.entry_step hin with hbefore | ⟨d, hd, hstage⟩
      · obtain ⟨d, hd, -, hempty, hpending⟩ := hsound.consistent.entry id i hbefore
        by_cases hwas : d.stage = .abandoned
        · exact (ih hd hwas hbefore).concat mv
        · -- the last move took the caller away, from a call that had its entry
          have hgone := (Stream.courses_step hsound.consistent m i d c hd hc).gone_of_abandoned
            hwas habandoned
          rw [hgone] at hm
          have hpausing := isPausing_of_abandon hm hd
          refine ⟨moves, [], d, by rw [eq_use_of_moveOf hm], hd, ?_, hempty⟩
          revert hpausing hpending
          cases d.stage <;> simp [CallStage.isPausing, CallStage.mayBePending]
      · rw [hc, Option.some.injEq] at hd
        rw [← hd, habandoned] at hstage
        cases hstage

/-! ## Whom the table holds -/

/-- **The table has the entries of the calls that wait for a response, and of those that were
deserted and for which nothing came.** -/
theorem get?_iff (hs : s.Sound) (hnew : s.stream.calls = []) (hrest : (s.run moves).IsAtRest)
    (hc : (s.run moves).stream.call? i = some c) :
    (s.run moves).stream.pending.get? c.id = some i ↔
      c.slot = .empty ∧ (c.stage.isRunning = true ∨ s.Deserts moves i) := by
  have hconsistent := (hs.run moves).consistent
  constructor
  · intro hin
    obtain ⟨d, hd, -, hempty, hpending⟩ := hconsistent.entry c.id i hin
    rw [hc, Option.some.injEq] at hd
    subst hd
    refine ⟨hempty, ?_⟩
    by_cases habandoned : c.stage = .abandoned
    · exact Or.inr (deserts_of_abandoned hs hnew hc habandoned hin)
    · refine Or.inl ?_
      revert hpending habandoned
      cases c.stage <;> simp [CallStage.mayBePending, CallStage.isRunning]
  · rintro ⟨hempty, hrunning | hdeserts⟩
    · refine hconsistent.waiting i c hc ?_ hempty
      rcases Stream.stage_of_isStuck (hrest.2 i c hc hrunning) with hstage | ⟨hstage, -⟩
      · rw [hstage]
        rfl
      · rw [hstage]
        rfl
    · obtain ⟨d, hd, -, hin⟩ := lingers_of_deserts hs hdeserts
      rw [hc, Option.some.injEq] at hd
      subst hd
      exact hin hempty

/-- No response comes under the identifier of a call that has yet to send its frame. -/
def NoneGuessed (s : Shutdown) (moves : List Move) : Prop :=
  ∀ before after id m, moves = before ++ .deliver id m :: after →
    (s.run before).stream.Unheard id

theorem isCleared_of_clearPending (h : s.moveOf mv = some .clearPending) :
    (s.step mv).phase.isCleared = true := by
  unfold moveOf at h
  split at h
  · split at h <;> cases h
  · cases h
  · cases h
  · split at h <;> cases h
  · split at h
    · rename_i hphase
      change (s.phaseAfter .goOn).isCleared = true
      rw [phaseAfter, hphase]
      rfl
    · cases h
    · cases h
    · cases h

theorem distinctIds_of_run (hs : s.Sound) {moves later : List Move}
    (h : ((s.run moves).run later).stream.DistinctIds) : (s.run moves).stream.DistinctIds := by
  intro i j c d hc hd hid
  obtain ⟨c', hc', hevc⟩ := evolves_run (hs.run moves) later i c hc
  obtain ⟨d', hd', hevd⟩ := evolves_run (hs.run moves) later j d hd
  exact h i j c' d' hc' hd' (by rw [hevc.id, hevd.id, hid])

/-- Until the table is emptied, every call that has yet to send its frame has its entry. -/
theorem allEntered_run (hs : s.Sound) (hnew : s.stream.calls = [])
    (hids : (s.run moves).stream.DistinctIds) (hguessed : s.NoneGuessed moves)
    (hphase : (s.run moves).phase.isCleared = false) : (s.run moves).stream.AllEntered := by
  induction moves using List.reverseRecOn with
  | nil =>
    intro i c hc
    change s.stream.calls[i]? = some c at hc
    rw [hnew] at hc
    cases hc
  | append_singleton moves mv ih =>
    have hrun : s.run (moves ++ [mv]) = (s.run moves).run [mv] := run_append s moves [mv]
    have hidsBefore : (s.run moves).stream.DistinctIds := by
      rw [hrun] at hids
      exact distinctIds_of_run hs hids
    have hphaseBefore : (s.run moves).phase.isCleared = false := by
      rw [Bool.eq_false_iff]
      intro hcleared
      rw [hrun, isCleared_run hcleared (hs.run moves)] at hphase
      cases hphase
    have hentered := ih hidsBefore
      (fun before after id m h ↦ hguessed before (after ++ [mv]) id m (by simp [h])) hphaseBefore
    rw [run_concat] at hphase ⊢
    refine stream_step (P := Stream.AllEntered) hentered fun m hm ↦ ?_
    refine hentered.step (hs.run moves).consistent hidsBefore ?_ fun id q hq ↦ ?_
    · rintro rfl
      rw [isCleared_of_clearPending hm] at hphase
      cases hphase
    · have hmv := eq_deliver_of_moveOf (hq ▸ hm)
      exact hguessed moves [] id q (by rw [hmv])

/-- A call that waits has an empty slot, whenever nobody has anything to do. -/
theorem slot_of_isRunning (hs : s.Sound) (hnew : s.stream.calls = [])
    (hrest : (s.run moves).IsAtRest) (hids : (s.run moves).stream.DistinctIds)
    (hguessed : s.NoneGuessed moves) (hc : (s.run moves).stream.call? i = some c)
    (hrunning : c.stage.isRunning = true) : c.slot = .empty := by
  have hsound := hs.run moves
  rcases Stream.stage_of_isStuck (hrest.2 i c hc hrunning) with hstage | ⟨-, hempty⟩
  · rcases hrest.1 with hidle | hdone
    · have hentered := allEntered_run hs hnew hids hguessed (by rw [hidle]; rfl)
      have hin := hentered i c hc (by rw [hstage]; rfl) (by rw [hstage]; rfl)
      obtain ⟨d, hd, -, hempty, -⟩ := hsound.consistent.entry c.id i hin
      rw [hc, Option.some.injEq] at hd
      exact hd ▸ hempty
    · -- nobody queues on a stream that was closed
      have hstuck := hrest.2 i c hc hrunning
      have hcancelled := hsound.cancelled.mpr hdone
      rw [Stream.isStuck, hstage] at hstuck
      dsimp only at hstuck
      rw [Stream.refusesFrames, hcancelled] at hstuck
      cases hstuck
  · exact hempty

/-- Whom the pending table holds after a run, whenever nobody has anything to do. -/
structure Accounted (s : Shutdown) (moves : List Move) : Prop where
  /-- It holds the calls for which nothing came and which wait for a response or were deserted. -/
  held : (s.run moves).IsAtRest → (s.run moves).stream.HoldsExactly fun i c ↦
    c.slot = .empty ∧ (c.stage.isRunning = true ∨ s.Deserts moves i)
  /-- These are the calls that still run if and only if something came for each that was deserted:
  identifiers being distinct, and no response coming before its request. -/
  exact : (s.run moves).IsAtRest → (s.run moves).stream.DistinctIds → s.NoneGuessed moves →
    (((s.run moves).stream.HoldsExactly fun _ c ↦ c.stage.isRunning = true) ↔
      ∀ i c, (s.run moves).stream.call? i = some c → s.Deserts moves i → c.slot ≠ .empty)

/-- **The pending table holds the calls that wait, and those that were deserted**, over every run of
a stream that may be closed. -/
theorem accounted_run (node : NodeId) (capacity : Nat) (moves : List Move) :
    Accounted ⟨{ node, capacity }, .idle⟩ moves := by
  set s : Shutdown := ⟨{ node, capacity }, .idle⟩
  have hs : s.Sound := .of_new node capacity
  have hconsistent := (hs.run moves).consistent
  refine ⟨fun hrest ↦ ?_, fun hrest hids hguessed ↦ ⟨fun h i c hc hdeserts hempty ↦ ?_,
    fun h ↦ ?_⟩⟩
  · exact hconsistent.holdsExactly fun i c hc ↦ get?_iff hs rfl hrest hc
  · have hin := (get?_iff hs rfl hrest hc).mpr ⟨hempty, Or.inr hdeserts⟩
    have hkey : c.id ∈ (s.run moves).stream.pending.keys := by
      rw [Table.mem_keys_iff, hin]
      exact Option.some_ne_none i
    obtain ⟨j, d, hd, hrunning, hid⟩ := (h.keys c.id).mp hkey
    obtain rfl := hids j i d c hd hc hid
    obtain ⟨e, he, habandoned, -⟩ := lingers_of_deserts hs hdeserts
    rw [hd, Option.some.injEq] at he
    rw [he, habandoned] at hrunning
    cases hrunning
  · refine hconsistent.holdsExactly fun i c hc ↦ ?_
    rw [get?_iff hs rfl hrest hc]
    constructor
    · rintro ⟨hempty, hrunning | hdeserts⟩
      · exact hrunning
      · exact absurd hempty (h i c hc hdeserts)
    · exact fun hrunning ↦
        ⟨slot_of_isRunning hs rfl hrest hids hguessed hc hrunning, Or.inl hrunning⟩

/-- A request is sent, and its caller goes away. -/
def deserted : List Move :=
  .use (.open "a" (.pauseNode "node") (.ofSeconds 60)) ::
  (List.replicate 4 (.use (.advance 0 0)) ++ [.use .take, .use (.abandon 0)])

/-- Nobody waits any more, and yet the table has an entry, and a response finds somebody to take
it. -/
theorem held_after_desertion :
    let s := run ⟨{ node := "node", capacity := 1 }, .idle⟩ deserted
    s.IsAtRest ∧ s.stream.calls.map (·.stage.isRunning) = [false] ∧ s.stream.pendingCount = 1 ∧
      (s.stream.deliver "a" (.response (.pauseNode none))).1 = true ∧
      ¬ s.stream.HoldsExactly fun _ c ↦ c.stage.isRunning = true := by
  intro s
  have hcalls : s.stream.calls.map (·.stage.isRunning) = [false] := rfl
  have hover : ∀ i c, s.stream.call? i = some c → c.stage.isRunning = false := by
    intro i c hc
    have hmem := List.mem_map_of_mem (f := (·.stage.isRunning)) (List.mem_of_getElem? hc)
    rw [hcalls] at hmem
    exact List.mem_singleton.mp hmem
  refine ⟨⟨Or.inl rfl, fun i c hc hrunning ↦ ?_⟩, hcalls, rfl, rfl, fun h ↦ ?_⟩
  · rw [hover i c hc] at hrunning
    cases hrunning
  · obtain ⟨i, c, hc, hrunning, -⟩ := (h.keys "a").mp (List.mem_singleton.mpr rfl)
    rw [hover i c hc] at hrunning
    cases hrunning

end Shutdown

end NodeAgent
