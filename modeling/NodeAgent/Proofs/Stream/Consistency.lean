import NodeAgent.Proofs.Stream.Run

/-!
# What holds of a stream throughout a run

The pending table, the slots and the queue for the channel are kept beside the stages of the calls,
and each could contradict the others. `Stream.Consistent` says that they do not: an entry of the
table belongs to a call that has its identifier and an empty slot, a waiting call with an empty slot
has an entry, and the queue holds exactly the calls that queue.

Nothing here asks for distinct request identifiers. A call that enters under an identifier that is
taken drops the slot of the call it displaces, so that the displaced call is no exception.

## Main statements

* `Consistent.run`: every run from a consistent stream ends in one.
-/

namespace NodeAgent

namespace Stream

variable {s s' : Stream} {i j : Nat} {c c' : Call} {id : RequestId}

/-! ## The calls after each operation -/

theorem call?_update (s : Stream) (i : Nat) (f : Call → Call) (j : Nat) :
    (s.update i f).call? j = if i = j then (s.call? j).map f else s.call? j := by
  rw [call?, update, List.getElem?_modify]
  split <;> simp [call?]

theorem call?_update_of_eq (hc : s.call? i = some c) (f : Call → Call) :
    (s.update i f).call? i = some (f c) := by
  rw [call?_update, if_pos rfl, hc, Option.map_some]

theorem call?_update_of_ne (h : i ≠ j) (f : Call → Call) :
    (s.update i f).call? j = s.call? j := by
  rw [call?_update, if_neg h]

theorem call?_resolve (s : Stream) (id : RequestId) (f : Slot → Slot) (j : Nat) :
    (s.resolve id f).call? j = if s.pending.get? id = some j then
      (s.call? j).map fun c ↦ { c with slot := f c.slot } else s.call? j := by
  unfold resolve
  cases h : s.pending.get? id with
  | none => simp
  | some i =>
    rw [call?_update]
    simp only [Option.some.injEq]
    rfl

/-- Of a call only the slot changes. -/
theorem exists_call?_resolve (hc : s.call? i = some c) (id : RequestId) (f : Slot → Slot) :
    ∃ slot, (s.resolve id f).call? i = some { c with slot } := by
  rw [call?_resolve, hc]
  split
  · exact ⟨_, rfl⟩
  · exact ⟨c.slot, rfl⟩

theorem get?_resolve (s : Stream) (id : RequestId) (f : Slot → Slot) (k : RequestId) :
    (s.resolve id f).pending.get? k = if id = k then none else s.pending.get? k := by
  unfold resolve
  cases h : s.pending.get? id with
  | none =>
    by_cases hk : id = k
    · rw [if_pos hk, ← hk]
      exact h
    · rw [if_neg hk]
  | some i => exact Table.get?_erase _ _ _

theorem senders_resolve (s : Stream) (id : RequestId) (f : Slot → Slot) :
    (s.resolve id f).senders = s.senders := by
  unfold resolve
  split <;> rfl

theorem channel_resolve (s : Stream) (id : RequestId) (f : Slot → Slot) :
    (s.resolve id f).channel = s.channel := by
  unfold resolve
  split <;> rfl

theorem call?_clearPending (s : Stream) (j : Nat) :
    s.clearPending.call? j = (s.call? j).map fun c ↦
      if j ∈ s.pending.values then { c with slot := c.slot.drop } else c := by
  rw [call?, clearPending, List.getElem?_mapIdx]
  rfl

theorem call?_open (s : Stream) (id : RequestId) (r : Request) (d : Duration) (j : Nat) :
    (s.open id r d).call? j = if j = s.calls.length then
      some { id, request := r, timeout := d } else s.call? j := by
  rw [call?, Stream.open, List.getElem?_append, call?]
  split_ifs with h₁ h₂ h₂
  · omega
  · rfl
  · simp [h₂]
  · rw [List.getElem?_eq_none (by simp; omega), List.getElem?_eq_none (by omega)]

/-- What holds of the call that changed and of all others holds of every call. -/
theorem forall_call_of_update (hself : s'.call? i = some c')
    (hother : ∀ {j}, j ≠ i → s'.call? j = s.call? j) {p : Nat → Call → Prop} (hi : p i c')
    (hne : ∀ j d, j ≠ i → s.call? j = some d → p j d) : ∀ j d, s'.call? j = some d → p j d := by
  intro j d hd
  by_cases hj : j = i
  · subst hj
    rw [hself, Option.some.injEq] at hd
    exact hd ▸ hi
  · rw [hother hj] at hd
    exact hne j d hj hd

/-! ## Consistency -/

/-- The stages of the calls, their slots, the table and the queue agree. -/
structure Consistent (s : Stream) : Prop where
  keys : s.pending.keys.Nodup
  entry : ∀ id i, s.pending.get? id = some i →
    ∃ c, s.call? i = some c ∧ c.id = id ∧ c.slot = .empty ∧ c.stage.mayBePending = true
  early : ∀ i c, s.call? i = some c → c.stage = .opening ∨ c.stage = .entering → c.slot = .empty
  waiting : ∀ i c, s.call? i = some c → c.stage.isWaiting = true → c.slot = .empty →
    s.pending.get? c.id = some i
  answered : ∀ i c m, s.call? i = some c → c.stage = .returned (.ok m) → c.slot = .filled m
  failed : ∀ i c e, s.call? i = some c → c.stage = .leaving e ∨ c.stage = .returned (.error e) →
    e.ofCall = true
  queue : ∀ i, i ∈ s.senders ↔ ∃ c, s.call? i = some c ∧ c.stage = .queued
  senders : s.senders.Nodup

/-- What becomes of a stream when a frame is taken: nothing if there is none, and else its place is
free or goes to the call that queues longest. -/
inductive Taking (s : Stream) : Stream → Prop where
  | nothing : s.channel = [] → Taking s s
  | free {frame : RequestFrame} {rest : List RequestFrame} : s.channel = frame :: rest →
    s.senders = [] → Taking s { s with channel := rest }
  | pass {frame : RequestFrame} {rest : List RequestFrame} {i : Nat} {waiting : List Nat}
    {c : Call} : s.channel = frame :: rest → s.senders = i :: waiting → s.call? i = some c →
    c.stage = .queued → Taking s ({ s with channel := rest, senders := waiting }.enqueue i c)

theorem taking_take (hs : s.Consistent) : Taking s s.take.2 := by
  unfold take
  split
  · rename_i hchannel
    exact .nothing hchannel
  · rename_i frame rest hchannel
    unfold admitSenders
    dsimp only
    split
    · rename_i hnobody
      exact .free hchannel hnobody
    · rename_i i waiting hsenders
      obtain ⟨c, hc, hqueued⟩ := (hs.queue i).mp (by rw [hsenders]; exact List.mem_cons_self)
      split
      · rename_i hnone
        cases hc.symm.trans hnone
      · rename_i d hd
        obtain rfl : d = c := Option.some.inj (hd.symm.trans hc)
        exact .pass hchannel hsenders hd hqueued

namespace Consistent

/-- A stream without calls. -/
theorem of_empty (hcalls : s.calls = []) (hpending : s.pending = {}) (hsenders : s.senders = []) :
    s.Consistent := by
  have hnone : ∀ i, s.call? i = none := fun i ↦ by rw [call?, hcalls]; rfl
  refine ⟨?_, ?_, ?_, ?_, ?_, ?_, ?_, ?_⟩
  · rw [hpending]
    exact List.nodup_nil
  · intro id i h
    rw [hpending] at h
    cases h
  · intro i c h
    rw [hnone] at h
    cases h
  · intro i c h
    rw [hnone] at h
    cases h
  · intro i c m h
    rw [hnone] at h
    cases h
  · intro i c e h
    rw [hnone] at h
    cases h
  · intro i
    simp [hsenders, hnone]
  · rw [hsenders]
    exact List.nodup_nil

/-- Consistency is a matter of the calls, the table and the queue. -/
theorem congr (hs : s.Consistent) (hcalls : s'.calls = s.calls)
    (hpending : s'.pending = s.pending) (hsenders : s'.senders = s.senders) : s'.Consistent := by
  have hcall : s'.call? = s.call? := by
    funext i
    rw [call?, call?, hcalls]
  refine ⟨?_, ?_, ?_, ?_, ?_, ?_, ?_, ?_⟩ <;> simp only [hcall, hpending, hsenders]
  · exact hs.keys
  · exact hs.entry
  · exact hs.early
  · exact hs.waiting
  · exact hs.answered
  · exact hs.failed
  · exact hs.queue
  · exact hs.senders

theorem notMem_senders (hs : s.Consistent) (hc : s.call? i = some c) (h : c.stage ≠ .queued) :
    i ∉ s.senders := by
  intro hi
  obtain ⟨d, hd, hq⟩ := (hs.queue i).mp hi
  rw [hc, Option.some.injEq] at hd
  exact h (hd ▸ hq)

theorem mayBePending (hs : s.Consistent) (hc : s.call? i = some c)
    (h : s.pending.get? id = some i) : c.stage.mayBePending = true := by
  obtain ⟨d, hd, -, -, hp⟩ := hs.entry id i h
  rw [hc, Option.some.injEq] at hd
  exact hd ▸ hp

/-- One call comes to another stage, and the queue follows it. -/
theorem setStage (hs : s.Consistent) (hc : s.call? i = some c) {f : Call → Call}
    (hcalls : s'.calls = (s.update i f).calls) (hpending : s'.pending = s.pending)
    (hf : f c = { c with stage := (f c).stage, deadline := (f c).deadline })
    (hentry : s.pending.get? c.id = some i → (f c).stage.mayBePending = true)
    (hearly : (f c).stage = .opening ∨ (f c).stage = .entering →
      c.stage = .opening ∨ c.stage = .entering)
    (hwaiting : (f c).stage.isWaiting = true → c.stage.isWaiting = true)
    (hanswered : ∀ m, (f c).stage = .returned (.ok m) → c.slot = .filled m)
    (hfailed : ∀ e, (f c).stage = .leaving e ∨ (f c).stage = .returned (.error e) →
      e.ofCall = true)
    (hqueue : ∀ j, j ∈ s'.senders ↔ (j ≠ i ∧ j ∈ s.senders) ∨ (j = i ∧ (f c).stage = .queued))
    (hsenders : s'.senders.Nodup) : s'.Consistent := by
  have hid : (f c).id = c.id := by rw [hf]
  have hslot : (f c).slot = c.slot := by rw [hf]
  have hcall : s'.call? = (s.update i f).call? := by
    funext j
    rw [call?, call?, hcalls]
  have hself : (s.update i f).call? i = some (f c) := call?_update_of_eq hc f
  have hother : ∀ {j}, j ≠ i → (s.update i f).call? j = s.call? j := fun h ↦
    call?_update_of_ne h.symm f
  have hself' : s'.call? i = some (f c) := by rw [hcall, hself]
  have hother' : ∀ {j}, j ≠ i → s'.call? j = s.call? j := fun h ↦ by rw [hcall, hother h]
  -- every field speaks of one call: the one that moved, or another one, which did not change
  have split {p : Nat → Call → Prop} := forall_call_of_update (p := p) hself' hother'
  refine ⟨by rw [hpending]; exact hs.keys, ?_, split ?_ ?_, split ?_ ?_, ?_, ?_, ?_, hsenders⟩
  · intro id j h
    rw [hpending] at h
    obtain ⟨d, hd, hdid, hdslot, hdstage⟩ := hs.entry id j h
    rw [hcall]
    by_cases hj : j = i
    · subst hj
      rw [hc, Option.some.injEq] at hd
      subst hd
      exact ⟨f c, hself, hid.trans hdid, hslot.trans hdslot, hentry (hdid ▸ h)⟩
    · exact ⟨d, (hother hj).trans hd, hdid, hdslot, hdstage⟩
  · exact fun h ↦ hslot.trans (hs.early i c hc (hearly h))
  · exact fun j d _ hd ↦ hs.early j d hd
  · intro h hempty
    rw [hpending, hid]
    exact hs.waiting i c hc (hwaiting h) (hslot ▸ hempty)
  · intro j d _ hd h hempty
    rw [hpending]
    exact hs.waiting j d hd h hempty
  · intro j d m
    exact split (p := fun _ d ↦ d.stage = .returned (.ok m) → d.slot = .filled m)
      (fun h ↦ hslot.trans (hanswered m h)) (fun j d _ hd ↦ hs.answered j d m hd) j d
  · intro j d e
    exact split (p := fun _ d ↦ d.stage = .leaving e ∨ d.stage = .returned (.error e) →
      e.ofCall = true) (hfailed e) (fun j d _ hd ↦ hs.failed j d e hd) j d
  · intro j
    rw [hqueue, hcall]
    by_cases hj : j = i
    · subst hj
      simp [hself]
    · rw [hother hj, ← hs.queue]
      simp [hj]

/-- A call that does not queue comes to a stage other than queueing. -/
theorem update (hs : s.Consistent) (hc : s.call? i = some c) {f : Call → Call}
    (hf : f c = { c with stage := (f c).stage, deadline := (f c).deadline })
    (hnow : c.stage ≠ .queued) (hthen : (f c).stage ≠ .queued)
    (hentry : s.pending.get? c.id = some i → (f c).stage.mayBePending = true)
    (hearly : (f c).stage = .opening ∨ (f c).stage = .entering →
      c.stage = .opening ∨ c.stage = .entering)
    (hwaiting : (f c).stage.isWaiting = true → c.stage.isWaiting = true)
    (hanswered : ∀ m, (f c).stage = .returned (.ok m) → c.slot = .filled m)
    (hfailed : ∀ e, (f c).stage = .leaving e ∨ (f c).stage = .returned (.error e) →
      e.ofCall = true) : (s.update i f).Consistent := by
  refine hs.setStage hc rfl rfl hf hentry hearly hwaiting hanswered hfailed ?_ hs.senders
  intro j
  constructor
  · intro hj
    refine Or.inl ⟨?_, hj⟩
    rintro rfl
    exact hs.notMem_senders hc hnow hj
  · rintro (⟨-, hj⟩ | ⟨-, hj⟩)
    · exact hj
    · exact absurd hj hthen

/-- A running call is lost, but it may keep its entry in the table. If it queued, it does not any
more. -/
theorem lose (hs : s.Consistent) (hc : s.call? i = some c) {f : Call → Call}
    (hf : f c = { c with stage := (f c).stage, deadline := (f c).deadline })
    (hlost : (∃ e, e.ofCall = true ∧ (f c).stage = .leaving e) ∨ (f c).stage = .abandoned) :
    ({ s with senders := s.senders.filter (· ≠ i) }.update i f).Consistent := by
  have hqueue : ∀ j, j ∈ s.senders.filter (· ≠ i) ↔
      (j ≠ i ∧ j ∈ s.senders) ∨ (j = i ∧ (f c).stage = .queued) := by
    intro j
    have hq : (f c).stage ≠ .queued := by
      rcases hlost with ⟨e, -, h⟩ | h <;> rw [h] <;> exact CallStage.noConfusion
    simp [hq, and_comm]
  have hnodup : (s.senders.filter (· ≠ i)).Nodup := hs.senders.filter _
  rcases hlost with ⟨e, he, h⟩ | h
  · refine hs.setStage hc rfl rfl hf ?_ ?_ ?_ ?_ ?_ hqueue hnodup
    all_goals rw [h]
    · exact fun _ ↦ rfl
    · simp
    · simp [CallStage.isWaiting]
    · simp
    · simp [he]
  · refine hs.setStage hc rfl rfl hf ?_ ?_ ?_ ?_ ?_ hqueue hnodup
    all_goals rw [h]
    · exact fun _ ↦ rfl
    · simp
    · simp [CallStage.isWaiting]
    · simp
    · simp

/-- A call that offered its frame begins to wait for its slot. If it queued, it does not any
more. -/
theorem enqueue (hs : s.Consistent) (hc : s.call? i = some c)
    (hstage : c.stage = .offering ∨ c.stage = .queued) (hcalls : s'.calls = s.calls)
    (hpending : s'.pending = s.pending) (hqueue : ∀ j, j ∈ s'.senders ↔ j ≠ i ∧ j ∈ s.senders)
    (hsenders : s'.senders.Nodup) : (s'.enqueue i c).Consistent := by
  have hupdate : (s'.enqueue i c).calls =
      (s.update i fun c ↦ { c with stage := .awaiting }).calls := by
    rw [Stream.enqueue, Stream.update, Stream.update, hcalls]
  refine hs.setStage hc hupdate hpending rfl (fun _ ↦ rfl) (by simp) ?_ (by simp) (by simp) ?_
    hsenders
  · intro _
    rcases hstage with h | h <;> rw [h] <;> rfl
  · intro j
    change j ∈ s'.senders ↔ _
    simpa using hqueue j

theorem offer (hs : s.Consistent) (hc : s.call? i = some c) (hstage : c.stage = .offering) :
    (s.offer i c).Consistent := by
  have hi : i ∉ s.senders := hs.notMem_senders hc (by simp [hstage])
  unfold Stream.offer
  split
  · refine hs.enqueue hc (Or.inl hstage) rfl rfl ?_ hs.senders
    intro j
    refine ⟨fun hj ↦ ⟨?_, hj⟩, And.right⟩
    rintro rfl
    exact hi hj
  · refine hs.setStage hc rfl rfl rfl (fun _ ↦ rfl) (by simp) ?_ (by simp) (by simp) ?_ ?_
    · intro _
      rw [hstage]
      rfl
    · intro j
      change j ∈ s.senders ++ [i] ↔ _
      rw [List.mem_append, List.mem_singleton]
      constructor
      · rintro (hj | rfl)
        · refine Or.inl ⟨?_, hj⟩
          rintro rfl
          exact hi hj
        · exact Or.inr ⟨rfl, rfl⟩
      · rintro (⟨-, hj⟩ | ⟨hj, -⟩)
        · exact Or.inl hj
        · exact Or.inr hj
    · change (s.senders ++ [i]).Nodup
      rw [List.nodup_append]
      refine ⟨hs.senders, by simp, ?_⟩
      intro a ha b hb
      rw [List.mem_singleton.mp hb]
      rintro rfl
      exact hi ha

theorem take (hs : s.Consistent) (h : Taking s s') : s'.Consistent := by
  cases h with
  | nothing _ => exact hs
  | free _ _ => exact hs.congr rfl rfl rfl
  | @pass frame rest i waiting c _ hsenders hc hqueued =>
    have hnodup : (i :: waiting).Nodup := hsenders ▸ hs.senders
    refine hs.enqueue hc (Or.inr hqueued) rfl rfl ?_ (List.nodup_cons.mp hnodup).2
    intro j
    rw [hsenders, List.mem_cons]
    constructor
    · intro hj
      refine ⟨?_, Or.inr hj⟩
      rintro rfl
      exact (List.nodup_cons.mp hnodup).1 hj
    · rintro ⟨hne, rfl | hj⟩
      · exact absurd rfl hne
      · exact hj

/-- Entries leave the table, and the slots of their calls are no longer empty. -/
theorem dropEntries (hs : s.Consistent) (gone : RequestId → Prop) [DecidablePred gone]
    {f : Slot → Slot} (hf : f .empty ≠ .empty)
    (hcall : ∀ j, s'.call? j = (s.call? j).map fun c ↦
      { c with slot := if s.pending.get? c.id = some j ∧ gone c.id then f c.slot else c.slot })
    (hpending : ∀ id, s'.pending.get? id = if gone id then none else s.pending.get? id)
    (hkeys : s'.pending.keys.Nodup) (hsenders : s'.senders = s.senders) : s'.Consistent := by
  have hback : ∀ {j c'}, s'.call? j = some c' → ∃ c, s.call? j = some c ∧
      c' = { c with slot :=
        if s.pending.get? c.id = some j ∧ gone c.id then f c.slot else c.slot } := by
    intro j c' hc'
    rw [hcall, Option.map_eq_some_iff] at hc'
    obtain ⟨c, hc, rfl⟩ := hc'
    exact ⟨c, hc, rfl⟩
  refine ⟨hkeys, ?_, ?_, ?_, ?_, ?_, ?_, hsenders ▸ hs.senders⟩
  · intro id j h
    rw [hpending] at h
    split at h
    · cases h
    · rename_i hgone
      obtain ⟨c, hc, rfl, hempty, hstage⟩ := hs.entry id j h
      refine ⟨c, ?_, rfl, hempty, hstage⟩
      rw [hcall, hc, Option.map_some, if_neg (fun h ↦ hgone h.2)]
  · intro j c' hc' hstage
    obtain ⟨c, hc, rfl⟩ := hback hc'
    -- a call that has yet to enter has no entry to lose
    refine (if_neg ?_).trans (hs.early j c hc hstage)
    rintro ⟨h, -⟩
    have hpend := hs.mayBePending hc h
    rcases hstage with h | h <;> rw [show c.stage = _ from h] at hpend <;> cases hpend
  · intro j c' hc' hstage hempty
    obtain ⟨c, hc, rfl⟩ := hback hc'
    change (if s.pending.get? c.id = some j ∧ gone c.id then f c.slot else c.slot) = .empty
      at hempty
    change s'.pending.get? c.id = some j
    split at hempty
    · -- its entry left the table, and its slot would not be empty
      rename_i h
      obtain ⟨d, hd, -, hdempty, -⟩ := hs.entry c.id j h.1
      rw [hc, Option.some.injEq] at hd
      rw [hd, hdempty] at hempty
      exact absurd hempty hf
    · rename_i h
      have hin := hs.waiting j c hc hstage hempty
      rw [hpending, if_neg (fun hgone ↦ h ⟨hin, hgone⟩), hin]
  · intro j c' m hc' hstage
    obtain ⟨c, hc, rfl⟩ := hback hc'
    refine (if_neg ?_).trans (hs.answered j c m hc hstage)
    rintro ⟨h, -⟩
    have hpend := hs.mayBePending hc h
    rw [show c.stage = _ from hstage] at hpend
    cases hpend
  · intro j c' e hc' hstage
    obtain ⟨c, hc, rfl⟩ := hback hc'
    exact hs.failed j c e hc hstage
  · intro j
    rw [hsenders, hs.queue]
    constructor
    · rintro ⟨c, hc, hq⟩
      have hc' := hcall j
      rw [hc, Option.map_some] at hc'
      exact ⟨_, hc', hq⟩
    · rintro ⟨c', hc', hq⟩
      obtain ⟨c, hc, rfl⟩ := hback hc'
      exact ⟨c, hc, hq⟩

/-- The call of an entry is the one that has the identifier of the entry. -/
theorem get?_id (hs : s.Consistent) (hc : s.call? i = some c) (h : s.pending.get? id = some i) :
    c.id = id := by
  obtain ⟨d, hd, hid, -, -⟩ := hs.entry id i h
  rw [hc, Option.some.injEq] at hd
  exact hd ▸ hid

theorem resolve (hs : s.Consistent) (id : RequestId) {f : Slot → Slot} (hf : f .empty ≠ .empty) :
    (s.resolve id f).Consistent := by
  refine hs.dropEntries (id = ·) hf (fun j ↦ ?_) (get?_resolve s id f) ?_
    (senders_resolve s id f)
  · rw [call?_resolve]
    cases hc : s.call? j with
    | none => split <;> rfl
    | some c =>
      have hiff : s.pending.get? id = some j ↔ s.pending.get? c.id = some j ∧ id = c.id := by
        refine ⟨fun h ↦ ?_, fun h ↦ h.2 ▸ h.1⟩
        have hid := hs.get?_id hc h
        exact ⟨hid ▸ h, hid.symm⟩
      simp only [hiff, Option.map_some]
      split <;> rfl
  · unfold Stream.resolve
    split
    · exact hs.keys
    · exact Table.nodup_keys_erase hs.keys id

theorem forget (hs : s.Consistent) (id : RequestId) : (s.forget id).Consistent :=
  hs.resolve id (by simp [Slot.drop])

theorem clearPending (hs : s.Consistent) : s.clearPending.Consistent := by
  refine hs.dropEntries (fun _ ↦ True) (f := .drop) (by simp [Slot.drop]) (fun j ↦ ?_)
    (fun id ↦ ?_) List.nodup_nil rfl
  · rw [call?_clearPending]
    cases hc : s.call? j with
    | none => rfl
    | some c =>
      have hiff : j ∈ s.pending.values ↔ s.pending.get? c.id = some j := by
        rw [Table.mem_values_iff hs.keys]
        refine ⟨?_, fun h ↦ ⟨_, h⟩⟩
        rintro ⟨id, h⟩
        exact hs.get?_id hc h ▸ h
      simp only [hiff, Option.map_some, and_true]
      split <;> rfl
  · rw [if_pos trivial]
    rfl

/-- A call that has not entered the table is not in it. -/
theorem notPending (hs : s.Consistent) (hc : s.call? i = some c)
    (hstage : c.stage.mayBePending = false) : s.pending.get? id ≠ some i := by
  intro h
  have hpend := hs.mayBePending hc h
  rw [hstage] at hpend
  cases hpend

/-- A call enters the table under an identifier that is free. -/
theorem insertEntry (hs : s.Consistent) (hc : s.call? i = some c) (hstage : c.stage = .entering)
    (hfree : s.pending.get? c.id = none) :
    ({ s with pending := s.pending.insert c.id i }.update i fun c ↦
      { c with stage := .rechecking }).Consistent := by
  set s' := { s with pending := s.pending.insert c.id i }.update i fun c ↦
    { c with stage := .rechecking }
  have hslot : c.slot = .empty := hs.early i c hc (Or.inr hstage)
  have hself : s'.call? i = some { c with stage := .rechecking } := call?_update_of_eq hc _
  have hother : ∀ {j}, j ≠ i → s'.call? j = s.call? j := fun h ↦ call?_update_of_ne h.symm _
  have hget : ∀ k, s'.pending.get? k = if c.id = k then some i else s.pending.get? k :=
    fun k ↦ Table.get?_insert s.pending c.id k i
  have split {p : Nat → Call → Prop} := forall_call_of_update (p := p) hself hother
  refine ⟨Table.nodup_keys_insert hs.keys _ _, ?_, split ?_ ?_, split ?_ ?_, fun j d m ↦ ?_,
    fun j d e ↦ ?_, ?_, hs.senders⟩
  · intro k j h
    rw [hget] at h
    split at h
    · rename_i hk
      cases h
      exact ⟨_, hself, hk, hslot, rfl⟩
    · obtain ⟨d, hd, hid, hempty, hpend⟩ := hs.entry k j h
      have hj : j ≠ i := by
        rintro rfl
        exact hs.notPending hc (by rw [hstage]; rfl) h
      exact ⟨d, (hother hj).trans hd, hid, hempty, hpend⟩
  · exact fun _ ↦ hslot
  · exact fun j d _ hd ↦ hs.early j d hd
  · intro _ _
    rw [hget, if_pos rfl]
  · intro j d hj hd h hempty
    have hin := hs.waiting j d hd h hempty
    rw [hget, if_neg, hin]
    -- the new entry displaces none, since its identifier was free
    intro hid
    rw [← hid, hfree] at hin
    cases hin
  · exact split (p := fun _ d ↦ d.stage = .returned (.ok m) → d.slot = .filled m) (by simp)
      (fun j d _ hd ↦ hs.answered j d m hd) j d
  · exact split (p := fun _ d ↦ d.stage = .leaving e ∨ d.stage = .returned (.error e) →
      e.ofCall = true) (by simp) (fun j d _ hd ↦ hs.failed j d e hd) j d
  · intro j
    change j ∈ s.senders ↔ _
    by_cases hj : j = i
    · subst hj
      rw [hself]
      simp [hs.notMem_senders hc (by rw [hstage]; exact CallStage.noConfusion)]
    · rw [hother hj, hs.queue]

theorem enter (hs : s.Consistent) (hc : s.call? i = some c) (hstage : c.stage = .entering) :
    ((s.enter i c.id).update i fun c ↦ { c with stage := .rechecking }).Consistent := by
  have hc' : (s.forget c.id).call? i = some c := by
    rw [Stream.forget, call?_resolve, if_neg (hs.notPending hc (by rw [hstage]; rfl)), hc]
  have hfree : (s.forget c.id).pending.get? c.id = none := by
    rw [Stream.forget, get?_resolve, if_pos rfl]
  -- whoever has the identifier is displaced first, as if its entry had been dropped
  exact (hs.forget c.id).insertEntry hc' hstage hfree

/-- A call leaves the table and returns its failure. -/
theorem leave (hs : s.Consistent) (hc : s.call? i = some c) {e : StreamError}
    (hstage : c.stage = .leaving e) :
    ((s.forget c.id).update i fun c ↦ { c with stage := .returned (.error e) }).Consistent := by
  obtain ⟨slot, hc'⟩ := exists_call?_resolve hc c.id .drop
  refine (hs.forget c.id).update hc' rfl ?_ (by simp) ?_ (by simp) (by simp [CallStage.isWaiting])
    (by simp) ?_
  · rw [show ({ c with slot } : Call).stage = _ from hstage]
    exact CallStage.noConfusion
  · intro h
    rw [Stream.forget, get?_resolve, if_pos rfl] at h
    cases h
  · intro e' h
    have heq : e = e' := by simpa using h
    exact heq ▸ hs.failed i c e hc (Or.inl hstage)

/-- A new call is at the beginning of its course. -/
theorem «open» (hs : s.Consistent) (id : RequestId) (r : Request) (d : Duration) :
    (s.open id r d).Consistent := by
  have hself : (s.open id r d).call? s.calls.length = some { id, request := r, timeout := d } := by
    rw [call?_open, if_pos rfl]
  have hother : ∀ {j}, j ≠ s.calls.length → (s.open id r d).call? j = s.call? j := fun h ↦ by
    rw [call?_open, if_neg h]
  have hold : ∀ {j c}, s.call? j = some c → j ≠ s.calls.length := by
    intro j c hc
    have hlt := (List.getElem?_eq_some_iff.mp hc).1
    omega
  have split {p : Nat → Call → Prop} := forall_call_of_update (p := p) hself hother
  refine ⟨hs.keys, ?_, split (by simp) ?_, split (by simp [CallStage.isWaiting]) ?_,
    fun j d m ↦ ?_, fun j d e ↦ ?_, ?_, hs.senders⟩
  · intro k j h
    obtain ⟨c, hc, hc'⟩ := hs.entry k j h
    exact ⟨c, (hother (hold hc)).trans hc, hc'⟩
  · exact fun j d _ hd ↦ hs.early j d hd
  · exact fun j d _ hd ↦ hs.waiting j d hd
  · exact split (p := fun _ d ↦ d.stage = .returned (.ok m) → d.slot = .filled m) (by simp)
      (fun j d _ hd ↦ hs.answered j d m hd) j d
  · exact split (p := fun _ d ↦ d.stage = .leaving e ∨ d.stage = .returned (.error e) →
      e.ofCall = true) (by simp) (fun j d _ hd ↦ hs.failed j d e hd) j d
  · intro j
    change j ∈ s.senders ↔ _
    rw [hs.queue]
    constructor
    · rintro ⟨c, hc, hq⟩
      exact ⟨c, (hother (hold hc)).trans hc, hq⟩
    · rintro ⟨c, hc, hq⟩
      refine ⟨c, ?_, hq⟩
      by_cases hj : j = s.calls.length
      · rw [hj, hself, Option.some.injEq] at hc
        rw [← hc] at hq
        cases hq
      · rwa [hother hj] at hc

theorem acts (hs : s.Consistent) (h : Acts s i s') : s'.Consistent := by
  cases h with
  | idle => exact hs
  | @move c f hc hf hnext =>
    refine hs.update hc hf hnext.ne_queued.1 hnext.ne_queued.2.1 ?_ hnext.early hnext.waiting
      (fun m ↦ hnext.slot_eq) (fun e ↦ hnext.ofCall)
    intro h
    obtain ⟨d, hd, -, hempty, hstage⟩ := hs.entry c.id i h
    rw [hc, Option.some.injEq] at hd
    subst hd
    exact hnext.mayBePending hstage hempty
  | enter hc hstage => exact hs.enter hc hstage
  | leave e hc hstage => exact hs.leave hc hstage
  | offer hc hstage => exact hs.offer hc hstage
  | lose f hc _ hf hlost => exact hs.lose hc hf hlost

/-- Every move keeps a stream consistent. -/
theorem step (hs : s.Consistent) (mv : Move) : (s.step mv).Consistent := by
  cases mv with
  | use u =>
    cases u with
    | «open» id r d => exact hs.open id r d
    | advance i now => exact hs.acts (acts_advance s i now)
    | insist i => exact hs.acts (acts_insist s i)
    | expire i now => exact hs.acts (acts_expire s i now)
    | abandon i => exact hs.acts (acts_abandon s i)
    | take => exact hs.take (taking_take hs)
    | hangUp => exact hs.congr rfl rfl rfl
  | deliver id m => exact hs.resolve id (by simp [Slot.fill])
  | markClosed => exact hs.congr rfl rfl rfl
  | clearPending => exact hs.clearPending
  | cancel => exact hs.congr rfl rfl rfl

/-- **Runs keep a stream consistent**, whatever happens and in whatever order. -/
theorem run (hs : s.Consistent) (moves : List Move) : (s.run moves).Consistent := by
  induction moves using List.reverseRecOn with
  | nil => exact hs
  | append_singleton moves mv ih =>
    rw [run_concat]
    exact ih.step mv

end Consistent

end Stream

end NodeAgent
