import NodeAgent.Proofs.Stream.Consistency
import Mathlib.Data.List.Induction

/-!
# What a move does to the calls

A run is long and its moves are many, but each of them changes little. This file says how little, in
three respects: every call only moves on (`Evolves.step`), a slot is filled by one move only
(`slot_step`), and a frame goes into the channel exactly when its call begins to wait for its slot
(`sends_step`). What a run does to a call follows from these by induction (`evolves_run`).

## Main statements

* `evolves_run`: every call of a consistent stream evolves (`Call.Evolves`) along a run.
* `slot_step`: the only move that fills a slot is the delivery of the message that is in it, under
  the identifier of the call that the table has there.
* `sends_step`: a move sends nothing or the frame of one call that had sent none.
-/

namespace NodeAgent.Stream

variable {s s' s'' : Stream} {i j : Nat} {c c' : Call} {id : RequestId}

/-! ## Calls move on -/

/-- Every call of the first stream is in the second one, where it is the same call at a later
time. -/
def Evolves (s s' : Stream) : Prop :=
  ∀ i c, s.call? i = some c → ∃ c', s'.call? i = some c' ∧ c.Evolves c'

namespace Evolves

theorem refl (s : Stream) : s.Evolves s := fun _ c hc ↦ ⟨c, hc, .refl c⟩

theorem of_calls (h : s'.calls = s.calls) : s.Evolves s' := by
  intro i c hc
  refine ⟨c, ?_, .refl c⟩
  rw [call?, h]
  exact hc

theorem trans (h : s.Evolves s') (h' : s'.Evolves s'') : s.Evolves s'' := by
  intro i c hc
  obtain ⟨c', hc', hev⟩ := h i c hc
  obtain ⟨c'', hc'', hev'⟩ := h' i c' hc'
  exact ⟨c'', hc'', hev.trans hev'⟩

theorem update (hc : s.call? i = some c) {f : Call → Call} (h : c.Evolves (f c)) :
    s.Evolves (s.update i f) := by
  intro j d hd
  by_cases hj : i = j
  · subst hj
    rw [hc, Option.some.injEq] at hd
    subst hd
    exact ⟨f c, call?_update_of_eq hc f, h⟩
  · exact ⟨d, by rw [call?_update_of_ne hj, hd], .refl d⟩

theorem resolve (s : Stream) (id : RequestId) {f : Slot → Slot}
    (h : ∀ c : Call, c.Evolves { c with slot := f c.slot }) : s.Evolves (s.resolve id f) := by
  intro j c hc
  rw [call?_resolve, hc]
  split
  · exact ⟨_, rfl, h c⟩
  · exact ⟨c, rfl, .refl c⟩

theorem forget (s : Stream) (id : RequestId) : s.Evolves (s.forget id) :=
  resolve s id Call.Evolves.of_drop

theorem enter (s : Stream) (i : Nat) (id : RequestId) : s.Evolves (s.enter i id) :=
  (forget s id).trans (of_calls rfl)

theorem clearPending (s : Stream) : s.Evolves s.clearPending := by
  intro j c hc
  rw [call?_clearPending, hc, Option.map_some]
  split
  · exact ⟨_, rfl, .of_drop c⟩
  · exact ⟨c, rfl, .refl c⟩

theorem «open» (s : Stream) (id : RequestId) (r : Request) (d : Duration) :
    s.Evolves (s.open id r d) := by
  intro j c hc
  have hlt := (List.getElem?_eq_some_iff.mp hc).1
  refine ⟨c, ?_, .refl c⟩
  rw [call?_open, if_neg (by omega), hc]

/-- The frame of a call that had sent none goes into the channel. -/
theorem enqueue (hc : s.call? i = some c) (h : c.stage.isUnsent = true) (d : Call)
    (hcalls : s'.calls = s.calls) : s.Evolves (s'.enqueue i d) := by
  refine (of_calls hcalls).trans (update (c := c) ?_ (.of_stage rfl (.of_isUnsent h)))
  change s'.calls[i]? = some c
  rw [hcalls]
  exact hc

theorem offer (hc : s.call? i = some c) (h : c.stage.isUnsent = true) (d : Call) :
    s.Evolves (s.offer i d) := by
  unfold Stream.offer
  split
  · exact enqueue hc h d rfl
  · exact (of_calls rfl).trans (update (c := c) hc (.of_stage rfl (.of_isUnsent h)))

theorem take (h : Taking s s') : s.Evolves s' := by
  cases h with
  | nothing _ => exact refl s
  | free _ _ => exact of_calls rfl
  | pass _ _ hc hqueued => exact enqueue hc (hqueued ▸ rfl) _ rfl

/-- A call that does an operation moves on, and so may one that it displaces from the table. -/
theorem acts (h : Acts s i s') : s.Evolves s' := by
  cases h with
  | idle => exact refl s
  | move f hc hf hnext => exact update hc (.of_stage hf hnext.precedes)
  | @enter c hc hstage =>
    -- the slot of the call itself may be dropped on the way, under a repeated identifier
    obtain ⟨slot, hd⟩ := exists_call?_resolve hc c.id .drop
    exact (enter s i c.id).trans (update hd (.of_stage rfl (.of_isUnsent (hstage ▸ rfl))))
  | @leave c e hc hstage =>
    obtain ⟨slot, hd⟩ := exists_call?_resolve hc c.id .drop
    refine (forget s c.id).trans (update hd (.of_stage rfl ?_))
    exact .of_isLost (by rw [hstage]; rfl) rfl
  | offer hc hstage => exact offer hc (hstage ▸ rfl) _
  | lose f hc hrun hf hlost =>
    refine (of_calls rfl).trans (update hc (.of_stage hf (.of_isLost hrun ?_)))
    rcases hlost with ⟨e, -, h⟩ | h <;> rw [h] <;> rfl

theorem step (hs : s.Consistent) (mv : Move) : s.Evolves (s.step mv) := by
  cases mv with
  | use u =>
    cases u with
    | «open» id r d => exact «open» s id r d
    | advance i now => exact acts (acts_advance s i now)
    | insist i => exact acts (acts_insist s i)
    | expire i now => exact acts (acts_expire s i now)
    | abandon i => exact acts (acts_abandon s i)
    | take => exact take (taking_take hs)
    | hangUp => exact of_calls rfl
  | deliver id m => exact resolve s id fun c ↦ .of_fill c m
  | markClosed => exact of_calls rfl
  | clearPending => exact clearPending s
  | cancel => exact of_calls rfl

end Evolves

/-- **Calls only move on**, along every run of a consistent stream. -/
theorem evolves_run (hs : s.Consistent) (moves : List Move) : s.Evolves (s.run moves) := by
  induction moves using List.reverseRecOn with
  | nil => exact .refl s
  | append_singleton moves mv ih =>
    rw [run_concat]
    exact ih.trans (.step (hs.run moves) mv)

/-! ## Slots are filled by deliveries -/

/-- Every slot that is filled was filled before, with the same message. -/
def FillsNone (s s' : Stream) : Prop :=
  ∀ i c' m, s'.call? i = some c' → c'.slot = .filled m →
    ∃ c, s.call? i = some c ∧ c.slot = .filled m

namespace FillsNone

theorem refl (s : Stream) : s.FillsNone s := fun _ c _ hc hm ↦ ⟨c, hc, hm⟩

theorem of_calls (h : s'.calls = s.calls) : s.FillsNone s' := by
  intro i c m hc hm
  refine ⟨c, ?_, hm⟩
  rw [call?, ← h]
  exact hc

theorem trans (h : s.FillsNone s') (h' : s'.FillsNone s'') : s.FillsNone s'' := by
  intro i c m hc hm
  obtain ⟨c', hc', hm'⟩ := h' i c m hc hm
  exact h i c' m hc' hm'

theorem update (hc : s.call? i = some c) {f : Call → Call} (hf : (f c).slot = c.slot) :
    s.FillsNone (s.update i f) := by
  intro j d m hd hm
  by_cases hj : i = j
  · subst hj
    rw [call?_update_of_eq hc, Option.some.injEq] at hd
    subst hd
    exact ⟨c, hc, hf ▸ hm⟩
  · rw [call?_update_of_ne hj] at hd
    exact ⟨d, hd, hm⟩

theorem forget (s : Stream) (id : RequestId) : s.FillsNone (s.forget id) := by
  intro j d m hd hm
  rw [Stream.forget, call?_resolve] at hd
  split at hd
  · obtain ⟨c, hc, rfl⟩ := Option.map_eq_some_iff.mp hd
    refine ⟨c, hc, ?_⟩
    cases hslot : c.slot <;> simp_all [Slot.drop]
  · exact ⟨d, hd, hm⟩

theorem enter (s : Stream) (i : Nat) (id : RequestId) : s.FillsNone (s.enter i id) :=
  (forget s id).trans (of_calls rfl)

theorem clearPending (s : Stream) : s.FillsNone s.clearPending := by
  intro j d m hd hm
  rw [call?_clearPending, Option.map_eq_some_iff] at hd
  obtain ⟨c, hc, rfl⟩ := hd
  refine ⟨c, hc, ?_⟩
  split at hm
  · cases hslot : c.slot <;> simp_all [Slot.drop]
  · exact hm

theorem «open» (s : Stream) (id : RequestId) (r : Request) (d : Duration) :
    s.FillsNone (s.open id r d) := by
  intro j c m hc hm
  rw [call?_open] at hc
  split at hc
  · cases hc
    cases hm
  · exact ⟨c, hc, hm⟩

theorem enqueue (hc : s.call? i = some c) (d : Call) (hcalls : s'.calls = s.calls) :
    s.FillsNone (s'.enqueue i d) := by
  refine (of_calls hcalls).trans (update (c := c) ?_ rfl)
  change s'.calls[i]? = some c
  rw [hcalls]
  exact hc

theorem offer (hc : s.call? i = some c) (d : Call) : s.FillsNone (s.offer i d) := by
  unfold Stream.offer
  split
  · exact enqueue hc d rfl
  · exact (of_calls rfl).trans (update (c := c) hc rfl)

theorem admitSenders (s : Stream) : s.FillsNone s.admitSenders := by
  unfold Stream.admitSenders
  split
  · exact refl s
  · split
    · exact of_calls rfl
    · rename_i c hc
      exact enqueue hc c rfl

theorem acts (h : Acts s i s') : s.FillsNone s' := by
  cases h with
  | idle => exact refl s
  | move f hc hf _ => exact update hc (by rw [hf])
  | @enter c hc _ =>
    obtain ⟨slot, hd⟩ := exists_call?_resolve hc c.id .drop
    exact (enter s i c.id).trans (update hd rfl)
  | @leave c e hc _ =>
    obtain ⟨slot, hd⟩ := exists_call?_resolve hc c.id .drop
    exact (forget s c.id).trans (update hd rfl)
  | offer hc _ => exact offer hc _
  | lose f hc _ hf _ => exact (of_calls rfl).trans (update hc (by rw [hf]))

theorem use (s : Stream) (u : Use) : s.FillsNone (s.use u) := by
  cases u with
  | «open» id r d => exact «open» s id r d
  | advance i now => exact acts (acts_advance s i now)
  | insist i => exact acts (acts_insist s i)
  | expire i now => exact acts (acts_expire s i now)
  | abandon i => exact acts (acts_abandon s i)
  | take =>
    change s.FillsNone s.take.2
    unfold Stream.take
    split
    · exact refl s
    · rename_i rest _
      have hrest : s.FillsNone { s with channel := rest } := of_calls rfl
      exact hrest.trans (admitSenders _)
  | hangUp => exact of_calls rfl

end FillsNone

/-- **The only move that fills a slot is a delivery**: of the message that is in the slot, under the
identifier that the table has for the call. -/
theorem slot_step {m : NodeMessage} {mv : Move} (hs : s.Consistent)
    (hc : (s.step mv).call? j = some c') (hm : c'.slot = .filled m) :
    (∃ c, s.call? j = some c ∧ c.slot = .filled m) ∨
      (mv = .deliver c'.id m ∧ s.pending.get? c'.id = some j) := by
  cases mv with
  | use u => exact Or.inl (FillsNone.use s u j c' m hc hm)
  | deliver id q =>
    change (s.resolve id (.fill q)).call? j = some c' at hc
    rw [call?_resolve] at hc
    split at hc
    · rename_i hin
      obtain ⟨c, hc, hid, hempty, -⟩ := hs.entry id j hin
      rename_i hc'
      rw [hc, Option.map_some, Option.some.injEq, hempty] at hc'
      subst hc'
      obtain rfl : q = m := by simpa [Slot.fill] using hm
      refine Or.inr ⟨?_, ?_⟩
      · rw [← hid]
      · exact hid ▸ hin
    · exact Or.inl ⟨c', hc, hm⟩
  | markClosed => exact Or.inl ⟨c', hc, hm⟩
  | clearPending => exact Or.inl (FillsNone.clearPending s j c' m hc hm)
  | cancel => exact Or.inl ⟨c', hc, hm⟩

/-- A slot that is filled after a run was filled before, or by a delivery of the run. -/
theorem slot_run {m : NodeMessage} {moves : List Move} (hs : s.Consistent)
    (hc : (s.run moves).call? j = some c') (hm : c'.slot = .filled m) :
    (∃ c, s.call? j = some c ∧ c.slot = .filled m) ∨ .deliver c'.id m ∈ moves := by
  induction moves using List.reverseRecOn generalizing c' with
  | nil => exact Or.inl ⟨c', hc, hm⟩
  | append_singleton moves mv ih =>
    rw [run_concat] at hc
    rw [List.mem_append, List.mem_singleton]
    rcases slot_step (hs.run moves) hc hm with ⟨d, hd, hdm⟩ | ⟨rfl, -⟩
    · -- filled before the last move, under the identifier that the call has kept
      obtain ⟨d', hd', hev⟩ := Evolves.step (hs.run moves) mv j d hd
      rw [hc, Option.some.injEq] at hd'
      subst hd'
      rw [hev.id]
      exact (ih hd hdm).imp_right Or.inl
    · exact Or.inr (Or.inr rfl)

/-! ## Only opening makes calls -/

theorem length_calls_resolve (s : Stream) (id : RequestId) (f : Slot → Slot) :
    (s.resolve id f).calls.length = s.calls.length := by
  unfold resolve
  split
  · rfl
  · exact List.length_modify ..

theorem length_calls_admitSenders (s : Stream) : s.admitSenders.calls.length = s.calls.length := by
  unfold admitSenders
  split
  · rfl
  · split
    · rfl
    · exact List.length_modify ..

theorem length_calls_acts (h : Acts s i s') : s'.calls.length = s.calls.length := by
  cases h with
  | idle => rfl
  | move f _ _ _ => exact List.length_modify ..
  | @enter c _ _ => exact (List.length_modify ..).trans (length_calls_resolve s c.id .drop)
  | @leave c e _ _ => exact (List.length_modify ..).trans (length_calls_resolve s c.id .drop)
  | offer _ _ =>
    unfold offer
    split <;> exact List.length_modify ..
  | lose f _ _ _ _ => exact List.length_modify ..

/-- Whoever uses a stream without opening a call on it leaves it with the calls it has. -/
theorem length_calls_use (s : Stream) (u : Use) (h : ∀ id r d, u ≠ .open id r d) :
    (s.use u).calls.length = s.calls.length := by
  cases u with
  | «open» id r d => exact absurd rfl (h id r d)
  | advance i now => exact length_calls_acts (acts_advance s i now)
  | insist i => exact length_calls_acts (acts_insist s i)
  | expire i now => exact length_calls_acts (acts_expire s i now)
  | abandon i => exact length_calls_acts (acts_abandon s i)
  | take =>
    change s.take.2.calls.length = _
    unfold take
    split
    · rfl
    · exact length_calls_admitSenders _
  | hangUp => rfl

/-! ## Frames go into the channel when their calls begin to wait -/

/-- Whether a call waits for its slot, its frame having gone into the channel. -/
def awaits (s : Stream) (i : Nat) : Bool :=
  (s.call? i).any fun c ↦ match c.stage with
    | .awaiting => true
    | _ => false

/-- The calls that began to wait for their slots between two states of a stream. -/
def sent (s s' : Stream) : List Nat :=
  (List.range s'.calls.length).filter fun i ↦ s'.awaits i && !s.awaits i

/-- What a move leaves of the frames in the channel. -/
def kept (s : Stream) : Move → List RequestFrame
  | .use .take => s.channel.tail
  | .use .hangUp => []
  | _ => s.channel

/-- The second state is the first with nothing in the channel but the given frames and, behind them,
the frame of at most one call, which had sent none. -/
inductive Sends (s : Stream) (rest : List RequestFrame) (s' : Stream) : List Nat → Prop where
  | nothing : s'.channel = rest → (∀ j, s'.awaits j = true → s.awaits j = true) → Sends s rest s' []
  | frame {i : Nat} {c : Call} : s.call? i = some c → c.stage.isUnsent = true →
    s'.channel = rest ++ [c.frame] → s'.awaits i = true →
    (∀ j, j ≠ i → s'.awaits j = true → s.awaits j = true) → Sends s rest s' [i]

theorem awaits_of_call (hc : s.call? i = some c) : s.awaits i = true ↔ c.stage = .awaiting := by
  rw [awaits, hc, Option.any_some]
  cases c.stage <;> simp

theorem exists_of_awaits (h : s.awaits i = true) :
    ∃ c, s.call? i = some c ∧ c.stage = .awaiting := by
  cases hc : s.call? i with
  | none =>
    rw [awaits, hc] at h
    cases h
  | some c => exact ⟨c, rfl, (awaits_of_call hc).mp h⟩

theorem mem_sent : i ∈ s.sent s' ↔ s'.awaits i = true ∧ s.awaits i = false := by
  rw [sent, List.mem_filter, List.mem_range, Bool.and_eq_true, Bool.not_eq_true',
    and_iff_right_iff_imp]
  rintro ⟨h, -⟩
  obtain ⟨c, hc, -⟩ := exists_of_awaits h
  exact (List.getElem?_eq_some_iff.mp hc).1

theorem awaits_congr (h : (s'.call? j).map (·.stage) = (s.call? j).map (·.stage)) :
    s'.awaits j = s.awaits j := by
  unfold awaits
  cases hc' : s'.call? j <;> cases hc : s.call? j <;> simp_all

/-- Taking an entry out of the table leaves every stage as it is. -/
theorem stage_resolve (s : Stream) (id : RequestId) (f : Slot → Slot) (j : Nat) :
    ((s.resolve id f).call? j).map (·.stage) = (s.call? j).map (·.stage) := by
  rw [call?_resolve]
  split
  · rw [Option.map_map]
    rfl
  · rfl

/-- Neither the channel nor the stage of a call is different in the second state. -/
structure Silent (s s' : Stream) : Prop where
  channel : s'.channel = s.channel
  stage : ∀ j, (s'.call? j).map (·.stage) = (s.call? j).map (·.stage)

namespace Silent

theorem refl (s : Stream) : Silent s s := ⟨rfl, fun _ ↦ rfl⟩

theorem trans (h : Silent s s') (h' : Silent s' s'') : Silent s s'' :=
  ⟨h'.channel.trans h.channel, fun j ↦ (h'.stage j).trans (h.stage j)⟩

theorem resolve (s : Stream) (id : RequestId) (f : Slot → Slot) : Silent s (s.resolve id f) :=
  ⟨channel_resolve s id f, stage_resolve s id f⟩

theorem clearPending (s : Stream) : Silent s s.clearPending := by
  refine ⟨rfl, fun j ↦ ?_⟩
  rw [call?_clearPending, Option.map_map]
  congr 1
  funext c
  simp only [Function.comp_apply]
  split <;> rfl

theorem close (s : Stream) : Silent s s.close := by
  unfold Stream.close
  split
  · exact refl s
  · have hmark : Silent s s.markClosed := ⟨rfl, fun _ ↦ rfl⟩
    have hclear : Silent s s.markClosed.clearPending := hmark.trans (clearPending _)
    exact hclear.trans ⟨rfl, fun _ ↦ rfl⟩

end Silent

namespace Sends

variable {rest : List RequestFrame} {l : List Nat}

/-- What `sent` computes is what was sent. -/
theorem sent_eq (h : Sends s rest s' l) : s.sent s' = l := by
  cases h with
  | nothing _ h =>
    refine List.eq_nil_iff_forall_not_mem.mpr fun j hj ↦ ?_
    obtain ⟨hafter, hbefore⟩ := mem_sent.mp hj
    rw [h j hafter] at hbefore
    cases hbefore
  | @frame i c hc hunsent _ hi h =>
    have hbefore : s.awaits i = false := by
      rw [Bool.eq_false_iff, ne_eq, awaits_of_call hc]
      intro hstage
      rw [hstage] at hunsent
      cases hunsent
    -- `sent` lists the calls in order, without repetition, so it is enough to say which they are
    have hnodup : (s.sent s').Nodup := List.nodup_range.filter _
    refine List.perm_singleton.mp ((List.perm_ext_iff_of_nodup hnodup (by simp)).mpr fun j ↦ ?_)
    rw [mem_sent, List.mem_singleton]
    constructor
    · rintro ⟨hj, hj'⟩
      by_contra hne
      rw [h j hne hj] at hj'
      cases hj'
    · rintro rfl
      exact ⟨hi, hbefore⟩

/-- A change of slots, of the table or of the flags sends nothing. -/
theorem of_stages (hchannel : s'.channel = rest)
    (h : ∀ j, (s'.call? j).map (·.stage) = (s.call? j).map (·.stage)) : Sends s rest s' [] :=
  .nothing hchannel fun j hj ↦ by rwa [awaits_congr (h j)] at hj

theorem of_silent (h : Silent s s') : Sends s s.channel s' [] := of_stages h.channel h.stage

/-- A call that comes to a stage other than waiting for its slot sends nothing. -/
theorem update (s' : Stream) (hchannel : s'.channel = rest)
    (h : ∀ j, (s'.call? j).map (·.stage) = (s.call? j).map (·.stage)) (hc : s'.call? i = some c)
    {f : Call → Call} (hf : (f c).stage ≠ .awaiting) : Sends s rest (s'.update i f) [] := by
  refine .nothing hchannel fun j hj ↦ ?_
  rw [← awaits_congr (h j)]
  by_cases hji : i = j
  · subst hji
    exact absurd ((awaits_of_call (call?_update_of_eq hc f)).mp hj) hf
  · rwa [awaits, call?_update_of_ne hji] at hj

theorem enqueue (s' : Stream) (hc : s.call? i = some c) (h : c.stage.isUnsent = true)
    (hcalls : s'.calls = s.calls) (hchannel : s'.channel = rest) :
    Sends s rest (s'.enqueue i c) [i] := by
  have hc' : s'.call? i = some c := by rw [call?, hcalls]; exact hc
  refine .frame hc h (by rw [← hchannel]; rfl) ?_ fun j hj hawaits ↦ ?_
  · exact (awaits_of_call (call?_update_of_eq (s := { s' with channel := _ }) hc' _)).mpr rfl
  · have heq : (s'.enqueue i c).call? j = s.call? j := by
      rw [Stream.enqueue, call?_update_of_ne hj.symm, call?, call?, hcalls]
    rwa [awaits, heq] at hawaits

theorem offer (hc : s.call? i = some c) (h : c.stage.isUnsent = true) :
    ∃ l, Sends s s.channel (s.offer i c) l := by
  unfold Stream.offer
  split
  · exact ⟨[i], enqueue s hc h rfl rfl⟩
  · exact ⟨[], update (s := s) { s with senders := s.senders ++ [i] } rfl (fun _ ↦ rfl)
      hc (f := fun c ↦ { c with stage := .queued }) (by simp)⟩

theorem acts (h : Acts s i s') : ∃ l, Sends s s.channel s' l := by
  cases h with
  | idle => exact ⟨[], of_stages rfl fun _ ↦ rfl⟩
  | move f hc _ hnext => exact ⟨[], update s rfl (fun _ ↦ rfl) hc hnext.ne_queued.2.2⟩
  | @enter c hc _ =>
    obtain ⟨slot, hd⟩ := exists_call?_resolve hc c.id .drop
    exact ⟨[], update (s.enter i c.id) (channel_resolve s c.id .drop)
      (stage_resolve s c.id .drop) hd (f := fun c ↦ { c with stage := .rechecking }) (by simp)⟩
  | @leave c e hc _ =>
    obtain ⟨slot, hd⟩ := exists_call?_resolve hc c.id .drop
    exact ⟨[], update (s.forget c.id) (channel_resolve s c.id .drop)
      (stage_resolve s c.id .drop) hd (f := fun c ↦ { c with stage := .returned (.error e) })
      (by simp)⟩
  | offer hc hstage => exact offer hc (hstage ▸ rfl)
  | lose f hc _ _ hlost =>
    refine ⟨[], update (s := s) { s with senders := s.senders.filter (· ≠ i) } rfl
      (fun _ ↦ rfl) hc ?_⟩
    rcases hlost with ⟨e, -, h⟩ | h <;> rw [h] <;> exact CallStage.noConfusion

theorem take (h : Taking s s') : ∃ l, Sends s s.channel.tail s' l := by
  cases h with
  | nothing hempty => exact ⟨[], of_stages (by rw [hempty]; rfl) fun _ ↦ rfl⟩
  | free hchannel _ => exact ⟨[], of_stages (by rw [hchannel]; rfl) fun _ ↦ rfl⟩
  | @pass frame rest i waiting c hchannel _ hc hqueued =>
    rw [hchannel]
    exact ⟨[i], enqueue { s with channel := rest, senders := waiting } hc (hqueued ▸ rfl) rfl rfl⟩

theorem «open» (s : Stream) (id : RequestId) (r : Request) (d : Duration) :
    Sends s s.channel (s.open id r d) [] := by
  refine .nothing rfl fun j hj ↦ ?_
  rw [awaits, call?_open] at hj
  split at hj
  · cases hj
  · exact hj

end Sends

/-- **A move sends at most one frame**, that of a call which had sent none, and the call waits for
its slot from then on. -/
theorem sends_step (hs : s.Consistent) (mv : Move) :
    ∃ l, Sends s (s.kept mv) (s.step mv) l := by
  cases mv with
  | use u =>
    cases u with
    | «open» id r d => exact ⟨[], .open s id r d⟩
    | advance i now => exact Sends.acts (acts_advance s i now)
    | insist i => exact Sends.acts (acts_insist s i)
    | expire i now => exact Sends.acts (acts_expire s i now)
    | abandon i => exact Sends.acts (acts_abandon s i)
    | take => exact Sends.take (taking_take hs)
    | hangUp => exact ⟨[], .of_stages rfl fun _ ↦ rfl⟩
  | deliver id m => exact ⟨[], .of_silent (.resolve s id _)⟩
  | markClosed => exact ⟨[], .of_stages rfl fun _ ↦ rfl⟩
  | clearPending => exact ⟨[], .of_silent (.clearPending s)⟩
  | cancel => exact ⟨[], .of_stages rfl fun _ ↦ rfl⟩

end NodeAgent.Stream
