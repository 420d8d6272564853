import NodeAgent.Proofs.Stream.Answered

/-!
# The queue for the outbound channel

A call that finds no place in the channel queues, a place that becomes free goes to the call that
queues longest, and a call that fails leaves the queue. Whatever a move does to the queue obeys one
law of conservation: who queued before and who came, in this order, are who got a place and who
queues now, in this order, but for those who left (`serves_step`). That nobody overtakes anybody
over a run follows by adding this up.

## Main statements

* `serves_step`: a move serves the calls in the order in which they came.
* `passing_step`: a call offers its frame once, and who queues goes on to queue, gets a place or
  fails.
* `Packed.step`: the channel holds no more frames than it can, and nobody queues unless it is full.
* `IsDropped.step`: nothing is sent once the node's side of the stream was dropped.
-/

namespace NodeAgent

namespace CallStage

/-- The call has not offered its frame yet, and still may. -/
def isAhead : CallStage → Bool
  | opening | entering | rechecking | offering => true
  | _ => false

/-- The call is about to offer its frame. -/
def isOffering : CallStage → Bool
  | offering => true
  | _ => false

/-- The call offered its frame, and queues or waits for its slot. -/
def isPlaced : CallStage → Bool
  | queued | awaiting => true
  | _ => false

/-- What a move makes of the stage of a call, as far as the queue goes. -/
structure Passes (a b : CallStage) : Prop where
  /-- A call that has offered its frame has done so for good. -/
  past : a.isAhead = false → b.isAhead = false
  queued : a = .queued → b = .queued ∨ b = .awaiting ∨ b.isLost = true

namespace Passes

variable {a b : CallStage}

theorem refl (a : CallStage) : a.Passes a := ⟨id, Or.inl⟩

theorem of_isLost (h : b.isLost = true) : a.Passes b := by
  refine ⟨fun _ ↦ ?_, fun _ ↦ Or.inr (Or.inr h)⟩
  cases b <;> first | rfl | cases h

theorem of_isAhead (h : a.isAhead = true) : a.Passes b := by
  refine ⟨fun hpast ↦ absurd (h.symm.trans hpast) Bool.noConfusion, ?_⟩
  rintro rfl
  cases h

end Passes

end CallStage

namespace Stream

variable {s s' t : Stream} {i j : Nat} {c c' d : Call} {mv : Move}

theorem Follows.passes {slot : Slot} {a b : CallStage} (h : Follows slot a b) : a.Passes b := by
  cases h with
  | answered _ => exact ⟨fun _ ↦ rfl, CallStage.noConfusion⟩
  | dropped => exact .of_isLost rfl
  | _ => exact .of_isAhead rfl

theorem Follows.isPlaced {slot : Slot} {a b : CallStage} (h : Follows slot a b) :
    b.isPlaced = false := by
  cases h <;> rfl

/-! ## Who offered a frame, and who got a place -/

/-- Whether the stage of a call is one of the given stages. -/
def isAt (s : Stream) (p : CallStage → Bool) (i : Nat) : Bool :=
  ((s.call? i).map (·.stage)).any p

/-- The calls that offered their frames between two states of a stream. -/
def offered (s s' : Stream) : List Nat :=
  (List.range s'.calls.length).filter fun i ↦
    s.isAt CallStage.isOffering i && s'.isAt CallStage.isPlaced i

theorem isAt_of_call {p : CallStage → Bool} (hc : s.call? i = some c) :
    s.isAt p i = p c.stage := by
  rw [isAt, hc, Option.map_some, Option.any_some]

theorem exists_of_isAt {p : CallStage → Bool} (h : s.isAt p i = true) :
    ∃ c, s.call? i = some c ∧ p c.stage = true := by
  cases hc : s.call? i with
  | none =>
    rw [isAt, hc] at h
    cases h
  | some c => exact ⟨c, rfl, (isAt_of_call hc).symm.trans h⟩

theorem mem_offered : i ∈ s.offered s' ↔
    s.isAt CallStage.isOffering i = true ∧ s'.isAt CallStage.isPlaced i = true := by
  rw [offered, List.mem_filter, List.mem_range, Bool.and_eq_true, and_iff_right_iff_imp]
  rintro ⟨-, h⟩
  obtain ⟨c, hc, -⟩ := exists_of_isAt h
  exact (List.getElem?_eq_some_iff.mp hc).1

theorem nodup_offered (s s' : Stream) : (s.offered s').Nodup := List.nodup_range.filter _

/-- A call that stays at its stage offers no frame. -/
theorem notMem_offered (h : (s'.call? j).map (·.stage) = (s.call? j).map (·.stage)) :
    j ∉ s.offered s' := by
  intro hj
  obtain ⟨hbefore, hafter⟩ := mem_offered.mp hj
  rw [isAt, h] at hafter
  obtain ⟨c, hc, hoffering⟩ := exists_of_isAt hbefore
  rw [hc, Option.map_some, Option.any_some] at hafter
  revert hoffering hafter
  cases c.stage <;> simp [CallStage.isOffering, CallStage.isPlaced]

theorem offered_of_stages (h : ∀ j, (s'.call? j).map (·.stage) = (s.call? j).map (·.stage)) :
    s.offered s' = [] :=
  List.eq_nil_iff_forall_not_mem.mpr fun j ↦ notMem_offered (h j)

/-- If one call alone comes to another stage, it alone may offer its frame. -/
theorem offered_of_other
    (h : ∀ j, j ≠ i → (s'.call? j).map (·.stage) = (s.call? j).map (·.stage)) :
    s.offered s' =
      if s.isAt CallStage.isOffering i && s'.isAt CallStage.isPlaced i then [i] else [] := by
  have hother : ∀ j ∈ s.offered s', j = i := by
    intro j hj
    by_contra hne
    exact notMem_offered (h j hne) hj
  split
  · rename_i hi
    have hmem : ∀ j, j ∈ s.offered s' ↔ j ∈ [i] := by
      intro j
      rw [List.mem_singleton]
      refine ⟨hother j, ?_⟩
      rintro rfl
      exact mem_offered.mpr (Bool.and_eq_true_iff.mp hi)
    exact List.perm_singleton.mp
      ((List.perm_ext_iff_of_nodup (nodup_offered s s') (by simp)).mpr hmem)
  · rename_i hi
    refine List.eq_nil_iff_forall_not_mem.mpr fun j hj ↦ hi ?_
    obtain rfl := hother j hj
    exact Bool.and_eq_true_iff.mpr (mem_offered.mp hj)

/-! ## Served in the order of their coming -/

/-- Who queued before and who came since are, in this order, who got a place since and who queues
now, but for those who left. -/
def Serves (s s' : Stream) : Prop :=
  (s.sent s' ++ s'.senders).Sublist (s.senders ++ s.offered s')

namespace Serves

/-- Nobody comes and nobody gets a place. -/
theorem of_none (hoffered : s.offered s' = []) (hsent : s.sent s' = [])
    (hsenders : s'.senders.Sublist s.senders) : s.Serves s' := by
  rw [Serves, hoffered, hsent, List.nil_append, List.append_nil]
  exact hsenders

theorem of_stages (h : ∀ j, (s'.call? j).map (·.stage) = (s.call? j).map (·.stage))
    (hsenders : s'.senders = s.senders) : s.Serves s' := by
  exact of_none (offered_of_stages h) (Sends.of_stages rfl h).sent_eq (hsenders ▸ .refl _)

theorem refl (s : Stream) : s.Serves s := of_stages (fun _ ↦ rfl) rfl

theorem of_silent (h : Silent s s') (hsenders : s'.senders = s.senders) : s.Serves s' :=
  of_stages h.stage hsenders

/-- One call comes to a stage at which it neither queues nor waits for its slot. -/
theorem update (h : ∀ j, (t.call? j).map (·.stage) = (s.call? j).map (·.stage))
    (hc : t.call? i = some c) {f : Call → Call} (hf : (f c).stage.isPlaced = false)
    (hsenders : t.senders.Sublist s.senders) : s.Serves (t.update i f) := by
  have hself : (t.update i f).call? i = some (f c) := call?_update_of_eq hc f
  have hother : ∀ j, j ≠ i →
      ((t.update i f).call? j).map (·.stage) = (s.call? j).map (·.stage) := by
    intro j hne
    rw [call?_update_of_ne hne.symm]
    exact h j
  refine of_none ?_ (Sends.update t rfl h hc fun hawaiting ↦ ?_).sent_eq hsenders
  · rw [offered_of_other hother, isAt_of_call hself, hf, Bool.and_false, if_neg Bool.noConfusion]
  · rw [hawaiting] at hf
    cases hf

/-- A call that offers its frame is served at once, or it is the last to queue. -/
theorem offer (hc : s.call? i = some c) (hstage : c.stage = .offering) :
    s.Serves (s.offer i c) := by
  have hother : ∀ j, j ≠ i →
      ((s.offer i c).call? j).map (·.stage) = (s.call? j).map (·.stage) :=
    fun j hne ↦ stage_acts_of_ne (.offer hc hstage) hne.symm
  have hoffering : s.isAt CallStage.isOffering i = true := by
    rw [isAt_of_call hc, hstage]
    rfl
  have hcalled : s.offered (s.offer i c) = [i] := by
    have hplaced : (s.offer i c).isAt CallStage.isPlaced i = true := by
      unfold Stream.offer
      split <;> exact isAt_of_call (call?_update_of_eq hc _)
    rw [offered_of_other hother, hoffering, hplaced]
    rfl
  rw [Serves, hcalled]
  unfold Stream.offer
  split
  · rename_i hroom
    have hnobody : s.senders = [] :=
      List.isEmpty_iff.mp (Bool.and_eq_true_iff.mp hroom).1
    have hsent : s.sent (s.enqueue i c) = [i] :=
      (Sends.enqueue s hc (hstage ▸ rfl) rfl rfl).sent_eq
    rw [hsent, hnobody]
    change ([i] ++ s.senders).Sublist ([] ++ [i])
    rw [hnobody]
    exact .refl [i]
  · have hsent : s.sent ({ s with senders := s.senders ++ [i] }.update i fun c ↦
        { c with stage := .queued }) = [] :=
      (Sends.update (s := s) { s with senders := s.senders ++ [i] } rfl (fun _ ↦ rfl) hc
        CallStage.noConfusion).sent_eq
    rw [hsent]
    exact .refl _

theorem acts (h : Acts s i s') : s.Serves s' := by
  cases h with
  | idle => exact refl s
  | move f hc _ hnext => exact update (fun _ ↦ rfl) hc hnext.isPlaced (.refl _)
  | @enter c hc _ =>
    obtain ⟨slot, hd⟩ := exists_call?_resolve hc c.id .drop
    refine update (t := s.enter i c.id) (stage_resolve s c.id .drop) hd rfl ?_
    exact senders_resolve s c.id .drop ▸ .refl _
  | @leave c e hc _ =>
    obtain ⟨slot, hd⟩ := exists_call?_resolve hc c.id .drop
    refine update (t := s.forget c.id) (stage_resolve s c.id .drop) hd rfl ?_
    exact senders_resolve s c.id .drop ▸ .refl _
  | offer hc hstage => exact offer hc hstage
  | lose f hc _ _ hlost =>
    refine update (s := s) (t := { s with senders := s.senders.filter (· ≠ i) }) (fun _ ↦ rfl) hc
      ?_ List.filter_sublist
    rcases hlost with ⟨e, -, h⟩ | h <;> rw [h] <;> rfl

theorem take (h : Taking s s') : s.Serves s' := by
  cases h with
  | nothing _ => exact refl s
  | free _ _ => exact of_stages (fun _ ↦ rfl) rfl
  | @pass frame rest i waiting c _ hsenders hc hqueued =>
    set t : Stream := { s with channel := rest, senders := waiting }
    have hother : ∀ j, j ≠ i →
        ((t.enqueue i c).call? j).map (·.stage) = (s.call? j).map (·.stage) := by
      intro j hne
      rw [Stream.enqueue, call?_update_of_ne hne.symm]
      rfl
    have hcalled : s.offered (t.enqueue i c) = [] := by
      rw [offered_of_other hother, isAt_of_call hc, hqueued]
      rfl
    have hsent : s.sent (t.enqueue i c) = [i] :=
      (Sends.enqueue t hc (hqueued ▸ rfl) rfl rfl).sent_eq
    rw [Serves, hcalled, hsent, hsenders]
    exact (List.append_nil (i :: waiting)).symm ▸ .refl _

end Serves

/-- **A move serves the calls in the order in which they came.** -/
theorem serves_step (hs : s.Consistent) (mv : Move) : s.Serves (s.step mv) := by
  cases mv with
  | use u =>
    cases u with
    | «open» id r d =>
      refine .of_none ?_ (Sends.open s id r d).sent_eq (.refl _)
      refine List.eq_nil_iff_forall_not_mem.mpr fun j hj ↦ ?_
      obtain ⟨hbefore, -⟩ := mem_offered.mp hj
      obtain ⟨c, hc, -⟩ := exists_of_isAt hbefore
      have hlt := (List.getElem?_eq_some_iff.mp hc).1
      refine notMem_offered ?_ hj
      change ((s.open id r d).call? j).map _ = _
      rw [call?_open, if_neg (by omega)]
    | advance i now => exact .acts (acts_advance s i now)
    | insist i => exact .acts (acts_insist s i)
    | expire i now => exact .acts (acts_expire s i now)
    | abandon i => exact .acts (acts_abandon s i)
    | take => exact .take (taking_take hs)
    | hangUp => exact .of_stages (fun _ ↦ rfl) rfl
  | deliver id m => exact .of_silent (.resolve s id _) (senders_resolve s id _)
  | clearPending => exact .of_silent (.clearPending s) rfl
  | _ => exact .of_stages (fun _ ↦ rfl) rfl

/-! ## Past the queue -/

/-- Every call passes the queue as it may. -/
def Passing (s s' : Stream) : Prop :=
  ∀ i c c', s.call? i = some c → s'.call? i = some c' → c.stage.Passes c'.stage

namespace Passing

theorem of_stages (h : ∀ j, (s'.call? j).map (·.stage) = (s.call? j).map (·.stage)) :
    s.Passing s' := by
  intro j c c' hc hc'
  have hj := h j
  rw [hc, hc', Option.map_some, Option.map_some, Option.some.injEq] at hj
  exact hj ▸ .refl _

theorem refl (s : Stream) : s.Passing s := of_stages fun _ ↦ rfl

/-- One call comes to another stage. -/
theorem update (h : ∀ j, (t.call? j).map (·.stage) = (s.call? j).map (·.stage))
    (hc : s.call? i = some c) {f : Call → Call} (hd : t.call? i = some d)
    (hf : c.stage.Passes (f d).stage) : s.Passing (t.update i f) := by
  intro j e e' he he'
  by_cases hij : i = j
  · subst hij
    rw [hc, Option.some.injEq] at he
    rw [call?_update_of_eq hd, Option.some.injEq] at he'
    exact he ▸ he' ▸ hf
  · rw [call?_update_of_ne hij] at he'
    exact of_stages h j e e' he he'

theorem acts (h : Acts s i s') : s.Passing s' := by
  cases h with
  | idle => exact refl s
  | move f hc _ hnext => exact update (fun _ ↦ rfl) hc hc hnext.passes
  | @enter c hc hstage =>
    obtain ⟨slot, hd⟩ := exists_call?_resolve hc c.id .drop
    exact update (t := s.enter i c.id) (stage_resolve s c.id .drop) hc hd
      (.of_isAhead (hstage ▸ rfl))
  | @leave c e hc _ =>
    obtain ⟨slot, hd⟩ := exists_call?_resolve hc c.id .drop
    exact update (t := s.forget c.id) (stage_resolve s c.id .drop) hc hd (.of_isLost rfl)
  | @offer c hc hstage =>
    have hahead : c.stage.isAhead = true := hstage ▸ rfl
    unfold Stream.offer
    split
    · exact update (t := { s with channel := s.channel ++ [c.frame] }) (fun _ ↦ rfl) hc hc
        (.of_isAhead hahead)
    · exact update (t := { s with senders := s.senders ++ [i] }) (fun _ ↦ rfl) hc hc
        (.of_isAhead hahead)
  | lose f hc _ _ hlost =>
    refine update (t := { s with senders := s.senders.filter (· ≠ i) }) (fun _ ↦ rfl) hc hc
      (.of_isLost ?_)
    rcases hlost with ⟨e, -, h⟩ | h <;> rw [h] <;> rfl

theorem take (h : Taking s s') : s.Passing s' := by
  cases h with
  | nothing _ => exact refl s
  | free _ _ => exact of_stages fun _ ↦ rfl
  | pass _ _ hc _ =>
    exact update (t := { s with channel := _, senders := _ }) (fun _ ↦ rfl) hc hc
      ⟨fun _ ↦ rfl, fun _ ↦ Or.inr (Or.inl rfl)⟩

end Passing

/-- **A call that has offered its frame never offers it again**, and one that queues goes on to
queue, gets a place or fails. -/
theorem passing_step (hs : s.Consistent) (mv : Move) : s.Passing (s.step mv) := by
  cases mv with
  | use u =>
    cases u with
    | «open» id r d =>
      intro j c c' hc hc'
      have hlt := (List.getElem?_eq_some_iff.mp hc).1
      change (s.open id r d).call? j = some c' at hc'
      rw [call?_open, if_neg (by omega), hc, Option.some.injEq] at hc'
      exact hc' ▸ .refl _
    | advance i now => exact .acts (acts_advance s i now)
    | insist i => exact .acts (acts_insist s i)
    | expire i now => exact .acts (acts_expire s i now)
    | abandon i => exact .acts (acts_abandon s i)
    | take => exact .take (taking_take hs)
    | hangUp => exact .refl s
  | deliver id m => exact .of_stages (stage_resolve s id _)
  | clearPending => exact .of_stages (Silent.clearPending s).stage
  | _ => exact .of_stages fun _ ↦ rfl

/-! ## Room in the channel -/

/-- The channel holds no more frames than it can, and while a call queues it holds as many. -/
structure Packed (s : Stream) : Prop where
  bounded : s.channel.length ≤ s.capacity
  full : s.receiving = true → s.senders ≠ [] → s.channel.length = s.capacity

namespace Packed

/-- Nothing comes into the channel and nobody comes to queue. -/
theorem of_channel (h : s.Packed) (hchannel : s'.channel = s.channel)
    (hcapacity : s'.capacity = s.capacity) (hreceiving : s'.receiving = s.receiving)
    (hsenders : s'.senders.Sublist s.senders) : s'.Packed := by
  refine ⟨by rw [hchannel, hcapacity]; exact h.bounded, fun hreceives hwaiting ↦ ?_⟩
  rw [hchannel, hcapacity]
  refine h.full (hreceiving ▸ hreceives) fun hnobody ↦ hwaiting ?_
  exact List.sublist_nil.mp (hnobody ▸ hsenders)

theorem resolve (h : s.Packed) (id : RequestId) (f : Slot → Slot) : (s.resolve id f).Packed := by
  unfold Stream.resolve
  split
  · exact h
  · exact h.of_channel rfl rfl rfl (.refl _)

theorem offer (h : s.Packed) (i : Nat) (c : Call) : (s.offer i c).Packed := by
  unfold Stream.offer
  split
  · rename_i hroom
    obtain ⟨hnobody, hlt⟩ := Bool.and_eq_true_iff.mp hroom
    refine ⟨?_, fun _ hwaiting ↦ absurd (List.isEmpty_iff.mp hnobody) hwaiting⟩
    change (s.channel ++ [c.frame]).length ≤ s.capacity
    rw [List.length_append, List.length_singleton]
    exact of_decide_eq_true hlt
  · rename_i hroom
    refine ⟨h.bounded, fun hreceives _ ↦ ?_⟩
    change s.channel.length = s.capacity
    by_cases hnobody : s.senders = []
    · -- it is the first to queue, so that nothing but the length can have kept it out
      have hge : ¬ s.channel.length < s.capacity := by
        intro hlt
        exact hroom (Bool.and_eq_true_iff.mpr ⟨List.isEmpty_iff.mpr hnobody, decide_eq_true hlt⟩)
      have hle := h.bounded
      omega
    · exact h.full hreceives hnobody

theorem acts (h : s.Packed) (hacts : Acts s i s') : s'.Packed := by
  cases hacts with
  | idle => exact h
  | move f _ _ _ => exact h.of_channel rfl rfl rfl (.refl _)
  | @enter c _ _ => exact (h.resolve c.id .drop).of_channel rfl rfl rfl (.refl _)
  | @leave c _ _ _ => exact (h.resolve c.id .drop).of_channel rfl rfl rfl (.refl _)
  | offer _ _ => exact h.offer i _
  | lose f _ _ _ _ => exact h.of_channel rfl rfl rfl List.filter_sublist

theorem take (h : s.Packed) (htaking : Taking s s') : s'.Packed := by
  have hbounded := h.bounded
  have hfull := h.full
  cases htaking with
  | nothing _ => exact h
  | @free frame rest hchannel hnobody =>
    rw [hchannel, List.length_cons] at hbounded
    refine ⟨?_, fun _ hwaiting ↦ absurd hnobody hwaiting⟩
    change rest.length ≤ s.capacity
    omega
  | @pass frame rest i waiting c hchannel hsenders _ _ =>
    -- the place that became free is taken at once
    have hlength : (rest ++ [c.frame]).length = s.channel.length := by
      rw [hchannel, List.length_append, List.length_singleton, List.length_cons]
    refine ⟨Nat.le_trans (Nat.le_of_eq hlength) hbounded, fun hreceives _ ↦
      hlength.trans (hfull hreceives ?_)⟩
    rw [hsenders]
    exact List.cons_ne_nil i waiting

/-- **Every move keeps a channel packed.** -/
theorem step (h : s.Packed) (hs : s.Consistent) (mv : Move) : (s.step mv).Packed := by
  cases mv with
  | use u =>
    cases u with
    | advance i now => exact h.acts (acts_advance s i now)
    | insist i => exact h.acts (acts_insist s i)
    | expire i now => exact h.acts (acts_expire s i now)
    | abandon i => exact h.acts (acts_abandon s i)
    | take => exact h.take (taking_take hs)
    | hangUp => exact ⟨Nat.zero_le _, fun hreceives ↦ by cases hreceives⟩
    | «open» id r d => exact h.of_channel rfl rfl rfl (.refl _)
  | deliver id m => exact h.resolve id _
  | _ => exact h.of_channel rfl rfl rfl (.refl _)

end Packed

/-- The node's side of the stream was dropped, and nothing is in the channel. -/
structure IsDropped (s : Stream) : Prop where
  receiving : s.receiving = false
  channel : s.channel = []

namespace IsDropped

theorem resolve (h : s.IsDropped) (id : RequestId) (f : Slot → Slot) :
    (s.resolve id f).IsDropped := by
  unfold Stream.resolve
  split
  · exact h
  · exact ⟨h.receiving, h.channel⟩

theorem advance (h : s.IsDropped) (i : Nat) (now : Instant) : (s.advance i now).IsDropped := by
  have hrefuses : s.refusesFrames = true := by
    rw [refusesFrames, h.receiving, Bool.not_false, Bool.or_true]
  have hsame : ∀ f, (s.update i f).IsDropped := fun _ ↦ ⟨h.receiving, h.channel⟩
  have hgone : ∀ e, (s.giveUp i e).IsDropped := fun _ ↦ ⟨h.receiving, h.channel⟩
  unfold Stream.advance
  split
  · exact h
  · rename_i c _
    obtain ⟨hreceiving, hchannel⟩ := h.resolve c.id .drop
    split
    · split <;> exact hsame _
    · exact ⟨hreceiving, hchannel⟩
    · split <;> exact hsame _
    · rw [if_pos hrefuses]
      exact hgone _
    · rw [if_pos hrefuses]
      exact hgone _
    · split
      · exact h
      · exact hsame _
      · exact hsame _
    · exact ⟨hreceiving, hchannel⟩
    · exact h
    · exact h

/-- **Nothing is sent once the node's side was dropped.** -/
theorem step (h : s.IsDropped) (mv : Move) : (s.step mv).IsDropped := by
  have hreceiving := h.receiving
  have hchannel := h.channel
  cases mv with
  | use u =>
    cases u with
    | advance i now => exact h.advance i now
    | insist i =>
      change (s.insist i).IsDropped
      unfold Stream.insist
      split
      · exact h
      · split
        · rw [hreceiving]
          exact h
        · exact h
    | expire i now =>
      change (s.expire i now).IsDropped
      unfold Stream.expire
      split
      · exact h
      · split <;> exact ⟨hreceiving, hchannel⟩
    | abandon i =>
      change (s.abandon i).IsDropped
      unfold Stream.abandon
      split
      · exact h
      · split <;> exact ⟨hreceiving, hchannel⟩
    | take =>
      change s.take.2.IsDropped
      rw [Stream.take, hchannel]
      exact h
    | hangUp => exact ⟨rfl, rfl⟩
    | «open» id r d => exact ⟨hreceiving, hchannel⟩
  | deliver id m => exact h.resolve id _
  | _ => exact ⟨hreceiving, hchannel⟩

end IsDropped

end Stream

end NodeAgent
