import NodeAgent.Proofs.Stream.Desertion
import NodeAgent.Proofs.Stream.Queueing

/-!
# What a node receives

A node receives the frames of its calls through a registration, which ends when the stream is torn
down. An `Outlet` is a stream that is perhaps being closed, together with three logs: the calls in
the order in which they offered their frames, the calls in the order in which they got a place in
the channel, and the frames that the node received.

The first log is a list without repetition, the second one followed by the queue is a part of it in
the same order, and the third one is the beginning of the frames of the second one. That a frame is
never received for a call that failed first follows, since a call that failed gets no place.

## Main statements

* `Sound.step`: what every move keeps.
* `orderly_run`: the node receives the frames of the calls that got a place, one each and in the
  order in which they got it, and nothing once the stream is closed.
-/

namespace NodeAgent

namespace Stream

variable {s t : Stream} {i : Nat} {c : Call} {l : List Nat} {m : Move}

/-- The frames of the given calls. -/
def frames (s : Stream) (l : List Nat) : List RequestFrame :=
  l.filterMap fun i ↦ (s.call? i).map Call.frame

theorem frames_append (s : Stream) (l l' : List Nat) :
    s.frames (l ++ l') = s.frames l ++ s.frames l' := List.filterMap_append

theorem frames_singleton (hc : s.call? i = some c) : s.frames [i] = [c.frame] := by
  rw [frames, List.filterMap_cons_some (by rw [hc]; rfl), List.filterMap_nil]

theorem mem_frames {f : RequestFrame} :
    f ∈ s.frames l ↔ ∃ i ∈ l, ∃ c, s.call? i = some c ∧ f = c.frame := by
  simp [frames, eq_comm]

/-- A call keeps its frame. -/
theorem Evolves.frames (h : s.Evolves t) (hl : ∀ i ∈ l, ∃ c, s.call? i = some c) :
    t.frames l = s.frames l := by
  refine List.filterMap_congr fun i hi ↦ ?_
  obtain ⟨c, hc⟩ := hl i hi
  obtain ⟨c', hc', hev⟩ := h i c hc
  rw [hc, hc', Option.map_some, Option.map_some, hev.frame]

/-- What is in the channel after a move is what the move left there and the frames that it sent. -/
theorem channel_step (hs : s.Consistent) (m : Move) :
    (s.step m).channel = s.kept m ++ (s.step m).frames (s.sent (s.step m)) := by
  obtain ⟨l, h⟩ := sends_step hs m
  rw [h.sent_eq]
  cases h with
  | nothing hchannel _ => rw [hchannel, frames, List.filterMap_nil, List.append_nil]
  | @frame i c hc _ hchannel _ _ =>
    obtain ⟨c', hc', hev⟩ := Evolves.step hs m i c hc
    rw [hchannel, frames_singleton hc', hev.frame]

theorem kept_eq_channel (htake : m ≠ .use .take) (hhangUp : m ≠ .use .hangUp) :
    s.kept m = s.channel := by
  unfold kept
  split
  · exact absurd rfl htake
  · exact absurd rfl hhangUp
  · rfl

theorem DistinctIds.of_nodup (h : (s.calls.map (·.id)).Nodup) : s.DistinctIds := by
  intro i j c d hc hd hid
  have hlt := (List.getElem?_eq_some_iff.mp hc).1
  refine (List.getElem?_inj (by rwa [List.length_map]) h).mp ?_
  rw [List.getElem?_map, List.getElem?_map, ← call?, ← call?, hc, hd, Option.map_some,
    Option.map_some, hid]

theorem sent_self (s : Stream) : s.sent s = [] := (Sends.of_stages rfl fun _ ↦ rfl).sent_eq

/-! ## The registration -/

theorem next_of_cancelled (h : s.cancelled = true) : s.next = (.ended, s) := by
  rw [next, if_pos h]

/-- Until the stream is torn down the node takes what is in the channel. -/
theorem next_of_open (h : s.cancelled = false) : s.next.2 = s.take.2 := by
  rw [next, h, if_neg Bool.noConfusion]
  cases s.take with
  | mk f t => cases f <;> rfl

end Stream

/-- A stream whose node receives through a registration, with what came of its frames. -/
structure Outlet where
  shutdown : Shutdown
  /-- The calls that offered their frames, first to last. -/
  asked : List Nat := []
  /-- The calls whose frames got a place in the channel, first to last. -/
  admitted : List Nat := []
  /-- The frames that the node received, first to last. -/
  received : List RequestFrame := []

namespace Outlet

variable {s : Shutdown} {o : Outlet} {mv : Shutdown.Move} {moves : List Shutdown.Move} {i : Nat}
  {c c' : Call}

/-! ## Moves -/

/-- A stream after a move, the frames being taken through the registration. -/
def through (s : Shutdown) : Shutdown.Move → Shutdown
  | .use .take => { s with stream := s.stream.next.2 }
  | mv => s.step mv

/-- What the node receives with a move. -/
def yields (s : Shutdown) : Shutdown.Move → List RequestFrame
  | .use .take =>
    match s.stream.next.1 with
    | .frame f => [f]
    | .empty | .ended => []
  | _ => []

abbrev stream (o : Outlet) : Stream := o.shutdown.stream

/-- The stream and the logs after a move. -/
def step (o : Outlet) (mv : Shutdown.Move) : Outlet :=
  let t := through o.shutdown mv
  { shutdown := t
    asked := o.asked ++ o.stream.offered t.stream
    admitted := o.admitted ++ o.stream.sent t.stream
    received := o.received ++ yields o.shutdown mv }

/-- The stream and the logs after a run. -/
def run (o : Outlet) (moves : List Shutdown.Move) : Outlet := moves.foldl step o

theorem run_append (o : Outlet) (l l' : List Shutdown.Move) :
    o.run (l ++ l') = (o.run l).run l' :=
  List.foldl_append

theorem run_concat (o : Outlet) (l : List Shutdown.Move) (mv : Shutdown.Move) :
    o.run (l ++ [mv]) = (o.run l).step mv := by
  rw [run_append]
  rfl

theorem through_of_ne (h : mv ≠ .use .take) : through s mv = s.step mv := by
  unfold through
  split
  · exact absurd rfl h
  · rfl

/-- Whatever the node's side does, it is a move of the stream or none. -/
theorem through_eq (s : Shutdown) (mv : Shutdown.Move) :
    through s mv = s ∨ through s mv = s.step mv := by
  by_cases htake : mv = .use .take
  · subst htake
    change (⟨s.stream.next.2, s.phase⟩ : Shutdown) = s ∨
      (⟨s.stream.next.2, s.phase⟩ : Shutdown) = ⟨s.stream.take.2, s.phase⟩
    cases hcancelled : s.stream.cancelled with
    | true =>
      rw [Stream.next_of_cancelled hcancelled]
      exact Or.inl rfl
    | false =>
      rw [Stream.next_of_open hcancelled]
      exact Or.inr rfl
  · exact Or.inr (through_of_ne htake)

theorem sound_through (h : s.Sound) (mv : Shutdown.Move) : (through s mv).Sound := by
  rcases through_eq s mv with heq | heq <;> rw [heq]
  · exact h
  · exact h.step mv

theorem phase_through (h : s.Sound) (hdone : s.phase = .done) (mv : Shutdown.Move) :
    (through s mv).phase = .done := by
  rcases through_eq s mv with heq | heq <;> rw [heq]
  · exact hdone
  · exact Shutdown.done_run hdone h [mv]

/-- What holds of a stream before and after each of its moves holds here. -/
theorem stream_through {P : Stream → Prop} (h : P s.stream)
    (hstep : ∀ m, s.moveOf mv = some m → P (s.stream.step m)) : P (through s mv).stream := by
  rcases through_eq s mv with heq | heq <;> rw [heq]
  · exact h
  · exact Shutdown.stream_step h hstep

theorem evolves_through (h : s.Sound) (mv : Shutdown.Move) :
    s.stream.Evolves (through s mv).stream :=
  stream_through (.refl _) fun m _ ↦ .step h.consistent m

/-! ## Frames on their way -/

theorem yields_of_ne (h : mv ≠ .use .take) : yields s mv = [] := by
  unfold yields
  split
  · exact absurd rfl h
  · rfl

theorem yields_of_cancelled (h : s.stream.cancelled = true) : yields s mv = [] := by
  unfold yields
  split
  · rw [Stream.next_of_cancelled h]
  · rfl

/-- The node receives what it takes out of the channel. -/
theorem yields_take (h : s.stream.cancelled = false) :
    yields s (.use .take) ++ s.stream.channel.tail = s.stream.channel := by
  unfold yields
  rw [Stream.next, h, if_neg Bool.noConfusion, Stream.take]
  cases s.stream.channel <;> rfl

/-- The node receives nothing from an empty channel. -/
theorem yields_of_empty (h : s.stream.channel = []) : yields s mv = [] := by
  by_cases htake : mv = .use .take
  · subst htake
    cases hcancelled : s.stream.cancelled with
    | true => exact yields_of_cancelled hcancelled
    | false =>
      have hall := yields_take hcancelled
      rw [h] at hall
      exact (List.append_eq_nil_iff.mp hall).1
  · exact yields_of_ne htake

/-- **No frame is lost**: what a move sends is behind what was in the channel before, and what the
node receives comes from its front. -/
theorem channel_through (h : s.Sound) (hhangUp : mv ≠ .use .hangUp) :
    yields s mv ++ (through s mv).stream.channel = s.stream.channel ++
      (through s mv).stream.frames (s.stream.sent (through s mv).stream) := by
  by_cases htake : mv = .use .take
  · subst htake
    set t := s.stream.next.2 with ht
    change yields s (.use .take) ++ t.channel = s.stream.channel ++ t.frames (s.stream.sent t)
    cases hcancelled : s.stream.cancelled with
    | true =>
      rw [ht, yields_of_cancelled hcancelled, Stream.next_of_cancelled hcancelled,
        Stream.sent_self]
      exact (List.append_nil _).symm
    | false =>
      rw [ht, Stream.next_of_open hcancelled]
      have hchannel := Stream.channel_step h.consistent (.use .take)
      change s.stream.take.2.channel = s.stream.channel.tail ++ _ at hchannel
      rw [hchannel, ← List.append_assoc, yields_take hcancelled]
      rfl
  · rw [yields_of_ne htake, List.nil_append]
    refine stream_through (P := fun t ↦ t.channel = s.stream.channel ++ t.frames (s.stream.sent t))
      ?_ fun m hm ↦ ?_
    · rw [Stream.sent_self]
      exact (List.append_nil _).symm
    · rw [Stream.channel_step h.consistent m, Stream.kept_eq_channel]
      · rintro rfl
        exact htake (Shutdown.eq_use_of_moveOf hm)
      · rintro rfl
        exact hhangUp (Shutdown.eq_use_of_moveOf hm)

/-! ## What every move keeps -/

/-- The logs agree with each other and with the stream. -/
structure Sound (o : Outlet) : Prop where
  shutdown : o.shutdown.Sound
  packed : o.stream.Packed
  once : o.asked.Nodup
  /-- A call that offered its frame got a place, queues for one or has failed. -/
  past : ∀ i ∈ o.asked, ∃ c, o.stream.call? i = some c ∧ c.stage.isAhead = false ∧
    (i ∈ o.admitted ∨ c.stage = .queued ∨ c.stage.isLost = true)
  served : (o.admitted ++ o.stream.senders).Sublist o.asked
  /-- The frames of the calls that got a place are with the node or in the channel, unless the
  channel was dropped. -/
  flow : o.received ++ o.stream.channel = o.stream.frames o.admitted ∨
    o.received <+: o.stream.frames o.admitted ∧ o.stream.IsDropped

namespace Sound

theorem of_new (node : NodeId) (capacity : Nat) :
    Sound { shutdown := ⟨{ node, capacity }, .idle⟩ } where
  shutdown := .of_new node capacity
  packed := ⟨Nat.zero_le _, fun _ hwaiting ↦ absurd rfl hwaiting⟩
  once := List.nodup_nil
  past := nofun
  served := .refl _
  flow := Or.inl rfl

/-- Whoever got a place has made a call. -/
theorem called (h : o.Sound) (hi : i ∈ o.admitted) : ∃ c, o.stream.call? i = some c := by
  obtain ⟨c, hc, -⟩ := h.past i (h.served.subset (List.mem_append_left _ hi))
  exact ⟨c, hc⟩

theorem nodup_admitted (h : o.Sound) : o.admitted.Nodup :=
  (h.once.sublist h.served).of_append_left

theorem past_step (h : o.Sound) (mv : Shutdown.Move) :
    ∀ i ∈ (o.step mv).asked, ∃ c, (o.step mv).stream.call? i = some c ∧
      c.stage.isAhead = false ∧
      (i ∈ (o.step mv).admitted ∨ c.stage = .queued ∨ c.stage.isLost = true) := by
  intro i hi
  set t := (through o.shutdown mv).stream
  have hsent : ∀ {c c'}, o.stream.call? i = some c → c.stage ≠ .awaiting →
      t.call? i = some c' → c'.stage = .awaiting → i ∈ (o.step mv).admitted := by
    intro c c' hc hbefore hc' hafter
    refine List.mem_append_right _ (Stream.mem_sent.mpr ⟨?_, ?_⟩)
    · exact (Stream.awaits_of_call hc').mpr hafter
    · rw [Bool.eq_false_iff, ne_eq, Stream.awaits_of_call hc]
      exact hbefore
  rcases List.mem_append.mp hi with hold | hnew
  · obtain ⟨c, hc, hpast, hplace⟩ := h.past i hold
    obtain ⟨c', hc', hev⟩ := evolves_through h.shutdown mv i c hc
    have hpasses : c.stage.Passes c'.stage :=
      stream_through (P := o.stream.Passing) (.refl _)
        (fun m _ ↦ Stream.passing_step h.shutdown.consistent m) i c c' hc hc'
    refine ⟨c', hc', hpasses.past hpast, ?_⟩
    rcases hplace with hadmitted | hqueued | hlost
    · exact Or.inl (List.mem_append_left _ hadmitted)
    · rcases hpasses.queued hqueued with hstays | hserved | hlost
      · exact Or.inr (Or.inl hstays)
      · exact Or.inl (hsent hc (by rw [hqueued]; exact CallStage.noConfusion) hc' hserved)
      · exact Or.inr (Or.inr hlost)
    · exact Or.inr (Or.inr (hev.stage.lost hlost))
  · obtain ⟨hbefore, hafter⟩ := Stream.mem_offered.mp hnew
    obtain ⟨c, hc, hoffering⟩ := Stream.exists_of_isAt hbefore
    obtain ⟨c', hc', hplaced⟩ := Stream.exists_of_isAt hafter
    have hstage : c.stage ≠ .awaiting := by
      intro hstage
      rw [hstage] at hoffering
      cases hoffering
    cases hstage' : c'.stage with
    | queued => exact ⟨c', hc', by rw [hstage']; rfl, Or.inr (Or.inl hstage')⟩
    | awaiting => exact ⟨c', hc', by rw [hstage']; rfl, Or.inl (hsent hc hstage hc' hstage')⟩
    | _ =>
      rw [hstage'] at hplaced
      cases hplaced

/-- A call that offers its frame has not offered it before. -/
theorem once_step (h : o.Sound) (mv : Shutdown.Move) : (o.step mv).asked.Nodup := by
  refine List.nodup_append.mpr ⟨h.once, Stream.nodup_offered _ _, ?_⟩
  rintro i hi _ hnew rfl
  obtain ⟨c, hc, hpast, -⟩ := h.past i hi
  obtain ⟨hbefore, -⟩ := Stream.mem_offered.mp hnew
  rw [Stream.isAt_of_call hc] at hbefore
  revert hpast hbefore
  cases c.stage <;> simp [CallStage.isAhead, CallStage.isOffering]

theorem served_step (h : o.Sound) (mv : Shutdown.Move) :
    ((o.step mv).admitted ++ (o.step mv).stream.senders).Sublist (o.step mv).asked := by
  set t := (through o.shutdown mv).stream
  have hserves : (o.stream.sent t ++ t.senders).Sublist (o.stream.senders ++ o.stream.offered t) :=
    stream_through (P := o.stream.Serves) (.refl _)
      fun m _ ↦ Stream.serves_step h.shutdown.consistent m
  change ((o.admitted ++ o.stream.sent t) ++ t.senders).Sublist (o.asked ++ o.stream.offered t)
  rw [List.append_assoc]
  refine (hserves.append_left o.admitted).trans ?_
  rw [← List.append_assoc]
  exact h.served.append_right _

theorem flow_step (h : o.Sound) (mv : Shutdown.Move) :
    (o.step mv).received ++ (o.step mv).stream.channel =
      (o.step mv).stream.frames (o.step mv).admitted ∨
    (o.step mv).received <+: (o.step mv).stream.frames (o.step mv).admitted ∧
      (o.step mv).stream.IsDropped := by
  set t := (through o.shutdown mv).stream
  have hframes : t.frames (o.admitted ++ o.stream.sent t) =
      o.stream.frames o.admitted ++ t.frames (o.stream.sent t) := by
    rw [Stream.frames_append, (evolves_through h.shutdown mv).frames fun _ ↦ h.called]
  change (o.received ++ yields o.shutdown mv) ++ t.channel = t.frames (o.admitted ++ _) ∨
    (o.received ++ yields o.shutdown mv) <+: t.frames (o.admitted ++ _) ∧ t.IsDropped
  rw [hframes]
  by_cases hhangUp : mv = .use .hangUp
  · subst hhangUp
    refine Or.inr ⟨?_, rfl, rfl⟩
    have hnothing : yields o.shutdown (.use .hangUp) = [] := rfl
    rw [hnothing, List.append_nil]
    rcases h.flow with hflow | ⟨hflow, -⟩
    · rw [← hflow, List.append_assoc]
      exact List.prefix_append _ _
    · exact hflow.trans (List.prefix_append _ _)
  · rcases h.flow with hflow | ⟨hflow, hdropped⟩
    · left
      rw [List.append_assoc, channel_through h.shutdown hhangUp, ← List.append_assoc, hflow]
    · right
      refine ⟨?_, stream_through hdropped fun m _ ↦ hdropped.step m⟩
      rw [yields_of_empty hdropped.channel, List.append_nil]
      exact hflow.trans (List.prefix_append _ _)

/-- **Every move keeps the logs sound.** -/
theorem step (h : o.Sound) (mv : Shutdown.Move) : (o.step mv).Sound where
  shutdown := sound_through h.shutdown mv
  packed := stream_through h.packed fun m _ ↦ h.packed.step h.shutdown.consistent m
  once := h.once_step mv
  past := h.past_step mv
  served := h.served_step mv
  flow := h.flow_step mv

theorem run (h : o.Sound) (moves : List Shutdown.Move) : (o.run moves).Sound := by
  induction moves using List.reverseRecOn with
  | nil => exact h
  | append_singleton moves mv ih =>
    rw [run_concat]
    exact ih.step mv

end Sound

/-! ## Runs -/

theorem evolves_run (h : o.Sound) (moves : List Shutdown.Move) :
    o.stream.Evolves (o.run moves).stream := by
  induction moves using List.reverseRecOn with
  | nil => exact .refl _
  | append_singleton moves mv ih =>
    rw [run_concat]
    exact ih.trans (evolves_through (h.run moves).shutdown mv)

/-- **A call that failed before it got a place never gets one.** -/
theorem notMem_admitted_run (h : o.Sound) (hc : o.stream.call? i = some c)
    (hlost : c.stage.isLost = true) (hi : i ∉ o.admitted) (moves : List Shutdown.Move) :
    i ∉ (o.run moves).admitted := by
  induction moves using List.reverseRecOn with
  | nil => exact hi
  | append_singleton moves mv ih =>
    rw [run_concat]
    refine fun hmem ↦ (List.mem_append.mp hmem).elim ih fun hsent ↦ ?_
    obtain ⟨hafter, -⟩ := Stream.mem_sent.mp hsent
    obtain ⟨c', hc', hawaiting⟩ := Stream.exists_of_awaits hafter
    obtain ⟨d, hd, hev⟩ := evolves_run h (moves ++ [mv]) i c hc
    rw [run_concat] at hd
    change (through _ mv).stream.call? i = some d at hd
    rw [hc', Option.some.injEq] at hd
    have hstill := hev.stage.lost hlost
    rw [← hd, hawaiting] at hstill
    cases hstill

/-- **The node receives nothing any more once the stream is closed.** -/
theorem received_run (h : o.Sound) (hdone : o.shutdown.phase = .done)
    (moves : List Shutdown.Move) :
    (o.run moves).shutdown.phase = .done ∧ (o.run moves).received = o.received := by
  induction moves using List.reverseRecOn with
  | nil => exact ⟨hdone, rfl⟩
  | append_singleton moves mv ih =>
    obtain ⟨hphase, hreceived⟩ := ih
    have hsound := (h.run moves).shutdown
    rw [run_concat]
    refine ⟨phase_through hsound hphase mv, ?_⟩
    change (o.run moves).received ++ yields _ mv = o.received
    rw [yields_of_cancelled (hsound.cancelled.mpr hphase), List.append_nil, hreceived]

/-! ## What the node receives -/

/-- The frames that the node received are those of the calls that got a place, in the order in which
the calls came. -/
structure Deals (o : Outlet) : Prop where
  /-- A call offers its frame once, -/
  once : o.asked.Nodup
  /-- and places are given in the order in which the calls came: who got one and who queues, in this
  order, are those who came, in the order of their coming, -/
  served : (o.admitted ++ o.stream.senders).Sublist o.asked
  /-- but for those who failed while they queued. -/
  passedOver : ∀ i ∈ o.asked, i ∉ o.admitted → i ∉ o.stream.senders →
    ∃ c, o.stream.call? i = some c ∧ c.stage.isLost = true
  /-- The channel holds no more than it can, and nobody queues unless it is full. -/
  packed : o.stream.Packed
  /-- The frames that the node received are those of the calls that got a place, in this order, -/
  order : o.received <+: o.stream.frames o.admitted
  /-- and the others are in the channel, as long as the node is there to receive. -/
  whole : o.stream.receiving = true →
    o.received ++ o.stream.channel = o.stream.frames o.admitted
  /-- Each has the identifier of its call, which is not empty, and its request, -/
  own : ∀ f ∈ o.received, ∃ i ∈ o.admitted, ∃ c, o.stream.call? i = some c ∧
    f = ⟨c.id, some c.request⟩ ∧ f.id ≠ ""
  /-- and no two are of the same call. -/
  single : o.admitted.Nodup ∧ (o.received.map (·.id)).Nodup

namespace Sound

theorem order (h : o.Sound) : o.received <+: o.stream.frames o.admitted := by
  rcases h.flow with hflow | ⟨hflow, -⟩
  · rw [← hflow]
    exact List.prefix_append _ _
  · exact hflow

/-- What the node received are frames of calls that got a place. -/
theorem exists_of_received (h : o.Sound) {f : RequestFrame} (hf : f ∈ o.received) :
    ∃ i ∈ o.admitted, ∃ c, o.stream.call? i = some c ∧ f = c.frame :=
  Stream.mem_frames.mp (h.order.subset hf)

/-- Distinct calls have frames with distinct identifiers. -/
theorem nodup_ids (h : o.Sound) (hids : o.stream.DistinctIds) :
    (o.received.map (·.id)).Nodup := by
  refine .sublist (h.order.sublist.map _) ?_
  rw [Stream.frames, List.map_filterMap]
  refine h.nodup_admitted.filterMap fun i j id hi hj ↦ ?_
  simp only [Option.mem_def, Option.map_map, Option.map_eq_some_iff] at hi hj
  obtain ⟨c, hc, rfl⟩ := hi
  obtain ⟨d, hd, hid⟩ := hj
  exact hids i j c d hc hd hid.symm

theorem deals (h : o.Sound) (hids : o.stream.DistinctIds)
    (hgenerated : ∀ i c, o.stream.call? i = some c → c.id ≠ "") : o.Deals where
  once := h.once
  served := h.served
  passedOver i hi hplace hqueue := by
    obtain ⟨c, hc, -, hadmitted | hqueued | hlost⟩ := h.past i hi
    · exact absurd hadmitted hplace
    · exact absurd ((h.shutdown.consistent.queue i).mpr ⟨c, hc, hqueued⟩) hqueue
    · exact ⟨c, hc, hlost⟩
  packed := h.packed
  order := h.order
  whole hreceives := by
    rcases h.flow with hflow | ⟨-, hdropped⟩
    · exact hflow
    · rw [hdropped.receiving] at hreceives
      cases hreceives
  own f hf := by
    obtain ⟨i, hi, c, hc, rfl⟩ := h.exists_of_received hf
    exact ⟨i, hi, c, hc, rfl, hgenerated i c hc⟩
  single := ⟨h.nodup_admitted, h.nodup_ids hids⟩

end Sound

/-- What a node receives over a run. -/
structure Orderly (start : Outlet) (moves : List Shutdown.Move) : Prop where
  deals : (start.run moves).Deals
  /-- A call that failed, or whose caller went away, before it got a place gets none, and its frame
  is never received. -/
  unsent : ∀ before later i c, moves = before ++ later →
    (start.run before).stream.call? i = some c → c.stage.isLost = true →
    i ∉ (start.run before).admitted →
    i ∉ (start.run moves).admitted ∧ ∀ f ∈ (start.run moves).received, f.id ≠ c.id
  /-- Once the stream is closed the node's side has ended, and nothing is received any more. -/
  ended : ∀ before later, moves = before ++ later → (start.run before).shutdown.phase = .done →
    (start.run moves).stream.next = (.ended, (start.run moves).stream) ∧
      (start.run moves).received = (start.run before).received

/-- **The node receives the frames of its calls in the order in which they got a place**, one each,
none of a call that failed first, and none once the stream is closed. -/
theorem orderly_run (node : NodeId) (capacity : Nat) (moves : List Shutdown.Move)
    (hids : (run { shutdown := ⟨{ node, capacity }, .idle⟩ } moves).stream.DistinctIds)
    (hgenerated : ∀ i c, (run { shutdown := ⟨{ node, capacity }, .idle⟩ } moves).stream.call? i =
      some c → c.id ≠ "") :
    Orderly { shutdown := ⟨{ node, capacity }, .idle⟩ } moves := by
  set start : Outlet := { shutdown := ⟨{ node, capacity }, .idle⟩ }
  have hstart : start.Sound := .of_new node capacity
  have h := hstart.run moves
  refine ⟨h.deals hids hgenerated, fun before later i c hmoves hc hlost hi ↦ ?_,
    fun before later hmoves hdone ↦ ?_⟩
  · subst hmoves
    have hbefore := hstart.run before
    have hnever := notMem_admitted_run hbefore hc hlost hi later
    obtain ⟨c', hc', hev⟩ := evolves_run hbefore later i c hc
    rw [← run_append] at hnever hc'
    refine ⟨hnever, fun f hf hid ↦ ?_⟩
    obtain ⟨j, hj, d, hd, rfl⟩ := h.exists_of_received hf
    have hsame : i = j := hids i j c' d hc' hd (hev.id.trans hid.symm)
    exact hnever (hsame ▸ hj)
  · subst hmoves
    obtain ⟨hphase, hreceived⟩ := received_run (hstart.run before) hdone later
    rw [← run_append] at hphase hreceived
    exact ⟨Stream.next_of_cancelled (h.shutdown.cancelled.mpr hphase), hreceived⟩

/-- Three calls come to a channel with one place. The second one's time is up while it queues, the
node receives the frame of the first one, and the stream is closed with the frame of the third one
in the channel. -/
def crowded : List Shutdown.Move :=
  .use (.open "a" (.pauseNode "node") (.ofSeconds 60)) ::
  .use (.open "b" (.resumeNode "node") (.ofSeconds 1)) ::
  .use (.open "c" (.certTypes "node") (.ofSeconds 60)) ::
  (List.replicate 4 (.use (.advance 0 0)) ++ List.replicate 4 (.use (.advance 1 0)) ++
    List.replicate 4 (.use (.advance 2 0)) ++
    [.use (.expire 1 (Duration.ofSeconds 1).nanos), .use .take, .close, .goOn, .goOn, .use .take])

/-- The node has the frame of the first call and no other: the second call got no place, and the
third one's frame was in the channel when the stream was closed. -/
theorem orderly_crowded :
    let o := run { shutdown := ⟨{ node := "node", capacity := 1 }, .idle⟩ } crowded
    o.stream.DistinctIds ∧ (∀ i c, o.stream.call? i = some c → c.id ≠ "") ∧
      Orderly { shutdown := ⟨{ node := "node", capacity := 1 }, .idle⟩ } crowded ∧
      o.asked = [0, 1, 2] ∧ o.admitted = [0, 2] ∧
      o.received = [⟨"a", some (.pauseNode "node")⟩] ∧
      o.stream.channel = [⟨"c", some (.certTypes "node")⟩] := by
  intro o
  have hcalls : o.stream.calls.map (·.id) = ["a", "b", "c"] := rfl
  have hids : o.stream.DistinctIds := .of_nodup (by rw [hcalls]; decide)
  have hgenerated : ∀ i c, o.stream.call? i = some c → c.id ≠ "" := by
    rintro i c hc hempty
    have hmem := List.mem_map_of_mem (f := (·.id)) (List.mem_of_getElem? hc)
    rw [hcalls, hempty] at hmem
    revert hmem
    decide
  exact ⟨hids, hgenerated, orderly_run "node" 1 crowded hids hgenerated, rfl, rfl, rfl, rfl⟩

end Outlet

end NodeAgent
