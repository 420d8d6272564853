import NodeAgent.Proofs.Registry.Gate
import NodeAgent.Proofs.Registry.Reading
import NodeAgent.Proofs.Stream.Answered

/-!
# What a node says and what is heard of it

A node says one frame after another over a registration. Some of them were read, some arrived and
are yet to be read, and some are still on their way up (`Heard`). A node that is `Forthright` opens
with an info that its listener accepts, speaks of itself only, and reports nothing any more once it
has reported a status that the listener does not accept.

Such a node is not refused for its status, and the registry does not link it any more from the
report on that takes it off the listener: whoever is linked has that report ahead still.

## Main statements

* `Heard.step`: whatever a move reads, it reads in the order in which the node said it.
* `hasAnswer_read`: a call that waits is given the response that is read next.
-/

namespace NodeAgent

namespace Registry

variable {r : Registry} {mv : Move} {node : NodeId} {k : Nat} {g : Registration}
  {allowed : List NodeStatus} {said up up' read : List NodeFrame}

/-! ## Refusals -/

/-- A registration is refused when it is decided on, or it was refused before. -/
theorem result?_error_step {e : StreamError} (hg : r.registration? k = some g)
    (h : (r.step mv).result? k = some (.error e)) :
    r.result? k = some (.error e) ∨
      ∃ deadline now, g.admission = .waiting deadline ∧ mv = .review k now := by
  obtain ⟨g', hg', heff⟩ := effect_step r mv hg
  have hbefore : r.result? k = g.result? := by rw [result?, hg, Option.bind_some]
  rw [result?, hg', Option.bind_some] at h
  rw [hbefore]
  have hmap : ∀ f, (g.mapStream f).result? = g.result? := by
    intro f
    cases hadmission : g.admission <;> simp [Registration.mapStream, Registration.result?,
      hadmission]
  cases heff with
  | none => exact Or.inl h
  | close _ => exact Or.inl ((hmap _).symm.trans h)
  | refuse _ hmv hwaiting => exact Or.inr ⟨_, _, hwaiting, hmv⟩
  | accept _ _ _ => cases h
  | take _ _ _ _ => exact Or.inl h
  | deliver _ _ _ _ => cases h
  | stop _ _ _ _ => cases h
  | receive _ _ _ => exact Or.inl h
  | endInbound _ => exact Or.inl h
  | use _ => exact Or.inl ((hmap _).symm.trans h)

/-! ## What a node says -/

/-- A node opens with a status that is accepted, reports about itself only, and reports nothing any
more after a status that is not accepted. -/
structure Forthright (said : List NodeFrame) (node : NodeId) (allowed : List NodeStatus) :
    Prop where
  first : ∃ info rest, said = ⟨"", some (.info info)⟩ :: rest ∧ info.status ∈ allowed
  own : ∀ x ∈ said, ∀ info, x.message = some (.info info) → info.nodeId = node
  last : ∀ before x after info, said = before ++ x :: after → x.message = some (.info info) →
    info.status ∉ allowed → ∀ y ∈ after, ∀ info', y.message ≠ some (.info info')

/-- What was read of what a node said over a registration, and where the rest is. -/
structure Heard (r : Registry) (node : NodeId) (k : Nat) (g : Registration)
    (said up read : List NodeFrame) : Prop where
  registration : r.registration? k = some g
  soFar : read <+: said
  rest : g.isReading = true → said = read ++ (g.unread ++ up)
  waiting : ∀ deadline, g.admission = .waiting deadline → read = []
  admitted : ∀ node status, r.result? k ≠ some (.error (.notAllowed node status))
  own : ∀ s, r.stream? k = some s → s.node = node
  /-- Calls are given only what was read. -/
  filled : ∀ i c m, r.call? (k, i) = some c → c.slot = .filled m →
    ⟨c.id, some m⟩ ∈ read ∧ ∃ response, m = .response response
  /-- Whoever is linked was heard to report accepted statuses only. -/
  linked : r.find? node = some k → ∀ x ∈ read, ∀ info, x.message = some (.info info) →
    info.status ∈ g.allowed

namespace Heard

/-- Nothing of a registration that begins was read. -/
theorem of_arrive (r : Registry) (allowed : List NodeStatus) (now : Instant) (node : NodeId)
    (said : List NodeFrame) : ∃ g, (r.step (.arrive allowed [] false now)).Heard node
      r.registrations.length g said said [] := by
  let g : Registration :=
    { allowed, admission :=
      if r.closed then .refused .handlerClosed else .waiting (now + r.firstFrameTimeout.nanos) }
  have hg : (r.step (.arrive allowed [] false now)).registration? r.registrations.length = some g :=
    List.getElem?_concat_length
  have hstream : (r.step (.arrive allowed [] false now)).stream? r.registrations.length = none := by
    rw [stream?, hg]
    cases hclosed : r.closed <;> simp [g, Registration.stream?, hclosed]
  refine ⟨g, hg, List.nil_prefix, fun _ ↦ rfl, fun _ _ ↦ rfl, fun node' status ↦ ?_,
    fun s hs ↦ ?_, fun i c m hc ↦ ?_, fun _ _ hx ↦ ?_⟩
  · rw [result?, hg]
    cases hclosed : r.closed <;> simp [g, Registration.result?, hclosed]
  · cases hstream.symm.trans hs
  · rw [call?, hstream] at hc
    cases hc
  · cases hx

/-- The node says more. -/
theorem say (h : r.Heard node k g said up read) (more : List NodeFrame) :
    r.Heard node k g (said ++ more) (up ++ more) read where
  registration := h.registration
  soFar := h.soFar.trans (List.prefix_append _ _)
  rest hreading := by rw [h.rest hreading]; simp
  waiting := h.waiting
  admitted := h.admitted
  own := h.own
  filled := h.filled
  linked := h.linked

/-- What is heard now was not read before. -/
theorem exists_ahead_of_intake (h : r.Heard node k g said up read) {info : NodeInfo}
    (hin : (k, info) ∈ r.intake mv) :
    ∃ x ∈ g.unread, x.message = some (.info info) ∧ said = read ++ (g.unread ++ up) := by
  obtain ⟨g₁, x, hg₁, hreading, hx, hinfo⟩ := exists_unread_of_intake hin
  obtain rfl := Option.some.inj (h.registration.symm.trans hg₁)
  exact ⟨x, hx, hinfo, h.rest hreading⟩

/-- After a move as well, whoever is linked was heard to report accepted statuses only. -/
theorem linked_step {g' : Registration} {taken : List NodeFrame}
    {reports : List (Nat × NodeInfo)} (h : r.Heard node k g said up read) (hr : r.Sound reports)
    (hsaid : Forthright said node g.allowed) (hreads : Reads r mv k g g' taken)
    (hsub : read ++ taken <+: said) (hlinked : (r.step mv).find? node = some k) :
    ∀ x ∈ read ++ taken, ∀ info, x.message = some (.info info) → info.status ∈ g.allowed := by
  intro x hx info hinfo
  rcases List.mem_append.mp hx with hold | hnew
  · rcases Registry.linked_step hlinked with hbefore | hmade
    · exact h.linked hbefore x hold info hinfo
    · -- the entry was made on a report that came after this one
      obtain ⟨_, _, info', -, -, -, -, hintake, -, -⟩ := hmade.entry
      obtain ⟨y, hy, hinfo', hsplit⟩ :=
        h.exists_ahead_of_intake (by rw [hintake]; exact List.mem_cons_self)
      by_contra hbad
      obtain ⟨before, after, rfl⟩ := List.append_of_mem hold
      rw [List.append_assoc, List.cons_append] at hsplit
      refine hsaid.last _ _ _ info hsplit hinfo hbad y ?_ info' hinfo'
      exact List.mem_append_right _ (List.mem_append_left _ hy)
  · exact mem_allowed_of_linked hr h.registration hlinked (hreads.heard x hnew info hinfo)
      (hsaid.own x (hsub.subset hx) info hinfo)

/-- Nobody who is accepted is refused for the status. -/
theorem admitted_step (h : r.Heard node k g said up read) (hsaid : Forthright said node g.allowed)
    (node' : NodeId) (status : NodeStatus) :
    (r.step mv).result? k ≠ some (.error (.notAllowed node' status)) := by
  intro hrefused
  rcases result?_error_step h.registration hrefused with hbefore | ⟨deadline, now, hwaiting, rfl⟩
  · exact h.admitted node' status hbefore
  · obtain ⟨id, info, rest, harrived, hbad⟩ :=
      exists_info_of_review h.registration hwaiting hrefused
    have hsplit := h.rest (by rw [Registration.isReading, hwaiting])
    have hunread : g.unread = [⟨id, some (.info info)⟩] ++ rest.filterMap Arrival.frame? :=
      unread_of_arrived harrived
    rw [h.waiting deadline hwaiting, hunread] at hsplit
    obtain ⟨opening, later, hopening, hgood⟩ := hsaid.first
    have hsame := List.cons.inj (hopening.symm.trans hsplit)
    obtain ⟨-, rfl⟩ : id = "" ∧ opening = info := by simpa [eq_comm] using hsame.1
    exact hbad hgood

/-- The stream is the node's. -/
theorem own_step (h : r.Heard node k g said up read) (hsaid : Forthright said node g.allowed)
    {s' : Stream} (hs' : (r.step mv).stream? k = some s') : s'.node = node := by
  cases hs : r.stream? k with
  | none =>
    obtain ⟨g₁, deadline, now, id, info, rest, rfl, hg₁, hwaiting, harrived, rfl⟩ :=
      accepts_of_stream_new hs hs'
    obtain rfl := Option.some.inj (h.registration.symm.trans hg₁)
    have hsplit := h.rest (by rw [Registration.isReading, hwaiting])
    have hunread : g.unread = [⟨id, some (.info info)⟩] ++ rest.filterMap Arrival.frame? :=
      unread_of_arrived harrived
    refine hsaid.own ⟨id, some (.info info)⟩ ?_ info rfl
    rw [hsplit, hunread]
    simp
  | some s =>
    obtain ⟨l, hl⟩ := stream?_step hs mv
    rw [hs', Option.some.injEq] at hl
    rw [hl, Stream.node_run]
    exact h.own s hs

/-- **Whatever a move reads** is what the node said next. -/
theorem step {reports : List (Nat × NodeInfo)} (h : r.Heard node k g said up read)
    (hconsistent : r.Consistent) (hr : r.Sound reports) (hsaid : Forthright said node g.allowed)
    (hup : up = mv.brought k ++ up') :
    ∃ g' taken, (r.step mv).Heard node k g' said up' (read ++ taken) ∧
      ∀ x ∈ taken, ∀ info, x.message = some (.info info) → (k, info) ∈ r.intake mv := by
  obtain ⟨g', taken, hg', hreads⟩ := reads_step hconsistent h.registration mv
  obtain ⟨rest, horder, hrest⟩ := hreads.order
  have hsplit : g.isReading = true → said = read ++ taken ++ (rest ++ up') := by
    intro hreading
    have hahead : g.unread ++ up = taken ++ rest ++ up' := by
      rw [hup, ← List.append_assoc, horder]
    rw [h.rest hreading, hahead]
    simp
  have hsub : read ++ taken <+: said := by
    by_cases hreading : g.isReading = true
    · exact ⟨_, (hsplit hreading).symm⟩
    · rw [hreads.idle (Bool.eq_false_iff.mpr hreading), List.append_nil]
      exact h.soFar
  refine ⟨g', taken, ?_, hreads.heard⟩
  exact {
    registration := hg'
    soFar := hsub
    rest := fun hreading ↦ by
      rw [hsplit (hreads.reading hreading), hrest hreading]
    waiting := fun deadline hwaiting ↦ by
      obtain ⟨hbefore, rfl⟩ := hreads.waiting deadline hwaiting
      rw [h.waiting deadline hbefore]
      rfl
    admitted := h.admitted_step hsaid
    own := fun _ ↦ h.own_step hsaid
    filled := fun i c m hc hm ↦ by
      constructor
      · rcases hreads.filled i c m hc hm with ⟨d, hd, hdm, hid⟩ | htaken
        · exact hid ▸ List.mem_append_left _ (h.filled i d m hd hdm).1
        · exact List.mem_append_right _ htaken
      · rcases Registry.slot_step hconsistent hc hm with ⟨d, hd, hdm, -⟩ | ⟨response, _, rfl, -⟩
        · exact (h.filled i d m hd hdm).2
        · exact ⟨response, rfl⟩
    linked := fun hlinked ↦ by
      rw [allowed_step h.registration hg']
      exact h.linked_step hr hsaid hreads hsub hlinked }

/-- What is read of a session ends before a report that is not accepted, as long as the session is
linked. -/
theorem read_of_linked {before after : List NodeFrame} {x : NodeFrame} {info : NodeInfo}
    (h : r.Heard node k g said up read)
    (hsaid : said = before ++ x :: after) (hinfo : x.message = some (.info info))
    (hbad : info.status ∉ g.allowed) (hlinked : r.find? node = some k) : read <+: before := by
  have hnot : x ∉ read := fun hx ↦ hbad (h.linked hlinked x hx info hinfo)
  have hwhole : before ++ [x] <+: said := ⟨after, by rw [hsaid]; simp⟩
  rcases List.prefix_or_prefix_of_prefix h.soFar hwhole with hread | hread
  · rcases List.prefix_concat_iff.mp hread with rfl | hread
    · exact absurd (by simp) hnot
    · exact hread
  · exact absurd (hread.subset (by simp)) hnot

end Heard

/-! ## Giving a call its response -/

variable {p : Nat × Nat} {i : Nat} {c : Call} {m : NodeMessage}

/-- A call that was given its response keeps it. -/
theorem hasAnswer_step (hr : r.Consistent) (hc : r.call? p = some c) (h : c.HasAnswer m)
    (mv : Move) :
    ∃ c', (r.step mv).call? p = some c' ∧ c'.HasAnswer m ∧ c'.request = c.request := by
  obtain ⟨s, hs, hcs⟩ := stream?_of_call? hc
  obtain ⟨l, hl⟩ := stream?_step hs mv
  obtain ⟨c', hc', hanswer⟩ := Stream.hasAnswer_run (hr _ s hs) hcs h l
  obtain ⟨c'', hc'', hev⟩ := evolves_step hr mv hc
  have hcall : (r.step mv).call? p = some c' := (call?_of_stream? hl _).trans hc'
  obtain rfl := Option.some.inj (hcall.symm.trans hc'')
  exact ⟨c', hcall, hanswer, hev.request⟩

/-- With its next operation it has returned it. -/
theorem advance_hasAnswer (hc : r.call? (k, i) = some c) (h : c.HasAnswer m) (now : Instant) :
    ∃ c', (r.step (.use k (.advance i now))).call? (k, i) = some c' ∧ c'.request = c.request ∧
      (c'.stage = .returned (.ok m) ∨ c'.stage = .abandoned) := by
  obtain ⟨s, hs, hcs⟩ := stream?_of_call? hc
  obtain ⟨c', hc', hreturned⟩ := Stream.advance_hasAnswer hcs h now
  have hs' : (r.step (.use k (.advance i now))).stream? k = some (s.advance i now) :=
    stream?_updateStream hs _
  exact ⟨c', (call?_of_stream? hs' i).trans hc', hreturned⟩

/-- **A call that waits is given the response that is read next.** -/
theorem hasAnswer_read {reports : List (Nat × NodeInfo)} {response : Response} {rest : List Arrival}
    (hr : r.Regular reports) (hg : r.registration? k = some g) (hreading : g.isReading = true)
    (hc : r.call? (k, i) = some c) (hstage : c.stage = .awaiting) (hempty : c.slot = .empty)
    (harrived : g.arrived = .frame ⟨c.id, some (.response response)⟩ :: rest) (late : Nat) :
    ∃ c', (r.step (.read k late)).call? (k, i) = some c' ∧ c'.HasAnswer (.response response) ∧
      c'.request = c.request := by
  obtain ⟨s, hs, hcs⟩ := stream?_of_call? hc
  obtain ⟨g₁, reading, hg₁, hadmission⟩ := registration?_of_stream? hs
  obtain rfl := Option.some.inj (hg.symm.trans hg₁)
  obtain rfl : reading = true := (isReading_of_admitted hadmission).symm.trans hreading
  -- nobody waits for an empty slot of a stream that was torn down
  have hwhole := hr.whole k s hs
  have hopen : s.cancelled = false := by
    rw [hwhole.cancelled, Bool.eq_false_iff]
    intro hclosed
    exact hwhole.settled hclosed i c hcs (by rw [hstage]; rfl) hempty
  have hread : r.step (.read k late) =
      (r.update k fun g ↦ { g with arrived := rest }).updateStream k fun s ↦
        (s.deliver c.id (.response response)).2 := by
    change r.readSome k late = _
    rw [readSome_of_open hg hadmission hopen]
    unfold readNext
    rw [harrived]
  have htaken : (r.update k fun g ↦ { g with arrived := rest }).stream? k = some s :=
    stream?_of_admitted (registration?_update_of_eq hg _) hadmission
  obtain ⟨c', hc', hanswer⟩ :=
    Stream.hasAnswer_deliver hwhole.consistent hcs hstage hempty (.response response)
  have hcall : (r.step (.read k late)).call? (k, i) = some c' := by
    rw [hread]
    exact (call?_of_stream? (stream?_updateStream htaken _) i).trans hc'
  obtain ⟨c'', hc'', hev⟩ := evolves_step (fun j t ht ↦ (hr.whole j t ht).consistent)
    (.read k late) hc
  obtain rfl := Option.some.inj (hcall.symm.trans hc'')
  exact ⟨c', hcall, hanswer, hev.request⟩

end Registry

end NodeAgent
