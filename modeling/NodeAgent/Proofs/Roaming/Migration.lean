import NodeAgent.Proofs.Roaming.Following

/-!
# Moving to the other listener

A request that gives a node a status of the other listener takes the node off the one it is on. The
node has to dial again, and requests for it must not go to the stream that it is about to leave. So
it reports the new status before it answers the request: the report unlinks it, and only then the
answer is read. Whoever asked is told when the stream is out of use already.

The report is refused as far as the listener is concerned, which is why it is the last one that the
node makes there. The node serves nothing after it, and the next session begins at the listener that
its new status calls for.

## Main statements

* `migration_run`: every session of every run goes that way.
-/

namespace NodeAgent

/-- A new call was made over the registration by which the node of its request was linked, and it is
one of a forwarded request. -/
theorem Agent.link_of_call_new {σ : Type} {a : Agent σ} {m : Agent.Move σ} {p : Nat × Nat}
    {c : Call} (hopen : ∀ g id r d, m ≠ .registry (.use g (.open id r d)))
    (hnone : a.registry.call? p = none) (hc : (a.step m).registry.call? p = some c) :
    a.registry.find? c.request.node = some p.1 ∧ ∃ f ∈ a.forwards, f.request = c.request := by
  have hstore : ∀ {b : Agent σ} {store}, b.registry = a.registry.step (.store store) →
      b.registry.call? p ≠ some c := by
    intro b store hb hc
    rw [hb] at hc
    obtain ⟨_, _, _, _, -, -, hmv, -⟩ := Registry.call?_new hnone hc
    cases hmv
  rcases a.effect_step m with ⟨new, haside, -⟩ | ⟨q, rfl, h⟩ | @⟨b, n, f, u, haside, -, -, h⟩ |
    @⟨n, g, f, hf, -, -, hg, h⟩
  · obtain ⟨store, hb⟩ := haside.exists_store
    exact absurd hc (hstore hb)
  · rw [h] at hc
    obtain ⟨_, _, _, _, -, -, rfl, -⟩ := Registry.call?_new hnone hc
    exact absurd rfl (hopen _ _ _ _)
  · obtain ⟨store, hb⟩ := haside.exists_store
    rw [h] at hc
    exact absurd hc (hstore hb)
  · -- the request was sent over the registration that was found
    have hopened : (a.step m).registry = a.registry.step
        (.use g (.open (a.names.requestId a.named) f.request (a.timeoutOf f.request))) := by
      rw [h]
      rfl
    rw [hopened] at hc
    obtain ⟨_, _, _, _, -, -, hmv, -, hrequest⟩ := Registry.call?_new hnone hc
    obtain ⟨rfl, huse⟩ := Registry.Move.use.inj hmv
    obtain ⟨-, rfl, -⟩ := Stream.Use.open.inj huse
    rw [hrequest]
    exact ⟨hg, f, List.mem_of_getElem? hf, rfl⟩

namespace Roaming

variable {σ τ : Type} {s s' : Roaming σ τ} {node : NodeId} {status : τ → NodeStatus}
  {sound : τ → Prop} {reports : List (Nat × NodeInfo)} {k i : Nat} {l : Listener}

/-! ## What goes on from one moment to a later one -/

/-- Whatever happens, the registry of the main node makes a move. -/
theorem exists_registry_step (s : Roaming σ τ) (mv : Move σ) :
    ∃ q, (s.step mv).main.registry = s.main.registry.step q := by
  rcases s.effect_step mv with ⟨q, -, hq, -⟩ | ⟨l, now, frames, -, hq, -⟩ |
    ⟨l, frames, -, -, hq, -⟩
  · exact ⟨q, hq⟩
  · exact ⟨_, hq⟩
  · exact ⟨.store s.main.registry.store, hq⟩

/-- What was said stays said. -/
theorem said_step (s : Roaming σ τ) (mv : Move σ) (k : Nat) : s.said k <+: (s.step mv).said k := by
  have hadd : ∀ j frames, s.said k <+: addTo s.said j frames k := by
    intro j frames
    by_cases hk : k = j
    · subst hk
      rw [addTo_self]
      exact List.prefix_append _ _
    · simp only [addTo_of_ne _ hk, List.prefix_rfl]
  rcases s.effect_step mv with ⟨q, -, -, hsaid, -⟩ | ⟨l, now, frames, -, -, hsaid, -⟩ |
    ⟨l, frames, -, -, -, hsaid, -⟩
  · simp only [hsaid, List.prefix_rfl]
  · rw [hsaid]
    exact hadd _ frames
  · rw [hsaid]
    exact hadd _ frames

theorem said_run (s : Roaming σ τ) (moves : List (Move σ)) (k : Nat) :
    s.said k <+: (s.run moves).said k := by
  induction moves using List.reverseRecOn with
  | nil => exact List.prefix_rfl
  | append_singleton moves mv ih =>
    rw [run_concat]
    exact ih.trans (said_step _ mv k)

theorem registry_step_main {q : Registry.Move} (h : s.permits (.registry q) = true) :
    (s.step (.main (.registry q))).main.registry = s.main.registry.step q := by
  change (if s.permits (.registry q) then _ else s).main.registry = _
  rw [if_pos h]
  rfl

/-- A session is with one listener all along. -/
theorem Spoken.listener_eq {l' : Listener} (h : Spoken s node k l) (h' : Spoken s' node k l')
    (hsaid : s.said k <+: s'.said k) : l' = l := by
  obtain ⟨first, -, -, rfl, hwords⟩ := h.words
  obtain ⟨first', -, -, rfl, hwords'⟩ := h'.words
  rw [hwords, hwords', List.cons_prefix_cons] at hsaid
  obtain rfl : first = first' := by simpa using hsaid.1
  rfl

/-- Calls move on along a run. -/
theorem Followed.evolves_run {p : Nat × Nat} {c : Call} (h : Followed s node status sound reports)
    (hc : s.main.registry.call? p = some c) (moves : List (Move σ)) :
    ∃ c', (s.run moves).main.registry.call? p = some c' ∧ c.Evolves c' := by
  induction moves using List.reverseRecOn with
  | nil => exact ⟨c, hc, .refl c⟩
  | append_singleton moves mv ih =>
    obtain ⟨c', hc', hev⟩ := ih
    have h' := h.run moves
    obtain ⟨q, hq⟩ := (s.run moves).exists_registry_step mv
    obtain ⟨c'', hc'', hev'⟩ := Registry.evolves_step h'.accounted.steady.consistent q hc'
    rw [run_concat, hq]
    exact ⟨c'', hc'', hev.trans hev'⟩

/-- A call that was given its response keeps it along a run. -/
theorem Followed.hasAnswer_run {p : Nat × Nat} {c : Call} {m : NodeMessage}
    (h : Followed s node status sound reports) (hc : s.main.registry.call? p = some c)
    (hanswer : c.HasAnswer m) (moves : List (Move σ)) :
    ∃ c', (s.run moves).main.registry.call? p = some c' ∧ c'.HasAnswer m ∧
      c'.request = c.request := by
  induction moves using List.reverseRecOn with
  | nil => exact ⟨c, hc, hanswer, rfl⟩
  | append_singleton moves mv ih =>
    obtain ⟨c', hc', hanswer', hrequest⟩ := ih
    have h' := h.run moves
    obtain ⟨q, hq⟩ := (s.run moves).exists_registry_step mv
    obtain ⟨c'', hc'', hanswer'', hrequest'⟩ :=
      Registry.hasAnswer_step h'.accounted.steady.consistent hc' hanswer' q
    rw [run_concat, hq]
    exact ⟨c'', hc'', hanswer'', hrequest'.trans hrequest⟩

/-- A new call was made over the registration by which the node of its request was linked, and it is
one of a forwarded request. -/
theorem link_of_call_new {mv : Move σ} {p : Nat × Nat} {c : Call}
    (hnone : s.main.registry.call? p = none) (hc : (s.step mv).main.registry.call? p = some c) :
    s.main.registry.find? c.request.node = some p.1 ∧
      ∃ f ∈ s.main.forwards, f.request = c.request := by
  rcases s.main_step mv with h | ⟨m, h, hopen⟩
  · rw [h, hnone] at hc
    cases hc
  · rw [h] at hc
    exact Agent.link_of_call_new hopen hnone hc

/-! ## What was said last -/

/-- No call that has the identifier of the request that moved the node across was answered before
it. -/
theorem Crossing.notMem_before {before : List NodeFrame} {t : NodeStatus} {r : Request}
    {e : Execution τ} {c : Call} (h : Crossing s k l before t r e) (haccounted : s.Accounted)
    (hc : s.main.registry.call? (k, i) = some c) (hid : c.id = e.frame.id) (response : Response) :
    (⟨c.id, some (.response response)⟩ : NodeFrame) ∉ before := by
  obtain ⟨first, es, hover, rfl⟩ := h.last
  have hexecuted : ∀ e' ∈ es ++ [e], e' ∈ s.executed := fun e' he' ↦
    List.mem_of_mem_filter (hover ▸ he' : e' ∈ s.over k)
  intro hx
  rcases List.mem_cons.mp hx with hfirst | hx
  · simp at hfirst
  · obtain ⟨e', he', hx⟩ := List.mem_flatMap.mp hx
    rw [← haccounted.reply_eq (hexecuted e' (List.mem_append_left _ he'))] at hx
    obtain ⟨-, -, hsame, -⟩ := Site.answer_of_mem_serve hx rfl
    -- one call would have been executed twice
    have honce := haccounted.executions_eq hc (hexecuted e (by simp)) hid.symm
    have hsub : ((es ++ [e]).filter (·.frame.id = c.id)).Sublist [e] := by
      rw [← hover]
      exact honce ▸ List.filter_sublist.filter _
    have htwice : 2 ≤ ((es ++ [e]).filter (·.frame.id = c.id)).length := by
      have hes : 0 < (es.filter (·.frame.id = c.id)).length :=
        List.length_pos_of_mem (List.mem_filter.mpr ⟨he', decide_eq_true hsame.symm⟩)
      rw [List.filter_append, List.length_append, List.filter_cons_of_pos (by simp [hid])]
      exact Nat.succ_le_succ hes
    exact absurd (Nat.le_trans htwice hsub.length_le) (by simp)

/-! ## What the main node makes of it -/

/-- What the main node makes of the report `x` of a node that moves to the other listener, and of
the `response` that comes after it. -/
structure Releases (s : Roaming σ τ) (node : NodeId) (k : Nat) (x : NodeFrame) (id : RequestId)
    (response : Response) : Prop where
  /-- As long as the session is linked, the report and the response are yet to be read. -/
  ahead : s.main.registry.find? node = some k →
    ∃ g, s.main.registry.registration? k = some g ∧ g.isReading = true ∧
      [x, ⟨id, some (.response response)⟩] <:+ g.unread ++ (s.session k).up
  /-- So the session is not linked any more when the call that the response is for was given it. -/
  given : ∀ i c m, s.main.registry.call? (k, i) = some c → c.id = id → c.slot = .filled m →
    m = .response response ∧ s.main.registry.find? node ≠ some k
  /-- A call that waits when the response is read returns it with its next operation, whatever
  happens before, unless its caller goes away. -/
  delivered : ∀ g rest i c, s.main.registry.registration? k = some g → g.isReading = true →
    g.arrived = .frame ⟨id, some (.response response)⟩ :: rest →
    s.main.registry.call? (k, i) = some c → c.id = id → c.stage = .awaiting → c.slot = .empty →
    ∀ late moves now, ∃ c',
      (((s.step (.main (.registry (.read k late)))).run moves).step
        (.main (.registry (.use k (.advance i now))))).main.registry.call? (k, i) = some c' ∧
      (c'.response? = some (.ok response) ∨ c'.stage = .abandoned)
  /-- From then on no call is made over the session. -/
  quiet : ∀ i c m, s.main.registry.call? (k, i) = some c → c.id = id → c.slot = .filled m →
    ∀ moves j, s.main.registry.call? (k, j) = none →
      (s.run moves).main.registry.call? (k, j) = none

variable {before after : List NodeFrame} {x : NodeFrame} {info : NodeInfo} {id : RequestId}
  {response : Response}

namespace Followed

/-- The frames with which a node parts belong to a crossing. -/
theorem exists_crossing (h : Followed s node status sound reports) (hspoken : Spoken s node k l)
    (hsaid : s.said k = before ++ x :: ⟨id, some (.response response)⟩ :: after)
    (hbefore : before ≠ []) (hinfo : x.message = some (.info info))
    (hbad : info.status ∉ l.allowed) :
    after = [] ∧ ∃ r e, Crossing s k l before info.status r e ∧ id = e.frame.id ∧
      response = r.emptyResponse := by
  obtain ⟨-, hgood | ⟨r, e, hcrossing, hanswer⟩⟩ :=
    h.conduct.later_info h.accounted h.reliable hspoken hsaid hbefore hinfo
  · exact absurd hgood hbad
  · obtain ⟨hframe, rfl⟩ := List.cons.inj hanswer
    obtain ⟨rfl, hmessage⟩ := NodeFrame.mk.inj hframe
    exact ⟨rfl, r, e, hcrossing, rfl, NodeMessage.response.inj (Option.some.inj hmessage)⟩

theorem ahead (h : Followed s node status sound reports) (hspoken : Spoken s node k l)
    (hsaid : s.said k = before ++ [x, ⟨id, some (.response response)⟩])
    (hinfo : x.message = some (.info info)) (hbad : info.status ∉ l.allowed)
    (hlinked : s.main.registry.find? node = some k) :
    ∃ g, s.main.registry.registration? k = some g ∧ g.isReading = true ∧
      [x, ⟨id, some (.response response)⟩] <:+ g.unread ++ (s.session k).up := by
  obtain ⟨g, read, hallowed, hheard, -⟩ := h.heard_over hspoken
  obtain ⟨g', t, hg', hadmission, -⟩ := h.regular.sound.linked node k hlinked
  obtain rfl := Option.some.inj (hheard.registration.symm.trans hg')
  have hreading := Registry.isReading_of_admitted hadmission
  obtain ⟨more, rfl⟩ := hheard.read_of_linked hsaid hinfo (hallowed ▸ hbad) hlinked
  refine ⟨g, hg', hreading, more, ?_⟩
  have hrest := hheard.rest hreading
  rw [hsaid, List.append_assoc] at hrest
  exact List.append_cancel_left hrest

theorem given {c : Call} {m : NodeMessage} (h : Followed s node status sound reports)
    (hspoken : Spoken s node k l)
    (hsaid : s.said k = before ++ [x, ⟨id, some (.response response)⟩]) (hbefore : before ≠ [])
    (hinfo : x.message = some (.info info)) (hbad : info.status ∉ l.allowed)
    (hc : s.main.registry.call? (k, i) = some c) (hid : c.id = id) (hm : c.slot = .filled m) :
    m = .response response ∧ s.main.registry.find? node ≠ some k := by
  obtain ⟨-, r, e, hcrossing, rfl, -⟩ := h.exists_crossing hspoken hsaid hbefore hinfo hbad
  obtain ⟨g, read, hallowed, hheard, -⟩ := h.heard_over hspoken
  obtain ⟨hread, given, rfl⟩ := hheard.filled i c m hc hm
  have hnot := hcrossing.notMem_before h.accounted hc hid given
  constructor
  · have hmem := hheard.soFar.subset hread
    rw [hsaid] at hmem
    rcases List.mem_append.mp hmem with hbefore | hlast
    · exact absurd hbefore hnot
    · simp only [List.mem_cons, List.not_mem_nil, or_false] at hlast
      rcases hlast with rfl | hlast
      · cases hinfo
      · exact Option.some.inj (NodeFrame.mk.inj hlast).2
  · intro hlinked
    have hahead := hheard.read_of_linked hsaid hinfo (hallowed ▸ hbad) hlinked
    exact hnot (hahead.subset hread)

theorem delivered {g : Registration} {rest : List Arrival} {c : Call}
    (h : Followed s node status sound reports) (hspoken : Spoken s node k l)
    (hsaid : s.said k = before ++ [x, ⟨id, some (.response response)⟩]) (hbefore : before ≠ [])
    (hinfo : x.message = some (.info info)) (hbad : info.status ∉ l.allowed)
    (hg : s.main.registry.registration? k = some g) (hreading : g.isReading = true)
    (harrived : g.arrived = .frame ⟨id, some (.response response)⟩ :: rest)
    (hc : s.main.registry.call? (k, i) = some c) (hid : c.id = id) (hstage : c.stage = .awaiting)
    (hempty : c.slot = .empty) (late : Nat) (moves : List (Move σ)) (now : Instant) :
    ∃ c', (((s.step (.main (.registry (.read k late)))).run moves).step
        (.main (.registry (.use k (.advance i now))))).main.registry.call? (k, i) = some c' ∧
      (c'.response? = some (.ok response) ∨ c'.stage = .abandoned) := by
  subst hid
  obtain ⟨-, r, e, hcrossing, hid, rfl⟩ := h.exists_crossing hspoken hsaid hbefore hinfo hbad
  obtain ⟨first, es, hover, -⟩ := hcrossing.last
  have hexecuted : e ∈ s.executed := List.mem_of_mem_filter (hover ▸ by simp : e ∈ s.over k)
  have hrequest : c.request = r := by
    have hframe := (h.accounted.frame_of_id hc hexecuted hid.symm).2
    have hasked := hcrossing.request
    rw [hframe] at hasked
    exact Option.some.inj hasked
  obtain ⟨c₁, hc₁, hanswer₁, hrequest₁⟩ :=
    Registry.hasAnswer_read h.regular hg hreading hc hstage hempty harrived late
  rw [← registry_step_main rfl] at hc₁
  have h₁ := h.step (.main (.registry (.read k late)))
  obtain ⟨c₂, hc₂, hanswer₂, hrequest₂⟩ := h₁.hasAnswer_run hc₁ hanswer₁ moves
  obtain ⟨c₃, hc₃, hrequest₃, hlast⟩ := Registry.advance_hasAnswer hc₂ hanswer₂ now
  rw [← registry_step_main rfl] at hc₃
  refine ⟨c₃, hc₃, hlast.imp_left fun hreturned ↦ ?_⟩
  have hkind : c₃.request.kind = r.emptyResponse.kind := by
    rw [hrequest₃, hrequest₂, hrequest₁, hrequest, Request.kind_emptyResponse]
  rw [Call.response?, Call.result?_eq_some.mpr hreturned, hkind]
  change some (NodeMessage.expect r.emptyResponse.kind (.response r.emptyResponse)) = _
  rw [NodeMessage.expect, if_pos rfl]

theorem quiet {c : Call} {m : NodeMessage} (h : Followed s node status sound reports)
    (hspoken : Spoken s node k l)
    (hsaid : s.said k = before ++ [x, ⟨id, some (.response response)⟩]) (hbefore : before ≠ [])
    (hinfo : x.message = some (.info info)) (hbad : info.status ∉ l.allowed)
    (hc : s.main.registry.call? (k, i) = some c) (hid : c.id = id) (hm : c.slot = .filled m)
    (moves : List (Move σ)) {j : Nat} (hnone : s.main.registry.call? (k, j) = none) :
    (s.run moves).main.registry.call? (k, j) = none := by
  induction moves using List.reverseRecOn with
  | nil => exact hnone
  | append_singleton moves mv ih =>
    have h' := h.run moves
    obtain ⟨c', hc', hev⟩ := h.evolves_run hc moves
    obtain ⟨more, hmore⟩ := s.said_run moves k
    have hsaid' : (s.run moves).said k =
        before ++ x :: ⟨id, some (.response response)⟩ :: more := by
      rw [← hmore, hsaid]
      simp
    obtain ⟨l', hspoken'⟩ := h'.conduct.spoken k (by rw [hsaid']; simp)
    obtain rfl := hspoken.listener_eq hspoken' (s.said_run moves k)
    obtain ⟨rfl, -⟩ := h'.exists_crossing hspoken' hsaid' hbefore hinfo hbad
    have hunlinked := (h'.given hspoken' hsaid' hbefore hinfo hbad hc' (hev.id.trans hid)
      ((hev.slot (by rw [hm]; exact Slot.noConfusion)).trans hm)).2
    -- a new call would have been made over a link
    rw [run_concat]
    by_contra hsome
    obtain ⟨d, hd⟩ := Option.ne_none_iff_exists'.mp hsome
    have hlinked := (link_of_call_new ih hd).1
    obtain ⟨g, read, hheard, -⟩ := h'.heard k (by rw [hsaid']; simp)
    obtain ⟨t, ht, hown, -⟩ := h'.regular.exists_open_of_linked hlinked
    rw [← hown, hheard.own t ht] at hlinked
    exact hunlinked hlinked

/-- **The main node unlinks a node that moves to the other listener** before it delivers the
response, and calls are not made over the session any more after that. -/
theorem releases (h : Followed s node status sound reports) (hspoken : Spoken s node k l)
    (hsaid : s.said k = before ++ [x, ⟨id, some (.response response)⟩]) (hbefore : before ≠ [])
    (hinfo : x.message = some (.info info)) (hbad : info.status ∉ l.allowed) :
    Releases s node k x id response where
  ahead := h.ahead hspoken hsaid hinfo hbad
  given _ _ _ := h.given hspoken hsaid hbefore hinfo hbad
  delivered _ _ _ _ := h.delivered hspoken hsaid hbefore hinfo hbad
  quiet _ _ _ hc hid hm moves _ := h.quiet hspoken hsaid hbefore hinfo hbad hc hid hm moves

/-- A new main node, and a node that begins its first session. -/
theorem of_new {a : Agent σ} {main : Site σ} {config : AgentConfig} {names : NameSupply}
    {timeout : Duration} {store : NodeStore} {permissions : Option PermissionRegistry} {v : σ}
    {site : Site τ} {w : τ} {uplink : Uplink}
    (hnew : Agent.new main config names { firstFrameTimeout := timeout, store } permissions v =
      .ok a)
    (hnames : Function.Injective names.requestId) (hsite : site.Reliable node status sound)
    (hw : sound w) (hstatus : status w ≠ .unspecified) (hready : uplink.phase = .ready) :
    Followed { main := a, site, world := w, uplink } node status sound [] := by
  obtain ⟨hkept, hforwards, hregistrations, hlinks⟩ := Agent.fields_of_new hnew
  refine
    { names := hkept ▸ hnames
      reliable := hsite
      accounted := .of_new (.of_empty hregistrations hlinks hforwards)
        (.of_registrations hregistrations) hregistrations
      conduct := ⟨hw, hstatus, by simp, by simp, fun _ _ ↦ ⟨rfl, rfl⟩, fun _ _ ↦ rfl,
        fun l first hl ↦ ?_, fun l hl ↦ ?_, fun _ hk ↦ absurd rfl hk⟩
      regular := .of_empty hregistrations hlinks
      heard := fun _ hk ↦ absurd rfl hk }
  · cases hready.symm.trans hl
  · cases hready.symm.trans hl

end Followed

/-! ## Sessions -/

/-- How a session of the node with a listener goes. -/
structure Migrates (s : Roaming σ τ) (node : NodeId) (k : Nat) (l : Listener) : Prop where
  /-- The session came to the listener. -/
  gate : ∃ g, s.main.registry.registration? k = some g ∧ g.allowed = l.allowed
  /-- The node opened it with a status for which it dials the listener, and which is accepted. -/
  opening : ∃ info rest, s.said k = ⟨"", some (.info info)⟩ :: rest ∧ info.nodeId = node ∧
    info.status.listener = l ∧ info.status ∈ l.allowed
  passes : ∀ node' t, s.main.registry.result? k ≠ some (.error (.notAllowed node' t))
  /-- Whatever the node reports later is accepted, or it has a status of the other listener and is
  followed by the response to the request that led to that status, and by nothing else. -/
  later : ∀ before x after info, s.said k = before ++ x :: after → before ≠ [] →
    x.message = some (.info info) → info.nodeId = node ∧
      (info.status ∈ l.allowed ∨ ∃ r e, Crossing s k l before info.status r e ∧
        after = [⟨e.frame.id, some (.response r.emptyResponse)⟩] ∧
        Releases s node k x e.frame.id r.emptyResponse)

/-- **Every session goes that way**, at any moment of any run of a main node and a node that keeps
its status. -/
theorem migration_run {a : Agent σ} {main : Site σ} {config : AgentConfig} {names : NameSupply}
    {timeout : Duration} {store : NodeStore} {permissions : Option PermissionRegistry} {v : σ}
    {site : Site τ} {w : τ} {uplink : Uplink}
    (hnew : Agent.new main config names { firstFrameTimeout := timeout, store } permissions v =
      .ok a)
    (hnames : Function.Injective names.requestId) (hsite : site.Reliable node status sound)
    (hw : sound w) (hstatus : status w ≠ .unspecified) (hready : uplink.phase = .ready)
    (moves : List (Move σ)) :
    let s := run { main := a, site, world := w, uplink } moves
    ∀ k, s.said k ≠ [] → ∃ l, Migrates s node k l := by
  intro s k hk
  have h := (Followed.of_new hnew hnames hsite hw hstatus hready).run moves
  obtain ⟨l, hspoken⟩ := h.conduct.spoken k hk
  obtain ⟨first, hnode, hfirst, hlistener, hwords⟩ := hspoken.words
  obtain ⟨g, read, hheard, -⟩ := h.heard k hk
  refine ⟨l, hspoken.gate, ⟨first, _, hwords, hnode, hlistener, hfirst⟩, hheard.admitted,
    fun before x after info hsaid hbefore hinfo ↦ ?_⟩
  obtain ⟨hown, hlater⟩ :=
    h.conduct.later_info h.accounted h.reliable hspoken hsaid hbefore hinfo
  refine ⟨hown, ?_⟩
  by_cases hgood : info.status ∈ l.allowed
  · exact Or.inl hgood
  · obtain ⟨r, e, hcrossing, rfl⟩ := hlater.resolve_left hgood
    exact Or.inr ⟨r, e, hcrossing, rfl, h.releases hspoken hsaid hbefore hinfo hgood⟩

/-- The world of a node that is not in service yet. -/
def newcomerWorld : Rehearsal := { node := { nodeId := "node", statusCode := 1 } }

/-- A main node, and a node that is not in service yet. -/
def newcomer (a : Agent Rehearsal) : Roaming Rehearsal Rehearsal :=
  { main := a, site := Rehearsal.site false, world := newcomerWorld
    uplink := { main := { publicUrl := "public", protectedUrl := "protected" } } }

/-- The provisioning of a node is finished, so the node leaves the public listener for the protected
one. -/
def finishing : List (Move Rehearsal) :=
  .dial 0 :: .reached 0 :: .pass 0 :: .main (.registry (.review 0 0)) ::
  .main (.call .protectedSide (.administer (.finishProvisioning "node" "password"))) ::
  .main (.goOn 0 0) :: .main (.goOn 0 0) ::
  ((Agent.callActs 4).map .main ++ .fetch 0 :: .serve 0 :: .pass 0 :: .pass 0 ::
    .main (.registry (.read 0 0)) :: .main (.registry (.read 0 0)) ::
    ((Agent.callActs 1).map .main ++ .main (.goOn 0 0) :: .ended 0 ::
      .dial 0 :: .reached 0 :: .pass 1 :: [.main (.registry (.review 1 0))]))

/-- The node said three frames over its first session, and is reached over its second one. -/
theorem migration_run_finishing :
    ∃ a, Agent.new (Rehearsal.site false) {} Agent.tallies
        { firstFrameTimeout := .ofSeconds 30, store := {} } none Agent.mainWorld = .ok a ∧
      Function.Injective Agent.tallies.requestId ∧
      (Rehearsal.site false).Reliable "node" (fun w ↦ w.node.status)
        (Rehearsal.IsReadable "node") ∧
      Rehearsal.IsReadable "node" newcomerWorld ∧ newcomerWorld.node.status ≠ .unspecified ∧
      let s := run (newcomer a) finishing
      (s.said 0).length = 3 ∧ s.main.registry.find? "node" = some 1 ∧
        (∃ l, Migrates s "node" 0 l) ∧ ∃ l, Migrates s "node" 1 l := by
  have hrun : ∃ a, Agent.new (Rehearsal.site false) {} Agent.tallies
      { firstFrameTimeout := .ofSeconds 30, store := {} } none Agent.mainWorld = .ok a ∧
      let s := run (newcomer a) finishing
      (s.said 0).length = 3 ∧ (s.said 1).length = 1 ∧ s.main.registry.find? "node" = some 1 :=
    ⟨_, rfl, rfl, rfl, rfl⟩
  obtain ⟨a, hnew, hfirst, hsecond, hlinked⟩ := hrun
  have hnames := Agent.tallies_injective
  have hsite := Rehearsal.reliable false "node"
  have hworld : Rehearsal.IsReadable "node" newcomerWorld := ⟨rfl, rfl⟩
  have hstatus : newcomerWorld.node.status ≠ .unspecified := by decide
  have hready : (newcomer a).uplink.phase = .ready := rfl
  have hmigrates : ∀ k, ((newcomer a).run finishing).said k ≠ [] →
      ∃ l, Migrates ((newcomer a).run finishing) "node" k l :=
    migration_run hnew hnames hsite hworld hstatus hready finishing
  refine ⟨a, hnew, hnames, hsite, hworld, hstatus, hfirst, hlinked, ?_, ?_⟩
  · exact hmigrates 0 (List.ne_nil_of_length_pos (by rw [hfirst]; decide))
  · exact hmigrates 1 (List.ne_nil_of_length_pos (by rw [hsecond]; decide))

end Roaming

end NodeAgent
