import NodeAgent.Proofs.Registry.Soundness

/-!
# What a listener goes by

A registration opens with the info of its node, and the store may have an older record of the same
node. The two can disagree about the status, and the listener goes by what is reported: the record
is not looked at, whatever it says. A report with a status that the listener does not accept
changes nothing at all. One with an accepted status replaces the record and the entry of its node,
and the stream by which the node was reached is torn down.

So whoever reaches a listener can take a node over that is in a status the listener does not accept,
by reporting one that it does (`takeover_by_report`).

## Main statements

* `decides_by_report`: the answer to a registration and what comes of it, whatever the store holds.
* `takesOver_of_stream_new`: a registration gets a stream only by taking its node over.
-/

namespace NodeAgent.Registry

variable {r r' : Registry} {i j : Nat} {g : Registration} {info : NodeInfo} {id : RequestId}
  {rest : List Arrival} {deadline : Instant}

/-- The answer to a registration, once there is one. -/
def result? (r : Registry) (i : Nat) : Option (Except StreamError Unit) :=
  (r.registration? i).bind (·.result?)

/-- The registration is refused, and nothing else is different. -/
structure TurnsAway (r r' : Registry) (i : Nat) (e : StreamError) : Prop where
  result : r'.result? i = some (.error e)
  store : r'.store = r.store
  links : r'.links = r.links
  events : r'.events = r.events
  others : ∀ j, j ≠ i → r'.registration? j = r.registration? j

/-- The registration is admitted on an info and is the one by which its node is reached. What was
stored about the node and the stream by which it was reached are gone, and no other registration is
different. -/
structure TakesOver (r r' : Registry) (i : Nat) (info : NodeInfo) : Prop where
  result : r'.result? i = some (.ok ())
  stream : r'.stream? i = some { node := info.nodeId }
  record : r'.store.nodes.get? info.nodeId = some info
  entry : r'.find? info.nodeId = some i
  replaced : ∀ j s, r.find? info.nodeId = some j → j ≠ i → r.stream? j = some s →
    r'.stream? j = some s.close
  others : ∀ j, j ≠ i → r.find? info.nodeId ≠ some j → r'.registration? j = r.registration? j

/-- The answer to a registration that opens with an info. -/
def verdict (r : Registry) (allowed : List NodeStatus) (info : NodeInfo) :
    Except StreamError Unit :=
  if info.status ∉ allowed then .error (.notAllowed info.nodeId info.status)
  else
    match (r.store.setInfo info).1 with
    | .error e => .error (.service e)
    | .ok () => if r.closed then .error .handlerClosed else .ok ()

theorem verdict_eq_ok {allowed : List NodeStatus} (h : r.verdict allowed info = .ok ()) :
    info.status ∈ allowed ∧ (r.store.setInfo info).1 = .ok () ∧ r.closed = false := by
  unfold verdict at h
  split at h
  · cases h
  · rename_i hallowed
    split at h
    · cases h
    · rename_i hset
      split at h
      · cases h
      · rename_i hopen
        exact ⟨not_not.mp hallowed, hset, Bool.eq_false_iff.mpr hopen⟩

/-- What is refused for its status is what was reported. -/
theorem verdict_eq_notAllowed {allowed : List NodeStatus} {node : NodeId} {status : NodeStatus}
    (h : r.verdict allowed info = .error (.notAllowed node status)) :
    node = info.nodeId ∧ status = info.status ∧ info.status ∉ allowed := by
  unfold verdict at h
  split at h
  · rename_i hallowed
    cases h
    exact ⟨rfl, rfl, hallowed⟩
  · split at h
    · cases h
    · split at h <;> cases h

/-! ## Reviewing a registration that opens with an info -/

theorem review_of_info (hg : r.registration? i = some g)
    (hwaiting : g.admission = .waiting deadline)
    (harrived : g.arrived = .frame ⟨id, some (.info info)⟩ :: rest) (now : Instant) :
    r.review i now =
      (r.update i fun g ↦ { g with arrived := rest }).admitWith i g.allowed info := by
  unfold review
  rw [hg]
  dsimp only
  rw [hwaiting, harrived]

theorem result?_refuse (hg : r.registration? i = some g) (e : StreamError) :
    (r.update i (.refuse e)).result? i = some (.error e) := by
  rw [result?, registration?_update_of_eq hg]
  rfl

/-- The registration after its admission. -/
theorem registration?_admitted (hg : r.registration? i = some g) (rest : List Arrival)
    (info : NodeInfo) (store : NodeStore) :
    ({ r with store }.update i (fun g ↦ { g with arrived := rest }) |>.update i
      fun g ↦ { g with admission := .admitted { node := info.nodeId } true }).registration? i =
        some { g with arrived := rest, admission := .admitted { node := info.nodeId } true } :=
  registration?_update_of_eq (registration?_update_of_eq hg _) _

theorem result?_review (hg : r.registration? i = some g)
    (hwaiting : g.admission = .waiting deadline)
    (harrived : g.arrived = .frame ⟨id, some (.info info)⟩ :: rest) (now : Instant) :
    (r.review i now).result? i = some (r.verdict g.allowed info) := by
  have htaken := registration?_update_of_eq hg fun g ↦ { g with arrived := rest }
  have hstore : (r.update i fun g ↦ { g with arrived := rest }).store = r.store := rfl
  have hclosed : (r.update i fun g ↦ { g with arrived := rest }).closed = r.closed := rfl
  rw [review_of_info hg hwaiting harrived, admitWith, verdict]
  split
  · exact result?_refuse htaken _
  · rw [hstore]
    generalize r.store.setInfo info = set
    obtain ⟨answer, store⟩ := set
    cases answer with
    | error e => exact result?_refuse htaken _
    | ok _ =>
      dsimp only
      rw [hclosed]
      split
      · exact result?_refuse htaken _
      · rw [result?, registration?_link_self]
        exact congrArg (Option.bind · Registration.result?)
          (registration?_admitted hg rest info store)

/-- Whoever is refused for its status opened with an info that has it. -/
theorem exists_info_of_review {node : NodeId} {status : NodeStatus} {now : Instant}
    (hg : r.registration? i = some g) (hwaiting : g.admission = .waiting deadline)
    (h : (r.review i now).result? i = some (.error (.notAllowed node status))) :
    ∃ id info rest, g.arrived = .frame ⟨id, some (.info info)⟩ :: rest ∧
      info.status ∉ g.allowed := by
  have hrefused : ∀ e, (r.update i (.refuse e)).result? i =
      some (.error (.notAllowed node status)) → e = .notAllowed node status := by
    intro e he
    rw [result?_refuse hg] at he
    exact Except.error.inj (Option.some.inj he)
  have hwaits : r.result? i ≠ some (.error (.notAllowed node status)) := by
    rw [result?, hg, Option.bind_some, Registration.result?, hwaiting]
    exact (Option.some_ne_none _).symm
  by_cases hinfo : ∃ id info rest, g.arrived = .frame ⟨id, some (.info info)⟩ :: rest
  · obtain ⟨id, info, rest, harrived⟩ := hinfo
    rw [result?_review hg hwaiting harrived, Option.some.injEq] at h
    exact ⟨id, info, rest, harrived, (verdict_eq_notAllowed h).2.2⟩
  · -- whatever else it opened with, it is refused for another reason
    unfold review at h
    rw [hg] at h
    dsimp only at h
    rw [hwaiting] at h
    dsimp only at h
    split at h
    · rename_i harrived
      exact absurd ⟨_, _, _, harrived⟩ hinfo
    · cases hrefused _ h
    · cases hrefused _ h
    · split at h
      · cases hrefused _ h
      · split at h
        · cases hrefused _ h
        · exact absurd h hwaits

/-- A status that is not accepted is the end of it. -/
theorem turnsAway_review (hg : r.registration? i = some g)
    (hwaiting : g.admission = .waiting deadline)
    (harrived : g.arrived = .frame ⟨id, some (.info info)⟩ :: rest) (h : info.status ∉ g.allowed)
    (now : Instant) :
    TurnsAway r (r.review i now) i (.notAllowed info.nodeId info.status) := by
  have hrefused : r.review i now = (r.update i fun g ↦ { g with arrived := rest }).update i
      (.refuse (.notAllowed info.nodeId info.status)) := by
    rw [review_of_info hg hwaiting harrived, admitWith, if_pos h]
  rw [hrefused]
  refine ⟨result?_refuse (registration?_update_of_eq hg _) _, rfl, rfl, rfl, fun j hj ↦ ?_⟩
  rw [registration?_update_of_ne hj.symm, registration?_update_of_ne hj.symm]

/-- An accepted status is all it takes, if the registry is open and the store takes the info. -/
theorem takesOver_review (hg : r.registration? i = some g)
    (hwaiting : g.admission = .waiting deadline)
    (harrived : g.arrived = .frame ⟨id, some (.info info)⟩ :: rest) (h : info.status ∈ g.allowed)
    (hset : (r.store.setInfo info).1 = .ok ()) (hopen : r.closed = false) (now : Instant) :
    TakesOver r (r.review i now) i info := by
  have hrecord := NodeStore.get?_setInfo_self hset
  have hstore : (r.update i fun g ↦ { g with arrived := rest }).store = r.store := rfl
  have hclosed : (r.update i fun g ↦ { g with arrived := rest }).closed = false := hopen
  rw [review_of_info hg hwaiting harrived, admitWith, if_neg (not_not.mpr h), hstore]
  generalize r.store.setInfo info = set at hset hrecord ⊢
  obtain ⟨_, store⟩ := set
  subst hset
  dsimp only
  rw [if_neg (Bool.eq_false_iff.mp hclosed)]
  -- what is left is to link the registration as it is after its admission
  have hadmitted := registration?_admitted hg rest info store
  have hs := stream?_of_admitted hadmitted rfl
  have hself := (registration?_link_self _ i).trans hadmitted
  have hother : ∀ j, j ≠ i →
      ({ r with store }.update i (fun g ↦ { g with arrived := rest }) |>.update i fun g ↦
        { g with admission := .admitted { node := info.nodeId } true }).registration? j =
        r.registration? j := by
    intro j hne
    rw [registration?_update_of_ne hne.symm]
    exact registration?_update_of_ne hne.symm _
  refine ⟨?_, stream?_of_admitted hself rfl, ?_, (find?_link hs info.nodeId).trans (if_pos rfl),
    fun j s hj hne hstream ↦ ?_, fun j hne hj ↦ ?_⟩
  · rw [result?]
    exact congrArg (Option.bind · Registration.result?) hself
  · rw [← hrecord]
    exact congrArg (·.nodes.get? info.nodeId) (Takes.link _ i []).store_eq
  · exact stream?_link_replaced hs hj hne ((stream?_congr (hother j hne)).trans hstream)
  · exact (registration?_link_of_unlinked hs hj).trans (hother j hne)

/-! ## What a listener goes by -/

/-- The listener goes by the status in the info that a registration opens with. -/
structure DecidesByReport (r : Registry) (i : Nat) (now : Instant) (allowed : List NodeStatus)
    (info : NodeInfo) : Prop where
  refused : info.status ∉ allowed →
    TurnsAway r (r.review i now) i (.notAllowed info.nodeId info.status)
  /-- A status is refused only if it was reported. -/
  reported : ∀ node status,
    (r.review i now).result? i = some (.error (.notAllowed node status)) →
      node = info.nodeId ∧ status = info.status ∧ info.status ∉ allowed
  accepted : info.status ∈ allowed → info.nodeId ≠ "" → r.closed = false →
    r.store.outage = none → TakesOver r (r.review i now) i info
  /-- What the store holds makes no difference. -/
  stored : ∀ store, store.outage = r.store.outage →
    ({ r with store }.review i now).result? i = (r.review i now).result? i

/-- **A listener goes by the status that a node reports**, and not by the one that is stored. -/
theorem decides_by_report (hg : r.registration? i = some g)
    (hwaiting : g.admission = .waiting deadline)
    (harrived : g.arrived = .frame ⟨id, some (.info info)⟩ :: rest) (now : Instant) :
    DecidesByReport r i now g.allowed info := by
  have hresult := result?_review hg hwaiting harrived now
  refine ⟨fun h ↦ turnsAway_review hg hwaiting harrived h now, fun node status h ↦ ?_,
    fun h hnode hopen hout ↦ ?_, fun store hout ↦ ?_⟩
  · rw [hresult, Option.some.injEq] at h
    exact verdict_eq_notAllowed h
  · have hset := NodeStore.setInfo_eq_ok hout hnode
    exact takesOver_review hg hwaiting harrived h hset hopen now
  · have hother := result?_review (r := { r with store }) hg hwaiting harrived now
    rw [hother, hresult, verdict, verdict, NodeStore.setInfo_fst_congr hout]

/-- A node that is paused is refused by a listener for nodes without certificates, though what is
stored about it is that it has none. -/
theorem decides_by_report_paused :
    let info (status : Nat) : NodeInfo := { nodeId := "node", statusCode := status }
    let r : Registry := {
      store := { nodes := ⟨[("node", info 1)]⟩ }
      registrations := [{
        allowed := [.unprovisioned]
        arrived := [.frame ⟨"", some (.info (info 3))⟩]
        admission := .waiting 1 }] }
    (info 1).status ∈ [NodeStatus.unprovisioned] ∧ (info 3).status ∉ [NodeStatus.unprovisioned] ∧
      DecidesByReport r 0 0 [.unprovisioned] (info 3) ∧
      (r.review 0 0).result? 0 = some (.error (.notAllowed "node" .paused)) := by
  intro info r
  have hdecides : DecidesByReport r 0 0 [.unprovisioned] (info 3) :=
    decides_by_report (r := r) (i := 0) rfl rfl rfl 0
  have hrefused : (info 3).status ∉ [NodeStatus.unprovisioned] := by decide
  exact ⟨by decide, hrefused, hdecides, (hdecides.refused hrefused).result⟩

/-- A provisioned node that is connected is taken over by whoever reports, to a listener for nodes
without certificates, that the node has none. -/
theorem takeover_by_report :
    let info (status : Nat) : NodeInfo := { nodeId := "node", statusCode := status }
    let comes (allowed : List NodeStatus) (status : Nat) : Move :=
      .arrive allowed [.frame ⟨"", some (.info (info status))⟩] false 0
    let r := run { firstFrameTimeout := .ofSeconds 30, store := {} }
      [comes [.provisioned, .paused] 2, .review 0 0, comes [.unprovisioned] 1]
    let r' := r.review 1 0
    -- the record has a status that the second listener does not accept
    r.store.nodes.get? "node" = some (info 2) ∧ (info 2).status ∉ [NodeStatus.unprovisioned] ∧
      r.find? "node" = some 0 ∧ (r.stream? 0).map (·.closed) = some false ∧
      r'.result? 1 = some (.ok ()) ∧ r'.store.nodes.get? "node" = some (info 1) ∧
      r'.find? "node" = some 1 ∧ (r'.stream? 0).map (·.closed) = some true :=
  ⟨rfl, by decide, rfl, rfl, rfl, rfl, rfl, rfl⟩

/-! ## New streams -/

/-- **A registration gets a stream only by taking its node over.** -/
theorem takesOver_of_stream_new {mv : Move} {s : Stream} (h : r.stream? i = none)
    (hs : (r.step mv).stream? i = some s) :
    ∃ info, s = { node := info.nodeId } ∧ TakesOver r (r.step mv) i info := by
  obtain ⟨g, deadline, now, id, info, rest, rfl, hg, hwaiting, harrived, rfl⟩ :=
    accepts_of_stream_new h hs
  refine ⟨info, rfl, ?_⟩
  obtain ⟨g', reading, hg', hadmission⟩ := registration?_of_stream? hs
  have hresult : (r.review i now).result? i = some (.ok ()) := by
    have hg'' : (r.review i now).registration? i = some g' := hg'
    rw [result?, hg'', Option.bind_some, Registration.result?, hadmission]
  rw [result?_review hg hwaiting harrived, Option.some.injEq] at hresult
  obtain ⟨hallowed, hset, hopen⟩ := verdict_eq_ok hresult
  exact takesOver_review hg hwaiting harrived hallowed hset hopen now

end NodeAgent.Registry
