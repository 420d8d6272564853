import NodeAgent.Proofs.Agent.Run
import NodeAgent.Proofs.Registry.Storing

/-!
# Who writes the status of a node

The status that the main node stores for another node has two writers. What the node tells about
itself is stored as it is taken in, and a forwarded request that ended well records the status it
leads to when its peer is answered. The two are not coordinated, and either write replaces what was
there before. Everything else that the agent does leaves the status alone (`Spares`).

## Main statements

* `status?_step`: the stored status after a move is that of the last of its writes.
-/

namespace NodeAgent

/-- The status that a forwarded request is to record: it ended with a response that carries no
failure, and its peer has yet to be answered. -/
def Forward.recording? (f : Forward) : Option NodeStatus :=
  match f.outcome, f.retry.phase with
  | none, .finished (.ok response) _ => if response.error.isSome then none else f.request.target?
  | _, _ => none

/-- A write of the status of a node. -/
inductive StatusWrite where
  /-- An info that came over a registration was taken in, and `kept` if the store worked. -/
  | told (k : Nat) (info : NodeInfo) (kept : Bool)
  /-- A forwarded request recorded the status that it leads to. -/
  | recorded (n : Nat) (t : NodeStatus)

/-- The status that a write left, unless it was lost. -/
def StatusWrite.status? : StatusWrite → Option NodeStatus
  | told _ info kept => if kept then some info.status else none
  | recorded _ t => some t

/-- The info that a write took in, with the number of its registration. -/
def StatusWrite.told? : StatusWrite → Option (Nat × NodeInfo)
  | told k info _ => some (k, info)
  | recorded _ _ => none

namespace Agent

variable {σ : Type} {a a' a'' : Agent σ} {node other : NodeId} {f : Forward} {n : Nat}
  {t : NodeStatus} {m : Move σ}

/-- The status that a forwarded request records for a node if it goes on now. -/
def recorded? (a : Agent σ) (node : NodeId) (n : Nat) : Option NodeStatus :=
  (((a.forwards[n]?).filter (·.request.node = node)).bind (·.recording?)).filter fun t ↦
    (a.registry.store.setStatus node t).1.isOk

/-- The writes of the status of a node in a move, first to last. -/
def writes (a : Agent σ) (node : NodeId) : Move σ → List StatusWrite
  | .registry q =>
    ((a.registry.intake q).filter (·.2.nodeId = node)).map fun p ↦
      .told p.1 p.2 (a.registry.store.setInfo p.2).1.isOk
  | .goOn n _ => ((a.recorded? node n).map (.recorded n)).toList
  | _ => []

/-- What a move takes in of a node, and nothing else, is told in its writes. -/
theorem told_writes_registry (a : Agent σ) (node : NodeId) (q : Registry.Move) :
    (a.writes node (.registry q)).filterMap (·.told?) =
      (a.registry.intake q).filter (·.2.nodeId = node) := by
  change (((a.registry.intake q).filter _).map _).filterMap _ = _
  rw [List.filterMap_map]
  exact List.filterMap_some

theorem told_writes_goOn (a : Agent σ) (node : NodeId) (n : Nat) (now : Instant) :
    (a.writes node (.goOn n now)).filterMap (·.told?) = [] := by
  change ((a.recorded? node n).map (StatusWrite.recorded n)).toList.filterMap _ = []
  cases a.recorded? node n <;> rfl

/-- A request records in a move of its own, and nothing is written before it. -/
theorem eq_of_recorded {before after : List StatusWrite}
    (h : a.writes node m = before ++ .recorded n t :: after) :
    before = [] ∧ a.recorded? node n = some t := by
  have hmem : .recorded n t ∈ a.writes node m := by
    rw [h]
    simp
  cases m with
  | registry q =>
    obtain ⟨p, -, hp⟩ := List.mem_map.mp hmem
    cases hp
  | goOn j now =>
    change ((a.recorded? node j).map (StatusWrite.recorded j)).toList = _ at h
    cases hrecorded : a.recorded? node j with
    | none =>
      rw [hrecorded] at h
      cases before <;> cases h
    | some t' =>
      rw [hrecorded] at h
      cases before with
      | nil =>
        obtain ⟨rfl, rfl⟩ := StatusWrite.recorded.inj (List.cons.inj h).1
        exact ⟨rfl, hrecorded⟩
      | cons w before => simp at h
  | _ => cases hmem

/-! ## What leaves the status alone -/

/-- Nothing is written into the record of a node. -/
structure Spares (a a' : Agent σ) (node : NodeId) : Prop where
  nodeId : a'.nodeId = a.nodeId
  status : a'.registry.store.status? node = a.registry.store.status? node

namespace Spares

theorem refl (a : Agent σ) (node : NodeId) : Spares a a node := ⟨rfl, rfl⟩

theorem trans (h : Spares a a' node) (h' : Spares a' a'' node) : Spares a a'' node :=
  ⟨h'.nodeId.trans h.nodeId, h'.status.trans h.status⟩

theorem ne_of_isHere (hnode : a.isHere node = false) (hother : a.isHere other = true) :
    other ≠ node := by
  rintro rfl
  rw [hnode] at hother
  cases hother

theorem setStatus (hnode : a.isHere node = false) (hne : other ≠ node) (t : NodeStatus) :
    Spares a (a.setStatus other t).2 node := by
  have hname : (if other = "" then a.nodeId else other) ≠ node := by
    split
    · rintro rfl
      simp [isHere] at hnode
    · exact hne
  unfold Agent.setStatus
  dsimp only
  split
  · exact ⟨rfl, rfl⟩
  · refine ⟨rfl, ?_⟩
    rw [NodeStore.status?_setStatus, if_neg fun h ↦ hname h.1]

theorem conclude (hnode : a.isHere node = false) {r : Request} (hne : r.node ≠ node)
    (response : Response) : Spares a (a.conclude r response).2 node := by
  unfold Agent.conclude
  split
  · exact refl a node
  · split
    · exact refl a node
    · exact setStatus hnode hne _

theorem carryOut (hnode : a.isHere node = false) {r : Request} (hhere : a.isHere r.node = true)
    (subject : Except ServiceError String) : Spares a (a.carryOut r subject).2 node := by
  unfold Agent.carryOut
  split
  · exact ⟨rfl, rfl⟩
  · generalize a.site.perform r a.world = performed
    have hworld : Spares a { a with world := performed.2 } node := ⟨rfl, rfl⟩
    have hconcluded := conclude (a := { a with world := performed.2 }) hnode
      (ne_of_isHere hnode hhere) (r.emptyResponse.embed performed.1)
    exact hworld.trans hconcluded

theorem relay (a : Agent σ) (node : NodeId) : Spares a a.relay node := ⟨rfl, rfl⟩

theorem administer (hnode : a.isHere node = false) (r : Request) :
    Spares a (a.administer r).2 node := by
  have hforward : ∀ r, Spares a (a.forward r) node := fun r ↦ ⟨rfl, rfl⟩
  unfold Agent.administer
  dsimp only
  split
  · split
    · exact refl a node
    · split
      · rename_i hhere
        exact carryOut hnode hhere (.ok _)
      · exact hforward _
  · split
    · rename_i hhere
      exact carryOut hnode hhere (.ok _)
    · exact hforward _

theorem respond (hnode : a.isHere node = false) (rpc : Rpc) : Spares a (a.respond rpc).2 node := by
  unfold Agent.respond
  split
  · exact refl a node
  · exact refl a node
  · split <;> exact refl a node
  · split <;> exact refl a node
  · split <;> exact refl a node
  · split <;> exact refl a node
  · exact refl a node
  · exact refl a node
  · exact administer hnode _
  · exact refl a node
  · exact refl a node
  · split
    · exact refl a node
    · exact ⟨rfl, rfl⟩
  · split
    · exact refl a node
    · exact ⟨rfl, rfl⟩

theorem call (hnode : a.isHere node = false) (l : Listener) (rpc : Rpc) :
    Spares a (a.call l rpc).2 node := by
  unfold Agent.call
  split
  · exact (respond hnode rpc).trans (relay _ node)
  · exact refl a node

theorem subscribe (a : Agent σ) (l : Listener) (topic : Topic) (node : NodeId) :
    Spares a (a.subscribe l topic).2 node := by
  unfold Agent.subscribe
  split
  · exact refl a node
  · split
    · exact ⟨rfl, rfl⟩
    · exact ⟨rfl, rfl⟩
    · split
      · exact refl a node
      · exact ⟨rfl, rfl⟩

theorem unsubscribe (a : Agent σ) (h : SubscriptionHandle) (node : NodeId) :
    Spares a (a.unsubscribe h) node := by
  cases h <;> exact ⟨rfl, rfl⟩

theorem readEvents (a : Agent σ) (limit : Nat) (h : SubscriptionHandle) (node : NodeId) :
    Spares a (a.readEvents limit h).2 node := by
  cases h with
  | nodes k => exact ⟨rfl, rfl⟩
  | subjects k => exact ⟨rfl, rfl⟩
  | certs id =>
    unfold Agent.readEvents
    dsimp only
    split <;> exact ⟨rfl, rfl⟩

end Spares

/-! ## What a forwarded request records -/

theorem recording?_eq_some : f.recording? = some t ↔ f.outcome = none ∧ ∃ response since,
    f.retry.phase = .finished (.ok response) since ∧ response.error = none ∧
      f.request.target? = some t := by
  unfold Forward.recording?
  split
  · rename_i response since houtcome hphase
    rw [houtcome, hphase]
    cases herror : response.error <;> simp [herror]
  · rename_i hno
    constructor
    · exact nofun
    · rintro ⟨houtcome, response, since, hphase, -⟩
      exact (hno response since houtcome hphase).elim

/-- What a request records for a node is its own doing. -/
theorem recorded?_eq_some (h : a.recorded? node n = some t) : ∃ f, a.forwards[n]? = some f ∧
    f.request.node = node ∧ f.recording? = some t ∧
      (a.registry.store.setStatus node t).1.isOk = true := by
  obtain ⟨hbind, hok⟩ := Option.filter_eq_some_iff.mp h
  obtain ⟨f, hf, hrecording⟩ := Option.bind_eq_some_iff.mp hbind
  obtain ⟨hf, hnode⟩ := Option.filter_eq_some_iff.mp hf
  exact ⟨f, hf, of_decide_eq_true hnode, hrecording, hok⟩

theorem recorded?_of_forward (hf : a.forwards[n]? = some f) :
    a.recorded? node n = if f.request.node = node then f.recording?.filter fun t ↦
      (a.registry.store.setStatus node t).1.isOk else none := by
  rw [recorded?, hf]
  split
  · rename_i hnode
    rw [Option.filter_some, if_pos (decide_eq_true hnode)]
    rfl
  · rename_i hnode
    rw [Option.filter_some, if_neg (by simpa using hnode)]
    rfl

theorem status?_setStatus (hnode : a.isHere node = false) (t : NodeStatus) :
    (a.setStatus node t).2.nodeId = a.nodeId ∧
      (a.setStatus node t).2.registry.store.status? node =
        ((some t).filter fun t ↦ (a.registry.store.setStatus node t).1.isOk).or
          (a.registry.store.status? node) := by
  have hname : (if node = "" then a.nodeId else node) = node := by
    refine if_neg ?_
    rintro rfl
    simp [isHere] at hnode
  unfold setStatus
  rw [hnode]
  refine ⟨rfl, ?_⟩
  change NodeStore.status? (a.registry.store.setStatus
    (if node = "" then a.nodeId else node) t).2 node = _
  rw [hname, NodeStore.status?_setStatus, Option.filter_some]
  split
  · rename_i h
    rw [if_pos h.2]
    rfl
  · rename_i h
    rw [if_neg fun hok ↦ h ⟨rfl, hok⟩]
    rfl

/-- What going on makes of the status of a node: a request whose peer is answered records it. -/
theorem status?_goOn (hnode : a.isHere node = false) (hf : a.forwards[n]? = some f)
    (now : Instant) :
    (a.goOn n f now).nodeId = a.nodeId ∧ (a.goOn n f now).registry.store.status? node =
      (a.recorded? node n).or (a.registry.store.status? node) := by
  rw [recorded?_of_forward hf]
  -- a request that is not about to answer its peer records nothing
  have hidle : ∀ {a'}, Spares a a' node → f.recording? = none → a'.nodeId = a.nodeId ∧
      a'.registry.store.status? node = (if f.request.node = node then f.recording?.filter fun t ↦
        (a.registry.store.setStatus node t).1.isOk else none).or
          (a.registry.store.status? node) := by
    intro a' hspares hnone
    refine ⟨hspares.nodeId, ?_⟩
    rw [hspares.status, hnone]
    split <;> rfl
  have hrunning : (∀ response since, f.retry.phase ≠ .finished (.ok response) since) →
      f.recording? = none := by
    intro h
    refine Option.eq_none_iff_forall_ne_some.mpr fun t ht ↦ ?_
    obtain ⟨-, response, since, hphase, -⟩ := recording?_eq_some.mp ht
    exact h response since hphase
  unfold goOn
  split
  · rename_i hphase _ _
    exact hidle ⟨rfl, rfl⟩ (hrunning (by simp [hphase]))
  · unfold stepForward
    split
    · rename_i hphase
      exact hidle ⟨rfl, rfl⟩ (hrunning (by simp [hphase]))
    · rename_i hphase
      refine hidle ?_ (hrunning (by simp [hphase]))
      split
      · unfold attempt
        split <;> exact ⟨rfl, rfl⟩
      · split <;> exact ⟨rfl, rfl⟩
    · rename_i hphase
      exact hidle ⟨rfl, rfl⟩ (hrunning (by simp [hphase]))
    · rename_i result since hphase
      split
      · rename_i houtcome
        refine hidle (.refl a node) (Option.eq_none_iff_forall_ne_some.mpr fun t ht ↦ ?_)
        rw [(recording?_eq_some.mp ht).1] at houtcome
        cases houtcome
      · rename_i houtcome
        have hnone : f.outcome = none := by simpa using houtcome
        unfold answerForward
        split
        · exact hidle ⟨rfl, rfl⟩ (hrunning (by simp [hphase]))
        · rename_i response
          have hrecording : f.recording? =
              if response.error.isSome then none else f.request.target? := by
            rw [Forward.recording?, hnone, hphase]
          by_cases hown : f.request.node = node
          · subst hown
            change (a.conclude f.request response).2.nodeId = _ ∧
              (a.conclude f.request response).2.registry.store.status? f.request.node = _
            rw [if_pos rfl, hrecording]
            unfold conclude
            split
            · rename_i htarget
              rw [htarget, ite_self]
              exact ⟨rfl, rfl⟩
            · rename_i t htarget
              split
              · exact ⟨rfl, rfl⟩
              · rw [htarget]
                exact status?_setStatus hnode t
          · rw [if_neg hown]
            exact ⟨(Spares.conclude hnode hown response).nodeId,
              (Spares.conclude hnode hown response).status⟩

/-! ## The stored status -/

/-- **The stored status of a node after a move is that of the last of its writes**, as long as the
store is not changed from outside and takes what the node tells. -/
theorem status?_step (hnode : a.isHere node = false)
    (hstore : ∀ store, m = .registry (.store store) →
      store.status? node = a.registry.store.status? node)
    (haccepts : ∀ q, m = .registry q → ∀ p ∈ a.registry.intake q, p.2.nodeId = node →
      a.registry.accepts p = true) :
    (a.step m).nodeId = a.nodeId ∧ (a.step m).registry.store.status? node =
      ((a.writes node m).filterMap (·.status?)).getLast?.or (a.registry.store.status? node) := by
  have hspares : ∀ {a'}, Spares a a' node → a'.nodeId = a.nodeId ∧
      a'.registry.store.status? node = (([] : List StatusWrite).filterMap
        (·.status?)).getLast?.or (a.registry.store.status? node) :=
    fun h ↦ ⟨h.nodeId, h.status⟩
  cases m with
  | goOn n now =>
    change (((a.forwards[n]?).map fun f ↦ a.goOn n f now).getD a).nodeId = _ ∧
      (((a.forwards[n]?).map fun f ↦ a.goOn n f now).getD a).registry.store.status? node =
        (((a.recorded? node n).map (StatusWrite.recorded n)).toList.filterMap
          StatusWrite.status?).getLast?.or _
    cases hf : a.forwards[n]? with
    | none =>
      rw [recorded?, hf]
      exact ⟨rfl, rfl⟩
    | some f =>
      obtain ⟨hsame, hstatus⟩ := status?_goOn hnode hf now
      refine ⟨hsame, hstatus.trans ?_⟩
      cases a.recorded? node n <;> rfl
  | registry q =>
    refine ⟨rfl, ?_⟩
    by_cases hq : ∃ store, q = .store store
    · obtain ⟨store, rfl⟩ := hq
      exact hstore store rfl
    · have hwrites : ((a.writes node (.registry q)).filterMap (·.status?)) =
          ((a.registry.intake q).filter fun p ↦ p.2.nodeId = node ∧
            (a.registry.store.setInfo p.2).1.isOk).map (·.2.status) := by
        change (((a.registry.intake q).filter (·.2.nodeId = node)).map fun p ↦
          StatusWrite.told p.1 p.2 (a.registry.store.setInfo p.2).1.isOk).filterMap _ = _
        induction a.registry.intake q with
        | nil => rfl
        | cons p ps ih =>
          by_cases hown : p.2.nodeId = node
          · by_cases hok : (a.registry.store.setInfo p.2).1.isOk = true
            · simp_all [StatusWrite.status?]
            · simp_all [StatusWrite.status?]
          · simp_all
      rw [hwrites, List.getLast?_map]
      exact a.registry.status?_step (fun store h ↦ hq ⟨store, h⟩) (haccepts q rfl)
  | call l rpc => exact hspares (.call hnode l rpc)
  | subscribe l topic => exact hspares (.subscribe a l topic node)
  | unsubscribe h => exact hspares (.unsubscribe a h node)
  | readEvents limit h => exact hspares (.readEvents a limit h node)
  | relay => exact hspares (.relay a node)
  | close => exact hspares ⟨rfl, rfl⟩
  | reopen => exact hspares ⟨rfl, rfl⟩
  | world w => exact hspares ⟨rfl, rfl⟩

end Agent

end NodeAgent
