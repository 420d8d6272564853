import NodeAgent.Proofs.Agent.Concluding
import NodeAgent.Proofs.Node.Reliable

/-!
# Halfway

The status of the own node is kept by its services and in the store, and a request that leads to a
status writes it with both, the services first. Nothing is taken back. So a request that fails has
changed neither of the two, but for one case: the services took the status and the store did not
(`Torn`). Whoever asked is told of the failure then, and the node has the status all the same.

That case takes a store that is out or has no record of the own node, so while the store works the
two stay together.

## Main statements

* `Ends.cases_of_here`: the ways a request for the own node ends.
* `parts_call`: what has become of the two, whatever failed.
* `paused_unrecorded`: the node that paused and is not known to have paused.
-/

namespace NodeAgent.Agent

variable {σ : Type} {a b : Agent σ} {r : Request} {t : NodeStatus} {response ended : Response}
  {ps : List Posting} {status : σ → NodeStatus} {e : ServiceError}

/-- The services take the status that a request leads to, and the store does not. -/
structure Torn (a : Agent σ) (r : Request) (t : NodeStatus) (e : ServiceError) : Prop where
  performed : (a.site.perform r a.world).1 = .ok ()
  taken : (a.site.setStatus t (a.site.perform r a.world).2).1 = .ok ()
  lost : (a.registry.store.setStatus a.nodeId t).1 = .error e

/-- What has become of the two statuses of the own node once the peer is told how its request
ended. -/
structure Parts (status : σ → NodeStatus) (a : Agent σ) (r : Request) (t : NodeStatus)
    (ended : Response) (a' : Agent σ) : Prop where
  /-- Without a failure both are the one that the request leads to. -/
  done : ended.error = none →
    status a'.world = t ∧ a'.registry.store.status? a.nodeId = some t
  /-- With a failure the stored one is as it was, -/
  stored : ended.error ≠ none →
    a'.registry.store.status? a.nodeId = a.registry.store.status? a.nodeId
  /-- and so is the one of the services, unless they took the new one and the store did not. -/
  intact : ended.error ≠ none → (∀ e, ¬a.Torn r t e) → status a'.world = status a.world
  /-- In that case the peer is told of the store's failure, and the services keep the new status. -/
  torn : ∀ e, a.Torn r t e → ended = r.emptyResponse.withError e.toInfo ∧ status a'.world = t
  /-- Two that agreed come apart through a request that failed exactly if the services had another
  status then. -/
  apart : a.registry.store.status? a.nodeId = some (status a.world) → ended.error ≠ none →
    (a'.registry.store.status? a.nodeId ≠ some (status a'.world) ↔
      (∃ e, a.Torn r t e) ∧ status a.world ≠ t)
  /-- As long as the store works and has the own record, a failure means that no status changed. -/
  whole : a.KeepsOwn → ended.error ≠ none → status a'.world = status a.world ∧
    a'.registry.store.status? a.nodeId = a.registry.store.status? a.nodeId

/-- **The ways a request for the own node ends**, after an action with a given response. -/
theorem Ends.cases_of_here (h : Ends a r t response ps ended b) (hhere : a.isHere r.node = true) :
    (response.error ≠ none ∧ ended = response ∧ b = a) ∨ response.error = none ∧
      ((∃ e, (a.site.setStatus t a.world).1 = .error e ∧ ended = response.withError e.toInfo ∧
        b = (a.post t .site).2) ∨
      ((a.site.setStatus t a.world).1 = .ok () ∧
        ended = response.embed (a.registry.store.setStatus a.nodeId t).1 ∧
        b = ((a.post t .site).2.post t (.store a.nodeId)).2)) := by
  by_cases herror : response.error = none
  · refine Or.inr ⟨herror, ?_⟩
    have hposts := h.posts
    rcases h.here herror hhere with ⟨e, rfl⟩ | ⟨result, rfl⟩
    · left
      have htold := h.told _ (List.mem_singleton_self _) e rfl
      cases hposts with
      | cons hsite hnil =>
        cases hnil
        exact ⟨e, congrArg Prod.fst hsite, htold, (congrArg Prod.snd hsite).symm⟩
    · right
      have hlast : (⟨.store a.nodeId, result⟩ : Posting) ∈
          [⟨.site, .ok ()⟩, ⟨.store a.nodeId, result⟩] := List.mem_cons_of_mem _ List.mem_cons_self
      have hended : ended = response.embed result := by
        cases result with
        | error e => exact h.told _ hlast e rfl
        | ok _ =>
          refine h.unchanged fun p hp ↦ ?_
          rcases List.mem_cons.mp hp with rfl | hp
          · rfl
          · rw [List.mem_singleton.mp hp]
      cases hposts with
      | cons hsite hthen =>
        cases hthen with
        | cons hstore hnil =>
          cases hnil
          obtain rfl := congrArg Prod.snd hsite
          obtain ⟨rfl, rfl⟩ := Prod.mk.inj hstore
          exact ⟨congrArg Prod.fst hsite, hended, rfl⟩
  · left
    have hposts := h.posts
    obtain rfl := h.failed herror
    cases hposts
    exact ⟨herror, h.unchanged nofun, rfl⟩

/-- How a request ended: before it changed a status, between the two, or after both. -/
inductive Fate (status : σ → NodeStatus) (a : Agent σ) (r : Request) (t : NodeStatus)
    (ended : Response) (a' : Agent σ) : Prop where
  | before : (∀ e, ¬a.Torn r t e) → ended.error ≠ none → status a'.world = status a.world →
    a'.registry.store.status? a.nodeId = a.registry.store.status? a.nodeId →
    Fate status a r t ended a'
  | between {e : ServiceError} : a.Torn r t e → ended = r.emptyResponse.withError e.toInfo →
    status a'.world = t →
    a'.registry.store.status? a.nodeId = a.registry.store.status? a.nodeId →
    Fate status a r t ended a'
  | after : (∀ e, ¬a.Torn r t e) → ended.error = none → status a'.world = t →
    a'.registry.store.status? a.nodeId = some t → Fate status a r t ended a'

theorem fate_of_ends (h : a.site.KeepsStatus status) (hhere : a.isHere r.node = true)
    (hends : Ends { a with world := (a.site.perform r a.world).2 } r t
      (r.emptyResponse.embed (a.site.perform r a.world).1) ps ended b) :
    Fate status a r t ended b := by
  have hperformed := h.performed r a.world
  have hfailed : ∀ (e : ServiceError) (response : Response),
      (response.withError e.toInfo).error ≠ none := fun e response ↦ by
    rw [Response.error_withError]
    exact Option.some_ne_none _
  rcases hends.cases_of_here hhere with ⟨herror, hended, hb⟩ | ⟨herror, ⟨e, hset, hended, hb⟩ |
    ⟨hset, hended, hb⟩⟩
  · -- the action failed
    cases hresult : (a.site.perform r a.world).1 with
    | ok _ =>
      rw [hresult] at herror
      exact absurd (by cases r <;> rfl) herror
    | error e =>
      refine .before (fun e' htorn ↦ ?_) (hended ▸ herror) (hb ▸ hperformed) (by rw [hb])
      cases hresult.symm.trans htorn.performed
  · -- the services did not take the status
    have hkept : status b.world = status (a.site.perform r a.world).2 :=
      hb ▸ h.failed t _ e _ (Prod.ext hset rfl)
    have hsame : b.registry.store = a.registry.store := by
      rw [hb]
      rfl
    refine .before (fun e' htorn ↦ ?_) (hended ▸ hfailed e _) (hkept.trans hperformed)
      (by rw [hsame])
    cases hset.symm.trans htorn.taken
  · -- the services took the status, and the rest is with the store
    have htaken : status b.world = t := hb ▸ h.set t _ _ (Prod.ext hset rfl)
    have hstored : b.registry.store = (a.registry.store.setStatus a.nodeId t).2 := by
      rw [hb]
      rfl
    have hresult : (a.site.perform r a.world).1 = .ok () := by
      cases hresult : (a.site.perform r a.world).1 with
      | ok _ => rfl
      | error e =>
        rw [hresult] at herror
        exact absurd herror (hfailed e _)
    have hstatus := a.registry.store.status?_setStatus a.nodeId t a.nodeId
    rw [← hstored] at hstatus
    rw [hresult] at hended
    cases hlost : (a.registry.store.setStatus a.nodeId t).1 with
    | ok _ =>
      rw [hlost] at hended hstatus
      refine .after (fun e htorn ↦ ?_) ?_ htaken (hstatus.trans (if_pos ⟨rfl, rfl⟩))
      · cases hlost.symm.trans htorn.lost
      · rw [hended]
        cases r <;> rfl
    | error e =>
      rw [hlost] at hended hstatus
      exact .between ⟨hresult, hset, hlost⟩ hended htaken
        (hstatus.trans (if_neg fun h ↦ Bool.false_ne_true h.2))

theorem Posts.site (h : Posts t a ps b) : b.site = a.site := by
  induction h with
  | nil a => rfl
  | @cons a b a' keeper result ps hpost _ ih =>
    obtain rfl := congrArg Prod.snd hpost
    rw [ih]
    cases keeper <;> rfl

theorem Torn.unique {e' : ServiceError} (h : a.Torn r t e) (h' : a.Torn r t e') : e = e' :=
  Except.error.inj (h.lost.symm.trans h'.lost)

theorem Fate.parts (h : Fate status a r t ended b) : Parts status a r t ended b := by
  have hwhole : a.KeepsOwn → ∀ e, ¬a.Torn r t e := fun hown e htorn ↦ by
    cases htorn.lost.symm.trans (setStatus_of_keepsOwn hown t).1
  cases h with
  | before hnot herror hsame hstored =>
    exact
      { done := fun hnone ↦ absurd hnone herror
        stored := fun _ ↦ hstored
        intact := fun _ _ ↦ hsame
        torn := fun e htorn ↦ absurd htorn (hnot e)
        apart := fun hagree _ ↦ by
          rw [hstored, hsame, hagree]
          exact ⟨fun hne ↦ absurd rfl hne, fun h ↦ absurd h.1.choose_spec (hnot _)⟩
        whole := fun _ _ ↦ ⟨hsame, hstored⟩ }
  | @between e htorn hended hstatus hstored =>
    have herror : ended.error ≠ none := by
      rw [hended, Response.error_withError]
      exact Option.some_ne_none _
    exact
      { done := fun hnone ↦ absurd hnone herror
        stored := fun _ ↦ hstored
        intact := fun _ hnot ↦ absurd htorn (hnot e)
        torn := fun e' htorn' ↦ ⟨htorn.unique htorn' ▸ hended, hstatus⟩
        apart := fun hagree _ ↦ by
          rw [hstored, hstatus, hagree, ne_eq, Option.some.injEq]
          exact ⟨fun hne ↦ ⟨⟨e, htorn⟩, hne⟩, And.right⟩
        whole := fun hown _ ↦ absurd htorn (hwhole hown e) }
  | after hnot hnone hstatus hstored =>
    exact
      { done := fun _ ↦ ⟨hstatus, hstored⟩
        stored := fun herror ↦ absurd hnone herror
        intact := fun herror ↦ absurd hnone herror
        torn := fun e htorn ↦ absurd htorn (hnot e)
        apart := fun _ herror ↦ absurd hnone herror
        whole := fun _ herror ↦ absurd hnone herror }

/-- Handing on what changed changes no status. -/
theorem Fate.relay (h : Fate status a r t ended b)
    (hcerts : ∀ index w, status (b.site.putCerts index w) = status w) :
    Fate status a r t ended b.relay := by
  have hworld : status b.relay.world = status b.world := hcerts _ _
  cases h with
  | before hnot herror hsame hstored => exact .before hnot herror (hworld.trans hsame) hstored
  | between htorn hended hstatus hstored =>
    exact .between htorn hended (hworld.trans hstatus) hstored
  | after hnot hnone hstatus hstored => exact .after hnot hnone (hworld.trans hstatus) hstored

/-- **What has become of the two statuses of the own node**, whatever failed. -/
theorem parts_call (h : a.site.KeepsStatus status)
    (hcerts : ∀ index w, status (a.site.putCerts index w) = status w) (hmain : a.isMain = true)
    (htarget : r.target? = some t) (hname : r.node = "" ∨ r.node = a.nodeId) :
    ∃ ended, (a.call .protectedSide (.administer r)).1 = .answered (.ok (.response ended)) ∧
      Parts status a r t ended (a.call .protectedSide (.administer r)).2 := by
  have hhere := isHere_iff.mpr hname
  obtain ⟨ps, ended, b, hends, hcall⟩ := exists_call_here hmain htarget hhere
  have hsite : b.site = a.site := hends.posts.site
  have hfate := (fate_of_ends h hhere hends).relay (hsite ▸ hcerts)
  rw [hcall]
  exact ⟨ended, rfl, hfate.parts⟩

/-- The disk of the store fails. -/
def diskOutage (a : Agent Rehearsal) : List (Move Rehearsal) :=
  [.registry (.store { a.registry.store with outage := some (.failed "disk" 0) })]

/-- A node in service is to pause while the store is out, and the peer is told that this failed. -/
theorem parts_call_outage :
    ∃ a, Agent.new (Rehearsal.site false) {} tallies
        { firstFrameTimeout := .ofSeconds 30, store := {} } none mainWorld = .ok a ∧
      (a.run (diskOutage a)).Torn (.pauseNode "") .paused (.failed "disk" 0) ∧
      ∃ ended, ended.error = some ⟨1, 0, "disk"⟩ ∧
        Parts (fun w ↦ w.node.status) (a.run (diskOutage a)) (.pauseNode "") .paused ended
          ((a.run (diskOutage a)).call .protectedSide (.administer (.pauseNode ""))).2 := by
  have hrun : ∃ a, Agent.new (Rehearsal.site false) {} tallies
      { firstFrameTimeout := .ofSeconds 30, store := {} } none mainWorld = .ok a ∧
      (a.run (diskOutage a)).site = Rehearsal.site false ∧ (a.run (diskOutage a)).isMain = true ∧
      (a.run (diskOutage a)).Torn (.pauseNode "") .paused (.failed "disk" 0) :=
    ⟨_, rfl, rfl, rfl, rfl, rfl, rfl⟩
  obtain ⟨a, hnew, hsite, hmain, htorn⟩ := hrun
  have hkeeps : (a.run (diskOutage a)).site.KeepsStatus fun w ↦ w.node.status := by
    rw [hsite]
    exact (Rehearsal.reliable false "main").toKeepsStatus
  have hcerts : ∀ index w,
      ((a.run (diskOutage a)).site.putCerts index w).node.status = w.node.status := by
    rw [hsite]
    exact fun _ _ ↦ rfl
  obtain ⟨ended, -, hparts⟩ := parts_call (r := .pauseNode "") hkeeps hcerts hmain rfl (Or.inl rfl)
  have hended := (hparts.torn _ htorn).1
  exact ⟨a, hnew, htorn, ended, by rw [hended, Response.error_withError]; rfl, hparts⟩

/-- **An embedded failure does not mean that no status changed**: the node paused, its peer was told
that it did not, and the store has it in service. -/
theorem paused_unrecorded :
    ∃ a, Agent.new (Rehearsal.site false) {} tallies
        { firstFrameTimeout := .ofSeconds 30, store := {} } none mainWorld = .ok a ∧
      let before := a.run (diskOutage a)
      let after := (before.call .protectedSide (.administer (.pauseNode ""))).2
      (before.call .protectedSide (.administer (.pauseNode ""))).1 =
        .answered (.ok (.response (.pauseNode (some ⟨1, 0, "disk"⟩)))) ∧
      before.world.node.status = .provisioned ∧
      before.registry.store.status? "main" = some .provisioned ∧
      after.world.node.status = .paused ∧
      after.registry.store.status? "main" = some .provisioned :=
  ⟨_, rfl, rfl, rfl, rfl, rfl, rfl⟩

end NodeAgent.Agent
