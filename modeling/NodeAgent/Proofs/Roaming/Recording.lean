import NodeAgent.Proofs.Roaming.Attribution

/-!
# The stored status of a node that pauses and resumes

Two write the status that the main node stores for a node, its readers and the requests that were
forwarded, and nothing orders them. A request is served, its report is read and stored, and the
request may wake up and record its target long after: by then a later report may be stored, and the
target replaces it.

So the stored status is that of the last write that the store took, and not always that of the last
report. Still, whatever a request records the node had reported before, so every status that is
written is one that the node said it had. The stored one differs from the one reported last only if
the store was out when that report came, or if a request whose own report is an earlier one was the
last to write.

## Main statements

* `Logged.step`: what every move keeps of the writes along a run.
* `recorded_run`: what the main node stores, at any moment of any run.
-/

namespace NodeAgent.Roaming

variable {σ τ : Type} {s : Roaming σ τ} {node : NodeId} {status : τ → NodeStatus}
  {sound : τ → Prop} {reports : List (Nat × NodeInfo)} {log : List StatusWrite}
  {first : Option NodeStatus} {k n : Nat} {t : NodeStatus} {mv : Move σ}

/-! ## The writes along a run -/

/-- The writes of the status of a node in a move, first to last. -/
def writes (s : Roaming σ τ) (node : NodeId) : Move σ → List StatusWrite
  | .main m => if s.permits m then s.main.writes node m else []
  | _ => []

/-- The writes of the status of a node along a run. -/
def written (s : Roaming σ τ) (node : NodeId) : List (Move σ) → List StatusWrite
  | [] => []
  | mv :: moves => s.writes node mv ++ (s.step mv).written node moves

theorem written_concat (s : Roaming σ τ) (node : NodeId) (moves : List (Move σ)) (mv : Move σ) :
    s.written node (moves ++ [mv]) = s.written node moves ++ (s.run moves).writes node mv := by
  induction moves generalizing s with
  | nil => simp [written, run]
  | cons mv' moves ih =>
    rw [List.cons_append, written, ih, written, List.append_assoc]
    rfl

/-- What a move takes in of a node, and nothing else, is told in its writes. -/
theorem told_writes (s : Roaming σ τ) (node : NodeId) (mv : Move σ) :
    (s.writes node mv).filterMap (·.told?) = (s.intake mv).filter (·.2.nodeId = node) := by
  cases mv with
  | main m =>
    cases m with
    | registry q =>
      change (if s.permits (.registry q) then
          s.main.writes node (.registry q) else []).filterMap _ =
        (if s.permits (.registry q) then s.main.registry.intake q else []).filter _
      split
      · exact s.main.told_writes_registry node q
      · rfl
    | goOn n now => exact s.main.told_writes_goOn node n now
    | _ => rfl
  | _ => rfl

theorem mem_intake_of_told {info : NodeInfo} {kept : Bool}
    (h : .told k info kept ∈ s.writes node mv) :
    (k, info) ∈ s.intake mv ∧ info.nodeId = node := by
  have hmem : (k, info) ∈ (s.writes node mv).filterMap (·.told?) :=
    List.mem_filterMap.mpr ⟨_, h, rfl⟩
  rw [told_writes] at hmem
  exact ⟨List.mem_of_mem_filter hmem, of_decide_eq_true (List.mem_filter.mp hmem).2⟩

theorem exists_intake_of_mem {p : Nat × NodeInfo} (h : p ∈ s.intake mv) :
    ∃ q, p ∈ s.main.registry.intake q := by
  unfold intake at h
  split at h
  · split at h
    · exact ⟨_, h⟩
    · cases h
  · cases h

/-- A request records in a move of its own, and nothing is written before it. -/
theorem eq_of_recorded {before after : List StatusWrite}
    (h : s.writes node mv = before ++ .recorded n t :: after) :
    before = [] ∧ s.main.recorded? node n = some t := by
  cases mv with
  | main m =>
    rw [writes] at h
    split at h
    · exact Agent.eq_of_recorded h
    · cases before <;> cases h
  | _ => cases before <;> cases h

/-! ## What the writes make of the stored status -/

/-- **The stored status after a move** is that of the last of its writes. -/
theorem status?_step (hs : Followed s node status sound reports) (ha : s.Attributed node)
    (hcalm : s.IsCalm node) (hnode : s.main.isHere node = false)
    (hmv : s.respects node mv = true) :
    (s.step mv).main.nodeId = s.main.nodeId ∧
      (s.step mv).main.registry.store.status? node =
        ((s.writes node mv).filterMap (·.status?)).getLast?.or
          (s.main.registry.store.status? node) := by
  have hmain := s.mainStep mv
  generalize (s.step mv).main = a at hmain ⊢
  cases hmain with
  | @own m hpermits =>
    rw [writes, if_pos hpermits]
    refine Agent.status?_step hnode (fun store hm ↦ ?_) fun q hm p hp hown ↦ ?_
    · subst hm
      exact of_decide_eq_true hmv
    · subst hm
      exact (ha.accepts_of_intake hs hcalm hp hown).1
  | rests hrefused =>
    have hnone : s.writes node mv = [] := by
      cases mv with
      | main m => exact if_neg (Bool.eq_false_iff.mp (hrefused m rfl))
      | _ => rfl
    rw [hnone]
    exact ⟨rfl, rfl⟩
  | @carried _ q hmain hq =>
    have hnone : s.writes node mv = [] := by
      cases mv with
      | main m => exact absurd rfl (hmain m)
      | _ => rfl
    obtain ⟨hintake, hstore⟩ : s.main.registry.intake q = [] ∧ ∀ store, q ≠ .store store := by
      cases hq <;> exact ⟨rfl, nofun⟩
    refine ⟨rfl, ?_⟩
    have hsame : (s.main.registry.step q).store.status? node = _ :=
      s.main.registry.status?_step hstore (by simp [hintake])
    rw [hintake] at hsame
    rw [hnone]
    exact hsame

/-! ## What is kept of the writes -/

/-- What was executed and what was called stays on record. -/
theorem history_step (s : Roaming σ τ) (mv : Move σ) :
    s.executed ⊆ (s.step mv).executed ∧ ∀ n, s.calls n ⊆ (s.step mv).calls n := by
  have hact : ∀ m n, s.calls n ⊆ (s.act m).calls n := fun m n ↦ List.subset_append_left _ _
  have hrefl : s.executed ⊆ s.executed ∧ ∀ n, s.calls n ⊆ s.calls n :=
    ⟨List.Subset.refl _, fun n ↦ List.Subset.refl _⟩
  cases mv with
  | main m =>
    change s.executed ⊆ (if s.permits m then { s with toAssembly := s.act m } else s).executed ∧
      ∀ n, s.calls n ⊆ (if s.permits m then { s with toAssembly := s.act m } else s).calls n
    split
    · exact ⟨hrefl.1, hact m⟩
    · exact hrefl
  | reached now =>
    change s.executed ⊆ (s.reach now).executed ∧ ∀ n, s.calls n ⊆ (s.reach now).calls n
    unfold reach
    split
    · exact ⟨hrefl.1, hact _⟩
    · exact hrefl
  | fetch k =>
    change s.executed ⊆ (s.toAssembly.fetch k).executed ∧
      ∀ n, s.calls n ⊆ (s.toAssembly.fetch k).calls n
    unfold Assembly.fetch
    split
    · exact hrefl
    · split
      · exact ⟨hrefl.1, hact _⟩
      · exact hrefl
  | serve now =>
    change s.executed ⊆ (s.serve now).executed ∧ ∀ n, s.calls n ⊆ (s.serve now).calls n
    unfold Roaming.serve
    split
    · rename_i hdown
      rw [Assembly.serve_of_down hdown]
      exact ⟨List.subset_append_left _ _, hrefl.2⟩
    · exact hrefl
  | pass k =>
    change s.executed ⊆ (s.toAssembly.pass k).executed ∧
      ∀ n, s.calls n ⊆ (s.toAssembly.pass k).calls n
    unfold Assembly.pass
    split
    · exact hrefl
    · split
      · exact hrefl
      · exact ⟨hrefl.1, hact _⟩
  | _ => exact hrefl

theorem executionsOf_step (hs : Followed s node status sound reports) (mv : Move σ) (n : Nat) :
    s.executionsOf n ⊆ (s.step mv).executionsOf n := by
  obtain ⟨hexecuted, hcalls⟩ := s.history_step mv
  obtain ⟨q, hq⟩ := s.exists_registry_step mv
  intro e he
  obtain ⟨he, hof⟩ := List.mem_filter.mp he
  obtain ⟨p, hp, hcall⟩ := List.any_eq_true.mp hof
  cases hc : s.main.registry.call? p with
  | none =>
    rw [hc] at hcall
    cases hcall
  | some c =>
    rw [hc] at hcall
    obtain ⟨c', hc', hev⟩ := Registry.evolves_step hs.accounted.steady.consistent q hc
    refine List.mem_filter.mpr ⟨hexecuted he, List.any_eq_true.mpr ⟨p, hcalls n hp, ?_⟩⟩
    rw [hq, hc', Option.any_some, hev.id]
    exact hcall

/-- The node executed a request and reported a status with it, and that report is among the
writes. -/
def Reported (s : Roaming σ τ) (n : Nat) (t : NodeStatus) (log : List StatusWrite) : Prop :=
  ∃ e ∈ s.executionsOf n, ∃ info kept, .told e.session info kept ∈ log ∧ info.status = t ∧
    ⟨"", some (.info info)⟩ ∈ e.reply.frames

/-- What is kept of the writes of the status of a node. -/
structure Logged (s : Roaming σ τ) (node : NodeId) (first : Option NodeStatus)
    (reports : List (Nat × NodeInfo)) (log : List StatusWrite) : Prop where
  remote : s.main.isHere node = false
  /-- What was taken in of the node is told, in order. -/
  told : log.filterMap (·.told?) = reports.filter (·.2.nodeId = node)
  /-- What is told the node said. -/
  said : ∀ k info kept, .told k info kept ∈ log → ∃ x ∈ s.said k, x.message = some (.info info)
  /-- The stored status is that of the last write that the store took. -/
  stored : s.main.registry.store.status? node = (log.filterMap (·.status?)).getLast?.or first
  /-- What a request recorded the node had reported, and the report was taken in before. -/
  reported : ∀ before n t after, log = before ++ .recorded n t :: after → s.Reported n t before

namespace Logged

/-- **Every move in which nobody else speaks for the node keeps it.** -/
theorem step (h : Logged s node first reports log) (hs : Followed s node status sound reports)
    (ha : s.Attributed node) (hcalm : s.IsCalm node) (hmv : s.respects node mv = true) :
    Logged (s.step mv) node first (reports ++ s.intake mv) (log ++ s.writes node mv) := by
  obtain ⟨hid, hstatus⟩ := status?_step hs ha hcalm h.remote hmv
  refine
    { remote := by rw [Agent.isHere, hid]; exact h.remote
      told := by rw [List.filterMap_append, h.told, told_writes, List.filter_append]
      said := fun k info kept hmem ↦ ?_
      stored := by
        rw [hstatus, List.filterMap_append, List.getLast?_append, h.stored, Option.or_assoc]
      reported := fun before n t after hsplit ↦ ?_ }
  · obtain ⟨x, hx, hinfo⟩ : ∃ x ∈ s.said k, x.message = some (.info info) := by
      rcases List.mem_append.mp hmem with hold | hnew
      · exact h.said k info kept hold
      · obtain ⟨hin, hown⟩ := mem_intake_of_told hnew
        obtain ⟨q, hq⟩ := exists_intake_of_mem hin
        exact (ha.accepts_of_intake hs hcalm hq hown).2
    exact ⟨x, (s.said_step mv k).subset hx, hinfo⟩
  · rcases History.eq_append_cons_or hsplit with ⟨more, hlog, -⟩ | ⟨more, rfl, hwrites⟩
    · obtain ⟨e, he, hreport⟩ := h.reported before n t more hlog
      exact ⟨e, executionsOf_step hs mv n he, hreport⟩
    · -- the request records now, and the report of its execution was taken in by now
      obtain ⟨rfl, hrecorded⟩ := eq_of_recorded hwrites
      obtain ⟨f, hf, hnode, hrecording, -⟩ := Agent.recorded?_eq_some hrecorded
      obtain ⟨e, he, info, hown, hstatus, hframe, hin⟩ := ha.exists_report hs hf hnode hrecording
      have htold : (e.session, info) ∈ log.filterMap (·.told?) := by
        rw [h.told]
        exact List.mem_filter.mpr ⟨hin, decide_eq_true hown⟩
      obtain ⟨w, hw, hwtold⟩ := List.mem_filterMap.mp htold
      cases w with
      | recorded _ _ => cases hwtold
      | told k info' kept =>
        obtain ⟨rfl, rfl⟩ := Prod.mk.inj (Option.some.inj hwtold)
        refine ⟨e, executionsOf_step hs mv n he, info', kept, ?_, hstatus, hframe⟩
        exact List.mem_append_left _ hw

/-- What is kept is kept throughout every run in which nobody else speaks for the node and the node
is asked for no other status than paused and provisioned. -/
theorem run (h : Logged s node first reports log) (hs : Followed s node status sound reports)
    (ha : s.Attributed node) (moves : List (Move σ)) (hfair : s.isFair node moves = true)
    (hcalm : (s.run moves).IsCalm node) :
    (s.run moves).Attributed node ∧ Logged (s.run moves) node first (reports ++ s.reports moves)
      (log ++ s.written node moves) := by
  induction moves using List.reverseRecOn with
  | nil =>
    rw [Roaming.reports, written, List.append_nil, List.append_nil]
    exact ⟨ha, h⟩
  | append_singleton moves mv ih =>
    rw [isFair_concat, Bool.and_eq_true] at hfair
    rw [run_concat] at hcalm ⊢
    rw [reports_concat, written_concat, ← List.append_assoc, ← List.append_assoc]
    obtain ⟨ha', h'⟩ := ih hfair.1 hcalm.of_step
    have hs' := hs.run moves
    exact ⟨ha'.step hs' hfair.2, h'.step hs' ha' hcalm.of_step hfair.2⟩

/-- **The stored status is the one reported last**, unless the store was out when that report came
and took nothing since, or a request whose own report is an earlier one recorded its target
since. -/
theorem current (h : Logged s node first reports log) {before after : List StatusWrite}
    {info : NodeInfo} {kept : Bool} (hlog : log = before ++ .told k info kept :: after)
    (hlast : after.filterMap (·.told?) = []) :
    s.main.registry.store.status? node = some info.status ∨ (kept = false ∧ after = []) ∨
      ∃ n t, after.getLast? = some (.recorded n t) ∧ t ≠ info.status ∧
        s.main.registry.store.status? node = some t ∧ s.Reported n t before := by
  have hstored := h.stored
  rcases after.eq_nil_or_concat with rfl | ⟨after, w, rfl⟩
  · cases kept with
    | false => exact Or.inr (Or.inl ⟨rfl, rfl⟩)
    | true =>
      left
      rw [hstored, hlog, List.filterMap_append, List.getLast?_append]
      rfl
  · rw [List.concat_eq_append] at hlog hlast ⊢
    cases w with
    | told k' info' kept' => simp [StatusWrite.told?] at hlast
    | recorded n t =>
      have hnow : s.main.registry.store.status? node = some t := by
        rw [hstored, hlog, ← List.cons_append, ← List.append_assoc, List.filterMap_append,
          List.getLast?_append]
        rfl
      by_cases hsame : t = info.status
      · exact Or.inl (hsame ▸ hnow)
      · refine Or.inr (Or.inr ⟨n, t, List.getLast?_concat, hsame, hnow, ?_⟩)
        obtain ⟨e, he, info', kept', hmem, hstatus, hframe⟩ :=
          h.reported (before ++ .told k info kept :: after) n t [] (by rw [hlog]; simp)
        -- its own report is none of those that were taken in since
        refine ⟨e, he, info', kept', ?_, hstatus, hframe⟩
        rcases List.mem_append.mp hmem with hbefore | hsince
        · exact hbefore
        · rcases List.mem_cons.mp hsince with heq | hsince
          · obtain ⟨-, rfl, -⟩ := StatusWrite.told.inj heq
            exact absurd hstatus.symm hsame
          · have htold : (e.session, info') ∈
                (after ++ [StatusWrite.recorded n t]).filterMap (·.told?) :=
              List.mem_filterMap.mpr ⟨_, List.mem_append_left _ hsince, rfl⟩
            rw [hlast] at htold
            cases htold

end Logged

/-! ## At any moment of a run -/

/-- What the main node stores of a node that pauses and resumes. -/
structure Recorded (s : Roaming σ τ) (node : NodeId) (first : Option NodeStatus)
    (reports : List (Nat × NodeInfo)) (log : List StatusWrite) : Prop
    extends Logged s node first reports log where
  /-- The stored status is the one reported last, unless the store was out when that report came and
  took nothing since, or a request whose own report is an earlier one recorded its target since. -/
  current : ∀ before k info kept after, log = before ++ .told k info kept :: after →
    after.filterMap (·.told?) = [] →
      s.main.registry.store.status? node = some info.status ∨ (kept = false ∧ after = []) ∨
        ∃ n t, after.getLast? = some (.recorded n t) ∧ t ≠ info.status ∧
          s.main.registry.store.status? node = some t ∧ s.Reported n t before

/-- **What the main node stores of a node that pauses and resumes**, at any moment of any run in
which nobody else speaks for the node. -/
theorem recorded_run {a : Agent σ} {main : Site σ} {config : AgentConfig} {names : NameSupply}
    {timeout : Duration} {store : NodeStore} {permissions : Option PermissionRegistry} {v : σ}
    {site : Site τ} {w : τ} {uplink : Uplink}
    (hnew : Agent.new main config names { firstFrameTimeout := timeout, store } permissions v =
      .ok a)
    (hnames : Function.Injective names.requestId) (hsite : site.Reliable node status sound)
    (hw : sound w) (hstatus : status w ≠ .unspecified) (hready : uplink.phase = .ready)
    (hnode : a.isHere node = false) (moves : List (Move σ))
    (hfair : isFair { main := a, site, world := w, uplink } node moves = true)
    (hcalm : (run { main := a, site, world := w, uplink } moves).IsCalm node) :
    let start : Roaming σ τ := { main := a, site, world := w, uplink }
    Recorded (start.run moves) node (a.registry.store.status? node) (start.reports moves)
      (start.written node moves) := by
  intro start
  obtain ⟨-, -, hregistrations, -⟩ := Agent.fields_of_new hnew
  have hfollowed : Followed start node status sound [] :=
    .of_new hnew hnames hsite hw hstatus hready
  have hlogged : Logged start node (a.registry.store.status? node) [] [] :=
    ⟨hnode, rfl, nofun, rfl, fun before n t after hnil ↦ by cases before <;> cases hnil⟩
  obtain ⟨-, h⟩ := hlogged.run hfollowed (.of_new hregistrations) moves hfair hcalm
  rw [List.nil_append, List.nil_append] at h
  exact { h with current := fun _ _ _ _ _ ↦ h.current }

/-- A main node, and a node in service. -/
def inService (a : Agent Rehearsal) : Roaming Rehearsal Rehearsal :=
  { main := a, site := Rehearsal.site false, world := Assembly.nodeWorld
    uplink := { main := { publicUrl := "public", protectedUrl := "protected" } } }

/-- The node comes to the main node and is linked. -/
def coming : List (Move Rehearsal) :=
  .dial 0 :: .reached 0 :: .pass 0 :: [.main (.registry (.review 0 0))]

/-- The node is asked for something and serves it. -/
def asking (n : Nat) (r : Request) : List (Move Rehearsal) :=
  .main (.call .protectedSide (.administer r)) :: .main (.goOn n 0) :: .main (.goOn n 0) ::
    (List.replicate 4 (.main (.registry (.use 0 (.advance n 0)))) ++ .fetch 0 :: [.serve 0])

/-- The main node reads what the node said. -/
def hearing (count : Nat) : List (Move Rehearsal) :=
  List.replicate count (.pass 0) ++ List.replicate count (.main (.registry (.read 0 0)))

/-- Whoever asked is answered. -/
def answering (n : Nat) : List (Move Rehearsal) :=
  .main (.registry (.use 0 (.advance n 0))) :: .main (.goOn n 0) :: [.main (.goOn n 0)]

/-- The node pauses and resumes, and whoever asked it to pause is answered last. -/
def racing : List (Move Rehearsal) :=
  coming ++ asking 0 (.pauseNode "node") ++ asking 1 (.resumeNode "node") ++ hearing 4 ++
    answering 1 ++ answering 0

/-- The node pauses while the store is out. -/
def missing (store : NodeStore) : List (Move Rehearsal) :=
  coming ++ .main (.registry (.store { store with outage := some (.failed "disk" 0) })) ::
    (asking 0 (.pauseNode "node") ++ hearing 2 ++ answering 0 ++
      [.main (.registry (.store store))])

/-- The node resumed, and whoever asked it to pause was answered only then. -/
theorem recorded_run_racing :
    ∃ a, Agent.new (Rehearsal.site false) {} Agent.tallies
        { firstFrameTimeout := .ofSeconds 30, store := {} } none Agent.mainWorld = .ok a ∧
      Function.Injective Agent.tallies.requestId ∧
      (Rehearsal.site false).Reliable "node" (fun w ↦ w.node.status)
        (Rehearsal.IsReadable "node") ∧
      Rehearsal.IsReadable "node" Assembly.nodeWorld ∧
      Assembly.nodeWorld.node.status ≠ .unspecified ∧ a.isHere "node" = false ∧
      (inService a).isFair "node" racing = true ∧ ((inService a).run racing).IsCalm "node" ∧
      Recorded ((inService a).run racing) "node" none ((inService a).reports racing)
        ((inService a).written "node" racing) := by
  have hrun : ∃ a, Agent.new (Rehearsal.site false) {} Agent.tallies
      { firstFrameTimeout := .ofSeconds 30, store := {} } none Agent.mainWorld = .ok a ∧
      a.isHere "node" = false ∧ a.registry.store.status? "node" = none ∧
      (inService a).isFair "node" racing = true ∧
      ((inService a).run racing).main.forwards.map (·.request) =
        [.pauseNode "node", .resumeNode "node"] := ⟨_, rfl, rfl, rfl, rfl, rfl⟩
  obtain ⟨a, hnew, hnode, hfirst, hfair, hforwards⟩ := hrun
  have hnames := Agent.tallies_injective
  have hsite := Rehearsal.reliable false "node"
  have hworld : Rehearsal.IsReadable "node" Assembly.nodeWorld := ⟨rfl, rfl⟩
  have hstatus : Assembly.nodeWorld.node.status ≠ .unspecified := by decide
  have hready : (inService a).uplink.phase = .ready := rfl
  have hcalm : ((inService a).run racing).IsCalm "node" := by
    intro f hf _ _
    have hmem := List.mem_map_of_mem (f := (·.request)) hf
    rw [hforwards] at hmem
    simpa using hmem
  have hrecorded := recorded_run hnew hnames hsite hworld hstatus hready hnode racing hfair hcalm
  rw [hfirst] at hrecorded
  exact ⟨a, hnew, hnames, hsite, hworld, hstatus, hnode, hfair, hcalm, hrecorded⟩

/-- The node is in service according to its last report and stored as paused, since the request to
pause it was the last to record its target; or the other way round, since the store was out. -/
theorem stale_record :
    ∃ a, Agent.new (Rehearsal.site false) {} Agent.tallies
        { firstFrameTimeout := .ofSeconds 30, store := {} } none Agent.mainWorld = .ok a ∧
      (let s := (inService a).run racing
      s.main.forwards.map (·.outcome.isSome) = [true, true] ∧ (s.session 0).up = [] ∧
        s.main.registry.registrations.map (·.unread) = [[]] ∧
        ((inService a).reports racing).getLast?.map (·.2.status) = some .provisioned ∧
        s.main.registry.store.status? "node" = some .paused) ∧
      let moves := missing ((inService a).run coming).main.registry.store
      let s := (inService a).run moves
      s.main.forwards.map (·.outcome.isSome) = [true] ∧ (s.session 0).up = [] ∧
        s.main.registry.registrations.map (·.unread) = [[]] ∧
        ((inService a).reports moves).getLast?.map (·.2.status) = some .paused ∧
        s.main.registry.store.status? "node" = some .provisioned :=
  ⟨_, rfl, ⟨rfl, rfl, rfl, rfl, rfl⟩, rfl, rfl, rfl, rfl, rfl⟩

end NodeAgent.Roaming
