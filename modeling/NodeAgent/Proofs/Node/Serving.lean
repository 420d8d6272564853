import NodeAgent.Proofs.Node.Reliable
import Mathlib.Data.List.Induction

/-!
# What a node does about its status

A request that concerns a node's life first looks at the status, then has something done, and then
sets the status that it leads to. What is done for it is seen from outside only if somebody takes
notes, so a site is given a log (`Site.logged`): a world of the site together with a list of deeds,
where each deed says whether it succeeded. The log changes nothing else, and the deeds of a frame do
not depend on what was done before (`serve_logged`).

All ways in which such a request can go are listed once (`Proceeds`), each with its deeds, its
result and its world, and the statements about a single frame (`Serves`) are read off that list.
Between two frames anything may happen that leaves the status alone, so that the same call may fail
for one frame and succeed for the next.

## Main statements

* `proceeds_live`, `Proceeds.live_logged`: how a request can go, without and with a log.
* `serves`: what a node says and does for one frame.
* `serves_run`: the same for every sequence of frames.
-/

namespace NodeAgent

/-! ## Deeds -/

/-- Something that the services of a node are asked to do, and whether it succeeded. -/
inductive Deed where
  | start (succeeded : Bool)
  | finish (succeeded : Bool)
  | deprovision (succeeded : Bool)
  | listTypes (succeeded : Bool)
  | createKey (succeeded : Bool)
  | applyCert (succeeded : Bool)
  /-- A status is set. -/
  | write (status : NodeStatus) (succeeded : Bool)
deriving DecidableEq

/-- The status that was set last, going by the deeds. -/
def Deed.lastWritten? (deeds : List Deed) : Option NodeStatus :=
  deeds.reverse.findSome? fun
    | .write t true => some t
    | _ => none

theorem Deed.lastWritten?_append (l l' : List Deed) :
    lastWritten? (l ++ l') = (lastWritten? l').or (lastWritten? l) := by
  unfold lastWritten?
  rw [List.reverse_append, List.findSome?_append]

/-- The action that a request asks for, besides a status being set. -/
def Request.deeds (r : Request) (succeeded : Bool) : List Deed :=
  match r with
  | startProvisioning .. => [.start succeeded]
  | finishProvisioning .. => [.finish succeeded]
  | deprovision .. => [.deprovision succeeded]
  | certTypes .. => [.listTypes succeeded]
  | createKey .. => [.createKey succeeded]
  | applyCert .. => [.applyCert succeeded]
  | pauseNode .. | resumeNode .. => []

theorem Request.lastWritten?_deeds (r : Request) (succeeded : Bool) :
    Deed.lastWritten? (r.deeds succeeded) = none := by
  cases r <;> rfl

namespace Site

variable {σ α : Type}

/-- The same in a world with a log, in which it is noted. -/
def noted (d : Bool → Deed) (m : Action σ α) : Action (σ × List Deed) α := fun w ↦
  ((m w.1).1, (m w.1).2, w.2 ++ [d (m w.1).1.isOk])

/-- The site with a log of what it is asked to do. -/
def logged (site : Site σ) : Site (σ × List Deed) where
  nodeInfo w := site.nodeInfo w.1
  setStatus t := noted (.write t) (site.setStatus t)
  identity := site.identity.map fun i ↦
    { systemId := fun w ↦ i.systemId w.1
      unitModel := fun w ↦ i.unitModel w.1
      subjects := fun w ↦ i.subjects w.1 }
  certTypes := noted .listTypes site.certTypes
  startProvisioning password := noted .start (site.startProvisioning password)
  finishProvisioning password := noted .finish (site.finishProvisioning password)
  deprovision password := noted .deprovision (site.deprovision password)
  createKey certType subject password :=
    noted .createKey (site.createKey certType subject password)
  applyCert certType cert := noted .applyCert (site.applyCert certType cert)
  certs w := site.certs w.1
  putCerts x w := (site.putCerts x w.1, w.2)

variable {site : Site σ} {status : σ → NodeStatus} {f : RequestFrame} {r : Request}
  {allowed : List NodeStatus} {w : σ} {log ds : List Deed} {t : NodeStatus}

theorem perform_logged (site : Site σ) (hallowed : r.permitted? = some allowed) (w : σ)
    (log : List Deed) :
    site.logged.perform r (w, log) =
      ((site.perform r w).1, (site.perform r w).2, log ++ r.deeds (site.perform r w).1.isOk) := by
  cases r with
  | startProvisioning | finishProvisioning | deprovision => rfl
  | pauseNode | resumeNode =>
    exact congrArg (fun l ↦ (Except.ok (), w, l)) (List.append_nil log).symm
  | createKey | applyCert | certTypes => cases hallowed

/-- What is provided is the same with a log, and takes the action of the request, unless there is no
subject or the request is none for keys and certificates. -/
theorem exists_provide_logged (site : Site σ) (subject : Except ServiceError String) (r : Request)
    (w : σ) :
    ∃ ds, (∀ log, site.logged.provide subject r (w, log) =
        ((site.provide subject r w).1, (site.provide subject r w).2, log ++ ds)) ∧
      ((∃ succeeded, ds = r.deeds succeeded) ∨
        ds = [] ∧ ((∃ e, subject = .error e) ∨ r.permitted? ≠ none)) := by
  cases r with
  | certTypes node =>
    refine ⟨[.listTypes (site.certTypes w).1.isOk], fun log ↦ ?_, .inl ⟨_, rfl⟩⟩
    have hlogged : site.logged.certTypes (w, log) = ((site.certTypes w).1, (site.certTypes w).2,
        log ++ [.listTypes (site.certTypes w).1.isOk]) := rfl
    unfold provide
    dsimp only
    rw [hlogged]
    rcases site.certTypes w with ⟨_ | _, _⟩ <;> rfl
  | createKey node _ certType password =>
    cases subject with
    | error e => exact ⟨[], fun log ↦ by rw [List.append_nil]; rfl, .inr ⟨rfl, .inl ⟨e, rfl⟩⟩⟩
    | ok subject =>
      refine ⟨[.createKey (site.createKey certType subject password w).1.isOk], fun log ↦ ?_,
        .inl ⟨_, rfl⟩⟩
      have hlogged : site.logged.createKey certType subject password (w, log) =
          ((site.createKey certType subject password w).1,
            (site.createKey certType subject password w).2,
            log ++ [.createKey (site.createKey certType subject password w).1.isOk]) := rfl
      unfold provide
      dsimp only
      rw [hlogged]
      rcases site.createKey certType subject password w with ⟨_ | _, _⟩ <;> rfl
  | applyCert node certType cert =>
    refine ⟨[.applyCert (site.applyCert certType cert w).1.isOk], fun log ↦ ?_, .inl ⟨_, rfl⟩⟩
    have hlogged : site.logged.applyCert certType cert (w, log) =
        ((site.applyCert certType cert w).1, (site.applyCert certType cert w).2,
          log ++ [.applyCert (site.applyCert certType cert w).1.isOk]) := rfl
    unfold provide
    dsimp only
    rw [hlogged]
    rcases site.applyCert certType cert w with ⟨_ | _, _⟩ <;> rfl
  | _ =>
    exact ⟨[], fun log ↦ by rw [List.append_nil]; rfl, .inr ⟨rfl, .inr (Option.some_ne_none _)⟩⟩

theorem forwardedSubject_logged (site : Site σ) (r : Request) (w : σ) (log : List Deed) :
    site.logged.forwardedSubject r (w, log) = site.forwardedSubject r w := by
  have hidentity : site.logged.identity = site.identity.map fun i ↦
      { systemId := fun w ↦ i.systemId w.1
        unitModel := fun w ↦ i.unitModel w.1
        subjects := fun w ↦ i.subjects w.1 } := rfl
  unfold forwardedSubject
  rw [hidentity]
  cases site.identity <;> rfl

/-! ## How a request can go -/

/-- **The ways a request can go that concerns the node's life**, each with what is done, with its
result and with the world it leaves. -/
inductive Proceeds (site : Site σ) (r : Request) (allowed : List NodeStatus) (w : σ) :
    List Deed → Except ServiceError (Option NodeStatus) × σ → Prop where
  | unread {e : ServiceError} : site.nodeInfo w = .error e →
    Proceeds site r allowed w [] (.error e, w)
  | refused {info : NodeInfo} : site.nodeInfo w = .ok info → info.status ∉ allowed →
    Proceeds site r allowed w [] (.error (notPermitted info.status), w)
  | failed {info : NodeInfo} {e : ServiceError} {w' : σ} : site.nodeInfo w = .ok info →
    info.status ∈ allowed → site.perform r w = (.error e, w') →
    Proceeds site r allowed w (r.deeds false) (.error e, w')
  | done {info : NodeInfo} {w' : σ} : site.nodeInfo w = .ok info → info.status ∈ allowed →
    site.perform r w = (.ok (), w') → r.target? = none →
    Proceeds site r allowed w (r.deeds true) (.ok none, w')
  | unwritten {info : NodeInfo} {t : NodeStatus} {e : ServiceError} {w' w'' : σ} :
    site.nodeInfo w = .ok info → info.status ∈ allowed → site.perform r w = (.ok (), w') →
    r.target? = some t → site.setStatus t w' = (.error e, w'') →
    Proceeds site r allowed w (r.deeds true ++ [.write t false]) (.error e, w'')
  | written {info : NodeInfo} {t : NodeStatus} {w' w'' : σ} :
    site.nodeInfo w = .ok info → info.status ∈ allowed → site.perform r w = (.ok (), w') →
    r.target? = some t → site.setStatus t w' = (.ok (), w'') →
    Proceeds site r allowed w (r.deeds true ++ [.write t true]) (.ok (some t), w'')

theorem Proceeds.live_eq {x : Except ServiceError (Option NodeStatus) × σ}
    (h : site.Proceeds r allowed w ds x) : site.live r allowed w = x := by
  unfold live
  cases h with
  | unread hinfo => exact Action.andThen_error (requireStatus_of_error hinfo) _
  | refused hinfo hnot =>
    refine Action.andThen_error ?_ _
    rw [requireStatus_of_ok hinfo, if_neg hnot]
  | failed hinfo hallowed hperform =>
    rw [Action.andThen_ok (by rw [requireStatus_of_ok hinfo, if_pos hallowed]),
      Action.andThen_error hperform]
  | done hinfo hallowed hperform htarget =>
    rw [Action.andThen_ok (by rw [requireStatus_of_ok hinfo, if_pos hallowed]),
      Action.andThen_ok hperform, htarget]
    rfl
  | unwritten hinfo hallowed hperform htarget hset =>
    rw [Action.andThen_ok (by rw [requireStatus_of_ok hinfo, if_pos hallowed]),
      Action.andThen_ok hperform, htarget]
    exact Action.andThen_error hset _
  | written hinfo hallowed hperform htarget hset =>
    rw [Action.andThen_ok (by rw [requireStatus_of_ok hinfo, if_pos hallowed]),
      Action.andThen_ok hperform, htarget]
    exact Action.andThen_ok hset _

/-- There are no other ways. -/
theorem proceeds_live (site : Site σ) (r : Request) (allowed : List NodeStatus) (w : σ) :
    ∃ ds, site.Proceeds r allowed w ds (site.live r allowed w) := by
  have hway : ∀ {ds x}, site.Proceeds r allowed w ds x →
      ∃ ds, site.Proceeds r allowed w ds (site.live r allowed w) :=
    fun h ↦ ⟨_, h.live_eq.symm ▸ h⟩
  cases hinfo : site.nodeInfo w with
  | error e => exact hway (.unread hinfo)
  | ok info =>
    by_cases hallowed : info.status ∈ allowed
    · obtain ⟨⟨performed, w'⟩, hperform⟩ : ∃ x, site.perform r w = x := ⟨_, rfl⟩
      cases performed with
      | error e => exact hway (.failed hinfo hallowed hperform)
      | ok _ =>
        cases htarget : r.target? with
        | none => exact hway (.done hinfo hallowed hperform htarget)
        | some t =>
          obtain ⟨⟨set, w''⟩, hset⟩ : ∃ x, site.setStatus t w' = x := ⟨_, rfl⟩
          cases set with
          | error e => exact hway (.unwritten hinfo hallowed hperform htarget hset)
          | ok _ => exact hway (.written hinfo hallowed hperform htarget hset)
    · exact hway (.refused hinfo hallowed)

/-- With a log the request goes the same way, and the deeds are noted. -/
theorem Proceeds.live_logged {x : Except ServiceError (Option NodeStatus) × σ}
    (hallowed : r.permitted? = some allowed) (h : site.Proceeds r allowed w ds x)
    (log : List Deed) :
    site.logged.live r allowed (w, log) = (x.1, x.2, log ++ ds) := by
  have hperformed : ∀ {result w'}, site.perform r w = (result, w') →
      site.logged.perform r (w, log) = (result, w', log ++ r.deeds result.isOk) := by
    intro result w' hperform
    rw [perform_logged site hallowed, hperform]
  have hwritten : ∀ {t w' result w''} (l : List Deed), site.setStatus t w' = (result, w'') →
      site.logged.setStatus t (w', l) = (result, w'', l ++ [.write t result.isOk]) := by
    intro t w' result w'' l hset
    have hlogged : site.logged.setStatus t (w', l) = ((site.setStatus t w').1,
        (site.setStatus t w').2, l ++ [.write t (site.setStatus t w').1.isOk]) := rfl
    rw [hlogged, hset]
  suffices hway : site.logged.Proceeds r allowed (w, log) ds (x.1, x.2, log ++ ds) from
    hway.live_eq
  cases h with
  | unread hinfo =>
    rw [List.append_nil]
    exact .unread hinfo
  | refused hinfo hnot =>
    rw [List.append_nil]
    exact .refused hinfo hnot
  | failed hinfo hmem hperform => exact .failed hinfo hmem (hperformed hperform)
  | done hinfo hmem hperform htarget => exact .done hinfo hmem (hperformed hperform) htarget
  | unwritten hinfo hmem hperform htarget hset =>
    rw [← List.append_assoc]
    exact .unwritten hinfo hmem (hperformed hperform) htarget (hwritten _ hset)
  | written hinfo hmem hperform htarget hset =>
    rw [← List.append_assoc]
    exact .written hinfo hmem (hperformed hperform) htarget (hwritten _ hset)

/-! ## What is done for a frame -/

/-- What is done for a frame, first to last. -/
def deeds (site : Site σ) (f : RequestFrame) (w : σ) : List Deed :=
  (site.logged.serve f (w, [])).2.2

/-- An answer is the same with a log, and what is done for it is nothing or goes one of the ways. -/
theorem exists_answer_logged (site : Site σ) (r : Request) (w : σ) :
    ∃ ds, (∀ log, site.logged.answer r (w, log) =
        ((site.answer r w).1, (site.answer r w).2, log ++ ds)) ∧
      ((r.permitted? = none ∧ (ds = [] ∨ ∃ succeeded, ds = r.deeds succeeded)) ∨
        ∃ allowed, r.permitted? = some allowed ∧
          site.Proceeds r allowed w ds (site.live r allowed w)) := by
  unfold answer
  cases hallowed : r.permitted? with
  | none =>
    obtain ⟨ds, hprovide, hds⟩ := site.exists_provide_logged (site.forwardedSubject r w) r w
    refine ⟨ds, fun log ↦ ?_, .inl ⟨rfl, hds.symm.imp_left And.left⟩⟩
    dsimp only
    rw [forwardedSubject_logged, hprovide]
  | some allowed =>
    obtain ⟨ds, hway⟩ := site.proceeds_live r allowed w
    refine ⟨ds, fun log ↦ ?_, .inr ⟨allowed, rfl, hway⟩⟩
    dsimp only
    rw [hway.live_logged hallowed log]
    rcases site.live r allowed w with ⟨_ | _, _⟩ <;> rfl

/-- What is reported ahead of an answer, and the answer. -/
theorem serve_of_request (site : Site σ) (hr : f.request = some r) (w : σ) :
    site.serve f w =
      (⟨(if (site.answer r w).1.2.isSome then site.report (site.answer r w).2 else []) ++
          [⟨f.id, some (.response (site.answer r w).1.1)⟩], (site.answer r w).1.2⟩,
        (site.answer r w).2) := by
  rw [serve, hr]

theorem exists_deeds (site : Site σ) (hr : f.request = some r) (w : σ) :
    (∀ log, site.logged.answer r (w, log) =
        ((site.answer r w).1, (site.answer r w).2, log ++ site.deeds f w)) ∧
      ((r.permitted? = none ∧
          (site.deeds f w = [] ∨ ∃ succeeded, site.deeds f w = r.deeds succeeded)) ∨
        ∃ allowed, r.permitted? = some allowed ∧
          site.Proceeds r allowed w (site.deeds f w) (site.live r allowed w)) := by
  obtain ⟨ds, hanswer, hway⟩ := site.exists_answer_logged r w
  have hds : site.deeds f w = ds := by
    rw [deeds, serve_of_request _ hr, hanswer, List.nil_append]
  rw [hds]
  exact ⟨hanswer, hway⟩

/-- **A log changes nothing**, and what is noted for a frame does not depend on what it says. -/
theorem serve_logged (site : Site σ) (f : RequestFrame) (w : σ) (log : List Deed) :
    site.logged.serve f (w, log) =
      ((site.serve f w).1, (site.serve f w).2, log ++ site.deeds f w) := by
  cases hr : f.request with
  | none =>
    have hds : site.deeds f w = [] := by rw [deeds, serve, hr]
    rw [hds, List.append_nil, serve, serve, hr]
  | some r =>
    rw [serve_of_request _ hr, serve_of_request _ hr, (site.exists_deeds hr w).1]
    rfl

end Site

/-! ## The status -/

/-- The changes of a node's status, each with the request that makes it. -/
inductive Request.Moves : Request → NodeStatus → NodeStatus → Prop where
  | finish {node : NodeId} {password : String} :
    Moves (.finishProvisioning node password) .unprovisioned .provisioned
  | pause {node : NodeId} : Moves (.pauseNode node) .provisioned .paused
  | resume {node : NodeId} : Moves (.resumeNode node) .paused .provisioned
  | deprovision {node : NodeId} {password : String} :
    Moves (.deprovision node password) .provisioned .unprovisioned
  | deprovisionPaused {node : NodeId} {password : String} :
    Moves (.deprovision node password) .paused .unprovisioned

/-- Where the status does not matter, none is led to. -/
theorem Request.target?_of_unpermitted {r : Request} (h : r.permitted? = none) :
    r.target? = none := by
  cases r <;> first | rfl | cases h

theorem Request.Moves.ne {r : Request} {s t : NodeStatus} (h : r.Moves s t) : t ≠ s := by
  cases h <;> exact NodeStatus.noConfusion

/-- What a request leads to from where it is permitted is a change of the status. -/
theorem Request.moves {r : Request} {allowed : List NodeStatus} {s t : NodeStatus}
    (hallowed : r.permitted? = some allowed) (ht : r.target? = some t) (hs : s ∈ allowed) :
    r.Moves s t := by
  cases r with
  | finishProvisioning | pauseNode | resumeNode =>
    obtain rfl := Option.some.inj hallowed
    obtain rfl := Option.some.inj ht
    obtain rfl := List.mem_singleton.1 hs
    constructor
  | deprovision =>
    obtain rfl := Option.some.inj hallowed
    obtain rfl := Option.some.inj ht
    rcases List.mem_cons.1 hs with rfl | hs
    · exact .deprovision
    · obtain rfl := List.mem_singleton.1 hs
      exact .deprovisionPaused
  | _ => cases ht

namespace Site

variable {σ : Type} {site : Site σ} {status : σ → NodeStatus} {f : RequestFrame} {r : Request}
  {allowed : List NodeStatus} {w : σ} {ds : List Deed} {t : NodeStatus}
  {x : Except ServiceError (Option NodeStatus) × σ}

/-- The services of a node keep to their roles, those for keys and certificates too. -/
structure GuardsStatus (site : Site σ) (status : σ → NodeStatus) : Prop
    extends KeepsStatus site status where
  provided : ∀ subject r w, status (site.provide subject r w).2 = status w

/-- Everything about a request that leads to a status succeeds: the status can be read and permits
it, the action is done and the new status is set. -/
def Succeeds (site : Site σ) (r : Request) (w : σ) : Prop :=
  ∃ allowed info t, r.permitted? = some allowed ∧ r.target? = some t ∧
    site.nodeInfo w = .ok info ∧ info.status ∈ allowed ∧ (site.perform r w).1 = .ok () ∧
    (site.setStatus t (site.perform r w).2).1 = .ok ()

/-- **What becomes of the status.** It is the one that the request leads to if everything succeeds,
and else it is as it was and there is a failure, unless there is no status to lead to. -/
theorem Proceeds.settles (h : site.GuardsStatus status) (hallowed : r.permitted? = some allowed)
    (hway : site.Proceeds r allowed w ds x) :
    (∃ t, r.target? = some t ∧ x.1 = .ok (some t) ∧ site.Succeeds r w ∧ r.Moves (status w) t ∧
        status x.2 = t ∧ Deed.lastWritten? ds = some t) ∨
      status x.2 = status w ∧ Deed.lastWritten? ds = none ∧ ((r.target? = none ∧ x.1 = .ok none) ∨
        (∃ e, x.1 = .error e) ∧ ¬site.Succeeds r w) := by
  have hreads : site.Succeeds r w → ∃ info t, r.target? = some t ∧ site.nodeInfo w = .ok info ∧
      info.status ∈ allowed ∧ (site.perform r w).1 = .ok () ∧
      (site.setStatus t (site.perform r w).2).1 = .ok () := by
    rintro ⟨allowed', info, t, hallowed', hrest⟩
    obtain rfl := Option.some.inj (hallowed.symm.trans hallowed')
    exact ⟨info, t, hrest⟩
  have hkept : ∀ {result w'}, site.perform r w = (result, w') → status w' = status w := by
    intro result w' hperform
    have hstatus := h.performed r w
    rwa [hperform] at hstatus
  cases hway with
  | unread hinfo =>
    refine .inr ⟨rfl, rfl, .inr ⟨⟨_, rfl⟩, fun hs ↦ ?_⟩⟩
    obtain ⟨_, _, -, hinfo', -⟩ := hreads hs
    cases hinfo.symm.trans hinfo'
  | refused hinfo hnot =>
    refine .inr ⟨rfl, rfl, .inr ⟨⟨_, rfl⟩, fun hs ↦ ?_⟩⟩
    obtain ⟨_, _, -, hinfo', hmem, -⟩ := hreads hs
    obtain rfl := Except.ok.inj (hinfo.symm.trans hinfo')
    exact hnot hmem
  | failed hinfo hmem hperform =>
    refine .inr ⟨hkept hperform, r.lastWritten?_deeds false, .inr ⟨⟨_, rfl⟩, fun hs ↦ ?_⟩⟩
    obtain ⟨_, _, -, -, -, hdone, -⟩ := hreads hs
    rw [hperform] at hdone
    cases hdone
  | done hinfo hmem hperform ht =>
    exact .inr ⟨hkept hperform, r.lastWritten?_deeds true, .inl ⟨ht, rfl⟩⟩
  | unwritten hinfo hmem hperform ht hset =>
    refine .inr ⟨(h.failed _ _ _ _ hset).trans (hkept hperform), ?_,
      .inr ⟨⟨_, rfl⟩, fun hs ↦ ?_⟩⟩
    · rw [Deed.lastWritten?_append, r.lastWritten?_deeds]
      rfl
    · obtain ⟨_, _, ht', -, -, -, hwritten⟩ := hreads hs
      obtain rfl := Option.some.inj (ht.symm.trans ht')
      rw [hperform, hset] at hwritten
      cases hwritten
  | @written info t w' w'' hinfo hmem hperform ht hset =>
    have hstatus := h.read w info hinfo
    refine .inl ⟨t, ht, rfl, ⟨allowed, info, t, hallowed, ht, hinfo, hmem, ?_, ?_⟩,
      r.moves hallowed ht (hstatus ▸ hmem), h.set t w' w'' hset, ?_⟩
    · rw [hperform]
    · rw [hperform, hset]
    · rw [Deed.lastWritten?_append]
      rfl

/-- **What an answer makes of the status.** -/
theorem GuardsStatus.answer (h : site.GuardsStatus status) (hr : f.request = some r) (w : σ) :
    (∃ t, r.target? = some t ∧ (site.answer r w).1 = (r.emptyResponse, some t) ∧
        site.Succeeds r w ∧ r.Moves (status w) t ∧ status (site.answer r w).2 = t ∧
        Deed.lastWritten? (site.deeds f w) = some t) ∨
      (site.answer r w).1.2 = none ∧ status (site.answer r w).2 = status w ∧
        Deed.lastWritten? (site.deeds f w) = none ∧ (r.target? = none ∨
          (site.answer r w).1.1.error ≠ none ∧ ¬site.Succeeds r w) := by
  obtain ⟨-, ⟨hnone, hds⟩ | ⟨allowed, hallowed, hway⟩⟩ := site.exists_deeds hr w
  · have htarget := Request.target?_of_unpermitted hnone
    have hwritten : Deed.lastWritten? (site.deeds f w) = none := by
      rcases hds with hds | ⟨succeeded, hds⟩
      · rw [hds]
        rfl
      · rw [hds, r.lastWritten?_deeds]
    unfold Site.answer
    rw [hnone]
    exact .inr ⟨rfl, h.provided _ r w, hwritten, .inl htarget⟩
  · unfold Site.answer
    rw [hallowed]
    dsimp only
    generalize site.live r allowed w = x at hway ⊢
    obtain ⟨result, w'⟩ := x
    rcases hway.settles h hallowed with ⟨t, ht, rfl, hs, hmoves, hstatus, hwritten⟩ |
      ⟨hstatus, hwritten, ⟨ht, rfl⟩ | ⟨⟨e, rfl⟩, hs⟩⟩
    · exact .inl ⟨t, ht, rfl, hs, hmoves, hstatus, hwritten⟩
    · exact .inr ⟨rfl, hstatus, hwritten, .inl ht⟩
    · refine .inr ⟨rfl, hstatus, hwritten, .inr ⟨?_, hs⟩⟩
      rw [Response.error_withError]
      exact Option.some_ne_none _

end Site

/-! ## What a node says and does -/

/-- What may be done for a request: its action fails and that is all, or its action is done and then
the status is set, if the request leads to one. -/
inductive Request.Does (r : Request) : List Deed → Prop where
  | failed : r.Does (r.deeds false)
  | done : r.target? = none → r.Does (r.deeds true)
  | wrote {t : NodeStatus} (succeeded : Bool) : r.target? = some t →
    r.Does (r.deeds true ++ [.write t succeeded])

theorem Request.Does.of_unpermitted {r : Request} (h : r.permitted? = none) (succeeded : Bool) :
    r.Does (r.deeds succeeded) := by
  cases succeeded with
  | false => exact .failed
  | true => exact .done (target?_of_unpermitted h)

namespace Site

variable {σ : Type} {site : Site σ} {status : σ → NodeStatus} {f : RequestFrame} {r : Request}
  {allowed : List NodeStatus} {w : σ} {ds : List Deed} {t : NodeStatus}

/-- **What a node says and does for one frame.** -/
structure Serves (site : Site σ) (status : σ → NodeStatus) (f : RequestFrame) (w : σ) : Prop where
  /-- A frame without a request is passed over. -/
  silent : f.request = none → site.serve f w = ({}, w) ∧ site.deeds f w = []
  /-- Any other is answered by one response of its kind, last and under its identifier. Before it
  at most the node's info is reported, under no identifier, and only if the status has changed; it
  shows the new status. A request that leads to a status has led to it, and is answered without a
  failure, exactly if everything about it succeeded. -/
  answered : ∀ r, f.request = some r → ∃ news response,
    (site.serve f w).1.frames = news ++ [⟨f.id, some (.response response)⟩] ∧
      response.kind = r.kind ∧
      (news = [] ∨ ∃ info, news = [⟨"", some (.info info)⟩] ∧
        status (site.serve f w).2 ≠ status w ∧ info.status = status (site.serve f w).2) ∧
      ∀ t, r.target? = some t →
        (site.Succeeds r w ∧ (site.serve f w).1.newStatus = some t ∧ response.error = none) ∨
          ¬site.Succeeds r w ∧ (site.serve f w).1.newStatus = none ∧ response.error ≠ none
  /-- The status changes only as its request says, and the node knows that it has. -/
  moves : (status (site.serve f w).2 = status w ∧ (site.serve f w).1.newStatus = none) ∨
    ∃ r, f.request = some r ∧ r.Moves (status w) (status (site.serve f w).2) ∧
      (site.serve f w).1.newStatus = some (status (site.serve f w).2)
  /-- Nothing is done for a request that the status does not permit, and the status is set after
  the action only. -/
  does : ∀ r, f.request = some r → site.deeds f w = [] ∨
    (∀ allowed, r.permitted? = some allowed → status w ∈ allowed) ∧ r.Does (site.deeds f w)
  /-- The status is the one that was set last. -/
  written : status (site.serve f w).2 = (Deed.lastWritten? (site.deeds f w)).getD (status w)

theorem Proceeds.does {x : Except ServiceError (Option NodeStatus) × σ}
    (h : site.GuardsStatus status) (hway : site.Proceeds r allowed w ds x) :
    ds = [] ∨ status w ∈ allowed ∧ r.Does ds := by
  cases hway with
  | unread => exact .inl rfl
  | refused => exact .inl rfl
  | failed hinfo hmem => exact .inr ⟨h.read w _ hinfo ▸ hmem, .failed⟩
  | done hinfo hmem _ ht => exact .inr ⟨h.read w _ hinfo ▸ hmem, .done ht⟩
  | unwritten hinfo hmem _ ht => exact .inr ⟨h.read w _ hinfo ▸ hmem, .wrote false ht⟩
  | written hinfo hmem _ ht => exact .inr ⟨h.read w _ hinfo ▸ hmem, .wrote true ht⟩

/-- Nothing is done for a request that the status does not permit. -/
theorem GuardsStatus.does (h : site.GuardsStatus status) (hr : f.request = some r) (w : σ) :
    site.deeds f w = [] ∨
      (∀ allowed, r.permitted? = some allowed → status w ∈ allowed) ∧ r.Does (site.deeds f w) := by
  obtain ⟨-, ⟨hnone, hds⟩ | ⟨allowed, hallowed, hway⟩⟩ := site.exists_deeds hr w
  · rcases hds with hds | ⟨succeeded, hds⟩
    · exact .inl hds
    · refine .inr ⟨fun allowed hallowed ↦ ?_, ?_⟩
      · cases hnone.symm.trans hallowed
      · rw [hds]
        exact .of_unpermitted hnone succeeded
  · rcases hway.does h with hds | ⟨hmem, hdoes⟩
    · exact .inl hds
    · refine .inr ⟨fun allowed' hallowed' ↦ ?_, hdoes⟩
      obtain rfl := Option.some.inj (hallowed.symm.trans hallowed')
      exact hmem

/-- What is reported is the status that was set last. -/
theorem GuardsStatus.report (h : site.GuardsStatus status) (w : σ) :
    site.report w = [] ∨
      ∃ info, site.report w = [⟨"", some (.info info)⟩] ∧ info.status = status w := by
  unfold Site.report
  split
  · exact .inr ⟨_, rfl, h.read w _ ‹_›⟩
  · exact .inl rfl

/-- **What is said for a request.** -/
theorem GuardsStatus.answered (h : site.GuardsStatus status) (hr : f.request = some r) (w : σ) :
    ∃ news response,
      (site.serve f w).1.frames = news ++ [⟨f.id, some (.response response)⟩] ∧
      response.kind = r.kind ∧
      (news = [] ∨ ∃ info, news = [⟨"", some (.info info)⟩] ∧
        status (site.serve f w).2 ≠ status w ∧ info.status = status (site.serve f w).2) ∧
      ∀ t, r.target? = some t →
        (site.Succeeds r w ∧ (site.serve f w).1.newStatus = some t ∧ response.error = none) ∨
          ¬site.Succeeds r w ∧ (site.serve f w).1.newStatus = none ∧ response.error ≠ none := by
  rw [site.serve_of_request hr]
  dsimp only
  rcases h.answer hr w with ⟨t, ht, hanswer, hs, hmoves, hstatus, -⟩ | ⟨hnone, -, -, hfailed⟩
  · -- the status has changed
    rw [hanswer]
    refine ⟨_, _, rfl, r.kind_emptyResponse, ?_, fun t' ht' ↦ ?_⟩
    · rcases h.report (site.answer r w).2 with hreport | ⟨info, hreport, hinfo⟩
      · exact .inl hreport
      · refine .inr ⟨info, hreport, ?_, hinfo⟩
        rw [hstatus]
        exact hmoves.ne
    · obtain rfl := Option.some.inj (ht.symm.trans ht')
      exact .inl ⟨hs, rfl, by cases r <;> rfl⟩
  · rw [hnone]
    refine ⟨[], _, rfl, kind_answer site r w, .inl rfl, fun t ht ↦ .inr ?_⟩
    rcases hfailed with htarget | ⟨herror, hs⟩
    · rw [ht] at htarget
      cases htarget
    · exact ⟨hs, rfl, herror⟩

/-- **What becomes of the status.** -/
theorem GuardsStatus.changes (h : site.GuardsStatus status) (hr : f.request = some r) (w : σ) :
    ((status (site.serve f w).2 = status w ∧ (site.serve f w).1.newStatus = none) ∨
      r.Moves (status w) (status (site.serve f w).2) ∧
        (site.serve f w).1.newStatus = some (status (site.serve f w).2)) ∧
      status (site.serve f w).2 = (Deed.lastWritten? (site.deeds f w)).getD (status w) := by
  rw [site.serve_of_request hr]
  dsimp only
  rcases h.answer hr w with ⟨t, -, hanswer, -, hmoves, hstatus, hwritten⟩ |
    ⟨hnone, hstatus, hwritten, -⟩
  · rw [hanswer, hstatus, hwritten]
    exact ⟨.inr ⟨hmoves, rfl⟩, rfl⟩
  · rw [hnone, hstatus, hwritten]
    exact ⟨.inl ⟨rfl, rfl⟩, rfl⟩

/-- **Serving a frame**: what is said, what is done and what becomes of the status. -/
theorem serves (h : site.GuardsStatus status) (f : RequestFrame) (w : σ) :
    site.Serves status f w := by
  cases hr : f.request with
  | none =>
    have hserve : site.serve f w = ({}, w) := by rw [serve, hr]
    have hds : site.deeds f w = [] := by rw [deeds, serve, hr]
    refine ⟨fun _ ↦ ⟨hserve, hds⟩, fun r hr' ↦ ?_, .inl ?_, fun _ _ ↦ .inl hds, ?_⟩
    · cases hr.symm.trans hr'
    · rw [hserve]
      exact ⟨rfl, rfl⟩
    · rw [hserve, hds]
      rfl
  | some r =>
    obtain ⟨hchanges, hwritten⟩ := h.changes hr w
    refine ⟨fun hnone ↦ ?_, fun r' hr' ↦ h.answered hr' w, ?_, fun r' hr' ↦ h.does hr' w, hwritten⟩
    · cases hr.symm.trans hnone
    · rcases hchanges with hkept | hmoves
      · exact .inl hkept
      · exact .inr ⟨r, hr, hmoves⟩

/-! ## Sequences of frames -/

/-- What happens at a node: somebody or something that leaves the status alone changes the world of
its services, or a frame is served. -/
inductive Turn (σ : Type) where
  | drift (change : σ → σ)
  | frame (f : RequestFrame)

/-- Nothing but the serving of frames changes the status. -/
def Turn.Keeps (status : σ → NodeStatus) : Turn σ → Prop
  | .drift change => ∀ w, status (change w) = status w
  | .frame _ => True

/-- The world and its log after a turn. -/
def take (site : Site σ) (x : σ × List Deed) : Turn σ → σ × List Deed
  | .drift change => (change x.1, x.2)
  | .frame f => (site.logged.serve f x).2

/-- The world and its log after a sequence of turns. -/
def takeAll (site : Site σ) (x : σ × List Deed) (turns : List (Turn σ)) : σ × List Deed :=
  turns.foldl site.take x

/-- **What a node says and does for a sequence of frames**, one after the other and with a log. -/
structure ServesAll (site : Site σ) (status : σ → NodeStatus) (w : σ) (turns : List (Turn σ)) :
    Prop where
  /-- Every frame is served as it would be by itself. -/
  frames : ∀ before f after, turns = before ++ .frame f :: after →
    (site.logged.serve f (site.takeAll (w, []) before)).1 =
        (site.serve f (site.takeAll (w, []) before).1).1 ∧
      site.Serves status f (site.takeAll (w, []) before).1
  /-- The status is the one that was set last, going by all that was done. -/
  written : status (site.takeAll (w, []) turns).1 =
    (Deed.lastWritten? (site.takeAll (w, []) turns).2).getD (status w)

theorem written_takeAll (h : site.GuardsStatus status) (w : σ) {turns : List (Turn σ)}
    (hkeeps : ∀ turn ∈ turns, turn.Keeps status) :
    status (site.takeAll (w, []) turns).1 =
      (Deed.lastWritten? (site.takeAll (w, []) turns).2).getD (status w) := by
  induction turns using List.reverseRecOn with
  | nil => rfl
  | append_singleton turns turn ih =>
    have hbefore := ih fun turn' hmem ↦ hkeeps turn' (List.mem_append_left _ hmem)
    have hturn := hkeeps turn (List.mem_append_right _ List.mem_cons_self)
    have htake : site.takeAll (w, []) (turns ++ [turn]) =
        site.take (site.takeAll (w, []) turns) turn := List.foldl_append
    rw [htake]
    generalize site.takeAll (w, []) turns = x at hbefore ⊢
    obtain ⟨w', log⟩ := x
    cases turn with
    | drift change => exact (hturn w').trans hbefore
    | frame f =>
      have hserve : site.take (w', log) (.frame f) =
          ((site.serve f w').2, log ++ site.deeds f w') := by
        rw [take, serve_logged]
      rw [hserve, Deed.lastWritten?_append]
      refine (site.serves h f w').written.trans ?_
      rw [hbefore]
      cases Deed.lastWritten? (site.deeds f w') <;> rfl

/-- **Every sequence of frames is served** so, whatever the node's services answer each time. -/
theorem serves_run (h : site.GuardsStatus status) (w : σ) (turns : List (Turn σ))
    (hkeeps : ∀ turn ∈ turns, turn.Keeps status) : site.ServesAll status w turns := by
  refine ⟨fun before f after _ ↦ ⟨?_, serves h f _⟩, written_takeAll h w hkeeps⟩
  obtain ⟨w', log⟩ := site.takeAll (w, []) before
  rw [serve_logged]

/-- The services of a reliable node keep to their roles. -/
theorem Reliable.guardsStatus {node : NodeId} {sound : σ → Prop}
    (h : site.Reliable node status sound) : site.GuardsStatus status :=
  { h.toKeepsStatus with provided := h.provided }

/-- A node is provisioned, then fails to note that it is paused, and notes it when asked again. -/
def hesitantTurns : List (Turn Rehearsal) :=
  [.frame ⟨"1", some (.finishProvisioning "node" "secret")⟩,
    .drift fun w ↦ { w with failing := w.failing.insert .setNodeStatus (.general "read-only") },
    .frame ⟨"2", some (.pauseNode "node")⟩,
    .drift fun w ↦ { w with failing := w.failing.erase .setNodeStatus },
    .frame ⟨"3", some (.pauseNode "node")⟩]

theorem serves_run_hesitant :
    (∀ turn ∈ hesitantTurns, turn.Keeps fun w : Rehearsal ↦ w.node.status) ∧
      (Rehearsal.site true).ServesAll (fun w ↦ w.node.status)
        { node := { nodeId := "node", statusCode := 1 } } hesitantTurns ∧
      ((Rehearsal.site true).takeAll ({ node := { nodeId := "node", statusCode := 1 } }, [])
        hesitantTurns).2 = [.finish true, .write .provisioned true, .write .paused false,
          .write .paused true] := by
  have hkeeps : ∀ turn ∈ hesitantTurns, turn.Keeps fun w : Rehearsal ↦ w.node.status := by
    simp [hesitantTurns, Turn.Keeps]
  exact ⟨hkeeps, serves_run (Rehearsal.reliable true "node").guardsStatus _ _ hkeeps, rfl⟩

end Site

end NodeAgent
