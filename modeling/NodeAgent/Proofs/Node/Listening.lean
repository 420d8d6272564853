import NodeAgent.Proofs.Node.Store
import NodeAgent.Proofs.History
import Mathlib.Order.Basic

/-!
# Listening to the node store

Whoever listens to the node store keeps records of its own: it takes over those of the store when it
begins to listen, and applies what it is told from then on. Its records are those of the store at
every time, because every change of a record is told to everybody who listens, and nothing is told
that is not a change.

Three operations change records, and each tells on a condition of its own: an info is compared as a
whole with the one that is stored, a status is compared with what the stored code means, and a
record that is removed was there.

## Main statements

* `follows_step`: what a move tells is what it changes.
* `feeds_run`: over every history of a store, those who listen keep its records, what fails changes
  nothing, records are kept under the nodes that they are about, and nodes are listed in order.
-/

namespace NodeAgent

/-! ## Keeping records by what is told -/

namespace StoreEvent

/-- The node that an event is about. -/
def node : StoreEvent → NodeId
  | .changed info => info.nodeId
  | .removed node => node

/-- The record that a node has after an event. -/
def record? : StoreEvent → Option NodeInfo
  | .changed info => some info
  | .removed _ => none

variable {records records' records'' : NodeId → Option NodeInfo} {e : StoreEvent}
  {told told' : List StoreEvent}

/-- Records after an event. -/
def apply (records : NodeId → Option NodeInfo) (e : StoreEvent) : NodeId → Option NodeInfo :=
  fun node ↦ if e.node = node then e.record? else records node

/-- Records after some events. -/
def replay (records : NodeId → Option NodeInfo) (told : List StoreEvent) :
    NodeId → Option NodeInfo := told.foldl apply records

theorem replay_append (records : NodeId → Option NodeInfo) (told told' : List StoreEvent) :
    replay records (told ++ told') = replay (replay records told) told' := List.foldl_append

/-- What was told while records changed: applying it changes other records alike, and none of it
repeats what they hold already. -/
structure Follows (records : NodeId → Option NodeInfo) (told : List StoreEvent)
    (records' : NodeId → Option NodeInfo) : Prop where
  replays : replay records told = records'
  news : ∀ before e after, told = before ++ e :: after → replay records before e.node ≠ e.record?

namespace Follows

theorem refl (records : NodeId → Option NodeInfo) : Follows records [] records where
  replays := rfl
  news _ _ _ h := absurd h.symm (List.append_ne_nil_of_right_ne_nil _ (List.cons_ne_nil _ _))

theorem trans (h : Follows records told records') (h' : Follows records' told' records'') :
    Follows records (told ++ told') records'' := by
  obtain rfl := h.replays
  constructor
  · rw [replay_append]
    exact h'.replays
  · intro before e after hsplit
    rcases History.eq_append_cons_or hsplit with ⟨more, htold, -⟩ | ⟨more, rfl, htold'⟩
    · exact h.news before e more htold
    · rw [replay_append]
      exact h'.news more e after htold'

/-- One record changed, and that was told. -/
theorem single (hnews : records e.node ≠ e.record?)
    (h : ∀ node, records' node = if e.node = node then e.record? else records node) :
    Follows records [e] records' where
  replays := (funext h).symm
  news before e' after hsplit := by
    rcases List.singleton_eq_append_iff.mp hsplit with ⟨rfl, hlast⟩ | ⟨-, hlast⟩
    · obtain ⟨rfl, -⟩ := List.cons.inj hlast
      exact hnews
    · cases hlast

end Follows

end StoreEvent

namespace NodeStore

open StoreEvent (Follows)

variable {s : NodeStore} {node : NodeId} {info : NodeInfo} {k : Nat}

/-! ## Histories -/

/-- One operation on a node store. -/
inductive Move where
  | setInfo (info : NodeInfo)
  | setStatus (node : NodeId) (status : NodeStatus)
  | remove (node : NodeId)
  | listen (listener : Nat)
  | unlisten (listener : Nat)

/-- What a move answers, and the store after it. -/
def act (s : NodeStore) : Move → Except ServiceError Unit × NodeStore
  | .setInfo info => s.setInfo info
  | .setStatus node status => s.setStatus node status
  | .remove node => s.remove node
  | .listen k => (.ok (), s.listen k)
  | .unlisten k => (.ok (), s.unlisten k)

/-- The store after a move. -/
def step (s : NodeStore) (mv : Move) : NodeStore := (s.act mv).2

/-- The store after a history. -/
def run (s : NodeStore) (moves : List Move) : NodeStore := moves.foldl step s

/-- The record of every node that has one. -/
def records (s : NodeStore) : NodeId → Option NodeInfo := s.nodes.get?

/-- What a move tells whoever listens. -/
def tells (s : NodeStore) : Move → List StoreEvent
  | .setInfo info =>
    if info.nodeId ≠ "" ∧ s.records info.nodeId ≠ some info then [.changed info] else []
  | .setStatus node status =>
    ((s.records node).filter (·.status ≠ status)).toList.map fun info ↦
      .changed (info.withStatus status)
  | .remove node => if s.records node ≠ none then [.removed node] else []
  | .listen _ | .unlisten _ => []

/-- What the moves of a history tell whoever listens throughout. -/
def told (s : NodeStore) : List Move → List StoreEvent
  | [] => []
  | mv :: moves => s.tells mv ++ (s.step mv).told moves

/-- A move is refused: it is about nobody, or about a node without a record. -/
def Refuses (s : NodeStore) : Move → Prop
  | .setInfo info => info.nodeId = ""
  | .setStatus node _ | .remove node => s.records node = none
  | .listen _ | .unlisten _ => False

variable {mv : Move} {moves : List Move} {events : List StoreEvent}

@[simp] theorem run_nil (s : NodeStore) : s.run [] = s := rfl

theorem run_append (s : NodeStore) (l l' : List Move) : s.run (l ++ l') = (s.run l).run l' :=
  List.foldl_append

theorem run_concat (s : NodeStore) (moves : List Move) (mv : Move) :
    s.run (moves ++ [mv]) = (s.run moves).step mv := by
  rw [run_append]
  rfl

theorem told_concat (s : NodeStore) (moves : List Move) (mv : Move) :
    s.told (moves ++ [mv]) = s.told moves ++ (s.run moves).tells mv := by
  induction moves generalizing s with
  | nil => exact List.append_nil _
  | cons mv' moves ih =>
    rw [List.cons_append, told, told, ih, List.append_assoc]
    rfl

/-! ## What a move does -/

/-- A store is in order: it is not out, it has one record of a node, and keeps it under the node
that it is about. -/
structure InOrder (s : NodeStore) : Prop where
  outage : s.outage = none
  nodup : s.nodes.keys.Nodup
  keyed : ∀ {node info}, s.records node = some info → info.nodeId = node ∧ node ≠ ""

theorem inOrder_new : InOrder {} where
  outage := rfl
  nodup := List.nodup_nil
  keyed := nofun

/-- Everybody who listens is told some events. -/
def tellAll (s : NodeStore) (told : List StoreEvent) : NodeStore :=
  { s with listeners := s.listeners.map fun l ↦ (l.1, l.2 ++ told) }

@[simp] theorem tellAll_nil (s : NodeStore) : s.tellAll [] = s := by
  simp [tellAll]

/-- What a move makes of a store: what it answers, what is stored and who is told what. -/
inductive Effect (s : NodeStore) (mv : Move) : Except ServiceError Unit × NodeStore → Prop where
  | refuse {e : ServiceError} : s.Refuses mv → s.tells mv = [] → Effect s mv (.error e, s)
  /-- The record is as it was. -/
  | keep {nodes : Table NodeId NodeInfo} : ¬s.Refuses mv → s.tells mv = [] →
    nodes.get? = s.records → nodes.keys.Nodup → Effect s mv (.ok (), { s with nodes })
  | change {info : NodeInfo} : ¬s.Refuses mv → s.tells mv = [.changed info] → info.nodeId ≠ "" →
    s.records info.nodeId ≠ some info →
    Effect s mv (.ok (),
      { s with nodes := s.nodes.insert info.nodeId info }.tellAll [.changed info])
  | forget {node : NodeId} : ¬s.Refuses mv → s.tells mv = [.removed node] →
    s.records node ≠ none →
    Effect s mv (.ok (), { s with nodes := s.nodes.erase node }.tellAll [.removed node])
  | listen {k : Nat} : mv = .listen k → Effect s mv (.ok (), s.listen k)
  | unlisten {k : Nat} : mv = .unlisten k → Effect s mv (.ok (), s.unlisten k)

theorem InOrder.guarded {α : Type} (h : s.InOrder) (op : Except ServiceError α × NodeStore) :
    s.guarded op = op := by
  unfold NodeStore.guarded
  rw [h.outage]

theorem effect_setInfo (h : s.InOrder) (info : NodeInfo) :
    Effect s (.setInfo info) (s.setInfo info) := by
  rw [setInfo, h.guarded]
  by_cases hnode : info.nodeId = ""
  · rw [if_pos hnode]
    exact .refuse hnode (if_neg fun hnew ↦ hnew.1 hnode)
  · have htaken : ¬s.Refuses (.setInfo info) := hnode
    rw [if_neg hnode]
    by_cases hsame : s.nodes.get? info.nodeId = some info
    · rw [if_pos hsame]
      refine .keep htaken (if_neg fun hnew ↦ hnew.2 hsame) (funext fun node ↦ ?_)
        (Table.nodup_keys_insert h.nodup _ _)
      rw [Table.get?_insert]
      split
      · rename_i heq
        exact heq ▸ hsame.symm
      · rfl
    · rw [if_neg hsame]
      exact .change htaken (if_pos ⟨hnode, hsame⟩) hnode hsame

theorem effect_setStatus (h : s.InOrder) (node : NodeId) (status : NodeStatus) :
    Effect s (.setStatus node status) (s.setStatus node status) := by
  rw [setStatus, h.guarded]
  cases hrecord : s.nodes.get? node with
  | none => exact .refuse hrecord (by simp [tells, records, hrecord])
  | some info =>
    have hknown : ¬s.Refuses (.setStatus node status) := fun hnone ↦ by
      cases hrecord.symm.trans hnone
    dsimp only
    by_cases hsame : info.status = status
    · rw [if_pos hsame]
      exact .keep hknown (by simp [tells, records, hrecord, hsame]) rfl h.nodup
    · rw [if_neg hsame]
      obtain ⟨rfl, hnode⟩ := h.keyed hrecord
      have htells : s.tells (.setStatus info.nodeId status) =
          [.changed (info.withStatus status)] := by
        simp [tells, records, hrecord, hsame]
      refine .change hknown htells hnode fun hstored ↦ hsame ?_
      have hinfo : info = info.withStatus status := Option.some.inj (hrecord.symm.trans hstored)
      rw [hinfo, NodeInfo.status_withStatus]

theorem effect_remove (h : s.InOrder) (node : NodeId) :
    Effect s (.remove node) (s.remove node) := by
  rw [remove, h.guarded]
  cases hrecord : s.nodes.get? node with
  | none => exact .refuse hrecord (if_neg fun hsome ↦ hsome hrecord)
  | some info =>
    have hknown : s.records node ≠ none := fun hnone ↦ by cases hrecord.symm.trans hnone
    have htaken : ¬s.Refuses (.remove node) := hknown
    exact .forget htaken (if_pos hknown) hknown

/-- **A move changes one record and tells it to everybody**, or it changes no record. -/
theorem effect_act {x : Except ServiceError Unit × NodeStore} (h : s.InOrder)
    (hx : s.act mv = x) : Effect s mv x := by
  subst hx
  cases mv with
  | setInfo info => exact effect_setInfo h info
  | setStatus node status => exact effect_setStatus h node status
  | remove node => exact effect_remove h node
  | listen k => exact .listen rfl
  | unlisten k => exact .unlisten rfl

/-- What is refused fails, and changes nothing. -/
theorem act_of_refuses (h : s.InOrder) (hmv : s.Refuses mv) :
    ∃ e, s.act mv = (.error e, s) := by
  generalize hact : s.act mv = x
  cases effect_act h hact with
  | refuse _ _ => exact ⟨_, rfl⟩
  | keep htaken _ _ _ => exact absurd hmv htaken
  | change htaken _ _ _ => exact absurd hmv htaken
  | forget htaken _ _ => exact absurd hmv htaken
  | listen hlisten =>
    subst hlisten
    exact hmv.elim
  | unlisten hunlisten =>
    subst hunlisten
    exact hmv.elim

/-- What is not refused works. -/
theorem act_of_not_refuses (h : s.InOrder) (hmv : ¬s.Refuses mv) :
    (s.act mv).1 = .ok () := by
  generalize hact : s.act mv = x
  cases effect_act h hact with
  | refuse hrefused _ => exact absurd hrefused hmv
  | _ => rfl

/-- **What a move tells is what it changes.** -/
theorem follows_step (h : s.InOrder) (mv : Move) :
    Follows s.records (s.tells mv) (s.step mv).records := by
  unfold step
  generalize hact : s.act mv = x
  cases effect_act h hact with
  | refuse _ htells => exact htells ▸ .refl _
  | keep _ htells hrecords _ =>
    rw [htells]
    change Follows s.records [] (Table.get? _)
    rw [hrecords]
    exact .refl _
  | change _ htells _ hnews =>
    rw [htells]
    exact .single hnews fun node ↦ Table.get?_insert _ _ _ _
  | forget _ htells hknown =>
    rw [htells]
    exact .single hknown fun node ↦ Table.get?_erase _ _ _
  | listen hlisten =>
    subst hlisten
    exact .refl _
  | unlisten hunlisten =>
    subst hunlisten
    exact .refl _

theorem InOrder.step (h : s.InOrder) (mv : Move) : (s.step mv).InOrder := by
  unfold NodeStore.step
  generalize hact : s.act mv = x
  cases effect_act h hact with
  | refuse _ _ => exact h
  | keep _ _ hrecords hnodup =>
    refine ⟨h.outage, hnodup, fun {node info} hinfo ↦ h.keyed ?_⟩
    exact hrecords ▸ hinfo
  | @change info _ _ hnode _ =>
    refine ⟨h.outage, Table.nodup_keys_insert h.nodup _ _, fun {node info'} hinfo ↦ ?_⟩
    change (s.nodes.insert info.nodeId info).get? node = some info' at hinfo
    rw [Table.get?_insert] at hinfo
    split at hinfo
    · rename_i heq
      obtain rfl := Option.some.inj hinfo
      exact ⟨heq, heq ▸ hnode⟩
    · exact h.keyed hinfo
  | @forget node _ _ _ =>
    refine ⟨h.outage, Table.nodup_keys_erase h.nodup _, fun {node' info'} hinfo ↦ ?_⟩
    change (s.nodes.erase node).get? node' = some info' at hinfo
    rw [Table.get?_erase] at hinfo
    split at hinfo
    · cases hinfo
    · exact h.keyed hinfo
  | listen _ => exact ⟨h.outage, h.nodup, h.keyed⟩
  | unlisten _ => exact ⟨h.outage, h.nodup, h.keyed⟩

theorem InOrder.run (h : s.InOrder) (moves : List Move) : (s.run moves).InOrder := by
  induction moves using List.reverseRecOn with
  | nil => exact h
  | append_singleton moves mv ih =>
    rw [run_concat]
    exact ih.step mv

theorem follows_run (h : s.InOrder) (moves : List Move) :
    Follows s.records (s.told moves) (s.run moves).records := by
  induction moves using List.reverseRecOn with
  | nil => exact .refl _
  | append_singleton moves mv ih =>
    rw [run_concat, told_concat]
    exact ih.trans (follows_step (h.run moves) mv)

/-! ## Who listens -/

/-- What changes records tells everybody who listens. -/
theorem listeners_step (h : s.InOrder) (hlisten : ∀ k, mv ≠ .listen k)
    (hunlisten : ∀ k, mv ≠ .unlisten k) :
    (s.step mv).listeners = (s.tellAll (s.tells mv)).listeners := by
  unfold step
  generalize hact : s.act mv = x
  cases effect_act h hact with
  | refuse _ htells => rw [htells, tellAll_nil]
  | keep _ htells _ _ => rw [htells, tellAll_nil]
  | change _ htells _ _ => rw [htells]; rfl
  | forget _ htells _ => rw [htells]; rfl
  | listen heq => exact absurd heq (hlisten _)
  | unlisten heq => exact absurd heq (hunlisten _)

/-- Who listens after a move listened before, and was told what the move told, or has just begun to
listen. -/
theorem mem_listeners_step (h : s.InOrder) : (k, events) ∈ (s.step mv).listeners ↔
    (mv = .listen k ∧ events = []) ∨
      mv ≠ .unlisten k ∧ ∃ before, (k, before) ∈ s.listeners ∧ events = before ++ s.tells mv := by
  have hchange (hlisten : ∀ k, mv ≠ .listen k) (hunlisten : ∀ k, mv ≠ .unlisten k) :
      (k, events) ∈ (s.step mv).listeners ↔ (mv = .listen k ∧ events = []) ∨
        mv ≠ .unlisten k ∧ ∃ before, (k, before) ∈ s.listeners ∧
          events = before ++ s.tells mv := by
    rw [listeners_step h hlisten hunlisten]
    simp [tellAll, hlisten, hunlisten, eq_comm]
  cases mv with
  | listen j =>
    have htells : s.tells (.listen j) = [] := rfl
    rw [htells]
    simp [step, act, listen, or_comm, eq_comm (a := j)]
  | unlisten j =>
    have htells : s.tells (.unlisten j) = [] := rfl
    rw [htells]
    simp [step, act, unlisten, and_comm, eq_comm (a := j)]
  | setInfo _ => exact hchange nofun nofun
  | setStatus _ _ => exact hchange nofun nofun
  | remove _ => exact hchange nofun nofun

/-- **Who listens after a history** began to listen at some time in it, did not stop since then, and
was told what the moves since then told. -/
theorem mem_listeners_run (h : s.InOrder) (hs : s.listeners = []) :
    (k, events) ∈ (s.run moves).listeners ↔ ∃ before after, moves = before ++ .listen k :: after ∧
      .unlisten k ∉ after ∧ events = ((s.run before).listen k).told after := by
  -- a store after a history is the store after what came before somebody listened, and after the rest
  have hrest : ∀ before after, ((s.run before).listen k).run after =
      s.run (before ++ .listen k :: after) := by
    intro before after
    rw [run_append]
    rfl
  induction moves using List.reverseRecOn generalizing events with
  | nil =>
    rw [run_nil, hs]
    refine iff_of_false List.not_mem_nil ?_
    rintro ⟨before, after, hsplit, -⟩
    exact absurd hsplit.symm (List.append_ne_nil_of_right_ne_nil _ (List.cons_ne_nil _ _))
  | append_singleton moves mv ih =>
    rw [run_concat, mem_listeners_step (h.run moves)]
    constructor
    · rintro (⟨rfl, rfl⟩ | ⟨hstays, heard, hheard, rfl⟩)
      · exact ⟨moves, [], rfl, List.not_mem_nil, rfl⟩
      · obtain ⟨before, after, rfl, hafter, rfl⟩ := ih.mp hheard
        refine ⟨before, after ++ [mv], List.append_assoc _ _ _, ?_, ?_⟩
        · simp [hafter, Ne.symm hstays]
        · rw [told_concat, hrest]
    · rintro ⟨before, after, hsplit, hafter, rfl⟩
      rcases History.eq_or_of_concat hsplit with ⟨-, rfl, rfl⟩ | ⟨after, rfl, rfl⟩
      · exact Or.inl ⟨rfl, rfl⟩
      · obtain ⟨hbefore, hstays⟩ := not_or.mp (mt List.mem_append.mpr hafter)
        refine Or.inr ⟨fun heq ↦ hstays (heq ▸ List.mem_singleton_self _), _,
          ih.mpr ⟨before, after, rfl, hbefore, rfl⟩, ?_⟩
        rw [told_concat, hrest]

/-! ## Setting a status, listing nodes -/

/-- Setting a status alters no more than the status code of that one record, which means that
status then. -/
theorem records_setStatus (h : s.InOrder) {status : NodeStatus}
    (hok : (s.setStatus node status).1 = .ok ()) :
    ∃ info code, s.records node = some info ∧ NodeStatus.ofCode code = status ∧
      ∀ other, (s.setStatus node status).2.records other =
        if node = other then some { info with statusCode := code } else s.records other := by
  rw [setStatus, h.guarded] at hok ⊢
  cases hrecord : s.nodes.get? node with
  | none =>
    rw [hrecord] at hok
    cases hok
  | some info =>
    dsimp only
    by_cases hsame : info.status = status
    · rw [if_pos hsame]
      refine ⟨info, info.statusCode, hrecord, hsame, fun other ↦ ?_⟩
      split
      · rename_i heq
        exact heq ▸ hrecord
      · rfl
    · rw [if_neg hsame]
      exact ⟨info, status.code, hrecord, NodeStatus.ofCode_code status,
        fun other ↦ Table.get?_insert _ _ _ _⟩

theorem pairwise_sortedIds (h : s.InOrder) : s.sortedIds.Pairwise (· < ·) := by
  have hsorted : s.sortedIds.Pairwise fun a b ↦ decide (a ≤ b) = true := by
    refine List.pairwise_mergeSort (fun a b c hab hbc ↦ ?_) (fun a b ↦ ?_) _
    · exact decide_eq_true (String.le_trans (of_decide_eq_true hab) (of_decide_eq_true hbc))
    · simp [String.le_total]
  have hnodup : s.sortedIds.Nodup := (List.mergeSort_perm _ _).nodup_iff.mpr h.nodup
  refine List.Pairwise.imp₂ (fun a b hab hne ↦ ?_) hsorted hnodup
  exact String.not_le.mp fun hba ↦ hne (String.le_antisymm (of_decide_eq_true hab) hba)

theorem mem_sortedIds : node ∈ s.sortedIds ↔ s.records node ≠ none := by
  rw [sortedIds, List.mem_mergeSort, Table.mem_keys_iff]
  rfl

/-! ## Histories of a new store -/

/-- A store after a history feeds those who listen, and keeps its records in order. -/
structure Feeds (moves : List Move) : Prop where
  /-- Whoever listens was told what the moves told since it began. -/
  listeners : ∀ k events, (k, events) ∈ (run {} moves).listeners ↔
    ∃ before after, moves = before ++ .listen k :: after ∧ .unlisten k ∉ after ∧
      events = (listen (run {} before) k).told after
  /-- Whoever applies that to the records at the time when it began has the records there are, and
  is told nothing that it has. -/
  follows : ∀ k before after, moves = before ++ .listen k :: after →
    Follows (run {} before).records ((listen (run {} before) k).told after) (run {} moves).records
  /-- What is refused fails and leaves everything as it is. -/
  refuses : ∀ mv, (run {} moves).Refuses mv → ∃ e, (run {} moves).act mv = (.error e, run {} moves)
  /-- Nothing else fails. -/
  accepts : ∀ mv, ¬(run {} moves).Refuses mv → ((run {} moves).act mv).1 = .ok ()
  /-- A record is kept under the node that it is about. -/
  keyed : ∀ node info, (run {} moves).records node = some info → info.nodeId = node ∧ node ≠ ""
  /-- Setting a status alters the status code of one record. -/
  status : ∀ node status, ((run {} moves).setStatus node status).1 = .ok () →
    ∃ info code, (run {} moves).records node = some info ∧ NodeStatus.ofCode code = status ∧
      ∀ other, ((run {} moves).setStatus node status).2.records other =
        if node = other then some { info with statusCode := code }
        else (run {} moves).records other
  /-- The nodes with a record are listed in order, each once. -/
  ids : ∃ nodes, (run {} moves).ids = .ok nodes ∧ nodes.Pairwise (· < ·) ∧
    ∀ node, node ∈ nodes ↔ (run {} moves).records node ≠ none

/-- **A store feeds those who listen**, throughout every history of a new one. -/
theorem feeds_run (moves : List Move) : Feeds moves := by
  have hall : ∀ moves, (run {} moves).InOrder := inOrder_new.run
  constructor
  · exact fun k events ↦ mem_listeners_run inOrder_new rfl
  · rintro k before after rfl
    rw [run_append]
    exact follows_run ((hall before).step (.listen k)) after
  · exact fun mv ↦ act_of_refuses (hall moves)
  · exact fun mv ↦ act_of_not_refuses (hall moves)
  · exact fun node info ↦ (hall moves).keyed
  · exact fun node status ↦ records_setStatus (hall moves)
  · refine ⟨_, ?_, pairwise_sortedIds (hall moves), fun node ↦ mem_sortedIds⟩
    rw [ids, (hall moves).outage]

end NodeStore

end NodeAgent
