import NodeAgent.Node.Store
import Mathlib.Data.List.Induction

/-!
# The stored status

The store has one record of each node, and whatever changes the record of one node leaves the others
alone. `status?` is the status in the record. An operation that works writes it, and one that does
not leaves everything as it was, so the stored status is that of the last info or status that the
store took (`status?_putAll`).
-/

namespace NodeAgent.NodeStore

variable {s : NodeStore} {node : NodeId} {info : NodeInfo}

/-- The status in the record of a node. -/
def status? (s : NodeStore) (node : NodeId) : Option NodeStatus :=
  (s.nodes.get? node).map (·.status)

/-- The store after infos were brought to it one after another. -/
def putAll (s : NodeStore) (infos : List NodeInfo) : NodeStore :=
  infos.foldl (fun s info ↦ (s.setInfo info).2) s

theorem putAll_append (s : NodeStore) (infos infos' : List NodeInfo) :
    s.putAll (infos ++ infos') = (s.putAll infos).putAll infos' := List.foldl_append

theorem isOk_iff {α : Type} {x : Except α Unit} : x.isOk = true ↔ x = .ok () := by
  cases x <;> simp [Except.isOk, Except.toBool]

theorem outage_setInfo (s : NodeStore) (info : NodeInfo) :
    (s.setInfo info).2.outage = s.outage := by
  unfold setInfo guarded
  split
  · rfl
  · split
    · rfl
    · dsimp only
      split <;> rfl

theorem outage_putAll (s : NodeStore) (infos : List NodeInfo) :
    (s.putAll infos).outage = s.outage := by
  induction infos generalizing s with
  | nil => rfl
  | cons info infos ih => exact (ih _).trans (s.outage_setInfo info)

/-- An info that is not taken changes nothing. -/
theorem setInfo_of_not_isOk (h : (s.setInfo info).1.isOk = false) : (s.setInfo info).2 = s := by
  unfold setInfo guarded at h ⊢
  split
  · rfl
  · rename_i hout
    rw [hout] at h
    dsimp only at h
    split
    · rfl
    · rename_i hnode
      rw [if_neg hnode] at h
      split at h <;> cases h

/-- **What an info makes of the stored status of a node.** -/
theorem status?_setInfo (s : NodeStore) (info : NodeInfo) (node : NodeId) :
    (s.setInfo info).2.status? node =
      if info.nodeId = node ∧ (s.setInfo info).1.isOk then some info.status
      else s.status? node := by
  by_cases hok : (s.setInfo info).1.isOk = true
  · by_cases hnode : info.nodeId = node
    · subst hnode
      rw [if_pos ⟨rfl, hok⟩, status?, get?_setInfo_self (isOk_iff.mp hok)]
      rfl
    · rw [if_neg fun h ↦ hnode h.1, status?, get?_setInfo_of_ne s hnode]
      rfl
  · rw [if_neg fun h ↦ hok h.2, setInfo_of_not_isOk (Bool.eq_false_iff.mpr hok)]

/-- What setting a status makes of the stored status of a node. -/
theorem status?_setStatus (s : NodeStore) (other : NodeId) (status : NodeStatus) (node : NodeId) :
    (s.setStatus other status).2.status? node =
      if other = node ∧ (s.setStatus other status).1.isOk then some status
      else s.status? node := by
  have hnone : ∀ {e : ServiceError} {x : Option NodeStatus},
      x = if other = node ∧ (Except.error e : Except ServiceError Unit).isOk then some status
        else x := fun {e x} ↦ (if_neg fun h ↦ Bool.false_ne_true h.2).symm
  unfold setStatus guarded
  split
  · exact hnone
  · split
    · exact hnone
    · rename_i info hinfo
      split
      · rename_i hsame
        by_cases hnode : other = node
        · subst hnode
          rw [if_pos ⟨rfl, rfl⟩, status?, hinfo, ← hsame]
          rfl
        · rw [if_neg fun h ↦ hnode h.1]
      · change ((s.nodes.insert other (info.withStatus status)).get? node).map (·.status) = _
        rw [Table.get?_insert]
        by_cases hnode : other = node
        · rw [if_pos hnode, if_pos ⟨hnode, rfl⟩, Option.map_some, NodeInfo.status_withStatus]
        · rw [if_neg hnode, if_neg fun h ↦ hnode h.1]
          rfl

/-- **The stored status is that of the last info that was taken.** -/
theorem status?_putAll (s : NodeStore) (infos : List NodeInfo) (node : NodeId) :
    (s.putAll infos).status? node = ((infos.filter fun info ↦
      info.nodeId = node ∧ (s.setInfo info).1.isOk).getLast?.map (·.status)).or
        (s.status? node) := by
  induction infos using List.reverseRecOn with
  | nil => rfl
  | append_singleton infos info ih =>
    have hsame : ((s.putAll infos).setInfo info).1 = (s.setInfo info).1 :=
      setInfo_fst_congr (s.outage_putAll infos) info
    rw [putAll_append]
    change ((s.putAll infos).setInfo info).2.status? node = _
    rw [status?_setInfo, hsame, List.filter_append, List.getLast?_append]
    by_cases htaken : info.nodeId = node ∧ (s.setInfo info).1.isOk = true
    · rw [if_pos htaken, List.filter_cons_of_pos (by simpa using htaken)]
      rfl
    · rw [if_neg htaken, ih, List.filter_cons_of_neg (by simpa using htaken)]
      rfl

end NodeAgent.NodeStore
