import NodeAgent.Proofs.Node.Store
import NodeAgent.Proofs.Registry.Soundness

/-!
# What the store is brought

Of the infos that a move takes from a registration, the store is brought those that the registration
`accepts`: they are of its own node, and the listener accepts their statuses. It is brought all of
these, in the order in which they are taken, and nothing else.

## Main statements

* `store_step`: the store after any move that does not change it from outside.
* `status?_step`: the stored status of a node whose infos are all accepted.
-/

namespace NodeAgent

/-- Whether an info that is taken from a registration is brought to the store. -/
def Registration.accepts (g : Registration) (info : NodeInfo) : Bool :=
  g.stream?.all (·.node = info.nodeId) && decide (info.status ∈ g.allowed)

namespace Registry

variable {r r' : Registry} {i : Nat} {g : Registration} {mv : Move} {info : NodeInfo} {s : Stream}

/-- Whether an info that a move takes in is brought to the store. -/
def accepts (r : Registry) (p : Nat × NodeInfo) : Bool :=
  (r.registration? p.1).any (·.accepts p.2)

theorem accepts_of_admitted {reading : Bool} (h : g.admission = .admitted s reading) :
    g.accepts info = true ↔ info.nodeId = s.node ∧ info.status ∈ g.allowed := by
  rw [Registration.accepts, Registration.stream?, h, Option.all_some, Bool.and_eq_true,
    decide_eq_true_iff, decide_eq_true_iff]
  exact and_congr_left' eq_comm

/-! ## One info -/

theorem store_link (r : Registry) (i : Nat) : (r.link i).store = r.store :=
  (Takes.link r i []).store_eq

theorem store_stop (r : Registry) (i : Nat) : (r.stop i).store = r.store :=
  (Takes.stop r i []).store_eq

theorem store_report (r : Registry) (i : Nat) (hreading : g.admission = .admitted s true)
    (info : NodeInfo) :
    (r.report i g s info).store = r.store.putAll ([info].filter g.accepts) := by
  by_cases haccepts : g.accepts info = true
  · obtain ⟨hnode, hallowed⟩ := (accepts_of_admitted hreading).mp haccepts
    rw [List.filter_cons_of_pos haccepts, report, if_neg (not_not.mpr hnode),
      if_neg (not_not.mpr hallowed)]
    change _ = (r.store.setInfo info).2
    split
    · rename_i hset
      rw [hset]
    · rename_i hset
      dsimp only
      rw [hset]
      split
      · exact store_link _ i
      · rfl
  · rw [List.filter_cons_of_neg haccepts, report]
    split
    · rfl
    · rename_i hnode
      split
      · exact (Takes.unlink r i []).store_eq
      · rename_i hallowed
        exact absurd ((accepts_of_admitted hreading).mpr ⟨not_not.mp hnode, not_not.mp hallowed⟩)
          haccepts

theorem store_admitWith (r : Registry) (i : Nat) (allowed : List NodeStatus) (info : NodeInfo) :
    (r.admitWith i allowed info).store =
      r.store.putAll ([info].filter fun info ↦ decide (info.status ∈ allowed)) := by
  by_cases hallowed : info.status ∈ allowed
  · have hfilter : ([info].filter fun info ↦ decide (info.status ∈ allowed)) = [info] :=
      List.filter_eq_self.mpr (by simpa using hallowed)
    rw [hfilter, admitWith, if_neg (not_not.mpr hallowed)]
    change _ = (r.store.setInfo info).2
    split
    · rename_i hset
      rw [hset]
      rfl
    · rename_i hset
      dsimp only
      rw [hset]
      split
      · rfl
      · exact store_link _ i
  · have hfilter : ([info].filter fun info ↦ decide (info.status ∈ allowed)) = [] :=
      List.filter_eq_nil_iff.mpr (by simpa using hallowed)
    rw [hfilter, admitWith, if_pos hallowed]
    rfl

/-! ## What a reader takes -/

theorem heard_of_no_frame {arrived : List Arrival} (h : ∀ f rest, arrived ≠ .frame f :: rest)
    (count : Nat) : heard count arrived = [] := by
  match count, arrived with
  | 0, _ => rfl
  | _ + 1, [] => rfl
  | _ + 1, .fault :: _ => rfl
  | _ + 1, .frame f :: rest => exact absurd rfl (h f rest)

theorem store_readNext (r : Registry) (i : Nat) (hreading : g.admission = .admitted s true) :
    (r.readNext i g s).store = r.store.putAll ((heard 1 g.arrived).filter g.accepts) := by
  unfold readNext
  split
  · rename_i hempty
    rw [hempty]
    split
    · exact store_stop r i
    · rfl
  · rename_i hfault
    rw [hfault]
    exact store_stop r i
  · rename_i f rest harrived
    rw [harrived]
    dsimp only
    split
    · rename_i hnone
      rw [heard_of_not_info (by simp [hnone])]
      rfl
    · rename_i info hinfo
      have hheard : heard 1 (.frame f :: rest) = [info] := heard_of_info hinfo 0 rest
      rw [hheard]
      exact store_report _ i hreading info
    · rename_i m hno hm
      rw [heard_of_not_info fun info hinfo ↦ hno info (Option.some.inj (hm.symm.trans hinfo))]
      rfl

theorem store_readLate (hg : r.registration? i = some g) (hreading : g.admission = .admitted s true)
    (count : Nat) :
    (r.readLate i count).store = r.store.putAll ((heard count g.arrived).filter g.accepts) := by
  induction count generalizing r g s with
  | zero =>
    rw [readLate_zero hg hreading, store_stop]
    rfl
  | succ count ih =>
    have hnext := store_readNext r i hreading
    obtain ⟨g', hg', hreads⟩ := readsNext hg hreading
    rw [readLate_succ hg hreading]
    generalize r.readNext i g s = r' at *
    cases hreads with
    | idle hempty =>
      rw [ih hg' hreading, hnext, hempty, heard_nil, heard_nil, heard_nil]
      rfl
    | @take f rest harrived =>
      rw [ih hg' hreading, hnext, harrived, heard_succ count, List.filter_append,
        NodeStore.putAll_append]
      rfl
    | @deliver id m rest harrived =>
      have hsame : ∀ info, Registration.accepts
          { g with
            arrived := rest
            admission := .admitted (s.deliver id (.response m)).2 true } info =
          g.accepts info := by
        intro info
        have hnode : (s.deliver id (.response m)).2.node = s.node :=
          (Stream.Alike.resolve s id _).node
        rw [Registration.accepts, Registration.accepts, Registration.stream?, Registration.stream?,
          hreading, Option.all_some, Option.all_some, hnode]
      rw [ih hg' rfl, hnext, harrived, heard_succ count, List.filter_append,
        NodeStore.putAll_append, funext hsame]
    | stop hnone _ =>
      rw [readLate_stopped hg' rfl, hnext, heard_of_no_frame hnone, heard_of_no_frame hnone]

/-! ## What a move brings the store -/

theorem filter_accepts_intake (hg : r.registration? i = some g) (infos : List NodeInfo) :
    ((infos.map fun info ↦ (i, info)).filter r.accepts).map (·.2) = infos.filter g.accepts := by
  have hsame : (r.accepts ∘ fun info ↦ (i, info)) = g.accepts := by
    funext info
    rw [Function.comp_apply, accepts, hg, Option.any_some]
  rw [List.filter_map, hsame, List.map_map]
  exact List.map_id _

theorem store_review (r : Registry) (i : Nat) (now : Instant) :
    (r.review i now).store =
      r.store.putAll (((r.intake (.review i now)).filter r.accepts).map (·.2)) := by
  unfold review
  split
  · rename_i hnone
    simp only [intake, hnone]
    rfl
  · rename_i g hg
    split
    · rename_i deadline hwaiting
      rw [intake_review hg hwaiting, filter_accepts_intake hg]
      split
      · rename_i id info rest harrived
        have hheard : heard 1 g.arrived = [info] := by
          rw [harrived]
          exact heard_of_info rfl 0 rest
        have haccepts : g.accepts = fun info ↦ decide (info.status ∈ g.allowed) := by
          funext info
          rw [Registration.accepts, Registration.stream?, hwaiting]
          rfl
        rw [hheard, haccepts]
        exact store_admitWith _ i g.allowed info
      · rename_i f rest hno harrived
        rw [harrived, heard_of_not_info fun info hinfo ↦ ?_]
        · rfl
        · obtain ⟨id, message⟩ := f
          obtain rfl : message = _ := hinfo
          exact hno id info rfl
      · rename_i hfault
        rw [hfault]
        rfl
      · rename_i hempty
        rw [hempty]
        split
        · rfl
        · split <;> rfl
    · rename_i hno
      have hnone : r.intake (.review i now) = [] := by
        unfold intake
        dsimp only
        rw [hg]
        dsimp only
        split
        · rename_i deadline hwaiting
          exact absurd hwaiting (hno deadline)
        · rfl
      rw [hnone]
      rfl

theorem store_readSome (r : Registry) (i late : Nat) :
    (r.readSome i late).store =
      r.store.putAll (((r.intake (.read i late)).filter r.accepts).map (·.2)) := by
  unfold readSome
  split
  · rename_i hnone
    simp only [intake, hnone]
    rfl
  · rename_i g hg
    split
    · rename_i s hreading
      rw [intake_read hg hreading, filter_accepts_intake hg]
      split
      · exact store_readLate hg hreading late
      · exact store_readNext r i hreading
    · rename_i hno
      have hnone : r.intake (.read i late) = [] := by
        unfold intake
        dsimp only
        rw [hg]
        dsimp only
        split
        · rename_i s hreading
          exact absurd hreading (hno s)
        · rfl
      rw [hnone]
      rfl

/-- **The store is brought what is accepted** of the infos that a move takes in, and nothing
else. -/
theorem store_step (r : Registry) (hmv : ∀ store, mv ≠ .store store) :
    (r.step mv).store = r.store.putAll (((r.intake mv).filter r.accepts).map (·.2)) := by
  cases mv with
  | review i now => exact store_review r i now
  | read i late => exact store_readSome r i late
  | receive i a => exact (takes_receive r i a).store_eq
  | close => exact (takes_close r).store_eq
  | store s => exact absurd rfl (hmv s)
  | _ => rfl

/-- The stored status of a node after a move that takes in only infos of it that are accepted. -/
theorem status?_step {node : NodeId} (r : Registry) (hmv : ∀ store, mv ≠ .store store)
    (haccepts : ∀ p ∈ r.intake mv, p.2.nodeId = node → r.accepts p = true) :
    (r.step mv).store.status? node = (((r.intake mv).filter fun p ↦
      p.2.nodeId = node ∧ (r.store.setInfo p.2).1.isOk).getLast?.map (·.2.status)).or
        (r.store.status? node) := by
  have hsame : ((r.intake mv).filter r.accepts).filter
      ((fun info ↦ decide (info.nodeId = node ∧ (r.store.setInfo info).1.isOk)) ∘ (·.2)) =
      (r.intake mv).filter fun p ↦ p.2.nodeId = node ∧ (r.store.setInfo p.2).1.isOk := by
    rw [List.filter_filter]
    refine List.filter_congr fun p hp ↦ ?_
    by_cases hnode : p.2.nodeId = node
    · simp [haccepts p hp hnode]
    · simp [hnode]
  rw [store_step r hmv, NodeStore.status?_putAll, List.filter_map, hsame, List.getLast?_map,
    Option.map_map]
  rfl

end Registry

end NodeAgent
