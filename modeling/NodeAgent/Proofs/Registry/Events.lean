import NodeAgent.Proofs.History
import NodeAgent.Proofs.Registry.Intake
import Mathlib.Data.List.Induction
import Mathlib.Data.List.Nodup

/-!
# What is told about connections

Whoever watches the agent's connections learns of them by events alone, so the events have to say
who is connected: the last event about a node says that it was connected exactly if it is linked,
and nobody is told that a node was disconnected who was not told before that it was connected.

Five paths lead to the table of links: a registration is admitted, replaced or linked again, a node
is unlinked for its status or because its reader stops, and the registry is closed. All but the
last go through `link` and `unlink`, one after another (`Relinks`), and each of those changes one
entry and tells one event. Closing takes all entries away at once and tells one event for each.

## Main statements

* `relinks_step`: no move but closing touches the links in another way than by linking and
  unlinking registrations.
* `mirrored_run`: the events say who is connected, throughout every run.
-/

namespace NodeAgent

/-! ## Events about a node -/

namespace ConnectionEvent

/-- The node that an event is about. -/
def node : ConnectionEvent → NodeId
  | .connected node | .disconnected node => node

variable {node : NodeId} {e : ConnectionEvent} {told told' : List ConnectionEvent}

/-- The last of some events that is about a node. -/
def last? (told : List ConnectionEvent) (node : NodeId) : Option ConnectionEvent :=
  (told.filter (·.node = node)).getLast?

theorem last?_append (told told' : List ConnectionEvent) (node : NodeId) :
    last? (told ++ told') node = (last? told' node).or (last? told node) := by
  rw [last?, List.filter_append, List.getLast?_append]
  rfl

theorem last?_singleton (e : ConnectionEvent) (node : NodeId) :
    last? [e] node = if e.node = node then some e else none := by
  by_cases h : e.node = node <;> simp [last?, h]

theorem last?_eq_none_iff : last? told node = none ↔ ∀ e ∈ told, e.node ≠ node := by
  simp [last?]

theorem mem_of_last? (h : last? told node = some e) : e ∈ told ∧ e.node = node := by
  have hmem := List.mem_filter.mp (List.mem_of_getLast? h)
  exact ⟨hmem.1, of_decide_eq_true hmem.2⟩

/-- Nothing is told about nodes that are not among the disconnected ones. -/
theorem last?_disconnected {nodes : List NodeId} (h : node ∉ nodes) :
    last? (nodes.map .disconnected) node = none := by
  rw [last?_eq_none_iff]
  rintro e he rfl
  obtain ⟨node, hmem, rfl⟩ := List.mem_map.mp he
  exact h hmem

/-- Whether a node is connected as far as somebody knows who was told some events, and who knew
before which nodes were. -/
def Stands (known : NodeId → Prop) (told : List ConnectionEvent) (node : NodeId) : Prop :=
  (last? told node).elim (known node) (· = .connected node)

theorem stands_of_none {known : NodeId → Prop} (h : last? told node = none) :
    Stands known told node ↔ known node := by
  rw [Stands, h, Option.elim_none]

theorem stands_of_some {known : NodeId → Prop} (h : last? told node = some e) :
    Stands known told node ↔ e = .connected node := by
  rw [Stands, h, Option.elim_some]

/-- Whoever is known to be connected only now was told to be. -/
theorem mem_of_stands {known : NodeId → Prop} (hunknown : ¬known node)
    (h : Stands known told node) : .connected node ∈ told := by
  cases hlast : last? told node with
  | none => exact absurd ((stands_of_none hlast).mp h) hunknown
  | some e => exact (stands_of_some hlast).mp h ▸ (mem_of_last? hlast).1

/-- What was known before some more events were told is what the earlier ones say. -/
theorem stands_append (known : NodeId → Prop) (told told' : List ConnectionEvent) (node : NodeId) :
    Stands known (told ++ told') node ↔ Stands (Stands known told) told' node := by
  cases h : last? told' node with
  | none =>
    rw [stands_of_none h, Stands, last?_append, h, Option.none_or]
    rfl
  | some e =>
    have happend : last? (told ++ told') node = some e := by rw [last?_append, h, Option.some_or]
    rw [stands_of_some h, stands_of_some happend]

/-- The events that were told while the connected nodes changed: they say who is connected now, and
whoever was disconnected had been connected. -/
structure Traces (linked : NodeId → Prop) (told : List ConnectionEvent) (linked' : NodeId → Prop) :
    Prop where
  stands : ∀ node, linked' node ↔ Stands linked told node
  disconnects : ∀ before node after, told = before ++ .disconnected node :: after →
    Stands linked before node

namespace Traces

variable {linked linked' linked'' : NodeId → Prop}

theorem refl (linked : NodeId → Prop) : Traces linked [] linked where
  stands _ := Iff.rfl
  disconnects _ _ _ h := absurd h.symm (List.append_ne_nil_of_right_ne_nil _ (List.cons_ne_nil _ _))

theorem trans (h : Traces linked told linked') (h' : Traces linked' told' linked'') :
    Traces linked (told ++ told') linked'' := by
  have hknown : linked' = Stands linked told := funext fun node ↦ propext (h.stands node)
  subst hknown
  constructor
  · exact fun node ↦ (h'.stands node).trans (stands_append linked told told' node).symm
  · intro before node after hsplit
    rcases History.eq_append_cons_or hsplit with ⟨more, htold, -⟩ | ⟨more, rfl, htold'⟩
    · exact h.disconnects before node more htold
    · exact (stands_append linked told more node).mpr (h'.disconnects more node after htold')

/-- One node is told to be connected. -/
theorem connected (h : ∀ other, linked' other ↔ other = node ∨ linked other) :
    Traces linked [.connected node] linked' where
  stands other := by
    have hlast := last?_singleton (.connected node) other
    rw [h]
    by_cases hother : other = node
    · rw [stands_of_some (hlast.trans (if_pos hother.symm)), hother]
      simp
    · rw [stands_of_none (hlast.trans (if_neg (Ne.symm hother)))]
      exact or_iff_right hother
  disconnects before other after hsplit := by
    rcases List.singleton_eq_append_iff.mp hsplit with ⟨-, h⟩ | ⟨-, h⟩ <;> cases h

/-- Nodes that were connected are told to be disconnected, each once. -/
theorem disconnected {nodes : List NodeId} (hnodes : nodes.Nodup)
    (hlinked : ∀ node ∈ nodes, linked node)
    (h : ∀ other, linked' other ↔ other ∉ nodes ∧ linked other) :
    Traces linked (nodes.map .disconnected) linked' := by
  constructor
  · intro other
    rw [h]
    by_cases hother : other ∈ nodes
    · cases he : last? (nodes.map .disconnected) other with
      | none =>
        exact absurd rfl (last?_eq_none_iff.mp he _ (List.mem_map_of_mem hother))
      | some e =>
        obtain ⟨hmem, -⟩ := mem_of_last? he
        obtain ⟨node, -, rfl⟩ := List.mem_map.mp hmem
        rw [stands_of_some he]
        simp [hother]
    · rw [stands_of_none (last?_disconnected hother)]
      simp [hother]
  · intro before node after hsplit
    -- what came before was told about other nodes, since none is told about twice
    obtain ⟨first, rest, rfl, rfl, hrest⟩ := List.map_eq_append_iff.mp hsplit
    obtain ⟨node', rest', rfl, heq, -⟩ := List.map_eq_cons_iff.mp hrest
    obtain rfl : node' = node := ConnectionEvent.disconnected.inj heq
    have hfirst : node' ∉ first := fun hmem ↦
      (List.nodup_append.mp hnodes).2.2 node' hmem node' List.mem_cons_self rfl
    rw [stands_of_none (last?_disconnected hfirst)]
    exact hlinked node' (List.mem_append_right _ List.mem_cons_self)

end Traces

end ConnectionEvent

namespace Registry

open ConnectionEvent (last? Stands Traces)

variable {r r' r'' : Registry} {i : Nat} {g : Registration} {mv : Move} {node : NodeId}

/-! ## Linking and unlinking, one after another -/

/-- The registry got from one state to another by linking and unlinking registrations; whatever else
was done left the links and what was told about them alone. -/
inductive Relinks (r : Registry) : Registry → Prop where
  | refl : Relinks r r
  | keep {r' r'' : Registry} : Relinks r r' → r''.links = r'.links → r''.events = r'.events →
    Relinks r r''
  | link {r' : Registry} (i : Nat) : Relinks r r' → Relinks r (r'.link i)
  | unlink {r' : Registry} (i : Nat) : Relinks r r' → Relinks r (r'.unlink i)

namespace Relinks

theorem update (h : Relinks r r') (i : Nat) (f : Registration → Registration) :
    Relinks r (r'.update i f) := h.keep rfl rfl

theorem store (h : Relinks r r') (store : NodeStore) : Relinks r { r' with store } :=
  h.keep rfl rfl

theorem stop (h : Relinks r r') (i : Nat) : Relinks r (r'.stop i) :=
  ((h.update i _).unlink i).update i _

theorem admitWith (h : Relinks r r') (i : Nat) (allowed : List NodeStatus) (info : NodeInfo) :
    Relinks r (r'.admitWith i allowed info) := by
  unfold Registry.admitWith
  split
  · exact h.update i _
  · split
    · exact (h.store _).update i _
    · dsimp only
      split
      · exact (h.store _).update i _
      · exact ((h.store _).update i _).link i

theorem report (h : Relinks r r') (i : Nat) (g : Registration) (s : Stream) (info : NodeInfo) :
    Relinks r (r'.report i g s info) := by
  unfold Registry.report
  split
  · exact h
  · split
    · exact h.unlink i
    · split
      · exact h.store _
      · dsimp only
        split
        · exact (h.store _).link i
        · exact h.store _

theorem review (h : Relinks r r') (i : Nat) (now : Instant) : Relinks r (r'.review i now) := by
  unfold Registry.review
  split
  · exact h
  · split
    · split
      · exact (h.update i _).admitWith i _ _
      · exact h.update i _
      · exact h.update i _
      · split
        · exact h.update i _
        · split
          · exact h.update i _
          · exact h
    · exact h

theorem readNext (h : Relinks r r') (i : Nat) (g : Registration) (s : Stream) :
    Relinks r (r'.readNext i g s) := by
  unfold Registry.readNext
  split
  · split
    · exact h.stop i
    · exact h
  · exact h.stop i
  · dsimp only
    split
    · exact h.update i _
    · exact (h.update i _).report i g s _
    · exact (h.update i _).update i _

theorem readLate (h : Relinks r r') (i count : Nat) : Relinks r (r'.readLate i count) := by
  induction count generalizing r' with
  | zero =>
    unfold Registry.readLate
    split
    · exact h
    · split
      · exact h.stop i
      · exact h
  | succ count ih =>
    unfold Registry.readLate
    split
    · exact h
    · split
      · exact ih (h.readNext i _ _)
      · exact h

theorem readSome (h : Relinks r r') (i late : Nat) : Relinks r (r'.readSome i late) := by
  unfold Registry.readSome
  split
  · exact h
  · split
    · split
      · exact h.readLate i late
      · exact h.readNext i _ _
    · exact h

end Relinks

/-- **Closing apart, a move links and unlinks registrations**, if it touches the links at all. -/
theorem relinks_step (r : Registry) (h : mv ≠ .close) : Relinks r (r.step mv) := by
  cases mv with
  | review i now => exact Relinks.refl.review i now
  | read i late => exact Relinks.refl.readSome i late
  | receive i a =>
    change Relinks r (r.receive i a).2
    unfold receive
    split
    · exact .refl
    · split
      · exact Relinks.refl.update i _
      · exact .refl
  | close => exact absurd rfl h
  | _ => exact Relinks.refl.keep rfl rfl

/-! ## What is told -/

/-- A node is linked. -/
def IsLinked (r : Registry) (node : NodeId) : Prop := r.find? node ≠ none

/-- What was told while the registry changed says how its links did. -/
def Tells (r r' : Registry) : Prop :=
  ∃ told, r'.events = r.events ++ told ∧ Traces r.IsLinked told r'.IsLinked

theorem tells_of_eq (hlinks : r'.links = r.links) (hevents : r'.events = r.events) :
    Tells r r' := by
  have hlinked : r'.IsLinked = r.IsLinked := by
    funext node
    rw [IsLinked, find?, hlinks]
    rfl
  exact ⟨[], hevents.trans (List.append_nil _).symm, hlinked ▸ .refl _⟩

theorem Tells.trans (h : Tells r r') (h' : Tells r' r'') : Tells r r'' := by
  obtain ⟨told, hevents, htraces⟩ := h
  obtain ⟨told', hevents', htraces'⟩ := h'
  exact ⟨told ++ told', by rw [hevents', hevents, List.append_assoc], htraces.trans htraces'⟩

/-- Linking a registration tells that its node was connected. -/
theorem events_link {s : Stream} (hs : r.stream? i = some s) :
    (r.link i).events = r.events ++ [.connected s.node] := by
  unfold link
  rw [hs]
  dsimp only
  split
  · split <;> rfl
  · rfl

theorem tells_link (r : Registry) (i : Nat) : Tells r (r.link i) := by
  cases hs : r.stream? i with
  | none =>
    have hlink : r.link i = r := by
      unfold link
      rw [hs]
    rw [hlink]
    exact tells_of_eq rfl rfl
  | some s =>
    refine ⟨_, events_link hs, .connected fun node ↦ ?_⟩
    rw [IsLinked, find?_link hs]
    by_cases hnode : s.node = node
    · rw [if_pos hnode]
      simp [hnode]
    · rw [if_neg hnode]
      exact (or_iff_right (Ne.symm hnode)).symm

/-- Unlinking the registration that is linked tells that its node was disconnected. -/
theorem events_unlink {s : Stream} (hs : r.stream? i = some s) (h : r.find? s.node = some i) :
    (r.unlink i).events = r.events ++ [.disconnected s.node] := by
  unfold unlink
  rw [hs]
  dsimp only
  rw [if_pos h]
  rfl

theorem unlink_of_ne {s : Stream} (hs : r.stream? i = some s) (h : r.find? s.node ≠ some i) :
    r.unlink i = r := by
  unfold unlink
  rw [hs]
  exact if_neg h

theorem tells_unlink (r : Registry) (i : Nat) : Tells r (r.unlink i) := by
  cases hs : r.stream? i with
  | none =>
    have hunlink : r.unlink i = r := by
      unfold unlink
      rw [hs]
    rw [hunlink]
    exact tells_of_eq rfl rfl
  | some s =>
    by_cases hlinked : r.find? s.node = some i
    · refine ⟨_, events_unlink hs hlinked, .disconnected (List.nodup_singleton _)
        (fun node hnode ↦ ?_) fun node ↦ ?_⟩
      · rw [List.mem_singleton.mp hnode, IsLinked, hlinked]
        exact Option.some_ne_none i
      · rw [IsLinked, find?_unlink hs, List.mem_singleton]
        by_cases hnode : s.node = node
        · subst hnode
          rw [if_pos ⟨rfl, hlinked⟩]
          simp
        · rw [if_neg fun h ↦ hnode h.1]
          exact (and_iff_right (Ne.symm hnode)).symm
    · rw [unlink_of_ne hs hlinked]
      exact tells_of_eq rfl rfl

theorem Relinks.tells (h : Relinks r r') : Tells r r' := by
  induction h with
  | refl => exact tells_of_eq rfl rfl
  | keep _ hlinks hevents ih => exact ih.trans (tells_of_eq hlinks hevents)
  | link i _ ih => exact ih.trans (tells_link _ i)
  | unlink i _ ih => exact ih.trans (tells_unlink _ i)

/-- Closing tells that every linked node was disconnected. -/
theorem events_close (r : Registry) :
    r.close.events = r.events ++ r.links.keys.map .disconnected := by
  have hfold : ∀ (es : List (NodeId × Nat)) (r₀ : Registry), (es.foldl (fun r e ↦
      (r.updateStream e.2 .close).tell (.disconnected e.1)) r₀).events =
        r₀.events ++ (es.map (·.1)).map .disconnected := by
    intro es
    induction es with
    | nil => exact fun r₀ ↦ (List.append_nil _).symm
    | cons e es ih =>
      intro r₀
      rw [List.foldl_cons, ih]
      exact (List.append_cons _ _ _).symm
  exact hfold r.links.entries _

theorem not_isLinked_close (r : Registry) (node : NodeId) : ¬r.close.IsLinked node := by
  rw [IsLinked, find?, links_close]
  exact not_not.mpr rfl

theorem tells_close (h : r.links.keys.Nodup) : Tells r r.close := by
  refine ⟨_, events_close r, .disconnected h (fun node ↦ Table.mem_keys_iff.mp) fun node ↦ ?_⟩
  exact iff_of_false (not_isLinked_close r node) fun hlinked ↦
    hlinked.1 (Table.mem_keys_iff.mpr hlinked.2)

/-- **A move tells what it does to the links.** -/
theorem tells_step (h : r.links.keys.Nodup) (mv : Move) : Tells r (r.step mv) := by
  by_cases hmv : mv = .close
  · subst hmv
    exact tells_close h
  · exact (relinks_step r hmv).tells

/-- Events stay, and whoever came to be linked was told to be connected. -/
def Announces (r r' : Registry) : Prop :=
  ∃ told, r'.events = r.events ++ told ∧
    ∀ node, ¬r.IsLinked node → r'.IsLinked node → .connected node ∈ told

theorem Tells.announces (h : Tells r r') : Announces r r' := by
  obtain ⟨told, hevents, htraces⟩ := h
  exact ⟨told, hevents, fun node hfree hlinked ↦
    ConnectionEvent.mem_of_stands hfree ((htraces.stands node).mp hlinked)⟩

theorem announces_step (r : Registry) (mv : Move) : Announces r (r.step mv) := by
  by_cases hmv : mv = .close
  · subst hmv
    exact ⟨_, events_close r, fun node _ hlinked ↦ absurd hlinked (not_isLinked_close r node)⟩
  · exact (relinks_step r hmv).tells.announces

/-- **A run tells what it does to the links.** -/
theorem tells_run (h : r.links.keys.Nodup) (moves : List Move) :
    (r.run moves).links.keys.Nodup ∧ Tells r (r.run moves) := by
  induction moves using List.reverseRecOn with
  | nil => exact ⟨h, tells_of_eq rfl rfl⟩
  | append_singleton moves mv ih =>
    rw [run_concat]
    exact ⟨keys_step ih.1 mv, ih.2.trans (tells_step ih.1 mv)⟩

/-! ## What the events say -/

/-- The events say who is connected. -/
structure Mirrored (r : Registry) : Prop where
  /-- A node is connected exactly if the last event about it says so. -/
  connected : ∀ node, node ∈ r.connected ↔ last? r.events node = some (.connected node)
  /-- Whoever is told to be disconnected was told to be connected last: after it was told to be
  disconnected the time before, if it was, and before this time. -/
  disconnects : ∀ before node after, r.events = before ++ .disconnected node :: after →
    last? before node = some (.connected node)

theorem stands_nobody {told : List ConnectionEvent} :
    Stands (fun _ ↦ False) told node ↔ last? told node = some (.connected node) := by
  rw [Stands]
  cases last? told node with
  | none => exact ⟨False.elim, nofun⟩
  | some e => exact (Option.some.injEq _ _).to_iff.symm

/-- **The events say who is connected**, throughout every run of a new registry. -/
theorem mirrored_run (timeout : Duration) (store : NodeStore) (moves : List Move) :
    Mirrored (run { firstFrameTimeout := timeout, store } moves) := by
  obtain ⟨-, told, hevents, htraces⟩ :=
    tells_run (r := { firstFrameTimeout := timeout, store }) List.nodup_nil moves
  have hnobody : IsLinked { firstFrameTimeout := timeout, store } = fun _ ↦ False :=
    funext fun node ↦ eq_false (not_not.mpr rfl)
  rw [hnobody] at htraces
  rw [List.nil_append] at hevents
  constructor
  · intro node
    rw [connected, List.mem_mergeSort, Table.mem_keys_iff, hevents, ← stands_nobody]
    exact htraces.stands node
  · intro before node after hsplit
    rw [hevents] at hsplit
    exact stands_nobody.mp (htraces.disconnects before node after hsplit)

-- the node is replaced, unlinked for its status and linked again, and then the registry is closed
example :
    let info (statusCode : StatusCode) : Arrival :=
      .frame ⟨"", some (.info { nodeId := "node", statusCode })⟩
    let comes : Move := .arrive [.provisioned] [info 2] false 0
    (run { firstFrameTimeout := .ofSeconds 30, store := {} }
      [comes, .review 0 0, comes, .review 1 0, .read 0 0, .receive 1 (info 3), .read 1 0,
        .receive 1 (info 2), .read 1 0, .close]).events =
      [.connected "node", .connected "node", .disconnected "node", .connected "node",
        .disconnected "node"] := rfl

end Registry

end NodeAgent
