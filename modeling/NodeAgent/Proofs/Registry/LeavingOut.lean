import NodeAgent.Proofs.Registry.Isolation

/-!
# A registry without one of its registrations

To say that nothing came of a registration is to say that the registry would be the same if it had
never come. `leaveOut` takes a registration out of a registry. Those that came after it get numbers
one less, in the table of links and in what waits came to as well.

A registration that no node is linked to can be left out before a move of anybody else or after it,
which makes no difference (`leaveOut_step`). That it is not linked is needed: the stream that is
linked for a node is torn down when the node registers again and when the registry closes.

## Main statements

* `leaveOut_step`: leaving a registration out, and the moves of everybody else.
-/

namespace NodeAgent

namespace Registry

variable {r : Registry} {i j k : Nat} {g : Registration} {s : Stream}

/-! ## Numbers -/

/-- The number that a registration has once another one is left out. -/
def renumber (i j : Nat) : Nat := if j < i then j else j - 1

theorem renumber_inj (hj : j ≠ i) (hk : k ≠ i) : renumber i j = renumber i k ↔ j = k := by
  unfold renumber
  split <;> split <;> omega

theorem getElem?_eraseIdx_renumber {α : Type} (l : List α) (hj : j ≠ i) :
    (l.eraseIdx i)[renumber i j]? = l[j]? := by
  unfold renumber
  by_cases hlt : j < i
  · rw [if_pos hlt, List.getElem?_eraseIdx, if_pos hlt]
  · have hpos : j - 1 + 1 = j := by omega
    rw [if_neg hlt, List.getElem?_eraseIdx, if_neg (by omega), hpos]

/-- A number is free or belongs to somebody who is still there. -/
theorem exists_renumber (i n : Nat) : ∃ j, j ≠ i ∧ renumber i j = n := by
  unfold renumber
  by_cases h : n < i
  · exact ⟨n, by omega, if_pos h⟩
  · exact ⟨n + 1, by omega, if_neg (by omega)⟩

theorem eraseIdx_modify_self {α : Type} (l : List α) (i : Nat) (f : α → α) :
    (l.modify i f).eraseIdx i = l.eraseIdx i := by
  refine List.ext_getElem? fun n ↦ ?_
  obtain ⟨j, hj, rfl⟩ := exists_renumber i n
  rw [getElem?_eraseIdx_renumber _ hj, getElem?_eraseIdx_renumber _ hj,
    List.getElem?_modify_ne f l hj.symm]

theorem eraseIdx_modify {α : Type} (l : List α) (hj : j ≠ i) (f : α → α) :
    (l.modify j f).eraseIdx i = (l.eraseIdx i).modify (renumber i j) f := by
  refine List.ext_getElem? fun n ↦ ?_
  obtain ⟨k, hk, rfl⟩ := exists_renumber i n
  rw [getElem?_eraseIdx_renumber _ hk, List.getElem?_modify, List.getElem?_modify,
    getElem?_eraseIdx_renumber _ hk]
  simp only [renumber_inj hj hk]

/-! ## Leaving out -/

/-- What a wait came to, once a registration is left out. -/
def forget (i : Nat) (w : ConnectionWait) : ConnectionWait :=
  { w with outcome := w.outcome.map (·.map (renumber i)) }

/-- The registry without one of its registrations. -/
def leaveOut (r : Registry) (i : Nat) : Registry :=
  { r with
    registrations := r.registrations.eraseIdx i
    links := r.links.map (renumber i)
    waits := r.waits.map (forget i) }

theorem registration?_leaveOut (r : Registry) (hj : j ≠ i) :
    (r.leaveOut i).registration? (renumber i j) = r.registration? j :=
  getElem?_eraseIdx_renumber r.registrations hj

theorem stream?_leaveOut (r : Registry) (hj : j ≠ i) :
    (r.leaveOut i).stream? (renumber i j) = r.stream? j :=
  congrArg (Option.bind · Registration.stream?) (r.registration?_leaveOut hj)

theorem find?_leaveOut (r : Registry) (i : Nat) (node : NodeId) :
    (r.leaveOut i).find? node = (r.find? node).map (renumber i) := Table.get?_map _ _ _

theorem leaveOut_update_self (r : Registry) (i : Nat) (f : Registration → Registration) :
    (r.update i f).leaveOut i = r.leaveOut i :=
  congrArg (fun l ↦ { r.leaveOut i with registrations := l })
    (eraseIdx_modify_self r.registrations i f)

theorem leaveOut_update (r : Registry) (hj : j ≠ i) (f : Registration → Registration) :
    (r.update j f).leaveOut i = (r.leaveOut i).update (renumber i j) f :=
  congrArg (fun l ↦ { r.leaveOut i with registrations := l })
    (eraseIdx_modify r.registrations hj f)

theorem leaveOut_receive (r : Registry) (hj : j ≠ i) (a : Arrival) :
    (r.receive j a).2.leaveOut i = ((r.leaveOut i).receive (renumber i j) a).2 := by
  unfold receive
  rw [registration?_leaveOut r hj]
  split
  · rfl
  · split
    · exact r.leaveOut_update hj _
    · rfl

/-- A registration that just came can be left out by not letting it come. -/
theorem leaveOut_arrive_self (h : r.registrations.length = i) (allowed : List NodeStatus)
    (arrived : List Arrival) (ended : Bool) (now : Instant) :
    (r.arrive allowed arrived ended now).leaveOut i = r.leaveOut i := by
  refine congrArg (fun l ↦ { r.leaveOut i with registrations := l }) ?_
  change (r.registrations ++ [_]).eraseIdx i = r.registrations.eraseIdx i
  rw [List.eraseIdx_append_of_length_le (Nat.le_of_eq h), h, Nat.sub_self, List.eraseIdx_cons_zero,
    List.append_nil, List.eraseIdx_of_length_le (Nat.le_of_eq h)]

theorem leaveOut_arrive (h : r.registrations.length ≠ i) (allowed : List NodeStatus)
    (arrived : List Arrival) (ended : Bool) (now : Instant) :
    (r.arrive allowed arrived ended now).leaveOut i =
      (r.leaveOut i).arrive allowed arrived ended now := by
  refine congrArg (fun l ↦ { r.leaveOut i with registrations := l }) ?_
  change (r.registrations ++ [_]).eraseIdx i = r.registrations.eraseIdx i ++ [_]
  rcases Nat.lt_or_ge i r.registrations.length with hlt | hge
  · exact List.eraseIdx_append_of_lt_length hlt _
  · rw [List.eraseIdx_of_length_le hge, List.eraseIdx_of_length_le]
    · rfl
    · rw [List.length_append]
      exact Nat.lt_of_le_of_ne hge h

/-! ## Waits -/

theorem forget_lookUp (r : Registry) (i : Nat) (w : ConnectionWait) :
    forget i (r.lookUp w) = (r.leaveOut i).lookUp (forget i w) := by
  have hfind : (r.leaveOut i).find? (forget i w).node = (r.find? w.node).map (renumber i) :=
    r.find?_leaveOut i w.node
  unfold lookUp
  rw [hfind]
  cases r.find? w.node <;> rfl

theorem forget_consume (r : Registry) (i : Nat) (w : ConnectionWait) :
    forget i (r.consume w) = (r.leaveOut i).consume (forget i w) := by
  have hsome : (forget i w).outcome.isSome = w.outcome.isSome := Option.isSome_map
  have hposition : (forget i w).position = w.position := rfl
  have hnode : (forget i w).node = w.node := rfl
  have hevents : (r.leaveOut i).events = r.events := rfl
  unfold consume
  rw [hsome, hposition, hnode, hevents]
  split
  · rfl
  · split
    · exact r.forget_lookUp i _
    · cases r.events[w.position]? with
      | none => rfl
      | some e =>
        dsimp only
        split
        · exact r.forget_lookUp i _
        · rfl

theorem forget_consumeMany (r : Registry) (i : Nat) (w : ConnectionWait) (count : Nat) :
    forget i (r.consumeMany w count) = (r.leaveOut i).consumeMany (forget i w) count := by
  induction count generalizing w with
  | zero => rfl
  | succ count ih => rw [consumeMany, ih, forget_consume, consumeMany]

theorem forget_pollWait (r : Registry) (i : Nat) (now : Instant) (w : ConnectionWait) :
    forget i (r.pollWait now w) = (r.leaveOut i).pollWait now (forget i w) := by
  have hmany := r.forget_consumeMany i w (r.events.length - w.position + 1)
  have hmany' : (r.leaveOut i).consumeMany (forget i w)
      ((r.leaveOut i).events.length - (forget i w).position + 1) =
        forget i (r.consumeMany w (r.events.length - w.position + 1)) := hmany.symm
  unfold pollWait
  rw [hmany']
  generalize r.consumeMany w _ = w'
  have hnone : (forget i w').outcome.isNone = w'.outcome.isNone := Option.isNone_map
  dsimp only
  rw [hnone]
  change forget i (if (w'.outcome.isNone && decide (w'.deadline ≤ now)) = true then _ else _) =
    if (w'.outcome.isNone && decide (w'.deadline ≤ now)) = true then _ else _
  split <;> rfl

theorem leaveOut_wait (r : Registry) (i : Nat) (node : NodeId) (timeout : Duration)
    (now : Instant) :
    (r.wait node timeout now).leaveOut i = (r.leaveOut i).wait node timeout now := by
  refine congrArg (fun l ↦ { r.leaveOut i with waits := l }) ?_
  change (r.waits ++ [_]).map (forget i) = r.waits.map (forget i) ++ [_]
  rw [List.map_append, List.map_singleton, forget_lookUp]
  rfl

/-! ## Links -/

section Links

variable (hj : j ≠ i) (hi : ∀ node, r.find? node ≠ some i)
include hj hi

theorem find?_leaveOut_iff {node : NodeId} :
    (r.leaveOut i).find? node = some (renumber i j) ↔ r.find? node = some j := by
  rw [find?_leaveOut]
  cases hk : r.find? node with
  | none => exact iff_of_false nofun nofun
  | some k =>
    have hne : k ≠ i := fun h ↦ hi node (h ▸ hk)
    rw [Option.map_some, Option.some.injEq, Option.some.injEq, renumber_inj hne hj]

theorem leaveOut_link : (r.link j).leaveOut i = (r.leaveOut i).link (renumber i j) := by
  unfold link
  rw [stream?_leaveOut r hj]
  cases r.stream? j with
  | none => rfl
  | some s =>
    have hlinked : ({ r with links := r.links.insert s.node j } : Registry).leaveOut i =
        { r.leaveOut i with links := (r.leaveOut i).links.insert s.node (renumber i j) } :=
      congrArg (fun t ↦ { r.leaveOut i with links := t }) (Table.map_insert _ _ _ _)
    dsimp only
    rw [← hlinked, find?_leaveOut]
    cases hk : r.find? s.node with
    | none => rfl
    | some k =>
      have hne : k ≠ i := fun h ↦ hi s.node (h ▸ hk)
      rw [Option.map_some]
      dsimp only
      by_cases hkj : k = j
      · rw [if_pos hkj, if_pos (congrArg (renumber i) hkj)]
        rfl
      · rw [if_neg hkj, if_neg (mt (renumber_inj hne hj).mp hkj)]
        exact congrArg (·.tell (.connected s.node)) (leaveOut_update _ hne _)

theorem leaveOut_unlink : (r.unlink j).leaveOut i = (r.leaveOut i).unlink (renumber i j) := by
  unfold unlink
  rw [stream?_leaveOut r hj]
  cases r.stream? j with
  | none => rfl
  | some s =>
    dsimp only
    by_cases hlinked : r.find? s.node = some j
    · rw [if_pos hlinked, if_pos ((find?_leaveOut_iff hj hi).mpr hlinked)]
      exact congrArg (fun t ↦ { r.leaveOut i with
        links := t, events := r.events ++ [ConnectionEvent.disconnected s.node] })
        (Table.map_erase _ _ _)
    · rw [if_neg hlinked, if_neg (mt (find?_leaveOut_iff hj hi).mp hlinked)]

theorem leaveOut_stop : (r.stop j).leaveOut i = (r.leaveOut i).stop (renumber i j) := by
  unfold stop
  rw [leaveOut_update _ hj, leaveOut_unlink (r := r.updateStream j .close) hj hi]
  exact congrArg (fun r : Registry ↦ (r.unlink _).update _ _) (leaveOut_update r hj _)

theorem leaveOut_report (g : Registration) (s : Stream) (info : NodeInfo) :
    (r.report j g s info).leaveOut i = (r.leaveOut i).report (renumber i j) g s info := by
  unfold report
  split
  · rfl
  · split
    · exact leaveOut_unlink hj hi
    · have hstore : (r.leaveOut i).store = r.store := rfl
      rw [hstore]
      rcases r.store.setInfo info with ⟨_ | _, store⟩
      · rfl
      · have hnone : (find? { r.leaveOut i with store } s.node).isNone =
            (find? { r with store } s.node).isNone :=
          (congrArg Option.isNone (r.find?_leaveOut i s.node)).trans Option.isNone_map
        have hclosed : (r.leaveOut i).closed = r.closed := rfl
        dsimp only
        rw [hnone, hclosed]
        split
        · exact leaveOut_link (r := { r with store }) hj hi
        · rfl

theorem leaveOut_readNext (g : Registration) (s : Stream) :
    (r.readNext j g s).leaveOut i = (r.leaveOut i).readNext (renumber i j) g s := by
  unfold readNext
  split
  · split
    · exact leaveOut_stop hj hi
    · rfl
  · exact leaveOut_stop hj hi
  · rename_i f rest _
    have htake := r.leaveOut_update hj fun g ↦ { g with arrived := rest }
    dsimp only
    rw [← htake]
    split
    · rfl
    · exact leaveOut_report (r := r.update j _) hj hi g s _
    · exact leaveOut_update _ hj _

theorem leaveOut_readLate (count : Nat) :
    (r.readLate j count).leaveOut i = (r.leaveOut i).readLate (renumber i j) count := by
  induction count generalizing r with
  | zero =>
    unfold readLate
    rw [registration?_leaveOut r hj]
    split
    · rfl
    · split
      · exact leaveOut_stop hj hi
      · rfl
  | succ count ih =>
    unfold readLate
    rw [registration?_leaveOut r hj]
    split
    · rfl
    · rename_i g hg
      split
      · rename_i s hreading
        -- the reader links and unlinks nobody but its own registration
        have hlinks := (Spares.readNext hg hreading).links
        have hstill : ∀ node, (r.readNext j g s).find? node ≠ some i := fun node h ↦
          hi node ((hlinks node i (.inl hj.symm)).mp h)
        dsimp only
        rw [ih hstill, leaveOut_readNext hj hi]
      · rfl

theorem leaveOut_readSome (late : Nat) :
    (r.readSome j late).leaveOut i = (r.leaveOut i).readSome (renumber i j) late := by
  unfold readSome
  rw [registration?_leaveOut r hj]
  split
  · rfl
  · split
    · split
      · exact leaveOut_readLate hj hi late
      · exact leaveOut_readNext hj hi _ _
    · rfl

theorem leaveOut_admitWith (allowed : List NodeStatus) (info : NodeInfo) :
    (r.admitWith j allowed info).leaveOut i =
      (r.leaveOut i).admitWith (renumber i j) allowed info := by
  unfold admitWith
  split
  · exact r.leaveOut_update hj _
  · have hstore : (r.leaveOut i).store = r.store := rfl
    rw [hstore]
    rcases r.store.setInfo info with ⟨_ | _, store⟩
    · exact leaveOut_update { r with store } hj _
    · have hclosed : (r.leaveOut i).closed = r.closed := rfl
      dsimp only
      rw [hclosed]
      split
      · exact leaveOut_update { r with store } hj _
      · have hadmitted := leaveOut_update { r with store } hj fun g ↦
          { g with admission := .admitted { node := info.nodeId } true }
        rw [leaveOut_link (r := Registry.update { r with store } j _) hj hi, hadmitted]
        rfl

theorem leaveOut_review (now : Instant) :
    (r.review j now).leaveOut i = (r.leaveOut i).review (renumber i j) now := by
  unfold review
  rw [registration?_leaveOut r hj]
  split
  · rfl
  · split
    · split
      · rename_i info rest _
        rw [leaveOut_admitWith (r := r.update j _) hj hi, leaveOut_update r hj]
      · exact r.leaveOut_update hj _
      · exact r.leaveOut_update hj _
      · split
        · exact r.leaveOut_update hj _
        · split
          · exact r.leaveOut_update hj _
          · rfl
    · rfl

end Links

/-- Closing the registry tears down the streams of the nodes that are linked, so not that of a
registration that none is linked to. -/
theorem leaveOut_close (hkeys : r.links.keys.Nodup) (hi : ∀ node, r.find? node ≠ some i) :
    r.close.leaveOut i = (r.leaveOut i).close := by
  have hfold : ∀ (es : List (NodeId × Nat)) (r : Registry), (∀ e ∈ es, e.2 ≠ i) →
      (es.foldl (fun r e ↦ (r.updateStream e.2 .close).tell (.disconnected e.1)) r).leaveOut i =
        (es.map fun e ↦ (e.1, renumber i e.2)).foldl
          (fun r e ↦ (r.updateStream e.2 .close).tell (.disconnected e.1)) (r.leaveOut i) := by
    intro es
    induction es with
    | nil => exact fun _ _ ↦ rfl
    | cons e es ih =>
      intro r hes
      rw [List.foldl_cons, ih _ fun e' he' ↦ hes e' (List.mem_cons_of_mem _ he'), List.map_cons,
        List.foldl_cons]
      refine congrArg (List.foldl _ · _) ?_
      exact congrArg (·.tell (.disconnected e.1))
        (r.leaveOut_update (hes e List.mem_cons_self) (.mapStream .close))
  refine hfold r.links.entries { r with closed := true, links := {} } fun e he hei ↦ ?_
  obtain ⟨node, hnode⟩ := (Table.mem_values_iff hkeys).mp (List.mem_map.mpr ⟨e, he, hei⟩)
  exact hi node hnode

/-! ## Moves -/

/-- A move of somebody else, once a registration is left out. -/
def Move.leaveOut (i : Nat) : Move → Move
  | .review j now => .review (renumber i j) now
  | .read j late => .read (renumber i j) late
  | .receive j a => .receive (renumber i j) a
  | .endInbound j => .endInbound (renumber i j)
  | .use j u => .use (renumber i j) u
  | mv => mv

/-- Whether a move is one of a registration, its coming included. -/
def isOwn (r : Registry) (i : Nat) : Move → Bool
  | .arrive .. => r.registrations.length == i
  | mv => mv.registration? == some i

/-- **Leaving a registration out makes no difference to the moves of everybody else**, as long as no
node is linked to it. -/
theorem leaveOut_step {mv : Move} (hkeys : r.links.keys.Nodup)
    (hi : ∀ node, r.find? node ≠ some i) (hmv : r.isOwn i mv = false) :
    (r.step mv).leaveOut i = (r.leaveOut i).step (mv.leaveOut i) := by
  have hne : ∀ {j}, (some j == some i) = false → j ≠ i := fun hmv h ↦
    ne_of_beq_false hmv (congrArg some h)
  cases mv with
  | arrive allowed arrived ended now =>
    exact leaveOut_arrive (ne_of_beq_false hmv) allowed arrived ended now
  | review j now => exact leaveOut_review (hne hmv) hi now
  | read j late => exact leaveOut_readSome (hne hmv) hi late
  | receive j a => exact r.leaveOut_receive (hne hmv) a
  | endInbound j => exact r.leaveOut_update (hne hmv) _
  | use j u => exact r.leaveOut_update (hne hmv) _
  | start => rfl
  | close => exact leaveOut_close hkeys hi
  | wait node timeout now => exact r.leaveOut_wait i node timeout now
  | consume k =>
    refine congrArg (fun l ↦ { r.leaveOut i with waits := l }) ?_
    change (r.waits.modify k r.consume).map (forget i) =
      (r.waits.map (forget i)).modify k (r.leaveOut i).consume
    refine List.ext_getElem? fun n ↦ ?_
    rw [List.getElem?_map, List.getElem?_modify, List.getElem?_modify, List.getElem?_map]
    cases r.waits[n]? with
    | none => rfl
    | some w =>
      refine congrArg some ?_
      change forget i (if k = n then r.consume w else w) =
        if k = n then (r.leaveOut i).consume (forget i w) else forget i w
      split
      · exact r.forget_consume i w
      · rfl
  | attend now =>
    refine congrArg (fun l ↦ { r.leaveOut i with waits := l }) ?_
    change (r.waits.map (r.pollWait now)).map (forget i) =
      (r.waits.map (forget i)).map ((r.leaveOut i).pollWait now)
    rw [List.map_map, List.map_map]
    exact List.map_congr_left fun w _ ↦ r.forget_pollWait i now w
  | store s => rfl

end Registry

end NodeAgent
