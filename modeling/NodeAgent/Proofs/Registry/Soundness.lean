import NodeAgent.Proofs.Registry.Streams
import Mathlib.Data.List.Induction

/-!
# Who is linked, and what is stored

An entry of the registry promises that the node can be reached: that the stream it leads to belongs
to the node and is not torn down, that somebody still reads what the node sends, and that the node
is in a status its listener accepts. Entries are made when a registration is admitted and when a
node comes back to an accepted status, and they go when a node leaves it, when its stream ends and
when it registers again, all from different tasks. `Sound` is what every entry keeps throughout.

The status of a node is what it last reported over the stream in question. Reports leave no trace in
the registry apart from the store, which knows only the last one of each node over all streams, so
they are collected along the run (`reports`).

## Main statements

* `sound_run`: every run of a new registry ends in a sound one, and none of its moves stores an info
  that a listener does not accept or takes an entry away from another registration than its own.
-/

namespace NodeAgent.Registry

variable {r r' : Registry} {i j : Nat} {g g' : Registration} {mv : Move} {node : NodeId}

/-! ## Reports -/

/-- What registrations reported along a run, each report with the number of its registration. -/
def reports (r : Registry) : List Move → List (Nat × NodeInfo)
  | [] => []
  | mv :: moves => r.intake mv ++ (r.step mv).reports moves

/-- The last info of a node that a registration reported. -/
def latest (reports : List (Nat × NodeInfo)) (i : Nat) (node : NodeId) : Option NodeInfo :=
  ((reports.filter fun p ↦ p.1 = i ∧ p.2.nodeId = node).getLast?).map (·.2)

theorem reports_concat (r : Registry) (moves : List Move) (mv : Move) :
    r.reports (moves ++ [mv]) = r.reports moves ++ (r.run moves).intake mv := by
  induction moves generalizing r with
  | nil => simp [reports]
  | cons mv' moves ih =>
    rw [List.cons_append, reports, ih, reports, List.append_assoc]
    rfl

theorem latest_concat_self (reports : List (Nat × NodeInfo)) (i : Nat) (info : NodeInfo) :
    latest (reports ++ [(i, info)]) i info.nodeId = some info := by
  simp [latest]

/-- The last report has an accepted status if it had one before and all that came since have. -/
theorem latest_append {reports : List (Nat × NodeInfo)} (reports' : List (Nat × NodeInfo))
    {info : NodeInfo} {allowed : List NodeStatus} (h : latest reports i node = some info)
    (hallowed : info.status ∈ allowed)
    (hsince : ∀ info, (i, info) ∈ reports' → info.nodeId = node → info.status ∈ allowed) :
    ∃ info, latest (reports ++ reports') i node = some info ∧ info.status ∈ allowed := by
  rw [latest, List.filter_append, List.getLast?_append]
  cases hlast : (reports'.filter fun p ↦ p.1 = i ∧ p.2.nodeId = node).getLast? with
  | none => exact ⟨info, by rw [Option.none_or]; exact h, hallowed⟩
  | some p =>
    obtain ⟨k, info'⟩ := p
    have hmem := List.mem_of_getLast? hlast
    rw [List.mem_filter, decide_eq_true_iff] at hmem
    obtain ⟨hin, rfl, hnode⟩ := hmem
    exact ⟨info', rfl, hsince info' hin hnode⟩

/-! ## Sound registries -/

/-- The node is reached by the registration: it owns the stream, which is open and read, and its
last report over it had a status that the listener accepts. -/
def Serves (r : Registry) (reports : List (Nat × NodeInfo)) (node : NodeId) (i : Nat) : Prop :=
  ∃ g s, r.registration? i = some g ∧ g.admission = .admitted s true ∧ s.node = node ∧
    s.closed = false ∧ s.cancelled = false ∧
    ∃ info, latest reports i node = some info ∧ info.status ∈ g.allowed

/-- Every entry is as it promises, and a closed registry has none. -/
structure Sound (r : Registry) (reports : List (Nat × NodeInfo)) : Prop where
  linked : ∀ node i, r.find? node = some i → r.Serves reports node i
  closed : r.closed = true → r.links.entries = []

/-- The store only took in reports that registrations made with a move, and of those only ones whose
status is accepted by the listener the registration came to. -/
def Admits (r r' : Registry) (mv : Move) : Prop :=
  ∃ taken : List (Nat × NodeInfo),
    (∀ p ∈ taken, p ∈ r.intake mv ∧ ∃ g, r.registration? p.1 = some g ∧ p.2.status ∈ g.allowed) ∧
    r'.store = taken.foldl (fun store p ↦ (store.setInfo p.2).2) r.store

/-- What a move of a registration may do to the store and to the entries of others. -/
structure Gated (r : Registry) (mv : Move) : Prop where
  /-- Unless somebody else changes the store, it only takes in accepted reports. -/
  store : (∀ s, mv ≠ .store s) → r.Admits (r.step mv) mv
  /-- The reader of a registration, even when it stops, leaves the entries of others alone. -/
  others : ∀ i late, mv = .read i late → ∀ node j, j ≠ i →
    ((r.step mv).find? node = some j ↔ r.find? node = some j)

theorem admits_of_takes {allowed : List NodeStatus} {infos : List NodeInfo}
    (h : Takes r r' allowed infos)
    (hinfos : ∀ info ∈ infos, ∃ g, r.registration? i = some g ∧ g.allowed = allowed ∧
      (i, info) ∈ r.intake mv) : r.Admits r' mv := by
  obtain ⟨taken, hsub, hallowed, hstore⟩ := h.store
  refine ⟨taken.map fun info ↦ (i, info), fun p hp ↦ ?_, ?_⟩
  · obtain ⟨info, hinfo, rfl⟩ := List.mem_map.mp hp
    obtain ⟨g, hg, rfl, hin⟩ := hinfos info (hsub.subset hinfo)
    exact ⟨hin, g, hg, hallowed info hinfo⟩
  · rw [List.foldl_map]
    exact hstore

theorem admits_of_store_eq (h : r'.store = r.store) : r.Admits r' mv := ⟨[], by simp, h⟩

theorem Takes.store_eq {allowed : List NodeStatus} (h : Takes r r' allowed []) :
    r'.store = r.store := by
  obtain ⟨taken, hsub, -, hstore⟩ := h.store
  rw [List.sublist_nil.mp hsub] at hstore
  exact hstore

theorem gated_store (r : Registry) (mv : Move) (hmv : ∀ s, mv ≠ .store s) :
    r.Admits (r.step mv) mv := by
  cases mv with
  | review i now =>
    obtain ⟨_, _, h, hinfos⟩ := takes_review r i now
    exact admits_of_takes h hinfos
  | read i late =>
    obtain ⟨_, _, h, hinfos⟩ := takes_readSome r i late
    exact admits_of_takes h hinfos
  | receive i a => exact admits_of_store_eq (takes_receive r i a).store_eq
  | close => exact admits_of_store_eq (takes_close r).store_eq
  | store s => exact absurd rfl (hmv s)
  | _ => exact admits_of_store_eq rfl

theorem gated_others {late : Nat} {j : Nat} (hne : j ≠ i) :
    (r.readSome i late).find? node = some j ↔ r.find? node = some j := by
  unfold readSome
  split
  · exact Iff.rfl
  · rename_i g hg
    split
    · rename_i s hreading
      split
      · exact (readsLate hg hreading late).1.links node j (Or.inl hne)
      · exact (Spares.readNext hg hreading).links node j (Or.inl hne)
    · exact Iff.rfl

theorem gated (r : Registry) (mv : Move) : Gated r mv :=
  ⟨gated_store r mv, fun _ _ hmv _ _ hne ↦ hmv ▸ gated_others hne⟩

/-! ## Entries after a report -/

section Report

variable {s : Stream} {info : NodeInfo}

/-- A report makes an entry only if its status is accepted and the registry is open. -/
theorem find?_report_new (hs : r.stream? i = some s)
    (h : (r.report i g s info).find? node = some j) :
    r.find? node = some j ∨ info.nodeId = s.node ∧ info.status ∈ g.allowed ∧ r.closed = false := by
  unfold report at h
  split at h
  · exact Or.inl h
  · rename_i hown
    rw [not_not] at hown
    split at h
    · rw [find?_unlink hs] at h
      split at h
      · cases h
      · exact Or.inl h
    · rename_i hallowed
      rw [not_not] at hallowed
      split at h
      · exact Or.inl h
      · dsimp only at h
        split at h
        · rename_i hfree
          have hopen : r.closed = false := by
            simpa using (Bool.and_eq_true_iff.mp hfree).2
          exact Or.inr ⟨hown, hallowed, hopen⟩
        · exact Or.inl h

/-- A status that is not accepted takes the entry away. -/
theorem find?_report_of_notMem (hs : r.stream? i = some s) (hown : info.nodeId = s.node)
    (h : info.status ∉ g.allowed) : (r.report i g s info).find? s.node ≠ some i := by
  unfold report
  rw [if_neg (not_not.mpr hown), if_pos h, find?_unlink hs]
  intro hi
  split at hi
  · cases hi
  · rename_i hne
    exact hne ⟨rfl, hi⟩

/-- What a reader hears is the report it takes. -/
theorem readNext_of_heard (h : info ∈ heard 1 g.arrived) : ∃ f rest,
    g.arrived = .frame f :: rest ∧ heard 1 g.arrived = [info] ∧
      r.readNext i g s = (r.update i fun g ↦ { g with arrived := rest }).report i g s info := by
  cases harrived : g.arrived with
  | nil =>
    rw [harrived] at h
    cases h
  | cons a rest =>
    rw [harrived] at h
    cases a with
    | fault => cases h
    | frame f =>
      have hinfo := message_of_heard h
      refine ⟨f, rest, rfl, heard_of_info hinfo 0 rest, ?_⟩
      unfold readNext
      rw [harrived]
      dsimp only
      rw [hinfo]

end Report

/-! ## Where entries come from -/

/-- An entry was made by a move: on a report with an accepted status, in an open registry, for the
registration that reported it. -/
structure Linked (r r' : Registry) (mv : Move) (node : NodeId) (i : Nat) : Prop where
  isOpen : r.closed = false
  entry : ∃ g s info, r'.registration? i = some g ∧ g.admission = .admitted s true ∧
    s.node = node ∧ s.cancelled = false ∧ r.intake mv = [(i, info)] ∧ info.nodeId = node ∧
    info.status ∈ g.allowed

theorem linked_of_admitWith {deadline now : Instant} {id : RequestId} {info : NodeInfo}
    {rest : List Arrival} (hg : r.registration? i = some g)
    (hwaiting : g.admission = .waiting deadline)
    (harrived : g.arrived = .frame ⟨id, some (.info info)⟩ :: rest)
    (hr' : r' = (r.update i fun g ↦ { g with arrived := rest }).admitWith i g.allowed info)
    (h : r'.find? node = some j) :
    r.find? node = some j ∨ Linked r r' (.review i now) node j := by
  unfold admitWith at hr'
  split at hr'
  · subst hr'
    exact Or.inl h
  · rename_i hallowed
    rw [not_not] at hallowed
    split at hr'
    · subst hr'
      exact Or.inl h
    · rename_i store _
      dsimp only at hr'
      split at hr'
      · subst hr'
        exact Or.inl h
      · rename_i hopen
        have hadmitted : ({ r with store }.update i (fun g ↦ { g with arrived := rest }) |>.update i
            fun g ↦ { g with
              admission := .admitted { node := info.nodeId } true }).registration? i =
            some { g with
              arrived := rest, admission := .admitted { node := info.nodeId } true } :=
          registration?_update_of_eq (registration?_update_of_eq hg _) _
        have hs := stream?_of_admitted hadmitted rfl
        subst hr'
        have h := (find?_link hs node).symm.trans h
        split at h
        · rename_i hnode
          obtain rfl : i = j := Option.some.inj h
          have hregistry : r.closed = false := Bool.eq_false_iff.mpr hopen
          have hin : r.intake (.review i now) = [(i, info)] := by
            rw [intake_review hg hwaiting, harrived]
            rfl
          exact Or.inr ⟨hregistry, _, _, info, (registration?_link_self _ i).trans hadmitted, rfl,
            hnode, rfl, hin, hnode, hallowed⟩
        · exact Or.inl h

theorem linked_of_review {now : Instant} (h : (r.review i now).find? node = some j) :
    r.find? node = some j ∨ Linked r (r.review i now) (.review i now) node j := by
  generalize hr' : r.review i now = r' at h ⊢
  have hrefuse : ∀ e, r.update i (.refuse e) = r' → r.find? node = some j := by
    rintro e rfl
    exact h
  unfold review at hr'
  split at hr'
  · exact Or.inl (hr' ▸ h)
  · rename_i g hg
    split at hr'
    · rename_i deadline hwaiting
      split at hr'
      · rename_i harrived
        exact linked_of_admitWith hg hwaiting harrived hr'.symm h
      · exact Or.inl (hrefuse _ hr')
      · exact Or.inl (hrefuse _ hr')
      · split at hr'
        · exact Or.inl (hrefuse _ hr')
        · split at hr'
          · exact Or.inl (hrefuse _ hr')
          · exact Or.inl (hr' ▸ h)
    · exact Or.inl (hr' ▸ h)

theorem linked_of_readNext {s : Stream} {late : Nat} (hg : r.registration? i = some g)
    (hreading : g.admission = .admitted s true) (hopen : s.cancelled = false)
    (hr' : r' = r.readNext i g s) (h : r'.find? s.node = some i) :
    r.find? s.node = some i ∨ Linked r r' (.read i late) s.node i := by
  -- a reader that stops is not linked afterwards, so it took something
  have hstop : r' ≠ r.stop i := by
    rintro rfl
    exact find?_stop (stream?_of_admitted hg hreading) h
  unfold readNext at hr'
  split at hr'
  · split at hr'
    · exact absurd hr' hstop
    · exact Or.inl (hr' ▸ h)
  · exact absurd hr' hstop
  · rename_i f rest harrived
    have htaken := registration?_update_of_eq hg fun g ↦ { g with arrived := rest }
    dsimp only at hr'
    split at hr'
    · subst hr'
      exact Or.inl h
    · rename_i info hinfo
      subst hr'
      have hs := stream?_of_admitted (s := s) htaken hreading
      rcases find?_report_new hs h with h | ⟨hown, hallowed, hregistry⟩
      · exact Or.inl h
      · have hheard : heard 1 (.frame f :: rest) = [info] := heard_of_info hinfo 0 rest
        have hin : r.intake (.read i late) = [(i, info)] := by
          rw [intake_read hg hreading, hopen, harrived]
          exact congrArg (List.map fun info ↦ (i, info)) hheard
        exact Or.inr ⟨hregistry, _, s, info, (registration?_report _ i g s info).trans htaken,
          hreading, rfl, hopen, hin, hown, hallowed⟩
    · subst hr'
      exact Or.inl h

theorem linked_of_readSome {late : Nat} (h : (r.readSome i late).find? node = some j) :
    r.find? node = some j ∨ Linked r (r.readSome i late) (.read i late) node j := by
  by_cases hne : j ≠ i
  · exact Or.inl ((gated_others hne).mp h)
  -- the entry is that of the reader itself
  obtain rfl := not_not.mp hne
  generalize hr' : r.readSome j late = r' at h ⊢
  unfold readSome at hr'
  split at hr'
  · exact Or.inl (hr' ▸ h)
  · rename_i g hg
    split at hr'
    · rename_i s hreading
      by_cases hnode : node = s.node
      · subst hnode
        split at hr'
        · subst hr'
          exact absurd h (readsLate hg hreading late).2.1
        · rename_i hopen
          exact linked_of_readNext hg hreading (Bool.eq_false_iff.mpr hopen) hr'.symm h
      · refine Or.inl ?_
        split at hr'
        · subst hr'
          exact ((readsLate hg hreading late).1.links node j (Or.inr hnode)).mp h
        · subst hr'
          exact ((Spares.readNext hg hreading).links node j (Or.inr hnode)).mp h
    · exact Or.inl (hr' ▸ h)

/-- **Every entry that a move makes** is made on an accepted report. -/
theorem linked_step (h : (r.step mv).find? node = some i) :
    r.find? node = some i ∨ Linked r (r.step mv) mv node i := by
  cases mv with
  | review k now => exact linked_of_review h
  | read k late => exact linked_of_readSome h
  | receive k a =>
    refine Or.inl ?_
    change (r.receive k a).2.find? node = some i at h
    unfold receive at h
    split at h
    · exact h
    · split at h <;> exact h
  | close =>
    change r.close.links.get? node = some i at h
    rw [links_close] at h
    cases h
  | _ => exact Or.inl h

/-- Whoever is linked has a stream, throughout a run. -/
theorem exists_stream_step (h : ∀ node i, r.find? node = some i → ∃ s, r.stream? i = some s)
    (mv : Move) :
    ∀ node i, (r.step mv).find? node = some i → ∃ s, (r.step mv).stream? i = some s := by
  intro node i hi
  rcases linked_step hi with hbefore | hnew
  · obtain ⟨s, hs⟩ := h node i hbefore
    obtain ⟨s', hs', -⟩ := stream_step hs mv
    exact ⟨s', hs'⟩
  · obtain ⟨g, s, _, hg, hreading, -⟩ := hnew.entry
    exact ⟨s, stream?_of_admitted hg hreading⟩

/-- A registration that stays linked has reported no status that is not accepted. -/
theorem mem_allowed_of_intake {s : Stream} {info : NodeInfo} (hg : r.registration? i = some g)
    (hreading : g.admission = .admitted s true) (hopen : s.cancelled = false)
    (h : (r.step mv).find? s.node = some i) (hin : (i, info) ∈ r.intake mv)
    (hown : info.nodeId = s.node) : info.status ∈ g.allowed := by
  obtain ⟨g₁, hg₁, hheard⟩ := heard_of_mem_intake hin
  obtain rfl : g = g₁ := Option.some.inj (hg.symm.trans hg₁)
  rcases hheard with ⟨deadline, now, -, hwaiting, -⟩ | ⟨s₁, late, rfl, hreading₁, hheard⟩
  · rw [hreading] at hwaiting
    cases hwaiting
  · rw [hreading, Admission.admitted.injEq] at hreading₁
    obtain ⟨rfl, -⟩ := hreading₁
    rw [hopen] at hheard
    obtain ⟨f, rest, -, -, hreport⟩ := readNext_of_heard (r := r) (i := i) (s := s) hheard
    have hstep : r.step (.read i late) = r.readNext i g s := readSome_of_open hg hreading hopen late
    rw [hstep, hreport] at h
    have hs := stream?_of_admitted (s := s)
      (registration?_update_of_eq hg fun g ↦ { g with arrived := rest }) hreading
    -- a status that is not accepted would have taken the entry away
    by_contra hbad
    exact find?_report_of_notMem hs hown hbad h

/-! ## Sound throughout -/

/-- A stream is closed and cancelled together, as seen between moves of the registry. -/
theorem cancelled_step (h : ∀ j s, r.stream? j = some s → s.cancelled = s.closed) (mv : Move) :
    ∀ j s, (r.step mv).stream? j = some s → s.cancelled = s.closed := by
  refine forall_stream_step (fun _ ↦ rfl) ?_ ?_ ?_ h mv
  · intro s id m hs
    have halike := Stream.Alike.resolve s id (.fill m)
    exact halike.cancelled.trans (hs.trans halike.closed.symm)
  · intro s hs
    unfold Stream.close
    split
    · exact hs
    · rfl
  · intro s u hs
    have halike := Stream.Alike.use s u
    exact halike.cancelled.trans (hs.trans halike.closed.symm)

/-- A node that is still linked after a move is still served. -/
theorem Sound.serves_step {reports : List (Nat × NodeInfo)} (hr : r.Sound reports)
    (hbefore : r.find? node = some i) (hafter : (r.step mv).find? node = some i) :
    (r.step mv).Serves (reports ++ r.intake mv) node i := by
  obtain ⟨g, s, hg, hreading, rfl, hclosed, hcancelled, info, hlatest, hallowed⟩ :=
    hr.linked node i hbefore
  obtain ⟨g', hg', heff⟩ := effect_step r mv hg
  have hlatest' := latest_append (r.intake mv) hlatest hallowed fun info hin hown ↦
    mem_allowed_of_intake hg hreading hcancelled hafter hin hown
  -- a stream that is neither torn down nor left by its reader goes on serving
  have hkept : ∀ {s'}, g'.admission = .admitted s' true → g'.allowed = g.allowed →
      Stream.Alike s s' → (r.step mv).Serves (reports ++ r.intake mv) s.node i := by
    intro s' hadmission hsame halike
    refine ⟨g', s', hg', hadmission, halike.node, halike.closed.trans hclosed,
      halike.cancelled.trans hcancelled, ?_⟩
    rw [hsame]
    exact hlatest'
  have hwaiting : ∀ {deadline}, g.admission ≠ .waiting deadline := by
    intro deadline h
    rw [hreading] at h
    cases h
  cases heff with
  | none => exact hkept hreading rfl (.refl s)
  | close hwhy =>
    rcases hwhy with rfl | ⟨node, hnode, hgone⟩
    · change r.close.links.get? s.node = some i at hafter
      rw [links_close] at hafter
      cases hafter
    · -- the registration was replaced, so the entry it lost is the one for its own node
      obtain ⟨g₁, s₁, hg₁, hreading₁, rfl, -⟩ := hr.linked node i hnode
      obtain rfl : g = g₁ := Option.some.inj (hg.symm.trans hg₁)
      rw [hreading, Admission.admitted.injEq] at hreading₁
      obtain ⟨rfl, -⟩ := hreading₁
      exact absurd hafter hgone
  | refuse e _ h => exact absurd h hwaiting
  | accept _ h _ => exact absurd h hwaiting
  | take _ _ _ _ => exact hkept hreading rfl (.refl s)
  | deliver _ h _ _ =>
    rw [hreading, Admission.admitted.injEq] at h
    obtain ⟨rfl, -⟩ := h
    exact hkept rfl rfl (.resolve s _ _)
  | stop _ h hgone _ =>
    rw [hreading, Admission.admitted.injEq] at h
    obtain ⟨rfl, -⟩ := h
    exact absurd hafter hgone
  | receive a _ _ => exact hkept hreading rfl (.refl s)
  | endInbound _ => exact hkept hreading rfl (.refl s)
  | @use u _ =>
    have hadmission : (g.mapStream (·.use u)).admission = .admitted (s.use u) true := by
      rw [Registration.mapStream, hreading]
    refine hkept hadmission ?_ (.use s u)
    rw [Registration.mapStream, hreading]

theorem closed_close (r : Registry) : r.close.closed = true := by
  unfold close
  -- tearing down the streams leaves the registry closed
  suffices htorn : ∀ (entries : List (NodeId × Nat)) (r' : Registry),
      (entries.foldl (fun r e ↦ (r.updateStream e.2 .close).tell (.disconnected e.1)) r').closed =
        r'.closed from htorn _ _
  intro entries
  induction entries with
  | nil => exact fun _ ↦ rfl
  | cons e entries ih => exact fun r' ↦ ih _

/-- Only closing and starting change whether a registry is closed. -/
theorem closed_step_of_ne (hclose : mv ≠ .close) (hstart : mv ≠ .start) :
    (r.step mv).closed = r.closed := by
  cases mv with
  | review i now =>
    obtain ⟨_, _, htakes, _⟩ := takes_review r i now
    exact htakes.closed
  | read i late =>
    obtain ⟨_, _, htakes, _⟩ := takes_readSome r i late
    exact htakes.closed
  | receive i a => exact (takes_receive r i a).closed
  | start => exact absurd rfl hstart
  | close => exact absurd rfl hclose
  | arrive | endInbound | use | wait | consume | attend | store => rfl

/-- A registry is closed after a move only if it was, or by this move. -/
theorem closed_step (h : (r.step mv).closed = true) : r.closed = true ∨ mv = .close := by
  by_cases hclose : mv = .close
  · exact Or.inr hclose
  · have hstart : mv ≠ .start := by
      rintro rfl
      cases h
    rw [closed_step_of_ne hclose hstart] at h
    exact Or.inl h

/-- A move keeps a registry sound. -/
theorem Sound.step {reports : List (Nat × NodeInfo)} (hr : r.Sound reports)
    (hflags : ∀ j s, r.stream? j = some s → s.cancelled = s.closed) (mv : Move) :
    (r.step mv).Sound (reports ++ r.intake mv) := by
  refine ⟨?_, ?_⟩
  · intro node i hafter
    rcases linked_step hafter with hbefore | ⟨-, g, s, info, hg, hreading, rfl, hcancelled, hin,
      hown, hallowed⟩
    · exact hr.serves_step hbefore hafter
    · -- a new entry is as it promises because of the report that it was made on
      have hflag := cancelled_step hflags mv i s (stream?_of_admitted hg hreading)
      refine ⟨g, s, hg, hreading, rfl, hflag ▸ hcancelled, hcancelled, info, ?_, hallowed⟩
      rw [hin, ← hown]
      exact latest_concat_self reports i info
  · intro hclosed
    rcases closed_step hclosed with hbefore | rfl
    · -- a registry that was closed has no entry, and gets none
      refine Table.entries_eq_nil fun node ↦ ?_
      by_contra hne
      obtain ⟨i, hi⟩ := Option.ne_none_iff_exists'.mp hne
      rcases linked_step hi with hold | hnew
      · have hempty : r.find? node = none := by
          rw [find?, Table.get?, hr.closed hbefore]
          rfl
        rw [hempty] at hold
        cases hold
      · rw [hnew.isOpen] at hbefore
        cases hbefore
    · change r.close.links.entries = []
      rw [links_close]

/-- **The registry is sound throughout every run**, and no move of a registration stores what its
listener does not accept or takes an entry away from another registration. -/
theorem sound_run (timeout : Duration) (store : NodeStore) (moves : List Move) :
    let r : Registry := { firstFrameTimeout := timeout, store }
    (r.run moves).Sound (r.reports moves) ∧
      ∀ before mv after, moves = before ++ mv :: after → (r.run before).Gated mv := by
  intro r
  refine ⟨?_, fun before mv _ _ ↦ gated (r.run before) mv⟩
  have hflags : ∀ moves j s, (r.run moves).stream? j = some s → s.cancelled = s.closed := by
    intro moves
    induction moves using List.reverseRecOn with
    | nil =>
      intro j s hs
      cases hs
    | append_singleton moves mv ih =>
      rw [run_concat]
      exact cancelled_step ih mv
  induction moves using List.reverseRecOn with
  | nil =>
    refine ⟨fun node i h ↦ ?_, fun h ↦ ?_⟩
    · cases h
    · cases h
  | append_singleton moves mv ih =>
    rw [run_concat, reports_concat]
    exact ih.step (hflags moves) mv

-- the node registers again while its first stream is still read, and the first stream ends late
example :
    let info : NodeInfo := { nodeId := "node", statusCode := 2 }
    let comes : Move := .arrive [.provisioned] [.frame ⟨"", some (.info info)⟩] false 0
    let r := run { firstFrameTimeout := .ofSeconds 30, store := {} }
      [comes, .review 0 0, comes, .review 1 0, .endInbound 0, .read 0 0]
    r.find? "node" = some 1 := rfl

end NodeAgent.Registry
