import NodeAgent.Proofs.Registry.Lasting

/-!
# Nodes are kept apart

A peer chooses everything that its registration brings: the node that an info names, the identifier
that a response comes under, and when the stream breaks or ends. All registrations share one table
of links and one store. Still a registration reaches nothing of any node but the one that the first
thing it brought names.

Two facts carry the argument. What was brought first fixes for good whose record and whose entry the
moves of a registration write (`OpenedBy`, `Keeps`). And a stream other than the registration's own
could only be torn down by losing its entry, which leads to a stream of its own node by soundness,
so a node that keeps its entry keeps its streams.

## Main statements

* `isolated_run`: over every run, a move of a registration leaves the record, the entry and the
  streams of every node alone that its first frame does not name.
-/

namespace NodeAgent.Registry

variable {r r' : Registry} {i j : Nat} {g g' : Registration} {mv : Move} {node : NodeId}

/-! ## What a registration brought -/

/-- What a move brings to a registration. Nothing is brought to one that is not read any more. -/
def arriving (r : Registry) (i : Nat) : Move → List Arrival
  | .arrive _ arrived _ _ => if r.registrations.length = i then arrived else []
  | .receive j a => if j = i ∧ ((r.registration? i).any (·.isReading)) = true then [a] else []
  | _ => []

/-- Everything that is brought to a registration along a run, in order. -/
def brought (r : Registry) (i : Nat) : List Move → List Arrival
  | [] => []
  | mv :: moves => r.arriving i mv ++ (r.step mv).brought i moves

/-- The node that the first of what was brought names, if that is an info. -/
def opener? : List Arrival → Option NodeId
  | .frame ⟨_, some (.info info)⟩ :: _ => some info.nodeId
  | _ => none

theorem brought_concat (r : Registry) (i : Nat) (moves : List Move) (mv : Move) :
    r.brought i (moves ++ [mv]) = r.brought i moves ++ (r.run moves).arriving i mv := by
  induction moves generalizing r with
  | nil => simp [brought]
  | cons mv' moves ih =>
    rw [List.cons_append, brought, ih, brought, List.append_assoc]
    rfl

theorem opener?_append {l : List Arrival} (h : opener? l = some node) (l' : List Arrival) :
    opener? (l ++ l') = some node := by
  unfold opener? at h
  split at h
  · exact h
  · cases h

/-- A registration is as what was brought to it says: while it waits nothing was read, and from its
admission on it is one of the node that was named first. -/
def OpenedBy (g : Registration) (l : List Arrival) : Prop :=
  match g.admission with
  | .waiting _ => g.arrived = l
  | .admitted s _ => opener? l = some s.node
  | .refused _ => True

theorem openedBy_admitted {s : Stream} {reading : Bool} {l : List Arrival}
    (h : g.admission = .admitted s reading) : OpenedBy g l ↔ opener? l = some s.node := by
  rw [OpenedBy, h]

theorem openedBy_waiting {deadline : Instant} {l : List Arrival}
    (h : g.admission = .waiting deadline) : OpenedBy g l ↔ g.arrived = l := by
  rw [OpenedBy, h]

theorem arriving_eq_nil (hg : r.registration? i = some g)
    (h : ∀ a, mv = .receive i a → g.isReading = false) : r.arriving i mv = [] := by
  cases mv with
  | arrive allowed arrived ended now =>
    have hlt : i < r.registrations.length := (List.getElem?_eq_some_iff.mp hg).1
    exact if_neg (Nat.ne_of_gt hlt)
  | receive j a =>
    refine if_neg ?_
    rintro ⟨rfl, hreading⟩
    rw [hg, Option.any_some, h a rfl] at hreading
    cases hreading
  | _ => rfl

/-- Nothing is brought to a registration that does not come into being. -/
theorem arriving_of_none (h : (r.step mv).registration? i = none) :
    r.registration? i = none ∧ r.arriving i mv = [] := by
  have hbefore : r.registration? i = none := by
    cases hg : r.registration? i with
    | none => rfl
    | some g =>
      obtain ⟨g', hg', -⟩ := effect_step r mv hg
      rw [h] at hg'
      cases hg'
  refine ⟨hbefore, ?_⟩
  cases mv with
  | arrive allowed arrived ended now =>
    refine if_neg ?_
    rintro rfl
    have hlength : (r.arrive allowed arrived ended now).registrations.length =
        r.registrations.length + 1 := List.length_append
    have hge := List.getElem?_eq_none_iff.mp h
    change (r.arrive allowed arrived ended now).registrations.length ≤ _ at hge
    omega
  | receive j a => simp [arriving, hbefore]
  | _ => rfl

/-- What was brought to a registration goes on saying what it is. -/
theorem openedBy_step {l : List Arrival} (hold : ∀ g, r.registration? i = some g → OpenedBy g l)
    (hnone : r.registration? i = none → l = []) (hg : (r.step mv).registration? i = some g) :
    OpenedBy g (l ++ r.arriving i mv) := by
  cases hbefore : r.registration? i with
  | none =>
    -- a new registration waits or is refused, with what it came with
    obtain ⟨ended, now, rfl, hstream⟩ := registration?_new r mv hbefore hg
    have hge : r.registrations.length ≤ i := List.getElem?_eq_none_iff.mp hbefore
    have hlt : i < (r.step (.arrive g.allowed g.arrived ended now)).registrations.length :=
      (List.getElem?_eq_some_iff.mp hg).1
    have hlength : (r.step (.arrive g.allowed g.arrived ended now)).registrations.length =
        r.registrations.length + 1 := List.length_append
    have hlast : r.registrations.length = i := by omega
    rw [hnone hbefore, List.nil_append, arriving, if_pos hlast]
    unfold OpenedBy
    split
    · rfl
    · rename_i h
      rw [Registration.stream?, h] at hstream
      cases hstream
    · trivial
  | some g₀ =>
    have hopened := hold g₀ hbefore
    by_cases hreceives : ∃ a, mv = .receive i a ∧ g₀.isReading = true
    · obtain ⟨a, rfl, hreading⟩ := hreceives
      have hreceived : (r.step (.receive i a)).registration? i =
          some { g₀ with arrived := g₀.arrived ++ [a] } := by
        change (r.receive i a).2.registration? i = _
        rw [receive, hbefore]
        dsimp only
        rw [if_pos hreading]
        exact registration?_update_of_eq hbefore _
      rw [hg, Option.some.injEq] at hreceived
      have harriving : r.arriving i (.receive i a) = [a] := by
        rw [arriving, hbefore, Option.any_some, hreading]
        exact if_pos ⟨rfl, rfl⟩
      rw [hreceived, harriving]
      unfold OpenedBy at hopened ⊢
      dsimp only
      split at hopened
      · rw [hopened]
      · exact opener?_append hopened [a]
      · trivial
    · have hnothing : r.arriving i mv = [] := by
        refine arriving_eq_nil hbefore fun a ha ↦ ?_
        rw [Bool.eq_false_iff]
        exact fun hreading ↦ hreceives ⟨a, ha, hreading⟩
      rw [hnothing, List.append_nil]
      obtain ⟨g', hg', heff⟩ := effect_step r mv hbefore
      rw [hg, Option.some.injEq] at hg'
      subst hg'
      -- the stream of an admitted registration stays one of the same node
      have hmap : ∀ f : Stream → Stream, (∀ s, (f s).node = s.node) →
          OpenedBy (g₀.mapStream f) l := by
        intro f hf
        unfold OpenedBy Registration.mapStream at *
        cases hadmission : g₀.admission <;> simp_all
      cases heff with
      | none => exact hopened
      | close _ => exact hmap _ Stream.node_close
      | refuse e _ _ => trivial
      | accept _ hwaiting harrived =>
        rw [openedBy_waiting hwaiting, harrived] at hopened
        rw [← hopened]
        rfl
      | @take s _ _ rest _ hreading _ _ =>
        have hkept : ({ g₀ with arrived := rest } : Registration).admission = .admitted s true :=
          hreading
        rw [openedBy_admitted hreading] at hopened
        rw [openedBy_admitted hkept]
        exact hopened
      | deliver _ hreading _ _ =>
        rw [openedBy_admitted hreading] at hopened
        rw [openedBy_admitted rfl]
        exact hopened.trans (congrArg some (Stream.Alike.resolve _ _ _).node.symm)
      | stop _ hreading _ hl =>
        rw [openedBy_admitted hreading] at hopened
        rw [openedBy_admitted rfl, Stream.node_close, Stream.node_run]
        exact hopened
      | receive a hmv hreading => exact absurd ⟨a, hmv, hreading⟩ hreceives
      | endInbound _ => exact hopened
      | use _ => exact hmap _ fun s ↦ (Stream.Alike.use s _).node

/-- **What was brought first says which node a registration is of**, over every run. -/
theorem openedBy_run (hr : r.registration? i = none) (moves : List Move)
    (hg : (r.run moves).registration? i = some g) : OpenedBy g (r.brought i moves) := by
  have hkept : ((r.run moves).registration? i = none → r.brought i moves = []) ∧
      ∀ g, (r.run moves).registration? i = some g → OpenedBy g (r.brought i moves) := by
    clear hg
    induction moves using List.reverseRecOn with
    | nil =>
      refine ⟨fun _ ↦ rfl, fun g hg ↦ ?_⟩
      rw [run_nil, hr] at hg
      cases hg
    | append_singleton moves mv ih =>
      rw [run_concat, brought_concat]
      refine ⟨fun hnone ↦ ?_, fun g hg ↦ openedBy_step ih.2 ih.1 hg⟩
      obtain ⟨hbefore, harriving⟩ := arriving_of_none hnone
      rw [ih.1 hbefore, harriving, List.nil_append]
  exact hkept.2 g hg

/-! ## Records and entries of other nodes -/

/-- The record and the entry of a node are as they were. -/
structure Keeps (r r' : Registry) (node : NodeId) : Prop where
  record : r'.store.nodes.get? node = r.store.nodes.get? node
  entry : r'.find? node = r.find? node

namespace Keeps

variable {s : Stream} {info : NodeInfo}

theorem refl (r : Registry) (node : NodeId) : Keeps r r node := ⟨rfl, rfl⟩

theorem trans {r'' : Registry} (h : Keeps r r' node) (h' : Keeps r' r'' node) : Keeps r r'' node :=
  ⟨h'.record.trans h.record, h'.entry.trans h.entry⟩

theorem update (r : Registry) (i : Nat) (f : Registration → Registration) (node : NodeId) :
    Keeps r (r.update i f) node := ⟨rfl, rfl⟩

theorem link (hs : r.stream? i = some s) (hne : s.node ≠ node) : Keeps r (r.link i) node := by
  have hstore : (r.link i).store = r.store := (Takes.link r i []).store_eq
  refine ⟨by rw [hstore], ?_⟩
  rw [find?_link hs, if_neg hne]

theorem unlink (hs : r.stream? i = some s) (hne : s.node ≠ node) : Keeps r (r.unlink i) node := by
  have hstore : (r.unlink i).store = r.store := (Takes.unlink r i []).store_eq
  refine ⟨by rw [hstore], ?_⟩
  rw [find?_unlink hs, if_neg fun h ↦ hne h.1]

theorem stop (hs : r.stream? i = some s) (hne : s.node ≠ node) : Keeps r (r.stop i) node := by
  have hclosed := stream?_updateStream hs .close
  have hunlink := unlink hclosed (by rwa [Stream.node_close])
  exact ((update r i _ node).trans hunlink).trans (update _ i _ node)

theorem setInfo {result : Except ServiceError Unit} {store : NodeStore}
    (hset : r.store.setInfo info = (result, store)) (hne : info.nodeId ≠ node) :
    Keeps r { r with store } node := by
  refine ⟨?_, rfl⟩
  have hrecord := NodeStore.get?_setInfo_of_ne r.store hne
  rwa [hset] at hrecord

/-- A report about somebody else is ignored, so what is taken in is about the node itself. -/
theorem report (hs : r.stream? i = some s) (hne : s.node ≠ node) (g : Registration)
    (info : NodeInfo) : Keeps r (r.report i g s info) node := by
  unfold Registry.report
  split
  · exact refl r node
  · rename_i hown
    rw [not_not] at hown
    split
    · exact unlink hs hne
    · split
      · rename_i hset
        exact setInfo hset (hown ▸ hne)
      · rename_i store hset
        have hstored := setInfo hset (hown ▸ hne)
        dsimp only
        split
        · exact hstored.trans (link (r := { r with store }) hs hne)
        · exact hstored

theorem readNext (hg : r.registration? i = some g) (hreading : g.admission = .admitted s true)
    (hne : s.node ≠ node) : Keeps r (r.readNext i g s) node := by
  have hs := stream?_of_admitted hg hreading
  unfold Registry.readNext
  split
  · split
    · exact stop hs hne
    · exact refl r node
  · exact stop hs hne
  · rename_i f rest _
    have htake := update r i (fun g ↦ { g with arrived := rest }) node
    have hs' := stream?_of_admitted (s := s)
      (registration?_update_of_eq hg fun g ↦ { g with arrived := rest }) hreading
    dsimp only
    split
    · exact htake
    · exact htake.trans (report hs' hne g _)
    · exact htake.trans (update _ i _ node)

theorem readLate (hg : r.registration? i = some g) (hreading : g.admission = .admitted s true)
    (hne : s.node ≠ node) (count : Nat) : Keeps r (r.readLate i count) node := by
  induction count generalizing r g s with
  | zero =>
    rw [readLate_zero hg hreading]
    exact stop (stream?_of_admitted hg hreading) hne
  | succ count ih =>
    have hnext := readNext hg hreading hne
    obtain ⟨g', hg', hreads⟩ := readsNext hg hreading
    rw [readLate_succ hg hreading]
    generalize r.readNext i g s = r' at *
    cases hreads with
    | idle _ => exact hnext.trans (ih hg' hreading hne)
    | take _ => exact hnext.trans (ih hg' hreading hne)
    | @deliver id m _ _ =>
      have hnode := (Stream.Alike.resolve s id (.fill (.response m))).node
      exact hnext.trans (ih hg' rfl (hnode.symm ▸ hne))
    | stop _ _ =>
      rw [readLate_stopped hg' rfl]
      exact hnext

theorem admitWith (hg : r.registration? i = some g) (hne : info.nodeId ≠ node)
    (allowed : List NodeStatus) : Keeps r (r.admitWith i allowed info) node := by
  unfold Registry.admitWith
  split
  · exact update r i _ node
  · split
    · rename_i hset
      exact (setInfo hset hne).trans (update _ i _ node)
    · rename_i store hset
      have hstored := setInfo hset hne
      dsimp only
      split
      · exact hstored.trans (update _ i _ node)
      · have hadmitted := registration?_update_of_eq (r := { r with store }) hg fun g ↦
          { g with admission := .admitted { node := info.nodeId } true }
        exact (hstored.trans (update _ i _ node)).trans
          (link (stream?_of_admitted hadmitted rfl) hne)

/-- A registration is admitted as the node that was named first. -/
theorem review {l : List Arrival} (hopened : ∀ g, r.registration? i = some g → OpenedBy g l)
    (hne : opener? l ≠ some node) (now : Instant) : Keeps r (r.review i now) node := by
  unfold Registry.review
  split
  · exact refl r node
  · rename_i g hg
    split
    · rename_i deadline hwaiting
      split
      · rename_i id info rest harrived
        have hnamed : info.nodeId ≠ node := by
          have hl := (openedBy_waiting hwaiting).mp (hopened g hg)
          rw [← hl, harrived] at hne
          exact fun h ↦ hne (congrArg some h)
        have htaken := registration?_update_of_eq hg fun g ↦ { g with arrived := rest }
        exact (update r i _ node).trans (admitWith htaken hnamed g.allowed)
      · exact update r i _ node
      · exact update r i _ node
      · split
        · exact update r i _ node
        · split
          · exact update r i _ node
          · exact refl r node
    · exact refl r node

/-- What is read is read as the node that was named first. -/
theorem readSome {l : List Arrival} (hopened : ∀ g, r.registration? i = some g → OpenedBy g l)
    (hne : opener? l ≠ some node) (late : Nat) : Keeps r (r.readSome i late) node := by
  unfold Registry.readSome
  split
  · exact refl r node
  · rename_i g hg
    split
    · rename_i s hreading
      have hnode : s.node ≠ node := by
        have hl := (openedBy_admitted hreading).mp (hopened g hg)
        exact fun h ↦ hne (hl.trans (congrArg some h))
      split
      · exact readLate hg hreading hnode late
      · exact readNext hg hreading hnode
    · exact refl r node

end Keeps

/-- The registration that a move is one of: what its listener, its reader, its node or a caller on
its stream does. -/
def Move.registration? : Move → Option Nat
  | .review i _ | .read i _ | .receive i _ | .endInbound i | .use i _ => some i
  | _ => none

/-- A move of a registration writes the record and the entry of no node but the one that was named
first. -/
theorem Keeps.step {l : List Arrival} (hopened : ∀ g, r.registration? i = some g → OpenedBy g l)
    (hne : opener? l ≠ some node) (hmv : mv.registration? = some i) :
    Keeps r (r.step mv) node := by
  cases mv with
  | review j now =>
    obtain rfl := Option.some.inj hmv
    exact .review hopened hne now
  | read j late =>
    obtain rfl := Option.some.inj hmv
    exact .readSome hopened hne late
  | receive j a =>
    change Keeps r (r.receive j a).2 node
    unfold receive
    split
    · exact .refl r node
    · split
      · exact .update r j _ node
      · exact .refl r node
  | endInbound j => exact .update r j _ node
  | use j u => exact .update r j _ node
  | _ => cases hmv

/-! ## Streams of other nodes -/

/-- Nothing of a node changed: neither its record nor its entry nor any stream of it, with the
pending table of the stream, the calls on it and what they came to, the frames in its channel and
the calls that queue for a place there. -/
structure Untouched (r r' : Registry) (node : NodeId) : Prop extends Keeps r r' node where
  stream : ∀ j s, s.node = node → (r'.stream? j = some s ↔ r.stream? j = some s)

/-- A stream of another node stays as it is. -/
theorem stream?_step_of_ne {l : List Arrival} {reports : List (Nat × NodeInfo)} {s : Stream}
    (hr : r.Sound reports) (hopened : ∀ g, r.registration? i = some g → OpenedBy g l)
    (hne : opener? l ≠ some s.node) (hmv : mv.registration? = some i) (hs : r.stream? j = some s) :
    (r.step mv).stream? j = some s := by
  obtain ⟨g, reading, hg, hadmission⟩ := registration?_of_stream? hs
  have hother : mv.registration? ≠ some j := by
    intro hj
    obtain rfl := Option.some.inj (hmv.symm.trans hj)
    exact hne ((openedBy_admitted hadmission).mp (hopened g hg))
  have hkept := Keeps.step hopened hne hmv
  obtain ⟨g', hg', heff⟩ := effect_step r mv hg
  have hsame : g' = g := by
    cases heff with
    | none => rfl
    | close hwhy =>
      rcases hwhy with rfl | ⟨node, hlinked, hgone⟩
      · cases hmv
      · -- the entry it would have lost is one of its own node, and that was kept
        obtain ⟨g₁, s₁, hg₁, hreading₁, rfl, -⟩ := hr.linked node j hlinked
        obtain rfl : g = g₁ := Option.some.inj (hg.symm.trans hg₁)
        rw [hadmission, Admission.admitted.injEq] at hreading₁
        obtain ⟨rfl, -⟩ := hreading₁
        exact absurd (hkept.entry.trans hlinked) hgone
    | refuse e h _ => exact absurd (congrArg Move.registration? h) hother
    | accept h _ _ => exact absurd (congrArg Move.registration? h) hother
    | take h _ _ _ => exact absurd (congrArg Move.registration? h) hother
    | deliver h _ _ _ => exact absurd (congrArg Move.registration? h) hother
    | stop h _ _ _ => exact absurd (congrArg Move.registration? h) hother
    | receive a h _ => exact absurd (congrArg Move.registration? h) hother
    | endInbound h => exact absurd (congrArg Move.registration? h) hother
    | use h => exact absurd (congrArg Move.registration? h) hother
  rw [hsame] at hg'
  exact stream?_of_admitted hg' hadmission

/-- **A move of a registration touches no node but the one that was named first.** -/
theorem untouched_step {l : List Arrival} {reports : List (Nat × NodeInfo)}
    (hr : r.Sound reports) (hopened : ∀ g, r.registration? i = some g → OpenedBy g l)
    (hne : opener? l ≠ some node) (hmv : mv.registration? = some i) :
    Untouched r (r.step mv) node := by
  refine ⟨.step hopened hne hmv, fun j s hnode ↦ ⟨fun hs' ↦ ?_, fun hs ↦ ?_⟩⟩
  · cases hs : r.stream? j with
    | none =>
      -- a new stream would be one of the node that was named first
      obtain ⟨g, _, _, _, info, _, rfl, hg, hwaiting, harrived, rfl⟩ :=
        accepts_of_stream_new hs hs'
      obtain rfl := Option.some.inj hmv
      have hl := (openedBy_waiting hwaiting).mp (hopened g hg)
      rw [← hl, harrived] at hne
      exact absurd (congrArg some hnode) hne
    | some s₀ =>
      obtain ⟨l, hl⟩ := stream?_step hs mv
      obtain rfl := Option.some.inj (hs'.symm.trans hl)
      rw [Stream.node_run] at hnode
      rw [stream?_step_of_ne hr hopened (hnode ▸ hne) hmv hs] at hs'
      exact hs'
  · exact stream?_step_of_ne hr hopened (hnode ▸ hne) hmv hs

/-- **Nodes are kept apart** over every run: whatever a registration brings, and whatever is done
with its stream, touches no node but the one that its first frame names. -/
theorem isolated_run (timeout : Duration) (store : NodeStore) (moves : List Move) (i : Nat)
    (mv : Move) (node : NodeId) :
    let r : Registry := { firstFrameTimeout := timeout, store }
    mv.registration? = some i → opener? (r.brought i moves) ≠ some node →
      Untouched (r.run moves) ((r.run moves).step mv) node := by
  intro r hmv hne
  have hregular := (Regular.of_new timeout store).run moves
  exact untouched_step hregular.sound (fun g ↦ openedBy_run rfl moves) hne hmv

/-- Two nodes are connected, and the first reports about the second. -/
theorem isolated_report :
    let r : Registry := { firstFrameTimeout := .ofSeconds 30, store := {} }
    let info (node : NodeId) (status : Nat) : Arrival :=
      .frame ⟨"", some (.info { nodeId := node, statusCode := status })⟩
    let moves : List Move :=
      [.arrive [.provisioned] [info "first" 2] false 0, .review 0 0,
        .arrive [.provisioned] [info "second" 2] false 0, .review 1 0,
        .receive 0 (info "second" 1)]
    (Move.read 0 0).registration? = some 0 ∧ opener? (r.brought 0 moves) = some "first" ∧
      (r.run moves).find? "second" = some 1 ∧
      Untouched (r.run moves) ((r.run moves).step (.read 0 0)) "second" := by
  intro r info moves
  have hopener : opener? (r.brought 0 moves) = some "first" := rfl
  have hne : opener? (r.brought 0 moves) ≠ some "second" := by
    rw [hopener]
    decide
  exact ⟨rfl, hopener, rfl, isolated_run (.ofSeconds 30) {} moves 0 (.read 0 0) "second" rfl hne⟩

end NodeAgent.Registry
