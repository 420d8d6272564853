import NodeAgent.Proofs.Registry.Answers
import NodeAgent.Proofs.Registry.Lasting

/-!
# What a reader has taken

What a registration brings is read in the order in which it was brought, and a reader that stops
leaves the rest unread. So at any moment the frames that were brought are those that were read,
followed by those that are `unread`, and a move takes from the front of these (`Reads`).

The order is what matters for a response: a call that was given one was given it after everything
the node had said before it was read, and in particular after the report that goes ahead of it.

## Main statements

* `reads_step`: what any move reads of a registration.
* `mem_allowed_of_linked`: whoever is linked after a move was read to report accepted statuses only.
-/

namespace NodeAgent

/-- The frame that arrived, unless the transport broke. -/
def Arrival.frame? : Arrival → Option NodeFrame
  | .frame f => some f
  | .fault => none

/-- The frames that a registration brought and nobody has read. -/
def Registration.unread (g : Registration) : List NodeFrame := g.arrived.filterMap Arrival.frame?

namespace Registry

variable {r : Registry} {mv : Move} {k : Nat} {g g' : Registration} {taken : List NodeFrame}

theorem unread_mapStream (g : Registration) (f : Stream → Stream) :
    (g.mapStream f).unread = g.unread := by
  unfold Registration.mapStream Registration.unread
  split <;> rfl

theorem unread_of_arrived {l : List Arrival} (h : g.arrived = taken.map .frame ++ l) :
    g.unread = taken ++ l.filterMap Arrival.frame? := by
  have hframes : (taken.map Arrival.frame).filterMap Arrival.frame? = taken := by
    rw [List.filterMap_map]
    exact List.filterMap_some
  rw [Registration.unread, h, List.filterMap_append, hframes]

theorem isReading_mapStream (g : Registration) (f : Stream → Stream) :
    (g.mapStream f).isReading = g.isReading := by
  cases h : g.admission <;> simp [Registration.mapStream, Registration.isReading, h]

theorem stream?_mapStream (g : Registration) (f : Stream → Stream) :
    (g.mapStream f).stream? = g.stream?.map f := by
  cases h : g.admission <;> simp [Registration.mapStream, Registration.stream?, h]

theorem isReading_of_admitted {s : Stream} {reading : Bool}
    (h : g.admission = .admitted s reading) : g.isReading = reading := by
  rw [Registration.isReading, h]

/-- The frame that a move brings to a registration. -/
def Move.brought (mv : Move) (k : Nat) : List NodeFrame :=
  match mv with
  | .receive i (.frame x) => if i = k then [x] else []
  | _ => []

theorem Move.brought_receive_self (k : Nat) (x : NodeFrame) :
    (Move.receive k (.frame x)).brought k = [x] := if_pos rfl

theorem Move.brought_receive_of_ne {i : Nat} (h : i ≠ k) (x : NodeFrame) :
    (Move.receive i (.frame x)).brought k = [] := if_neg h

/-- A move took these frames from the front of what a registration had brought. -/
structure Reads (r : Registry) (mv : Move) (k : Nat) (g g' : Registration)
    (taken : List NodeFrame) : Prop where
  reading : g'.isReading = true → g.isReading = true
  /-- Nothing is taken any more where nobody reads. -/
  idle : g.isReading = false → taken = []
  /-- Nothing is taken of a registration that waits on. -/
  waiting : ∀ deadline, g'.admission = .waiting deadline →
    g.admission = .waiting deadline ∧ taken = []
  order : ∃ rest, g.unread ++ mv.brought k = taken ++ rest ∧
    (g'.isReading = true → g'.unread = rest)
  heard : ∀ x ∈ taken, ∀ info, x.message = some (.info info) → (k, info) ∈ r.intake mv
  /-- A call is given only what was taken. -/
  filled : ∀ i c m, (r.step mv).call? (k, i) = some c → c.slot = .filled m →
    (∃ d, r.call? (k, i) = some d ∧ d.slot = .filled m ∧ d.id = c.id) ∨ ⟨c.id, some m⟩ ∈ taken

/-! ## Infos that are heard -/

/-- The infos among the first frames are heard by whoever takes so many. -/
theorem mem_heard_of_mem {x : NodeFrame} {info : NodeInfo} (hx : x ∈ taken)
    (hinfo : x.message = some (.info info)) {count : Nat} (hcount : taken.length ≤ count)
    (rest : List Arrival) : info ∈ heard count (taken.map .frame ++ rest) := by
  induction taken generalizing count with
  | nil => cases hx
  | cons y taken ih =>
    obtain ⟨count, rfl⟩ : ∃ n, count = n + 1 :=
      ⟨count - 1, by simp only [List.length_cons] at hcount; omega⟩
    rw [List.map_cons, List.cons_append, heard_succ]
    rcases List.mem_cons.mp hx with rfl | hx
    · have hfirst : heard 1 (.frame x :: (taken.map .frame ++ rest)) = [info] :=
        heard_of_info hinfo 0 _
      rw [hfirst]
      exact List.mem_cons_self
    · exact List.mem_append_right _ (ih hx (Nat.le_of_succ_le_succ hcount))

/-- What is heard had arrived. -/
theorem exists_frame_of_heard {info : NodeInfo} {count : Nat} {l : List Arrival}
    (h : info ∈ heard count l) : ∃ x, .frame x ∈ l ∧ x.message = some (.info info) := by
  induction l generalizing count with
  | nil =>
    rw [heard_nil] at h
    cases h
  | cons a l ih =>
    cases count with
    | zero => cases h
    | succ count =>
      cases a with
      | fault => cases h
      | frame x =>
        rw [heard_succ] at h
        rcases List.mem_append.mp h with h | h
        · exact ⟨x, List.mem_cons_self, message_of_heard h⟩
        · obtain ⟨y, hy, hinfo⟩ := ih h
          exact ⟨y, List.mem_cons_of_mem _ hy, hinfo⟩

/-- What a move takes in was not read before it. -/
theorem exists_unread_of_intake {info : NodeInfo} (h : (k, info) ∈ r.intake mv) :
    ∃ g x, r.registration? k = some g ∧ g.isReading = true ∧ x ∈ g.unread ∧
      x.message = some (.info info) := by
  obtain ⟨g, hg, hheard⟩ := heard_of_mem_intake h
  have hunread : ∀ {count}, info ∈ heard count g.arrived →
      ∃ x, x ∈ g.unread ∧ x.message = some (.info info) := by
    intro count hcount
    obtain ⟨x, hx, hinfo⟩ := exists_frame_of_heard hcount
    exact ⟨x, List.mem_filterMap.mpr ⟨.frame x, hx, rfl⟩, hinfo⟩
  rcases hheard with ⟨deadline, now, -, hwaiting, hin⟩ | ⟨s, late, -, hreading, hin⟩
  · obtain ⟨x, hx, hinfo⟩ := hunread hin
    exact ⟨g, x, hg, by rw [Registration.isReading, hwaiting], hx, hinfo⟩
  · obtain ⟨x, hx, hinfo⟩ := hunread hin
    exact ⟨g, x, hg, isReading_of_admitted hreading, hx, hinfo⟩

/-! ## Calls that are given a response -/

/-- What a call was given after a run of its stream it was given before, or in the run. -/
theorem filled_of_run {s : Stream} {l : List Stream.Move} {i : Nat} {c : Call} {m : NodeMessage}
    (hr : r.Consistent) (hs : r.stream? k = some s) (hs' : (r.step mv).stream? k = some (s.run l))
    (hc : (r.step mv).call? (k, i) = some c) (hm : c.slot = .filled m) :
    (∃ d, r.call? (k, i) = some d ∧ d.slot = .filled m ∧ d.id = c.id) ∨ .deliver c.id m ∈ l := by
  have hcs : (s.run l).call? i = some c := (call?_of_stream? hs' i).symm.trans hc
  refine (Stream.slot_run (hr k s hs) hcs hm).imp_left ?_
  rintro ⟨d, hd, hdm⟩
  obtain ⟨c', hc', hev⟩ := Stream.evolves_run (hr k s hs) l i d hd
  obtain rfl := Option.some.inj (hc'.symm.trans hcs)
  exact ⟨d, (call?_of_stream? hs i).trans hd, hdm, hev.id.symm⟩

/-- Tearing a stream down delivers nothing. -/
theorem notMem_closing (s : Stream) (id : RequestId) (m : NodeMessage) :
    .deliver id m ∉ s.closing := by
  unfold Stream.closing
  split <;> simp

/-- What a move reads, given what it made of the registration and of its stream. -/
theorem Reads.of_stream (hr : r.Consistent) (hg : r.registration? k = some g)
    (hg' : (r.step mv).registration? k = some g')
    (hreading : g'.isReading = true → g.isReading = true)
    (hidle : g.isReading = false → taken = [])
    (hwaiting : ∀ deadline, g'.admission = .waiting deadline →
      g.admission = .waiting deadline ∧ taken = [])
    (horder : ∃ rest, g.unread ++ mv.brought k = taken ++ rest ∧
      (g'.isReading = true → g'.unread = rest))
    (hheard : ∀ x ∈ taken, ∀ info, x.message = some (.info info) → (k, info) ∈ r.intake mv)
    (hstream : ∀ s', g'.stream? = some s' → s'.calls = [] ∨ ∃ s l, g.stream? = some s ∧
      s' = s.run l ∧ ∀ id m, .deliver id m ∈ l → ⟨id, some m⟩ ∈ taken) :
    Reads r mv k g g' taken := by
  refine ⟨hreading, hidle, hwaiting, horder, hheard, fun i c m hc hm ↦ ?_⟩
  obtain ⟨s', hs', hcs'⟩ := stream?_of_call? hc
  have hgs' : g'.stream? = some s' := by
    rw [stream?, hg'] at hs'
    exact hs'
  rcases hstream s' hgs' with hnone | ⟨s, l, hgs, rfl, hdelivered⟩
  · rw [Stream.call?, hnone] at hcs'
    cases hcs'
  · have hs : r.stream? k = some s := by
      rw [stream?, hg]
      exact hgs
    exact (filled_of_run hr hs hs' hc hm).imp_right (hdelivered c.id m)

/-! ## What a move reads -/

/-- A move that changes nothing but the stream, and delivers nothing to it, reads nothing. -/
theorem Reads.of_mapStream (hr : r.Consistent) (hg : r.registration? k = some g)
    {f : Stream → Stream} (hg' : (r.step mv).registration? k = some (g.mapStream f))
    (hnone : mv.brought k = [])
    (hf : ∀ s, ∃ l, f s = s.run l ∧ ∀ id m, .deliver id m ∉ l) :
    Reads r mv k g (g.mapStream f) [] := by
  have hwaiting : ∀ deadline, (g.mapStream f).admission = .waiting deadline →
      g.admission = .waiting deadline := by
    intro deadline h
    cases hadmission : g.admission <;> simp_all [Registration.mapStream]
  refine .of_stream hr hg hg' (fun h ↦ (isReading_mapStream g f).symm.trans h) (fun _ ↦ rfl)
    (fun deadline h ↦ ⟨hwaiting deadline h, rfl⟩)
    ⟨g.unread, by rw [hnone, List.append_nil]; rfl, fun _ ↦ unread_mapStream g f⟩ (by simp)
    fun s' hs' ↦ Or.inr ?_
  rw [stream?_mapStream] at hs'
  obtain ⟨s, hs, rfl⟩ := Option.map_eq_some_iff.mp hs'
  obtain ⟨l, hl, hno⟩ := hf s
  exact ⟨s, l, hs, hl, fun id m hmem ↦ absurd hmem (hno id m)⟩

/-- A move that leaves a registration as it is, but for whether more will come, reads nothing. -/
theorem Reads.of_eq (hr : r.Consistent) (hg : r.registration? k = some g)
    (hg' : (r.step mv).registration? k = some g') (hnone : mv.brought k = [])
    (hunread : g'.unread = g.unread) (hadmission : g'.admission = g.admission) :
    Reads r mv k g g' [] := by
  have hreading : g'.isReading = g.isReading := by
    rw [Registration.isReading, hadmission]
    rfl
  have hstream : g'.stream? = g.stream? := by
    rw [Registration.stream?, hadmission]
    rfl
  refine .of_stream hr hg hg' (fun h ↦ hreading.symm.trans h) (fun _ ↦ rfl)
    (fun deadline h ↦ ⟨hadmission.symm.trans h, rfl⟩)
    ⟨g.unread, by rw [hnone, List.append_nil]; rfl, fun _ ↦ hunread⟩ (by simp) fun s hs ↦
      Or.inr ⟨s, [], hstream.symm.trans hs, rfl, by simp⟩

theorem not_idle {p : Prop} (h : g.isReading = true) : g.isReading = false → p := by
  rw [h]
  exact nofun

/-- A move that brings no frame reads what its effect says. -/
theorem Reads.of_effect (hr : r.Consistent) (hg : r.registration? k = some g)
    (hg' : (r.step mv).registration? k = some g') (heff : Effect r (r.step mv) mv k g g')
    (hnone : mv.brought k = []) : ∃ taken, Reads r mv k g g' taken := by
  have horder : ∀ {taken rest : List NodeFrame} {g'' : Registration},
      g.unread = taken ++ rest → (g''.isReading = true → g''.unread = rest) →
      ∃ rest, g.unread ++ mv.brought k = taken ++ rest ∧
        (g''.isReading = true → g''.unread = rest) := by
    intro taken rest g'' h hrest
    exact ⟨rest, by rw [hnone, List.append_nil, h], hrest⟩
  cases heff with
  | none => exact ⟨[], .of_eq hr hg hg' hnone rfl rfl⟩
  | close _ =>
    exact ⟨[], .of_mapStream hr hg hg' hnone fun s ↦
      ⟨s.closing, s.close_eq_run, notMem_closing s⟩⟩
  | @use u _ => exact ⟨[], .of_mapStream hr hg hg' hnone fun s ↦ ⟨[.use u], rfl, by simp⟩⟩
  | endInbound _ => exact ⟨[], .of_eq hr hg hg' hnone rfl rfl⟩
  | receive a hmv _ =>
    -- the transport broke, since the move brought no frame
    cases a with
    | frame x =>
      rw [hmv, Move.brought, if_pos rfl] at hnone
      cases hnone
    | fault =>
      refine ⟨[], .of_eq hr hg hg' hnone ?_ rfl⟩
      simp [Registration.unread, Arrival.frame?]
  | refuse e hmv hwaiting =>
    refine ⟨[], .of_stream hr hg hg' (fun h ↦ ?_) (fun _ ↦ rfl) (fun _ h ↦ ?_)
      (horder (List.nil_append _).symm fun h ↦ ?_) (by simp) fun s hs ↦ ?_⟩
    · cases h
    · cases h
    · cases h
    · cases hs
  | @accept deadline now id info rest hmv hwaiting harrived =>
    have hunread : g.unread = [⟨id, some (.info info)⟩] ++ rest.filterMap Arrival.frame? :=
      unread_of_arrived harrived
    have hreads : g.isReading = true := by rw [Registration.isReading, hwaiting]
    refine ⟨[⟨id, some (.info info)⟩], .of_stream hr hg hg' (fun _ ↦ hreads)
      (not_idle hreads) (fun _ h ↦ ?_) (horder hunread fun _ ↦ rfl)
      (fun x hx info' hinfo' ↦ ?_) fun s hs ↦ Or.inl ?_⟩
    · cases h
    · obtain rfl := List.mem_singleton.mp hx
      obtain rfl := NodeMessage.info.inj (Option.some.inj hinfo')
      rw [hmv, intake_review hg hwaiting, harrived]
      exact List.mem_cons_self
    · obtain rfl := Option.some.inj hs
      rfl
  | @take s late f rest hmv hreading hopen harrived =>
    have hreads := isReading_of_admitted hreading
    refine ⟨[f], .of_stream hr hg hg' (fun _ ↦ hreads) (not_idle hreads) (fun _ h ↦ ?_)
      (horder (unread_of_arrived harrived) fun _ ↦ rfl) (fun x hx info hinfo ↦ ?_) fun s' hs' ↦
        Or.inr ⟨s', [], hs', rfl, by simp⟩⟩
    · cases hreading.symm.trans h
    · rw [hmv, intake_read hg hreading, hopen, harrived]
      have hheard : info ∈ Registry.heard 1 ([f].map Arrival.frame ++ rest) :=
        mem_heard_of_mem hx hinfo (Nat.le_refl 1) rest
      exact List.mem_map_of_mem hheard
  | @deliver s late id m rest hmv hreading hopen harrived =>
    have hreads := isReading_of_admitted hreading
    refine ⟨[⟨id, some (.response m)⟩], .of_stream hr hg hg'
      (fun _ ↦ hreads) (not_idle hreads) (fun _ h ↦ ?_)
      (horder (unread_of_arrived harrived) fun _ ↦ rfl) (fun x hx info hinfo ↦ ?_) fun s' hs' ↦
        Or.inr ⟨s, [.deliver id (.response m)], ?_, ?_, fun id' m' hmem ↦ ?_⟩⟩
    · cases h
    · obtain rfl := List.mem_singleton.mp hx
      cases hinfo
    · rw [Registration.stream?, hreading]
    · exact (Option.some.inj hs').symm
    · obtain ⟨rfl, rfl⟩ := Stream.Move.deliver.inj (List.mem_singleton.mp hmem)
      exact List.mem_cons_self
  | @stop s late l hmv hreading _ hl =>
    -- a late reader heard what it took, and one that is not late took nothing
    obtain ⟨taken, rest, harrived, hlength, hdelivered⟩ := hl
    have hcount : taken.length ≤ if s.cancelled then late else 1 := by
      refine Nat.le_trans hlength ?_
      cases s.cancelled <;> simp
    have hreads := isReading_of_admitted hreading
    refine ⟨taken, .of_stream hr hg hg' (fun h ↦ ?_) (not_idle hreads) (fun _ h ↦ ?_)
      (horder (unread_of_arrived harrived) fun h ↦ ?_) (fun x hx info hinfo ↦ ?_) fun s' hs' ↦
        Or.inr ⟨s, l ++ (s.run l).closing, ?_, ?_, fun id m hmem ↦ ?_⟩⟩
    · cases h
    · cases h
    · cases h
    · rw [hmv, intake_read hg hreading, harrived]
      exact List.mem_map_of_mem (mem_heard_of_mem hx hinfo hcount rest)
    · rw [Registration.stream?, hreading]
    · rw [Stream.run_append, ← Stream.close_eq_run]
      exact (Option.some.inj hs').symm
    · rcases List.mem_append.mp hmem with hmem | hmem
      · obtain ⟨id', m', heq, hframe⟩ := hdelivered _ hmem
        obtain ⟨rfl, rfl⟩ := Stream.Move.deliver.inj heq
        obtain ⟨x, hx, hxeq⟩ := List.mem_map.mp hframe
        rwa [← Arrival.frame.inj hxeq]
      · exact absurd hmem (notMem_closing _ id m)

/-- **What a move reads** of a registration is the first of what it brought. -/
theorem reads_step (hr : r.Consistent) (hg : r.registration? k = some g) (mv : Move) :
    ∃ g' taken, (r.step mv).registration? k = some g' ∧ Reads r mv k g g' taken := by
  obtain ⟨g', hg', heff⟩ := effect_step r mv hg
  by_cases hbrings : ∃ x, mv = .receive k (.frame x)
  · obtain ⟨x, rfl⟩ := hbrings
    have hbrought := Move.brought_receive_self k x
    by_cases hreading : g.isReading = true
    · have hreceived : (r.step (.receive k (.frame x))).registration? k =
          some { g with arrived := g.arrived ++ [.frame x] } := by
        change (r.receive k (.frame x)).2.registration? k = _
        rw [receive, hg]
        dsimp only
        rw [if_pos hreading]
        exact registration?_update_of_eq hg _
      refine ⟨_, [], hreceived, .of_stream hr hg hreceived (fun _ ↦ hreading) (fun _ ↦ rfl)
        (fun _ h ↦ ⟨h, rfl⟩) ?_ (by simp) fun s hs ↦ Or.inr ⟨s, [], hs, rfl, by simp⟩⟩
      refine ⟨g.unread ++ [x], by rw [hbrought]; rfl, fun _ ↦ ?_⟩
      simp [Registration.unread, Arrival.frame?]
    · have hdropped : (r.step (.receive k (.frame x))).registration? k = some g := by
        change (r.receive k (.frame x)).2.registration? k = _
        rw [receive, hg]
        dsimp only
        rw [if_neg hreading]
        exact hg
      refine ⟨g, [], hdropped, .of_stream hr hg hdropped id (fun _ ↦ rfl) (fun _ h ↦ ⟨h, rfl⟩)
        ⟨g.unread ++ [x], by rw [hbrought]; rfl, fun h ↦ absurd h hreading⟩ (by simp)
        fun s hs ↦ Or.inr ⟨s, [], hs, rfl, by simp⟩⟩
  · have hnone : mv.brought k = [] := by
      unfold Move.brought
      split
      · rename_i i x
        refine if_neg ?_
        rintro rfl
        exact hbrings ⟨x, rfl⟩
      · rfl
    obtain ⟨taken, hreads⟩ := Reads.of_effect hr hg hg' heff hnone
    exact ⟨g', taken, hg', hreads⟩

/-- **Whoever is linked after a move** was heard in it to report accepted statuses only. -/
theorem mem_allowed_of_linked {reports : List (Nat × NodeInfo)} {node : NodeId} {info : NodeInfo}
    (hr : r.Sound reports) (hg : r.registration? k = some g)
    (hlinked : (r.step mv).find? node = some k) (hin : (k, info) ∈ r.intake mv)
    (hown : info.nodeId = node) : info.status ∈ g.allowed := by
  rcases linked_step hlinked with hbefore | hnew
  · obtain ⟨g₁, s, hg₁, hreading, rfl, -, hopen, -⟩ := hr.linked node k hbefore
    obtain rfl := Option.some.inj (hg.symm.trans hg₁)
    exact mem_allowed_of_intake hg hreading hopen hlinked hin hown
  · -- a new entry was made on the one report of the move
    obtain ⟨g', s, info', hg', -, -, -, hintake, -, hallowed⟩ := hnew.entry
    rw [hintake, List.mem_singleton, Prod.mk.injEq] at hin
    rw [hin.2, ← allowed_step hg hg']
    exact hallowed

end Registry

end NodeAgent
