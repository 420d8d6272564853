import NodeAgent.Node.Record
import NodeAgent.Proofs.Disk.Files
import Mathlib.Data.List.Induction

/-!
# Setting the status of a node

The status of a node is in a file that others may rewrite, and whoever asks gets what the file says.
The node also remembers a status of its own: the one that was set last, or the one it started with.
Setting the status writes the file, except if the status is the remembered one: then nothing is done
at all. So whether setting a status takes effect is a question about the remembered status and the
file together, and they may differ as soon as somebody else has changed the file.

## Main statements

* `takesEffect_iff`: a status that was set is told afterwards, unless it is the one that was set
  last and the file says another.
* `overlooked_removal`: setting a status does not put back a file that somebody else removed.
-/

namespace NodeAgent

/-- The node may read a file, and is not told that there is none when it may not remove it. -/
structure Disk.Legible (d : Disk) (p : Path) : Prop where
  readable : d.refuses .read p.location = none
  honest : d.refuses .remove p.location ≠ some .notFound

namespace NodeRecord

/-- What happens to the status of a node: the node sets it, or somebody else changes files. -/
inductive Move where
  | set (s : NodeStatus)
  | outside (entries : Table Location DiskEntry)

/-- The record and the disk after a move. -/
def step (w : NodeRecord × Disk) : Move → NodeRecord × Disk
  | .set s => (w.1.setStatus s w.2).2
  | .outside entries => (w.1, { w.2 with entries })

/-- The record and the disk after a run. -/
def run (w : NodeRecord × Disk) (moves : List Move) : NodeRecord × Disk := moves.foldl step w

variable {w : NodeRecord × Disk} {r r' : NodeRecord} {d d' : Disk} {p : Path} {s : NodeStatus}
  {moves : List Move}

@[simp] theorem run_nil (w : NodeRecord × Disk) : run w [] = w := rfl

theorem run_concat (w : NodeRecord × Disk) (l : List Move) (mv : Move) :
    run w (l ++ [mv]) = step (run w l) mv := by
  rw [run, List.foldl_append]
  rfl

/-- The status that a move sets, if it does. -/
def sets? (w : NodeRecord × Disk) : Move → Option NodeStatus
  | .set s => if (w.1.setStatus s w.2).1 = .ok () then some s else none
  | .outside _ => none

/-- The statuses that are set over a run. -/
def accepted (w : NodeRecord × Disk) : List Move → List NodeStatus
  | [] => []
  | mv :: moves => (sets? w mv).toList ++ accepted (step w mv) moves

/-- The status that is set last in a run, or else the one that the node started with. -/
def lastSet (w : NodeRecord × Disk) (moves : List Move) : NodeStatus :=
  (accepted w moves).getLast?.getD w.1.known.status

theorem accepted_concat (w : NodeRecord × Disk) (l : List Move) (mv : Move) :
    accepted w (l ++ [mv]) = accepted w l ++ (sets? (run w l) mv).toList := by
  induction l generalizing w with
  | nil => exact List.append_nil _
  | cons mv' l ih =>
    rw [List.cons_append, accepted, ih, accepted, List.append_assoc]
    rfl

theorem lastSet_concat (w : NodeRecord × Disk) (l : List Move) (mv : Move) :
    lastSet w (l ++ [mv]) = (sets? (run w l) mv).getD (lastSet w l) := by
  rw [lastSet, accepted_concat, List.getLast?_append]
  cases sets? (run w l) mv <;> rfl

/-! ## The file -/

/-- The label of a status reads as the status. -/
theorem parse_firstLine_label (hs : s ≠ .unspecified) :
    NodeStatus.parse (String.ofList ((Text.lines s.label).headD [])) = .ok s := by
  have hline : (Text.lines s.label).headD [] = s.label.toList := by cases s <;> rfl
  rw [hline, String.ofList_toList, NodeStatus.parse_label hs]

/-- **A status that was written is read**, as long as the node may read the file. -/
theorem readStatus_of_writeStatus (hd : d.Legible p) (hs : s ≠ .unspecified)
    (h : (writeStatus d p s).1 = .ok ()) : readStatus (writeStatus d p s).2 p = .ok s := by
  unfold writeStatus at h ⊢
  by_cases hfresh : s = .unprovisioned
  · rw [if_pos hfresh] at h ⊢
    have hgone : (d.remove p).1 = .ok () ∨ (d.remove p).1 = .error .notFound →
        readStatus (d.remove p).2 p = .ok .unprovisioned := by
      intro hremove
      rw [readStatus, Disk.readText_of_remove hremove hd.readable hd.honest]
    rw [hfresh]
    rcases hremove : d.remove p with ⟨_ | _, d'⟩
    · rename_i e
      rw [hremove] at h hgone
      cases e with
      | notFound => exact hgone (Or.inr rfl)
      | denied | occupied | notDirectory | isDirectory | notText => cases h
    · rw [hremove] at hgone
      exact hgone (Or.inl rfl)
  · rw [if_neg hfresh] at h ⊢
    rcases hwrite : d.writeText p s.label with ⟨_ | _, d'⟩
    · rw [hwrite] at h
      cases h
    · rw [readStatus, Disk.readText_of_writeText hwrite hd.readable]
      dsimp only
      rw [parse_firstLine_label hs]
      rfl

/-! ## What a move leaves as it is -/

theorem refuses_writeStatus (d : Disk) (p : Path) (s : NodeStatus) :
    (writeStatus d p s).2.refuses = d.refuses := by
  have hremove : (d.remove p).2.refuses = d.refuses := by
    unfold Disk.remove
    split <;> rfl
  have hwrite : (d.writeText p s.label).2.refuses = d.refuses := by
    unfold Disk.writeText Disk.write
    split <;> rfl
  unfold writeStatus
  split
  · split <;> (rename_i heq; rw [heq] at hremove; exact hremove)
  · split <;> (rename_i heq; rw [heq] at hwrite; exact hwrite)

/-- Setting the remembered status does nothing. -/
theorem setStatus_of_known (h : r.known.status = s) : r.setStatus s d = (.ok (), r, d) := by
  rw [setStatus, if_pos h]

/-- Setting another status writes it, and it is remembered if that works. -/
theorem setStatus_of_ne (h : r.known.status ≠ s) : r.setStatus s d =
    ((writeStatus d r.statePath s).1,
      if (writeStatus d r.statePath s).1 = .ok () then { r with known := r.known.withStatus s }
        else r,
      (writeStatus d r.statePath s).2) := by
  rw [setStatus, if_neg h]
  rcases writeStatus d r.statePath s with ⟨_ | _, d'⟩ <;> rfl

/-- What stays the same of a record and its disk, and the status that is remembered. -/
structure Remembers (w w' : NodeRecord × Disk) (s : NodeStatus) : Prop where
  statePath : w'.1.statePath = w.1.statePath
  refuses : w'.2.refuses = w.2.refuses
  withStatus : ∀ s', w'.1.known.withStatus s' = w.1.known.withStatus s'
  status : w'.1.known.status = s

theorem Remembers.trans {w' w'' : NodeRecord × Disk} {s' : NodeStatus} (h : Remembers w w' s)
    (h' : Remembers w' w'' s') : Remembers w w'' s' where
  statePath := h'.statePath.trans h.statePath
  refuses := h'.refuses.trans h.refuses
  withStatus s' := (h'.withStatus s').trans (h.withStatus s')
  status := h'.status

/-- A move makes the node remember the status that it sets. -/
theorem remembers_step (w : NodeRecord × Disk) (mv : Move) :
    Remembers w (step w mv) ((sets? w mv).getD w.1.known.status) := by
  obtain ⟨r, d⟩ := w
  cases mv with
  | outside entries => exact ⟨rfl, rfl, fun _ ↦ rfl, rfl⟩
  | set s =>
    by_cases hknown : r.known.status = s
    · have hset := setStatus_of_known (d := d) hknown
      rw [step, sets?, hset]
      exact ⟨rfl, rfl, fun _ ↦ rfl, hknown⟩
    · rw [step, sets?, setStatus_of_ne hknown]
      by_cases hok : (writeStatus d r.statePath s).1 = .ok ()
      · simp only [if_pos hok]
        exact ⟨rfl, refuses_writeStatus d r.statePath s, fun _ ↦ rfl, r.known.status_withStatus s⟩
      · simp only [if_neg hok]
        exact ⟨rfl, refuses_writeStatus d r.statePath s, fun _ ↦ rfl, rfl⟩

theorem remembers_run (w : NodeRecord × Disk) (moves : List Move) :
    Remembers w (run w moves) (lastSet w moves) := by
  induction moves using List.reverseRecOn with
  | nil => exact ⟨rfl, rfl, fun _ ↦ rfl, rfl⟩
  | append_singleton moves mv ih =>
    rw [run_concat, lastSet_concat, ← ih.status]
    exact ih.trans (remembers_step _ mv)

/-! ## Setting and asking -/

/-- **A status that was set is told**, whatever came before, unless it is the one that was set last
and the file says another: then nothing is done, and what the file says is told. -/
theorem takesEffect_iff (hlegible : w.2.Legible w.1.statePath) (hs : s ≠ .unspecified)
    (hok : ((run w moves).1.setStatus s (run w moves).2).1 = .ok ()) :
    (run w (moves ++ [.set s])).1.info (run w (moves ++ [.set s])).2 =
        .ok (w.1.known.withStatus s) ↔
      (lastSet w moves = s → readStatus (run w moves).2 w.1.statePath = .ok s) := by
  have hrun := remembers_run w moves
  rw [run_concat, step]
  generalize run w moves = w' at hrun hok
  obtain ⟨r, d⟩ := w'
  have hpath : r.statePath = w.1.statePath := hrun.statePath
  have hinfo : ∀ s', r.known.withStatus s' = w.1.known.withStatus s' := hrun.withStatus
  rw [← hrun.status, ← hpath]
  by_cases hknown : r.known.status = s
  · -- nothing is done, so the file says what it said before
    rw [setStatus_of_known hknown]
    dsimp only
    rw [info, ← hinfo]
    constructor
    · intro h _
      cases hread : readStatus d r.statePath with
      | error e =>
        rw [hread] at h
        cases h
      | ok s' =>
        rw [hread] at h
        have hsame := congrArg NodeInfo.status (Except.ok.inj h)
        rw [NodeInfo.status_withStatus, NodeInfo.status_withStatus] at hsame
        rw [hsame]
    · intro h
      rw [h hknown]
      rfl
  · -- the status is written, and the file is read again
    rw [setStatus_of_ne hknown] at hok ⊢
    dsimp only at hok ⊢
    have hd : d.Legible r.statePath := by
      have hrefuses : d.refuses = w.2.refuses := hrun.refuses
      rw [hpath]
      exact ⟨by rw [hrefuses]; exact hlegible.readable, by rw [hrefuses]; exact hlegible.honest⟩
    rw [if_pos hok, info, readStatus_of_writeStatus hd hs hok]
    refine ⟨fun _ h ↦ absurd h hknown, fun _ ↦ congrArg Except.ok ?_⟩
    exact hinfo s

/-- A provisioned node, and the disk with its file. -/
def provisionedNode : NodeRecord × Disk :=
  (⟨({ nodeId := "n" } : NodeInfo).withStatus .provisioned, "state"⟩,
    { entries := ⟨[(["state"], .file (Text.Utf8.encode "provisioned"))]⟩ })

/-- A node is paused, its file is removed, and it is resumed. -/
theorem takesEffect_after_removal :
    let moves : List Move := [.set .paused, .outside {}]
    provisionedNode.2.Legible provisionedNode.1.statePath ∧
      ((run provisionedNode moves).1.setStatus .provisioned (run provisionedNode moves).2).1 =
        .ok () ∧
      (run provisionedNode (moves ++ [.set .provisioned])).1.info
          (run provisionedNode (moves ++ [.set .provisioned])).2 =
        .ok (provisionedNode.1.known.withStatus .provisioned) := by
  have hlegible : provisionedNode.2.Legible provisionedNode.1.statePath := ⟨rfl, fun h ↦ by cases h⟩
  have hok : ((run provisionedNode [.set .paused, .outside {}]).1.setStatus .provisioned
      (run provisionedNode [.set .paused, .outside {}]).2).1 = .ok () := rfl
  have hlast : lastSet provisionedNode [.set .paused, .outside {}] ≠ .provisioned := by decide
  exact ⟨hlegible, hok,
    (takesEffect_iff hlegible (by decide) hok).mpr fun h ↦ absurd h hlast⟩

/-- **Setting the status is overlooked** if the node remembers it and somebody else removed the
file: all goes well, and the node is unprovisioned afterwards. -/
theorem overlooked_removal :
    ((run provisionedNode [.outside {}]).1.setStatus .provisioned
        (run provisionedNode [.outside {}]).2).1 = .ok () ∧
      (run provisionedNode [.outside {}, .set .provisioned]).1.info
          (run provisionedNode [.outside {}, .set .provisioned]).2 =
        .ok (provisionedNode.1.known.withStatus .unprovisioned) :=
  ⟨rfl, rfl⟩

end NodeRecord

end NodeAgent
