import NodeAgent.Disk.Basic
import NodeAgent.Proofs.Text.Utf8

/-!
# What is read after a change

A change of a disk is a change at one location. The way to that location does not depend on what is
there, so an operation that could get there gets there again, and what it finds is what the change
left behind. A disk may still refuse to read what it let somebody write; that it does not is an
assumption wherever it matters.

## Main statements

* `readText_of_writeText`: a text that was written is read.
* `readText_of_remove`: a file that was removed, or was not there to be removed, is not found.
-/

namespace NodeAgent.Disk

variable {d d' : Disk} {l k : Location} {p : Path}

theorem at?_clear_self (d : Disk) (h : l ≠ []) : (d.clear l).at? l = none := by
  rw [at?, if_neg h, clear, Table.get?_erase, if_pos rfl]

theorem at?_clear_of_ne (d : Disk) (h : l ≠ k) : (d.clear l).at? k = d.at? k := by
  rw [at?, at?, clear, Table.get?_erase, if_neg h]

/-- The way to a location is told by what is on it. -/
theorem obstacle?_congr (h : ∀ n < l.length, d'.at? (l.take n) = d.at? (l.take n)) :
    d'.obstacle? l = d.obstacle? l := by
  unfold obstacle?
  have key : ∀ n ∈ List.range l.length, d'.at? (l.take n) = d.at? (l.take n) :=
    fun n hn ↦ h n (List.mem_range.mp hn)
  generalize List.range l.length = ns at key
  induction ns with
  | nil => rfl
  | cons n ns ih =>
    rw [List.findSome?_cons, List.findSome?_cons, key n List.mem_cons_self,
      ih fun m hm ↦ key m (List.mem_cons_of_mem _ hm)]

/-- The way to a location is clear if it goes through directories only. -/
theorem obstacle?_eq_none_iff :
    d.obstacle? l = none ↔ ∀ n < l.length, d.at? (l.take n) = some .directory := by
  unfold obstacle?
  rw [List.findSome?_eq_none_iff]
  constructor
  · intro h n hn
    have hclear := h n (List.mem_range.mpr hn)
    split at hclear
    · assumption
    · cases hclear
    · cases hclear
  · intro h n hn
    rw [h n (List.mem_range.mp hn)]

theorem take_ne_of_lt {n : Nat} (h : n < l.length) : l ≠ l.take n := by
  intro heq
  have hlength := congrArg List.length heq
  rw [List.length_take] at hlength
  omega

theorem obstacle?_clear_self (d : Disk) (l : Location) :
    (d.clear l).obstacle? l = d.obstacle? l :=
  obstacle?_congr fun _ hn ↦ at?_clear_of_ne d (take_ne_of_lt hn)

/-! ## What an operation finds -/

/-- An operation finds what is at a location if it is not refused and the way is clear. -/
theorem find_eq_ok_iff {o : DiskOperation} {x : Option DiskEntry} : d.find o p = .ok x ↔
    p ≠ "" ∧ d.refuses o p.location = none ∧ d.obstacle? p.location = none ∧
      d.at? p.location = x := by
  unfold find
  by_cases hempty : p = ""
  · simp [hempty]
  · rw [if_neg hempty]
    cases hor : (d.refuses o p.location).or (d.obstacle? p.location) with
    | some e =>
      constructor
      · intro h
        cases h
      · rintro ⟨-, hrefuses, hway, -⟩
        rw [hrefuses, hway] at hor
        cases hor
    | none =>
      obtain ⟨hrefuses, hway⟩ := Option.or_eq_none_iff.mp hor
      exact ⟨fun h ↦ ⟨hempty, hrefuses, hway, Except.ok.inj h⟩, fun h ↦ congrArg _ h.2.2.2⟩

/-- Whoever is not refused does not find what another operation did not find. -/
theorem find_of_notFound {o o' : DiskOperation} (h : d.find o p = .error .notFound)
    (honest : d.refuses o p.location ≠ some .notFound)
    (willing : d.refuses o' p.location = none) : d.find o' p = .error .notFound := by
  unfold find at h ⊢
  split
  · rfl
  · rename_i hempty
    rw [if_neg hempty] at h
    rw [willing, Option.none_or]
    cases hrefuses : d.refuses o p.location with
    | some e =>
      rw [hrefuses] at h honest
      exact absurd (congrArg some (Except.error.inj h)) honest
    | none =>
      rw [hrefuses, Option.none_or] at h
      cases hway : d.obstacle? p.location with
      | some e => rw [hway] at h; exact h
      | none => rw [hway] at h; cases h

/-- A file that is put where no directory was is found by nobody who looks elsewhere. -/
theorem find_set_file_iff {o : DiskOperation} {x : Option DiskEntry} (content : List UInt8)
    (hl : d.at? l ≠ some .directory) (hp : p.location ≠ l) :
    (d.set l (.file content)).find o p = .ok x ↔ d.find o p = .ok x := by
  have hroot : l ≠ [] := fun hnil ↦ hl (by rw [hnil, at?, if_pos rfl])
  have hway : ∀ k, (d.set l (.file content)).at? k = some .directory ↔
      d.at? k = some .directory := by
    intro k
    by_cases hk : l = k
    · rw [← hk, at?_set_self _ _ hroot]
      exact iff_of_false (by simp) hl
    · rw [at?_set_of_ne _ _ hk]
  rw [find_eq_ok_iff, find_eq_ok_iff, obstacle?_eq_none_iff, obstacle?_eq_none_iff,
    at?_set_of_ne _ _ hp.symm]
  simp only [hway]
  rfl

/-! ## Files -/

theorem read_eq_ok_iff {content : List UInt8} :
    d.read p = .ok content ↔ d.find .read p = .ok (some (.file content)) := by
  unfold read
  constructor
  · intro h
    split at h
    · cases h
    · cases h
    · cases h
    · rename_i content' hfind
      rw [hfind, Except.ok.inj h]
  · intro h
    rw [h]

theorem readText_eq_ok_iff {text : String} : d.readText p = .ok text ↔
    ∃ content, d.find .read p = .ok (some (.file content)) ∧
      Text.Utf8.decode content = .ok text := by
  unfold readText
  constructor
  · intro h
    split at h
    · cases h
    · rename_i content hread
      refine ⟨content, read_eq_ok_iff.mp hread, ?_⟩
      cases hdecode : Text.Utf8.decode content with
      | error e =>
        rw [hdecode] at h
        cases h
      | ok text' =>
        rw [hdecode] at h
        exact congrArg _ (Except.ok.inj h)
  · rintro ⟨content, hfind, hdecode⟩
    rw [read_eq_ok_iff.mpr hfind]
    dsimp only
    rw [hdecode]
    rfl

/-- Writing fails without a trace, or puts the file where no directory was. -/
theorem write_cases (d : Disk) (p : Path) (content : List UInt8) :
    (∃ e, d.write p content = (.error e, d)) ∨
      (∃ x, d.find .write p = .ok x ∧ x ≠ some .directory) ∧
        d.write p content = (.ok (), d.set p.location (.file content)) := by
  unfold write
  split
  · exact Or.inl ⟨_, rfl⟩
  · exact Or.inl ⟨_, rfl⟩
  · rename_i x hne hfind
    exact Or.inr ⟨⟨x, hfind, hne⟩, rfl⟩

/-- Moving a file fails without a trace. -/
theorem rename_of_error {q : Path} {e : FileError} (h : (d.rename p q).1 = .error e) :
    (d.rename p q).2 = d := by
  revert h
  unfold rename
  split
  all_goals first | exact fun _ ↦ rfl | exact nofun

/-- Where a file was written, there is no root. -/
theorem location_ne_nil_of_write {content : List UInt8} (h : d.write p content = (.ok (), d')) :
    p.location ≠ [] := by
  intro hroot
  unfold write at h
  cases hfind : d.find .write p with
  | error e =>
    rw [hfind] at h
    cases h
  | ok x =>
    obtain ⟨-, -, -, hat⟩ := find_eq_ok_iff.mp hfind
    rw [hroot, at?, if_pos rfl] at hat
    rw [hfind, ← hat] at h
    cases h

/-- **A text that was written is read**, unless the disk refuses to read it. -/
theorem readText_of_writeText {text : String} (h : d.writeText p text = (.ok (), d'))
    (readable : d.refuses .read p.location = none) : d'.readText p = .ok text := by
  rw [readText, read_of_write h (location_ne_nil_of_write h) readable]
  dsimp only
  rw [Text.Utf8.decode_encode]
  rfl

/-- **A file that was removed is not found**, nor is one that was not there to be removed. -/
theorem readText_of_remove (h : (d.remove p).1 = .ok () ∨ (d.remove p).1 = .error .notFound)
    (readable : d.refuses .read p.location = none)
    (honest : d.refuses .remove p.location ≠ some .notFound) :
    (d.remove p).2.readText p = .error .notFound := by
  have hread : (d.remove p).2.read p = .error .notFound := by
    cases hfind : d.find .remove p with
    | error e =>
      rw [remove, hfind] at h ⊢
      obtain rfl : e = .notFound := by rcases h with h | h <;> cases h; rfl
      rw [read, find_of_notFound hfind honest readable]
    | ok x =>
      obtain ⟨hempty, -, hway, hat⟩ := find_eq_ok_iff.mp hfind
      rw [remove, hfind] at h ⊢
      rcases x with _ | content | _
      · rw [read, find_eq_ok_iff.mpr ⟨hempty, readable, hway, hat⟩]
      · have hroot : p.location ≠ [] := by
          intro hroot
          rw [hroot, at?, if_pos rfl] at hat
          cases hat
        have hgone : (d.clear p.location).find .read p = .ok none := find_eq_ok_iff.mpr
          ⟨hempty, readable, (d.obstacle?_clear_self _).trans hway, d.at?_clear_self hroot⟩
        dsimp only
        rw [read, hgone]
      · rcases h with h | h <;> cases h
  rw [readText, hread]

end NodeAgent.Disk
