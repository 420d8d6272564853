import NodeAgent.Proofs.Disk.Files
import NodeAgent.Proofs.Disk.Path

/-!
# Directories of files

Much of what a node keeps is in the directories right below one location, and every directory there
holds files and nothing else. Such a part of a disk is no more than a table of contents by directory
and name, and `Disk.Stores` says that a disk keeps a table. As long as nothing is refused there and
no file stands where a directory should be, an operation on a file changes the table at one place,
and making a directory does not change it at all.

## Main statements

* `Stores.readText_eq`: what is read is what the table says.
* `Stores.write`, `Stores.rename`, `Stores.remove`: what the table says afterwards.
* `Stores.makeDirs`: a directory can be made, and then files can be written there.
-/

namespace NodeAgent

/-- The contents of files by directory and name. -/
abbrev Contents := String → String → Option (List UInt8)

namespace Contents

/-- The contents with one file set or removed. -/
def put (c : Contents) (t n : String) (x : Option (List UInt8)) : Contents := fun t' n' ↦
  if t' = t ∧ n' = n then x else c t' n'

/-- The text in a file. -/
def text? (c : Contents) (t n : String) : Option String :=
  (c t n).bind fun content ↦ (Text.Utf8.decode content).toOption

variable {c c' : Contents} {t n t' n' : String} {x : Option (List UInt8)}

@[simp] theorem put_self (c : Contents) (t n : String) (x : Option (List UInt8)) :
    c.put t n x t n = x := if_pos ⟨rfl, rfl⟩

theorem put_of_ne (h : n' ≠ n) : c.put t n x t' n' = c t' n' := if_neg fun heq ↦ h heq.2

theorem put_of_ne_directory (h : t' ≠ t) : c.put t n x t' n' = c t' n' := if_neg fun heq ↦ h heq.1

theorem text?_congr (h : c' t n = c t' n') : c'.text? t n = c.text? t' n' := by
  rw [text?, text?, h]

theorem text?_of_encode {text : String} (h : c t n = some (Text.Utf8.encode text)) :
    c.text? t n = some text := by
  rw [text?, h, Option.bind_some, Text.Utf8.decode_encode]
  rfl

theorem ne_none_of_text? {text : String} (h : c.text? t n = some text) : c t n ≠ none := by
  intro hnone
  rw [text?, hnone] at h
  cases h

end Contents

namespace Disk

variable {d d' : Disk} {root l : Location} {c : Contents} {t n n' : String} {p q : Path}

/-- Everything down to a location is a directory. -/
def Reaches (d : Disk) (l : Location) : Prop := ∀ k ≤ l.length, d.at? (l.take k) = some .directory

/-- A disk keeps contents in the directories below a location. -/
structure Stores (d : Disk) (root : Location) (c : Contents) : Prop where
  at?_eq : ∀ t n, d.at? (root ++ [t, n]) = (c t n).map .file
  /-- Where there is a file, there are the directories above it. -/
  reaches : ∀ t n, c t n ≠ none → d.Reaches (root ++ [t])
  /-- Nothing stands in the way of making those directories. -/
  free : ∀ t, ∀ k ≤ root.length + 1, ∀ content, d.at? ((root ++ [t]).take k) ≠ some (.file content)
  willing : ∀ o l, root <+: l → d.refuses o l = none

theorem ne_empty_of_location (h : p.location = l) (hl : l ≠ []) : p ≠ "" := by
  rintro rfl
  exact hl h.symm

/-- If no file is on the way, all that may be missing is a directory. -/
theorem obstacle?_of_free (h : ∀ k < l.length, ∀ content, d.at? (l.take k) ≠ some (.file content)) :
    d.obstacle? l = none ∨ d.obstacle? l = some .notFound := by
  cases hway : d.obstacle? l with
  | none => exact Or.inl rfl
  | some e =>
    unfold obstacle? at hway
    obtain ⟨k, hk, he⟩ := List.exists_of_findSome?_eq_some hway
    split at he
    · cases he
    · exact absurd ‹_› (h k (List.mem_range.mp hk) _)
    · exact Or.inr he.symm

theorem take_pair (root : Location) (t n : String) {k : Nat} (h : k < (root ++ [t, n]).length) :
    k ≤ root.length + 1 ∧ (root ++ [t, n]).take k = (root ++ [t]).take k := by
  rw [List.length_append, List.length_cons, List.length_singleton] at h
  have hsplit : root ++ [t, n] = (root ++ [t]) ++ [n] := by rw [List.append_assoc]; rfl
  refine ⟨by omega, ?_⟩
  rw [hsplit, List.take_append_of_le_length]
  rw [List.length_append, List.length_singleton]
  omega

namespace Stores

/-- Whoever looks for a file finds what the table says. -/
theorem find_eq (h : d.Stores root c) (hp : p.location = root ++ [t, n])
    (hreach : d.Reaches (root ++ [t])) (o : DiskOperation) :
    d.find o p = .ok ((c t n).map .file) := by
  refine find_eq_ok_iff.mpr ⟨ne_empty_of_location hp (by simp), ?_, ?_, ?_⟩
  · rw [hp]
    exact h.willing o _ (List.prefix_append _ _)
  · rw [hp]
    refine obstacle?_eq_none_iff.mpr fun k hk ↦ ?_
    obtain ⟨hle, htake⟩ := take_pair root t n hk
    rw [htake]
    exact hreach k (by rw [List.length_append]; exact hle)
  · rw [hp, h.at?_eq]

/-- What is read is what the table says. -/
theorem readText_eq (h : d.Stores root c) (hp : p.location = root ++ [t, n]) : d.readText p =
    match c t n with
    | none => .error .notFound
    | some content => (Text.Utf8.decode content).mapError fun _ ↦ .notText := by
  cases hc : c t n with
  | some content =>
    have hfind := h.find_eq hp (h.reaches t n (by rw [hc]; exact Option.some_ne_none _)) .read
    rw [hc] at hfind
    rw [readText, read, hfind]
    rfl
  | none =>
    have hread : d.read p = .error .notFound := by
      rw [read, find, if_neg (ne_empty_of_location hp (by simp)), hp,
        h.willing _ _ (List.prefix_append _ _), h.at?_eq, hc]
      rcases obstacle?_of_free (d := d) (l := root ++ [t, n]) (fun k hk ↦ by
        obtain ⟨hle, htake⟩ := take_pair root t n hk
        rw [htake]
        exact h.free t k hle) with hway | hway
      · rw [hway]
        rfl
      · rw [hway]
        rfl
    rw [readText, hread]

theorem readText_eq_ok_iff {text : String} (h : d.Stores root c)
    (hp : p.location = root ++ [t, n]) : d.readText p = .ok text ↔ c.text? t n = some text := by
  rw [h.readText_eq hp, Contents.text?]
  cases c t n with
  | none => exact ⟨nofun, nofun⟩
  | some content =>
    dsimp only [Option.bind_some]
    cases Text.Utf8.decode content with
    | error e => exact ⟨nofun, nofun⟩
    | ok text' =>
      exact ⟨fun heq ↦ congrArg some (Except.ok.inj heq),
        fun heq ↦ congrArg _ (Option.some.inj heq)⟩

/-- A change at the location of one file is a change of the table at one place. -/
theorem of_change (h : d.Stores root c) {x : Option (List UInt8)}
    (hself : d'.at? (root ++ [t, n]) = x.map .file)
    (hother : ∀ l, root ++ [t, n] ≠ l → d'.at? l = d.at? l) (hrefuses : d'.refuses = d.refuses)
    (hreach : x ≠ none → d.Reaches (root ++ [t])) : d'.Stores root (c.put t n x) := by
  have hway : ∀ t' k, k ≤ root.length + 1 →
      d'.at? ((root ++ [t']).take k) = d.at? ((root ++ [t']).take k) := by
    intro t' k _
    refine hother _ fun heq ↦ ?_
    have hlength := congrArg List.length heq
    rw [List.length_take, List.length_append, List.length_append, List.length_cons,
      List.length_singleton] at hlength
    have := List.length_singleton (a := t')
    omega
  have hlength : ∀ t' : String, (root ++ [t']).length = root.length + 1 := fun t' ↦ by
    rw [List.length_append, List.length_singleton]
  constructor
  · intro t' n'
    by_cases heq : t' = t ∧ n' = n
    · obtain ⟨rfl, rfl⟩ := heq
      rw [hself, Contents.put_self]
    · rw [hother, h.at?_eq, Contents.put, if_neg heq]
      intro hloc
      have hpair := List.append_cancel_left hloc
      injection hpair with ht hn
      injection hn with hn
      exact heq ⟨ht.symm, hn.symm⟩
  · intro t' n' hc k hk
    rw [hway t' k (by rw [← hlength t']; exact hk)]
    by_cases heq : t' = t ∧ n' = n
    · obtain ⟨rfl, rfl⟩ := heq
      rw [Contents.put_self] at hc
      exact hreach hc k hk
    · rw [Contents.put, if_neg heq] at hc
      exact h.reaches t' n' hc k hk
  · intro t' k hk
    rw [hway t' k hk]
    exact h.free t' k hk
  · rw [hrefuses]
    exact h.willing

theorem location_ne_nil (root : Location) (t n : String) : root ++ [t, n] ≠ [] := by simp

/-- **A file can be written in a directory that is there.** -/
theorem write (h : d.Stores root c) (hp : p.location = root ++ [t, n])
    (hreach : d.Reaches (root ++ [t])) (content : List UInt8) :
    (d.write p content).1 = .ok () ∧
      (d.write p content).2.Stores root (c.put t n (some content)) := by
  have hwrite : d.write p content = (.ok (), d.set p.location (.file content)) := by
    rw [Disk.write, h.find_eq hp hreach]
    cases c t n <;> rfl
  rw [hwrite, hp]
  exact ⟨rfl, h.of_change (d.at?_set_self _ (location_ne_nil root t n))
    (fun l hl ↦ d.at?_set_of_ne _ hl) rfl fun _ ↦ hreach⟩

theorem writeText (h : d.Stores root c) (hp : p.location = root ++ [t, n])
    (hreach : d.Reaches (root ++ [t])) (text : String) :
    (d.writeText p text).1 = .ok () ∧
      (d.writeText p text).2.Stores root (c.put t n (some (Text.Utf8.encode text))) :=
  h.write hp hreach (Text.Utf8.encode text)

/-- The disk without a file. -/
theorem clear (h : d.Stores root c) (t n : String) :
    (d.clear (root ++ [t, n])).Stores root (c.put t n none) :=
  h.of_change (d.at?_clear_self (location_ne_nil root t n)) (fun _ hl ↦ d.at?_clear_of_ne hl) rfl
    fun hx ↦ absurd rfl hx

/-- **A file can be moved** within a directory. -/
theorem rename {content : List UInt8} (h : d.Stores root c) (hp : p.location = root ++ [t, n])
    (hq : q.location = root ++ [t, n']) (hc : c t n = some content) :
    (d.rename p q).1 = .ok () ∧
      (d.rename p q).2.Stores root ((c.put t n none).put t n' (some content)) := by
  have hreach : d.Reaches (root ++ [t]) := h.reaches t n (by rw [hc]; exact Option.some_ne_none _)
  have hrename : d.rename p q =
      (.ok (), (d.clear p.location).set q.location (.file content)) := by
    rw [Disk.rename, h.find_eq hp hreach, h.find_eq hq hreach, hc]
    cases c t n' <;> rfl
  rw [hrename, hp, hq]
  refine ⟨rfl, (h.clear t n).of_change (at?_set_self _ _ (location_ne_nil root t n'))
    (fun l hl ↦ at?_set_of_ne _ _ hl) rfl fun _ k hk ↦ ?_⟩
  rw [at?_clear_of_ne, hreach k hk]
  intro heq
  have hlength := congrArg List.length heq
  rw [List.length_take, List.length_append, List.length_append, List.length_cons,
    List.length_singleton, List.length_singleton] at hlength
  omega

/-- **A removed file is gone**, and so is one that was not there. -/
theorem remove (h : d.Stores root c) (hp : p.location = root ++ [t, n]) :
    (d.remove p).2.Stores root (c.put t n none) := by
  cases hc : c t n with
  | some content =>
    have hremove : d.remove p = (.ok (), d.clear p.location) := by
      rw [Disk.remove, h.find_eq hp (h.reaches t n (by rw [hc]; exact Option.some_ne_none _)), hc]
      rfl
    rw [hremove, hp]
    exact h.clear t n
  | none =>
    have hput : c.put t n none = c := by
      funext t' n'
      rw [Contents.put]
      split
      · rename_i heq
        rw [heq.1, heq.2, hc]
      · rfl
    have hremove : (d.remove p).2 = d := by
      rw [Disk.remove]
      cases hfind : d.find .remove p with
      | error e => rfl
      | ok x =>
        obtain ⟨-, -, -, hat⟩ := find_eq_ok_iff.mp hfind
        rw [hp, h.at?_eq, hc] at hat
        rw [← hat]
        rfl
    rw [hput, hremove]
    exact h

end Stores

/-! ## Making directories -/

/-- What is there after directories were made: they are where nothing was before. -/
theorem at?_makeWays (ways : List Location) (d : Disk) (l : Location) :
    (ways.foldl (fun d w ↦ if (d.at? w).isSome then d else d.set w .directory) d).at? l =
      if d.at? l = none ∧ l ∈ ways then some .directory else d.at? l := by
  induction ways generalizing d with
  | nil => simp
  | cons w ways ih =>
    rw [List.foldl_cons, ih]
    cases hw : d.at? w with
    | some e =>
      have hne : d.at? l = none → l ≠ w := by
        rintro hl rfl
        rw [hw] at hl
        cases hl
      simp only [Option.isSome_some, if_true, List.mem_cons]
      by_cases hl : d.at? l = none
      · simp [hl, hne hl]
      · simp [hl]
    | none =>
      have hroot : w ≠ [] := by
        rintro rfl
        cases hw
      simp only [Option.isSome_none, Bool.false_eq_true, if_false, List.mem_cons]
      by_cases hl : l = w
      · rw [hl, at?_set_self _ _ hroot]
        simp [hw]
      · rw [at?_set_of_ne _ _ (Ne.symm hl)]
        simp [hl]

theorem refuses_makeWays (ways : List Location) (d : Disk) :
    (ways.foldl (fun d w ↦ if (d.at? w).isSome then d else d.set w .directory) d).refuses =
      d.refuses := by
  induction ways generalizing d with
  | nil => rfl
  | cons w ways ih =>
    rw [List.foldl_cons, ih]
    split <;> rfl

/-- The locations on the way to a location, itself among them. -/
def ways (l : Location) : List Location := (List.range (l.length + 1)).map fun k ↦ l.take k

theorem mem_ways {w : Location} : w ∈ ways l ↔ ∃ k ≤ l.length, l.take k = w := by
  simp only [ways, List.mem_map, List.mem_range, Nat.lt_succ_iff]

/-- Directories are made if nothing is refused and no file is in the way. -/
theorem makeDirs_of_free (hrefuses : d.refuses .makeDirs p.location = none)
    (hfree : ∀ w ∈ ways p.location, ∀ content, d.at? w ≠ some (.file content)) :
    d.makeDirs p = (.ok (), (ways p.location).foldl
      (fun d w ↦ if (d.at? w).isSome then d else d.set w .directory) d) := by
  unfold makeDirs
  dsimp only
  rw [hrefuses]
  split
  · rename_i heq
    cases heq
  · rename_i w _ hfind
    have hfile := List.find?_some hfind
    have hmem := List.mem_of_find?_eq_some hfind
    split at hfile
    · rename_i content hat
      exact absurd hat (hfree w hmem content)
    · cases hfile
  · rfl

/-- **A directory can be made**, and then files can be written there. -/
theorem Stores.makeDirs (h : d.Stores root c) (hp : p.location = root ++ [t]) :
    (d.makeDirs p).1 = .ok () ∧ (d.makeDirs p).2.Stores root c ∧
      (d.makeDirs p).2.Reaches (root ++ [t]) := by
  have hlength : (root ++ [t]).length = root.length + 1 := by
    rw [List.length_append, List.length_singleton]
  have hfree : ∀ w ∈ ways (root ++ [t]), ∀ content, d.at? w ≠ some (.file content) := by
    intro w hw
    obtain ⟨k, hk, rfl⟩ := mem_ways.mp hw
    exact h.free t k (by rw [← hlength]; exact hk)
  rw [makeDirs_of_free (by rw [hp]; exact h.willing _ _ (List.prefix_append _ _))
    (by rw [hp]; exact hfree), hp]
  refine ⟨rfl, ⟨fun t' n ↦ ?_, fun t' n hc k hk ↦ ?_, fun t' k hk content ↦ ?_, ?_⟩,
    fun k hk ↦ ?_⟩
  · rw [at?_makeWays, if_neg, h.at?_eq]
    rintro ⟨-, hw⟩
    obtain ⟨k, hk, heq⟩ := mem_ways.mp hw
    have hlong := congrArg List.length heq
    rw [List.length_take, hlength, List.length_append, List.length_cons,
      List.length_singleton] at hlong
    omega
  · rw [at?_makeWays, h.reaches t' n hc k hk]
    exact if_neg fun hnone ↦ by cases hnone.1
  · rw [at?_makeWays]
    split
    · intro heq
      cases heq
    · exact h.free t' k hk content
  · rw [refuses_makeWays]
    exact h.willing
  · rw [at?_makeWays]
    have hmem : (root ++ [t]).take k ∈ ways (root ++ [t]) := mem_ways.mpr ⟨k, hk, rfl⟩
    cases hat : d.at? ((root ++ [t]).take k) with
    | none => exact if_pos ⟨rfl, hmem⟩
    | some entry =>
      cases entry with
      | file content => exact absurd hat (hfree _ hmem content)
      | directory => exact if_neg fun hnone ↦ by cases hnone.1

/-! ## Listing a directory -/

theorem mem_insertName {m : String} {ns : List String} :
    m ∈ insertName n ns ↔ m = n ∨ m ∈ ns := by
  induction ns with
  | nil => exact List.mem_singleton.trans (or_iff_left List.not_mem_nil).symm
  | cons k ns ih =>
    rw [insertName]
    split
    · exact List.mem_cons
    · rw [List.mem_cons, ih, List.mem_cons]
      exact or_left_comm

theorem mem_foldl_insertName {m : String} {ns ms : List String} :
    m ∈ ns.foldl (fun ms n ↦ insertName n ms) ms ↔ m ∈ ns ∨ m ∈ ms := by
  induction ns generalizing ms with
  | nil => simp
  | cons n ns ih =>
    rw [List.foldl_cons, ih, mem_insertName, List.mem_cons]
    exact or_left_comm.trans or_assoc.symm

theorem nameIn?_eq_some {directory : Location} :
    nameIn? directory l = some n ↔ l = directory ++ [n] := by
  unfold nameIn?
  constructor
  · intro h
    split at h
    · rename_i hdirectory
      obtain ⟨init, rfl⟩ := List.getLast?_eq_some_iff.mp h
      rw [← hdirectory, List.dropLast_concat]
    · cases h
  · rintro rfl
    rw [List.dropLast_concat, if_pos rfl, List.getLast?_concat]

theorem list_eq_ok_iff {names : List String} : d.list p = .ok names ↔
    d.find .list p = .ok (some .directory) ∧
      (d.entries.keys.filterMap (nameIn? p.location)).foldl (fun ns n ↦ insertName n ns) [] =
        names := by
  unfold list
  constructor
  · intro h
    split at h
    · cases h
    · cases h
    · cases h
    · exact ⟨‹_›, Except.ok.inj h⟩
  · rintro ⟨hfind, rfl⟩
    rw [hfind]

/-- What is listed is what is there. -/
theorem mem_list {names : List String} (h : d.list p = .ok names) :
    n ∈ names ↔ d.at? (p.location ++ [n]) ≠ none := by
  obtain ⟨-, rfl⟩ := list_eq_ok_iff.mp h
  rw [mem_foldl_insertName, or_iff_left List.not_mem_nil, List.mem_filterMap, at?,
    if_neg (List.append_ne_nil_of_right_ne_nil _ (List.cons_ne_nil _ _)), ← Table.mem_keys_iff]
  simp only [nameIn?_eq_some, exists_eq_right]

/-- A file that is put where no directory was is seen in its own directory only. -/
theorem list_set_file_iff {names : List String} (content : List UInt8)
    (hl : d.at? l ≠ some .directory) (hp : l.dropLast ≠ p.location) :
    (d.set l (.file content)).list p = .ok names ↔ d.list p = .ok names := by
  by_cases hself : p.location = l
  · -- a file cannot be listed, and there was no directory before
    have hroot : l ≠ [] := fun hnil ↦ hl (by rw [hnil, at?, if_pos rfl])
    rw [list_eq_ok_iff, list_eq_ok_iff, find_eq_ok_iff, find_eq_ok_iff, hself,
      at?_set_self _ _ hroot]
    exact iff_of_false (fun h ↦ absurd h.1.2.2.2 (by simp)) fun h ↦ hl h.1.2.2.2
  · have hname : nameIn? p.location l = none := if_neg hp
    have hkeys : (d.set l (.file content)).entries.keys.filterMap (nameIn? p.location) =
        d.entries.keys.filterMap (nameIn? p.location) := Table.filterMap_keys_insert hname _ _
    rw [list_eq_ok_iff, list_eq_ok_iff, find_set_file_iff content hl hself, hkeys]

/-- **The names in a directory are those of its files.** A directory that is not there has none. -/
theorem Stores.mem_list (h : d.Stores root c) (hp : p.location = root ++ [t]) :
    n ∈ (d.list p).toOption.getD [] ↔ c t n ≠ none := by
  have hat : d.at? (p.location ++ [n]) = (c t n).map .file := by
    rw [hp, List.append_assoc]
    exact h.at?_eq t n
  have hiff : d.at? (p.location ++ [n]) ≠ none ↔ c t n ≠ none := by
    rw [hat, Ne, Option.map_eq_none_iff]
  cases hlist : d.list p with
  | ok names => exact (Disk.mem_list hlist).trans hiff
  | error e =>
    refine iff_of_false List.not_mem_nil fun hc ↦ ?_
    have hfind : d.find .list p = .ok (some .directory) := by
      refine find_eq_ok_iff.mpr ⟨ne_empty_of_location hp (by simp), ?_, ?_, ?_⟩
      · rw [hp]
        exact h.willing _ _ (List.prefix_append _ _)
      · rw [hp]
        exact obstacle?_eq_none_iff.mpr fun k hk ↦ h.reaches t n hc k (Nat.le_of_lt hk)
      · rw [hp, ← h.reaches t n hc _ (Nat.le_refl _), List.take_length]
    rw [list, hfind] at hlist
    cases hlist

/-! ## Nothing stored yet -/

/-- No file is stored in the directories below a path, and nothing will keep anybody from storing
one. -/
structure Vacant (d : Disk) (p : Path) : Prop where
  empty : ∀ t n, d.at? (p.location ++ [t, n]) = none
  /-- No file is where a directory should be. -/
  free : ∀ t k content, d.at? ((p.location ++ [t]).take k) ≠ some (.file content)
  willing : ∀ o l, p.location <+: l → d.refuses o l = none

/-- Nothing is on a new disk. -/
theorem vacant_new (p : Path) : ({} : Disk).Vacant p := by
  have hat : ∀ l, ({} : Disk).at? l = none ∨ ({} : Disk).at? l = some .directory := by
    intro l
    unfold at?
    split
    · exact Or.inr rfl
    · exact Or.inl rfl
  refine ⟨fun t n ↦ if_neg (by simp), fun t k content heq ↦ ?_, fun _ _ _ ↦ rfl⟩
  rcases hat ((p.location ++ [t]).take k) with hnone | hdirectory
  · rw [hnone] at heq
    cases heq
  · rw [hdirectory] at heq
    cases heq

theorem Vacant.stores (h : d.Vacant p) : d.Stores p.location fun _ _ ↦ none where
  at?_eq := h.empty
  reaches _ _ hc := absurd rfl hc
  free t k _ := h.free t k
  willing := h.willing

end Disk

end NodeAgent
