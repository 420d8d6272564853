import NodeAgent.Identity.Files
import NodeAgent.Proofs.Text.Lines
import Mathlib.Data.List.Destutter
import Mathlib.Data.List.Forall2
import Mathlib.Data.List.Induction

/-!
# What is told of the subjects

The file of the subjects may be rewritten at any time, and nobody notices before it is read again.
What is read then is what is said of the subjects from then on, and it is compared with what was
read before: only if the two lists differ is anything told, and that to everybody who asked to be
told.

So an observer learns of the subjects what it would have learned had it asked after every move and
passed over answers that repeat the one before (`told_eq`), whatever else happens in between.

## Main statements

* `listed_iff`: the subjects that a text lists.
* `told_eq`: what is told to an observer while it neither comes nor goes.
* `informs_run`: what is said and told of the subjects after a run.
-/

namespace NodeAgent.IdentityFiles

/-! ## The file -/

/-- The subjects are what the lines of the text are without the blanks around them, in their order,
save for those of which nothing is left. -/
def Listed (text : String) (subjects : List String) : Prop :=
  ∃ rests, List.Forall₂ Text.Trims (text.toList.splitOn '\n') rests ∧
    subjects = (rests.filter (· ≠ [])).map String.ofList

/-- What is found of the subjects on a disk: what their file lists, or none if there is no such file
or it cannot be read. -/
inductive Found (d : Disk) : Option Path → List String → Prop where
  | unnamed : Found d none []
  | unreadable {p : Path} {e : FileError} (h : d.readText p = .error e) : Found d (some p) []
  | listed {p : Path} {text : String} {subjects : List String} (h : d.readText p = .ok text)
      (hlisted : Listed text subjects) : Found d (some p) subjects

variable {text : String} {subjects : List String} {d : Disk} {path : Option Path}

theorem subjectsOf_eq (text : String) : subjectsOf text =
    (((text.toList.splitOn '\n').map Text.trimBlanks).filter (· ≠ [])).map String.ofList := by
  have hcut : ∀ ls : List (List Char),
      ((ls.map Text.trimBlanks).filter (· ≠ [])).map String.ofList =
        ls.filterMap fun l ↦ if Text.trimBlanks l = [] then none
          else some (String.ofList (Text.trimBlanks l)) := by
    intro ls
    induction ls with
    | nil => rfl
    | cons l ls ih =>
      rw [List.map_cons, List.filterMap_cons, ← ih]
      by_cases hl : Text.trimBlanks l = [] <;> simp [hl]
  rw [subjectsOf, hcut, hcut]
  refine Text.filterMap_lines (if_pos rfl) (fun l ↦ ?_) text
  rw [Text.trimBlanks_append fun c hc ↦ by rw [List.mem_singleton.mp hc]; rfl]

/-- **The subjects that a text lists.** -/
theorem listed_iff : Listed text subjects ↔ subjectsOf text = subjects := by
  have hrests : ∀ {ls rests : List (List Char)},
      List.Forall₂ Text.Trims ls rests ↔ ls.map Text.trimBlanks = rests := by
    intro ls rests
    rw [← List.forall₂_eq_eq_eq, List.forall₂_map_left_iff]
    simp only [Text.trimBlanks_eq_iff]
  rw [subjectsOf_eq]
  constructor
  · rintro ⟨rests, h, rfl⟩
    rw [hrests.mp h]
  · rintro rfl
    exact ⟨_, hrests.mpr rfl, rfl⟩

theorem found_iff : Found d path subjects ↔ readSubjects d path = subjects := by
  constructor
  · rintro (_ | h | ⟨h, hlisted⟩)
    · rfl
    · rw [readSubjects, h]
    · rw [readSubjects, h]
      exact listed_iff.mp hlisted
  · rintro rfl
    cases path with
    | none => exact .unnamed
    | some p =>
      rw [readSubjects]
      cases h : d.readText p with
      | error e => exact .unreadable h
      | ok text => exact .listed h (listed_iff.mpr rfl)

/-! ## Runs -/

/-- What happens: somebody changes the disk, the subjects are read again, or an observer comes or
goes. -/
inductive Move where
  | outside (d : Disk)
  | reload
  | observe (observer : Nat)
  | unobserve (observer : Nat)

/-- The identity and the disk after a move. -/
def step (w : IdentityFiles × Disk) : Move → IdentityFiles × Disk
  | .outside d => (w.1, d)
  | .reload => ((w.1.reload w.2).2.2, w.2)
  | .observe observer => (w.1.observe observer, w.2)
  | .unobserve observer => (w.1.unobserve observer, w.2)

/-- The identity and the disk after a run. -/
def run (w : IdentityFiles × Disk) (moves : List Move) : IdentityFiles × Disk := moves.foldl step w

variable {w : IdentityFiles × Disk} {mv : Move} {moves : List Move} {observer : Nat}

@[simp] theorem run_nil (w : IdentityFiles × Disk) : run w [] = w := rfl

theorem run_append (w : IdentityFiles × Disk) (l l' : List Move) :
    run w (l ++ l') = run (run w l) l' := List.foldl_append

theorem run_concat (w : IdentityFiles × Disk) (l : List Move) (mv : Move) :
    run w (l ++ [mv]) = step (run w l) mv := run_append w l [mv]

/-- The subjects that somebody would be told who asked at the start and after every move. -/
def course (w : IdentityFiles × Disk) (moves : List Move) : List (List String) :=
  (moves.scanl step w).map (·.1.subjects)

/-- What a move tells an observer. -/
def notices (w : IdentityFiles × Disk) (observer : Nat) : Move → List (List String)
  | .reload => ((w.1.reload w.2).2.1.filter (·.1 = observer)).map (·.2)
  | _ => []

/-- What an observer is told over a run. -/
def told (w : IdentityFiles × Disk) (observer : Nat) : List Move → List (List String)
  | [] => []
  | mv :: moves => notices w observer mv ++ told (step w mv) observer moves

/-- How often an observer has asked to be told since it was last forgotten. -/
def registrations (observer : Nat) (moves : List Move) : Nat :=
  moves.foldl (fun n mv ↦ match mv with
    | .observe o => if o = observer then n + 1 else n
    | .unobserve o => if o = observer then 0 else n
    | .outside _ | .reload => n) 0

theorem registrations_concat (observer : Nat) (moves : List Move) (mv : Move) :
    registrations observer (moves ++ [mv]) = match mv with
      | .observe o => if o = observer then registrations observer moves + 1
        else registrations observer moves
      | .unobserve o => if o = observer then 0 else registrations observer moves
      | .outside _ | .reload => registrations observer moves := by
  rw [registrations, List.foldl_append]
  rfl

/-! ## One move -/

/-- Reading the subjects again says whether they changed, -/
theorem fst_reload (i : IdentityFiles) (d : Disk) :
    (i.reload d).1 = true ↔ readSubjects d i.subjectsPath ≠ i.subjects := by
  unfold reload
  dsimp only
  split <;> simp_all

/-- and leaves everything else as it is. -/
theorem reload_eq (i : IdentityFiles) (d : Disk) :
    (i.reload d).2.2 = { i with subjects := readSubjects d i.subjectsPath } := by
  unfold reload
  dsimp only
  split
  · rename_i hsame
    rw [hsame]
  · rfl

theorem step_reload (w : IdentityFiles × Disk) :
    step w .reload = ({ w.1 with subjects := readSubjects w.2 w.1.subjectsPath }, w.2) := by
  rw [step, reload_eq]

theorem subjectsPath_step (w : IdentityFiles × Disk) (mv : Move) :
    (step w mv).1.subjectsPath = w.1.subjectsPath := by
  cases mv with
  | reload => rw [step_reload]
  | outside _ | observe _ | unobserve _ => rfl

/-- Only reading the subjects again changes what is said of them. -/
theorem subjects_step_of_ne (h : mv ≠ .reload) : (step w mv).1.subjects = w.1.subjects := by
  cases mv with
  | reload => exact absurd rfl h
  | outside _ | observe _ | unobserve _ => rfl

/-- Who is told is everybody who asked and was not forgotten. -/
theorem count_observers_step (w : IdentityFiles × Disk) (mv : Move) (observer : Nat) :
    (step w mv).1.observers.count observer = match mv with
      | .observe o => if o = observer then w.1.observers.count observer + 1
        else w.1.observers.count observer
      | .unobserve o => if o = observer then 0 else w.1.observers.count observer
      | .outside _ | .reload => w.1.observers.count observer := by
  cases mv with
  | outside d => rfl
  | reload => rw [step_reload]
  | observe o =>
    change (w.1.observers ++ [o]).count observer = _
    rw [List.count_append, List.count_singleton]
    by_cases ho : o = observer <;> simp [ho]
  | unobserve o =>
    change (w.1.observers.filter (· ≠ o)).count observer = _
    by_cases ho : o = observer
    · simp [ho, List.count_eq_zero]
    · rw [List.count_filter (by simpa using Ne.symm ho)]
      exact (if_neg ho).symm

/-- Whoever is among the observers is told once for every time that it is. -/
theorem map_filter_observers (observers : List Nat) (subjects : List String) (observer : Nat) :
    ((observers.map fun o ↦ (o, subjects)).filter (·.1 = observer)).map (·.2) =
      List.replicate (observers.count observer) subjects := by
  rw [List.filter_map, List.map_map, List.count_eq_length_filter]
  exact List.map_const'

/-- **A move tells an observer what it changes**, as often as the observer asked for it. -/
theorem notices_eq (w : IdentityFiles × Disk) (observer : Nat) (mv : Move) :
    notices w observer mv = if w.1.subjects = (step w mv).1.subjects then []
      else List.replicate (w.1.observers.count observer) (step w mv).1.subjects := by
  cases mv with
  | reload =>
    rw [step_reload, notices, reload]
    dsimp only
    by_cases hsame : readSubjects w.2 w.1.subjectsPath = w.1.subjects
    · rw [if_pos hsame, if_pos hsame.symm]
      rfl
    · rw [if_neg hsame, if_neg (Ne.symm hsame), map_filter_observers]
  | outside _ | observe _ | unobserve _ => exact (if_pos rfl).symm

/-! ## Whole runs -/

theorem course_cons (w : IdentityFiles × Disk) (mv : Move) (moves : List Move) :
    course w (mv :: moves) = w.1.subjects :: course (step w mv) moves := by
  rw [course, List.scanl_cons, List.map_cons, course]

theorem exists_course (w : IdentityFiles × Disk) (moves : List Move) :
    ∃ l, course w moves = w.1.subjects :: l := by
  cases moves with
  | nil => exact ⟨[], by rw [course, List.scanl_nil, List.map_singleton]⟩
  | cons mv moves => exact ⟨_, course_cons w mv moves⟩

/-- Passing over what repeats the one before leaves the first one, -/
theorem destutter'_ne_eq_cons {α : Type} [DecidableEq α] (a : α) (l : List α) :
    l.destutter' (· ≠ ·) a = a :: (l.destutter' (· ≠ ·) a).tail := by
  induction l generalizing a with
  | nil => rfl
  | cons b l ih =>
    rw [List.destutter'_cons]
    split
    · rfl
    · exact ih a

/-- and the last one. -/
theorem getLast?_destutter'_ne {α : Type} [DecidableEq α] (a : α) (l : List α) :
    (l.destutter' (· ≠ ·) a).getLast? = (a :: l).getLast? := by
  induction l generalizing a with
  | nil => rfl
  | cons b l ih =>
    rw [List.getLast?_cons_cons, List.destutter'_cons]
    by_cases hab : a = b
    · rw [if_neg (not_not.mpr hab), ih, hab]
    · rw [if_pos hab, ← ih b, destutter'_ne_eq_cons b, List.getLast?_cons_cons]

theorem getLast?_course (w : IdentityFiles × Disk) (moves : List Move) :
    (course w moves).getLast? = some (run w moves).1.subjects := by
  induction moves generalizing w with
  | nil => rw [course, List.scanl_nil, List.map_singleton, List.getLast?_singleton, run_nil]
  | cons mv moves ih =>
    obtain ⟨l, hl⟩ := exists_course (step w mv) moves
    rw [course_cons, hl, List.getLast?_cons_cons, ← hl, ih]
    rfl

/-- The observer neither comes nor goes. -/
def Stays (observer : Nat) (moves : List Move) : Prop :=
  .observe observer ∉ moves ∧ .unobserve observer ∉ moves

theorem count_observers_of_stays (h : Stays observer (mv :: moves)) :
    (step w mv).1.observers.count observer = w.1.observers.count observer := by
  rw [count_observers_step]
  cases mv with
  | outside _ | reload => rfl
  | observe o =>
    refine if_neg ?_
    rintro rfl
    exact h.1 List.mem_cons_self
  | unobserve o =>
    refine if_neg ?_
    rintro rfl
    exact h.2 List.mem_cons_self

/-- **An observer that neither comes nor goes is told every change**, as often as it asked to be. -/
theorem told_eq (h : Stays observer moves) : told w observer moves =
    ((course w moves).destutter (· ≠ ·)).tail.flatMap
      (List.replicate (w.1.observers.count observer)) := by
  induction moves generalizing w with
  | nil => rw [course, List.scanl_nil, List.map_singleton, List.destutter_singleton]; rfl
  | cons mv moves ih =>
    have hmoves : Stays observer moves :=
      ⟨fun hmem ↦ h.1 (List.mem_cons_of_mem _ hmem), fun hmem ↦ h.2 (List.mem_cons_of_mem _ hmem)⟩
    obtain ⟨l, hl⟩ := exists_course (step w mv) moves
    rw [told, ih hmoves, notices_eq, count_observers_of_stays h, course_cons, hl,
      List.destutter_cons_cons, List.destutter_cons']
    by_cases hsame : w.1.subjects = (step w mv).1.subjects
    · rw [if_pos hsame, if_neg (not_not.mpr hsame), hsame, List.nil_append]
    · rw [if_neg hsame, if_pos hsame, List.tail_cons]
      conv_rhs => rw [destutter'_ne_eq_cons, List.flatMap_cons]

theorem subjectsPath_run (w : IdentityFiles × Disk) (moves : List Move) :
    (run w moves).1.subjectsPath = w.1.subjectsPath := by
  induction moves using List.reverseRecOn with
  | nil => rfl
  | append_singleton moves mv ih => rw [run_concat, subjectsPath_step, ih]

theorem subjects_run_of_not_mem (h : .reload ∉ moves) :
    (run w moves).1.subjects = w.1.subjects := by
  induction moves using List.reverseRecOn with
  | nil => rfl
  | append_singleton moves mv ih =>
    rw [List.mem_append, List.mem_singleton, not_or] at h
    rw [run_concat, subjects_step_of_ne (Ne.symm h.2), ih h.1]

theorem count_observers_run (h : w.1.observers = []) (observer : Nat) (moves : List Move) :
    (run w moves).1.observers.count observer = registrations observer moves := by
  induction moves using List.reverseRecOn with
  | nil => rw [run_nil, h]; rfl
  | append_singleton moves mv ih => rw [run_concat, count_observers_step, registrations_concat, ih]

/-- What is loaded: the subjects that are found, and nobody who asked to be told of them yet. -/
theorem load_eq_ok {paths : IdentityPaths} {i : IdentityFiles} (h : load paths d = .ok i) :
    i.subjectsPath = paths.subjects ∧ i.subjects = readSubjects d paths.subjects ∧
      i.observers = [] := by
  unfold load at h
  cases hid : readTrimmed d paths.systemId with
  | error e => rw [hid] at h; cases h
  | ok systemId =>
    cases hmodel : readTrimmed d paths.unitModel with
    | error e => rw [hid, hmodel] at h; cases h
    | ok unitModel =>
      rw [hid, hmodel] at h
      obtain rfl := Except.ok.inj h
      exact ⟨rfl, rfl, rfl⟩

/-- After `before` the observer asked to be told, which it had not done before or had been forgotten
since, and it neither came nor went after that. -/
structure Joined (observer : Nat) (moves before after : List Move) : Prop where
  moves_eq : moves = before ++ .observe observer :: after
  new : registrations observer before = 0
  stays : Stays observer after

/-- What is said and told of the subjects after a run, where `path` is that of their file. -/
structure Informs (path : Option Path) (w : IdentityFiles × Disk) (moves : List Move) : Prop where
  /-- The subjects are those that were found at the start, -/
  loaded : .reload ∉ moves → Found w.2 path (run w moves).1.subjects
  /-- or else when they were last read again. -/
  reloaded : ∀ {before after}, moves = before ++ .reload :: after → .reload ∉ after →
    Found (run w before).2 path (run w moves).1.subjects
  /-- Whoever reads them again is told whether they are others than before. -/
  answers : ∀ {subjects}, Found (run w moves).2 path subjects →
    (((run w moves).1.reload (run w moves).2).1 = true ↔ subjects ≠ (run w moves).1.subjects)
  /-- Whoever asked to be told is told every change of the subjects since, in order and once, -/
  told : ∀ {observer before after}, Joined observer moves before after →
    (run w before).1.subjects :: told (run w (before ++ [.observe observer])) observer after =
      (course (run w (before ++ [.observe observer])) after).destutter (· ≠ ·)
  /-- so that what it was told last, or what was said when it asked, is what is said now. -/
  latest : ∀ {observer before after}, Joined observer moves before after →
    ((run w before).1.subjects ::
      IdentityFiles.told (run w (before ++ [.observe observer])) observer after).getLast? =
        some (run w moves).1.subjects
  /-- Whoever asked several times is told each change as often, and whoever did not ask, or was
  forgotten, is told nothing. -/
  repeated : ∀ {observer before after}, moves = before ++ after → Stays observer after →
    IdentityFiles.told (run w before) observer after =
      ((course (run w before) after).destutter (· ≠ ·)).tail.flatMap
        (List.replicate (registrations observer before))

/-- **Everybody is told of the subjects what is said of them**, and that is what was found when they
were last read. -/
theorem informs_run {paths : IdentityPaths} {i : IdentityFiles} (h : load paths d = .ok i)
    (moves : List Move) : Informs paths.subjects (i, d) moves := by
  obtain ⟨hpath, hsubjects, hobservers⟩ := load_eq_ok h
  have hfound : ∀ moves, (run (i, d) moves).1.subjectsPath = paths.subjects :=
    fun moves ↦ (subjectsPath_run (i, d) moves).trans hpath
  have hcount := count_observers_run (w := (i, d)) hobservers
  have hjoined : ∀ {observer before after}, Joined observer moves before after →
      (run (i, d) before).1.subjects ::
          told (run (i, d) (before ++ [.observe observer])) observer after =
        (course (run (i, d) (before ++ [.observe observer])) after).destutter (· ≠ ·) := by
    intro observer before after hj
    have hone : registrations observer (before ++ [.observe observer]) = 1 := by
      rw [registrations_concat, hj.new]
      exact if_pos rfl
    have hsame : (run (i, d) (before ++ [.observe observer])).1.subjects =
        (run (i, d) before).1.subjects := by
      rw [run_concat]
      rfl
    obtain ⟨l, hl⟩ := exists_course (run (i, d) (before ++ [.observe observer])) after
    rw [told_eq hj.stays, hcount, hone, hl, List.destutter_cons', hsame, destutter'_ne_eq_cons,
      List.tail_cons]
    exact congrArg _ (List.flatMap_singleton' _)
  exact {
    loaded := fun hmoves ↦ by
      rw [subjects_run_of_not_mem hmoves]
      exact found_iff.mpr hsubjects.symm
    reloaded := by
      rintro before after rfl hafter
      rw [List.append_cons, run_append, subjects_run_of_not_mem hafter, run_concat, step,
        subjects_reload, hfound]
      exact found_iff.mpr rfl
    answers := fun hread ↦ by rw [fst_reload, hfound, found_iff.mp hread]
    told := hjoined
    latest := by
      intro observer before after hj
      obtain ⟨l, hl⟩ := exists_course (run (i, d) (before ++ [.observe observer])) after
      rw [hjoined hj, hl, List.destutter_cons', getLast?_destutter'_ne, ← hl, getLast?_course,
        ← run_append, ← List.append_cons, ← hj.moves_eq]
    repeated := by
      rintro observer before after rfl hstays
      rw [told_eq hstays, hcount] }

/-- The files of a unit, of which the subjects are the last. -/
def unitDisk (subjects : List UInt8) : Disk where
  entries := ⟨[(["id"], .file (Text.Utf8.encode "sys-1\n")),
    (["model"], .file (Text.Utf8.encode "model;1.0\n")), (["subjects"], .file subjects)]⟩

/-- The disk on which the only subject is `a`. -/
def firstDisk : Disk := unitDisk (Text.Utf8.encode "a\n")

/-- What is read from it. -/
def unit : IdentityFiles := ⟨"sys-1", "model;1.0", some "subjects", ["a"], []⟩

/-- The file says the same in another way, has a line more at its front, and is no text any more. -/
def rewrites : List Move :=
  [.outside (unitDisk (Text.Utf8.encode "\r\n a")), .reload,
    .outside (unitDisk (Text.Utf8.encode "b\na\n")), .reload, .outside (unitDisk [255]), .reload]

/-- Of the three times that the file is read, the first changes nothing. -/
theorem informs_run_rewrites : load ⟨"id", "model", some "subjects"⟩ firstDisk = .ok unit ∧
    told (run (unit, firstDisk) [.observe 0]) 0 rewrites = [["b", "a"], []] := by
  have hsystem : readTrimmed firstDisk "id" = .ok "sys-1" := by decide +kernel
  have hmodel : readTrimmed firstDisk "model" = .ok "model;1.0" := by decide +kernel
  have hsubjects : readSubjects firstDisk (some "subjects") = ["a"] := by decide +kernel
  have hload : load ⟨"id", "model", some "subjects"⟩ firstDisk = .ok unit := by
    simp only [load, hsystem, hmodel, hsubjects]
    rfl
  have hjoined : Joined 0 (.observe 0 :: rewrites) [] rewrites :=
    ⟨rfl, rfl, by simp [Stays, rewrites]⟩
  have hcourse : (course (run (unit, firstDisk) [.observe 0]) rewrites).destutter (· ≠ ·) =
      [["a"], ["b", "a"], []] := by decide +kernel
  have htold := (informs_run hload (.observe 0 :: rewrites)).told hjoined
  rw [List.nil_append, hcourse] at htold
  exact ⟨hload, (List.cons.inj htold).2⟩

end NodeAgent.IdentityFiles
