import NodeAgent.Disk.Path
import NodeAgent.Table
import NodeAgent.Text.Utf8
/-!
# Disks

A disk says for every location what is there: nothing, a directory, or a file with its content.
Whatever is done at a location first goes through the directories above it, and the first one that
is not there, or is no directory, is what the failure tells. Besides, a disk may refuse an operation
at a location for reasons of its own. An operation that fails changes nothing.
-/

namespace NodeAgent

/-- Why something cannot be done at a location. -/
inductive FileError where
  | notFound
  | denied
  | occupied
  | notDirectory
  | isDirectory
  /-- The content of a file is no text. -/
  | notText
deriving DecidableEq

namespace FileError

/-- The wording of the failure. -/
def message : FileError → String
  | notFound => "No such file or directory (os error 2)"
  | denied => "Permission denied (os error 13)"
  | occupied => "File exists (os error 17)"
  | notDirectory => "Not a directory (os error 20)"
  | isDirectory => "Is a directory (os error 21)"
  | notText => "stream did not contain valid UTF-8"

end FileError

/-- What is at a location. -/
inductive DiskEntry where
  | file (content : List UInt8)
  | directory
deriving DecidableEq

/-- What can be done at a location. -/
inductive DiskOperation where
  | read
  | write
  | remove
  | rename
  | makeDirs
  | list
deriving DecidableEq

/-- The files and directories of a node. -/
structure Disk where
  entries : Table Location DiskEntry := {}
  /-- Why an operation at a location is refused, if it is. -/
  refuses : DiskOperation → Location → Option FileError := fun _ _ ↦ none

namespace Disk

/-- What is at a location. The root is a directory. -/
def at? (d : Disk) (l : Location) : Option DiskEntry :=
  if l = [] then some .directory else d.entries.get? l

/-- What keeps from reaching a location: the first part of the way to it that is no directory. -/
def obstacle? (d : Disk) (l : Location) : Option FileError :=
  (List.range l.length).findSome? fun n ↦
    match d.at? (l.take n) with
    | some .directory => none
    | some (.file _) => some .notDirectory
    | none => some .notFound

/-- What an operation finds at a location. The empty path leads nowhere. -/
def find (d : Disk) (o : DiskOperation) (p : Path) : Except FileError (Option DiskEntry) :=
  if p = "" then .error .notFound
  else
    match (d.refuses o p.location).or (d.obstacle? p.location) with
    | some e => .error e
    | none => .ok (d.at? p.location)

/-- The disk with something put at a location. -/
def set (d : Disk) (l : Location) (e : DiskEntry) : Disk :=
  { d with entries := d.entries.insert l e }

/-- The disk with a location cleared. -/
def clear (d : Disk) (l : Location) : Disk := { d with entries := d.entries.erase l }

/-! ## Files -/

/-- The content of a file. -/
def read (d : Disk) (p : Path) : Except FileError (List UInt8) :=
  match d.find .read p with
  | .error e => .error e
  | .ok none => .error .notFound
  | .ok (some .directory) => .error .isDirectory
  | .ok (some (.file content)) => .ok content

/-- The text in a file. -/
def readText (d : Disk) (p : Path) : Except FileError String :=
  match d.read p with
  | .error e => .error e
  | .ok content => (Text.Utf8.decode content).mapError fun _ ↦ .notText

/-- Sets the content of a file, which need not be there yet. -/
def write (d : Disk) (p : Path) (content : List UInt8) : Except FileError Unit × Disk :=
  match d.find .write p with
  | .error e => (.error e, d)
  | .ok (some .directory) => (.error .isDirectory, d)
  | .ok _ => (.ok (), d.set p.location (.file content))

/-- Sets the text in a file. -/
def writeText (d : Disk) (p : Path) (text : String) : Except FileError Unit × Disk :=
  d.write p (Text.Utf8.encode text)

/-- Removes a file. -/
def remove (d : Disk) (p : Path) : Except FileError Unit × Disk :=
  match d.find .remove p with
  | .error e => (.error e, d)
  | .ok none => (.error .notFound, d)
  | .ok (some .directory) => (.error .isDirectory, d)
  | .ok (some (.file _)) => (.ok (), d.clear p.location)

/-- Moves a file, over the file that is there. -/
def rename (d : Disk) (p q : Path) : Except FileError Unit × Disk :=
  match d.find .rename p, d.find .rename q with
  | .error e, _ | .ok _, .error e => (.error e, d)
  | .ok none, _ => (.error .notFound, d)
  | .ok (some .directory), _ | _, .ok (some .directory) => (.error .isDirectory, d)
  | .ok (some (.file content)), .ok _ =>
    (.ok (), (d.clear p.location).set q.location (.file content))

/-! ## Directories -/

/-- Makes a directory and those above it. -/
def makeDirs (d : Disk) (p : Path) : Except FileError Unit × Disk :=
  let l := p.location
  let ways := (List.range (l.length + 1)).map fun n ↦ l.take n
  let isFile (w : Location) : Bool := match d.at? w with
    | some (.file _) => true
    | _ => false
  match d.refuses .makeDirs l, ways.find? isFile with
  | some e, _ => (.error e, d)
  | none, some w => (.error (if w = l then .occupied else .notDirectory), d)
  | none, none =>
    (.ok (), ways.foldl (fun d w ↦ if (d.at? w).isSome then d else d.set w .directory) d)

/-- Inserts a name into an ascending list. -/
def insertName (n : String) : List String → List String
  | [] => [n]
  | m :: ms => if n ≤ m then n :: m :: ms else m :: insertName n ms

/-- The name that a location has in a directory, if it is right below it. -/
def nameIn? (directory l : Location) : Option String :=
  if l.dropLast = directory then l.getLast? else none

/-- The names in a directory, in ascending order. -/
def list (d : Disk) (p : Path) : Except FileError (List String) :=
  match d.find .list p with
  | .error e => .error e
  | .ok none => .error .notFound
  | .ok (some (.file _)) => .error .notDirectory
  | .ok (some .directory) =>
    .ok ((d.entries.keys.filterMap (nameIn? p.location)).foldl (fun ns n ↦ insertName n ns) [])

/-- Removes whatever is at a location, with all that is below it. -/
def removeTree (d : Disk) (p : Path) : Disk :=
  { d with entries.entries := d.entries.entries.filter fun e ↦ !p.location.isPrefixOf e.1 }

/-! ## What is read after a change -/

@[simp] theorem at?_set_self (d : Disk) {l : Location} (e : DiskEntry) (h : l ≠ []) :
    (d.set l e).at? l = some e := by
  simp [at?, set, h, Table.get?_insert]

theorem at?_set_of_ne (d : Disk) {l k : Location} (e : DiskEntry) (h : l ≠ k) :
    (d.set l e).at? k = d.at? k := by
  simp [at?, set, h, Table.get?_insert]

/-- The way to a location does not change with what is there. -/
theorem obstacle?_set_self (d : Disk) (l : Location) (e : DiskEntry) :
    (d.set l e).obstacle? l = d.obstacle? l := by
  unfold obstacle?
  have key : ∀ n ∈ List.range l.length, l ≠ l.take n := by
    intro n hn h
    have hl := congrArg List.length h
    rw [List.length_take] at hl
    have := List.mem_range.mp hn
    omega
  generalize List.range l.length = ns at key
  induction ns with
  | nil => rfl
  | cons n ns ih =>
    rw [List.findSome?_cons, List.findSome?_cons, at?_set_of_ne d e (key n (by simp)),
      ih fun m hm ↦ key m (by simp [hm])]

/-- What was written is read, unless the disk refuses to read it. -/
theorem read_of_write {d d' : Disk} {p : Path} {content : List UInt8}
    (h : d.write p content = (.ok (), d')) (root : p.location ≠ [])
    (readable : d.refuses .read p.location = none) : d'.read p = .ok content := by
  unfold write find at h
  split at h
  · simp at h
  · simp at h
  · rename_i entry _ hfind
    obtain ⟨-, rfl⟩ := Prod.mk.inj h
    unfold read find
    have hp : p ≠ "" := by
      rintro rfl
      exact root rfl
    rw [if_neg hp] at hfind ⊢
    rw [obstacle?_set_self]
    have hr : (d.set p.location (.file content)).refuses .read p.location = none := readable
    rw [hr]
    split at hfind
    · simp at hfind
    · rename_i hclear
      have hc : d.obstacle? p.location = none := (Option.or_eq_none_iff.mp hclear).2
      simp only [Option.none_or, hc, at?_set_self d _ root]

end Disk

end NodeAgent
