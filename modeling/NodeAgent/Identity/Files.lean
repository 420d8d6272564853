import NodeAgent.Config.Basic
import NodeAgent.Disk.Basic
import NodeAgent.Error
import NodeAgent.Text.Lines
/-!
# An identity kept in files

The system's identifier and the unit's model are read once and have to be there. The subjects are
read again on demand; their file may be missing, which means that there are none. Observers are told
the new list whenever it differs from the one before, each as often as it asked to be.
-/

namespace NodeAgent

/-- Who the unit is, according to files. -/
structure IdentityFiles where
  systemId : String
  unitModel : String
  subjectsPath : Option Path
  subjects : List String
  /-- Whom changes are told to, in the order in which they asked; who asks twice is told twice. -/
  observers : List Nat := []

namespace IdentityFiles

/-- The text in a file, without the blanks around it. -/
def readTrimmed (d : Disk) (p : Path) : Except ServiceError String :=
  match d.readText p with
  | .ok text => .ok (Text.trim text)
  | .error .notFound => .error (.notFound p)
  | .error e => .error (.general ("read " ++ p ++ ": " ++ e.message))

/-- The subjects in a text: its lines without the blanks around them, save for empty ones. -/
def subjectsOf (text : String) : List String :=
  (((Text.lines text).map Text.trimBlanks).filter (· ≠ [])).map String.ofList

/-- The subjects in a file. -/
def readSubjects (d : Disk) : Option Path → List String
  | none => []
  | some p =>
    match d.readText p with
    | .ok text => subjectsOf text
    | .error _ => []

/-- Reads the files. -/
def load (paths : IdentityPaths) (d : Disk) : Except ServiceError IdentityFiles := do
  let systemId ← readTrimmed d paths.systemId
  let unitModel ← readTrimmed d paths.unitModel
  return { systemId, unitModel, subjectsPath := paths.subjects
           subjects := readSubjects d paths.subjects }

/-- Reads the subjects again. Says whether they changed, and what is told to whom. -/
def reload (i : IdentityFiles) (d : Disk) : Bool × List (Nat × List String) × IdentityFiles :=
  let subjects := readSubjects d i.subjectsPath
  if subjects = i.subjects then (false, [], i)
  else (true, i.observers.map fun observer ↦ (observer, subjects), { i with subjects })

/-- Adds an observer. -/
def observe (i : IdentityFiles) (observer : Nat) : IdentityFiles :=
  { i with observers := i.observers ++ [observer] }

/-- Forgets an observer, however often it asked. -/
def unobserve (i : IdentityFiles) (observer : Nat) : IdentityFiles :=
  { i with observers := i.observers.filter (· ≠ observer) }

@[simp] theorem subjects_reload (i : IdentityFiles) (d : Disk) :
    (i.reload d).2.2.subjects = readSubjects d i.subjectsPath := by
  by_cases h : readSubjects d i.subjectsPath = i.subjects <;> simp [reload, h]

end IdentityFiles

end NodeAgent
