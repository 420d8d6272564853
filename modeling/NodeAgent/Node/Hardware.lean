import NodeAgent.Disk.Basic
import NodeAgent.Error
import NodeAgent.Node.Info
import NodeAgent.Text.Lines
import NodeAgent.Text.Natural
import NodeAgent.Text.Quoted
/-!
# The hardware of a node

The system tells about its hardware in files of `key: value` lines. The size of the memory has to be
there. The processors need not be: a node of which nothing is told has one processor with one core.

Processors are told in blocks, one per logical processor, and several of them sit in one package.
A package is one entry of the node's record, made from its first block, and packages are in
ascending order of their numbers.
-/

namespace NodeAgent.Hardware

open Text (trimBlanks)

/-- The key and the value of a line. -/
def keyValue? (line : List Char) : Option (String × List Char) :=
  if ':' ∈ line then
    some (String.ofList (trimBlanks (line.takeWhile (· ≠ ':'))),
      trimBlanks (line.dropWhile (· ≠ ':')).tail)
  else none

/-! ## Memory -/

/-- A failure to do something with a file. -/
def fileFailure (what : String) (p : Path) (e : FileError) : ServiceError :=
  .general (what ++ " " ++ p ++ ": " ++ e.message)

/-- The bytes that a value in kilobytes stands for. What comes after the number is ignored. -/
def bytes (value : List Char) : Except ServiceError Nat :=
  match Text.Natural.parse Text.Natural.wordBound (value.takeWhile fun c ↦ !Text.isBlank c) with
  | .error e =>
    .error (.general ("bad MemTotal " ++ Text.quoted (String.ofList value) ++ ": " ++ e.message))
  | .ok kb =>
    if kb * 1024 < Text.Natural.wordBound then .ok (kb * 1024)
    else .error (.general ("MemTotal " ++ toString kb ++ " kB overflows"))

/-- The size of the memory, from the file that tells it. -/
def totalRam (d : Disk) (p : Path) : Except ServiceError Nat :=
  match d.readText p with
  | .error e => .error (fileFailure "read meminfo" p e)
  | .ok text =>
    match ((Text.lines text).filterMap keyValue?).find? (·.1 == "MemTotal") with
    | none => .error (.notFound ("MemTotal in " ++ p))
    | some (_, value) => bytes value

/-! ## Processors -/

/-- A processor of which nothing is told. -/
def defaultCpu (arch : String) : CpuInfo := { numCores := 1, numThreads := 1, arch }

/-- A number in a block; one that cannot be read is `dflt`. -/
def numberOr (dflt : Nat) (value : List Char) : Nat :=
  (Text.Natural.parse Text.Natural.wordBound value).toOption.getD dflt

/-- Takes one line of a block into account: the number of the package, and its processor. -/
def takeLine (b : Nat × CpuInfo) (line : String × List Char) : Nat × CpuInfo :=
  let (package, cpu) := b
  let (key, value) := line
  if key = "physical id" then (numberOr 0 value, cpu)
  else if key = "model name" then (package, { cpu with modelName := String.ofList value })
  else if key = "cpu cores" then (package, { cpu with numCores := numberOr 1 value })
  else if key = "siblings" then (package, { cpu with numThreads := numberOr 1 value })
  else if key = "cpu family" then (package, { cpu with archFamily := String.ofList value })
  else b

/-- The package and the processor of a block that tells something. -/
def block? (arch : String) (text : List Char) : Option (Nat × CpuInfo) :=
  match (Text.lines (String.ofList text)).filterMap keyValue? with
  | [] => none
  | lines => some (lines.foldl takeLine (0, defaultCpu arch))

/-- The blocks of a text, which are separated by empty lines. -/
def blocks : List Char → List (List Char)
  | [] => [[]]
  | '\n' :: '\n' :: cs => [] :: blocks cs
  | c :: cs =>
    match blocks cs with
    | [] => [[c]]
    | b :: bs => (c :: b) :: bs

/-- Enters a package, unless it is there already. -/
def enter (b : Nat × CpuInfo) : List (Nat × CpuInfo) → List (Nat × CpuInfo)
  | [] => [b]
  | e :: es =>
    if b.1 = e.1 then e :: es else if b.1 < e.1 then b :: e :: es else e :: enter b es

/-- The processors that a text tells of, in ascending order of their packages. -/
def cpusOf (arch : String) (text : String) : List CpuInfo :=
  match ((blocks text.toList).filterMap (block? arch)).foldl (fun es b ↦ enter b es) [] with
  | [] => [defaultCpu arch]
  | es => es.map (·.2)

/-- The processors, from the file that tells of them. -/
def cpus (arch : String) (d : Disk) (p : Path) : List CpuInfo :=
  match d.readText p with
  | .error _ => [defaultCpu arch]
  | .ok text => cpusOf arch text

end NodeAgent.Hardware
