import NodeAgent.Command.Basic
import NodeAgent.Command.Script
/-!
# A small shell

Runs scripts on a disk, with the few programs that scripts for provisioning are made of. It is a
`Runner` for hosts that have no other, and deterministic: there is no time, no input, and only one
process, so a signal can only go to the shell itself.

A shell may run another shell. Each one deeper is run with a smaller `depth`, and the last one runs
none.
-/

namespace NodeAgent

/-- What a program did: how it ended, what it wrote, and the disk it left. -/
structure ProgramRun where
  ended : CommandEnd
  output : Bytes
  disk : Disk

/-- A program. -/
abbrev Program := (args : List String) → Disk → ProgramRun

namespace Shell

/-! ## Programs -/

/-- Ends with a code and without output. -/
def quiet (code : Nat) (d : Disk) : ProgramRun := ⟨.exited code, [], d⟩

/-- Writes its arguments, and a line end unless the first one is `-n`. -/
def echo : Program
  | "-n" :: args, d => ⟨.exited 0, Text.Utf8.encode (" ".intercalate args), d⟩
  | args, d => ⟨.exited 0, Text.Utf8.encode (" ".intercalate args ++ "\n"), d⟩

/-- Writes the content of files. One that cannot be read is passed over and makes it fail. -/
def cat : Program := fun args d ↦
  let contents := (args.filter (· ≠ "-")).map d.read
  let code := if contents.all (·.toBool) then 0 else 1
  ⟨.exited code, (contents.filterMap (·.toOption)).flatten, d⟩

/-- Does something for each argument that is no option; fails if that fails for one. -/
def each (f : Path → Disk → Except FileError Unit × Disk) : Program := fun args d ↦
  (args.filter (!·.startsWith "-")).foldl (fun run p ↦
    match f p run.disk with
    | (.ok (), d) => { run with disk := d }
    | (.error _, d) => ⟨.exited 1, run.output, d⟩) (quiet 0 d)

/-- Makes sure that there is a file. -/
def touch (p : Path) (d : Disk) : Except FileError Unit × Disk :=
  match d.find .write p with
  | .error e => (.error e, d)
  | .ok (some _) => (.ok (), d)
  | .ok none => d.write p []

/-- The program of a name, shells apart. -/
def program? (name : String) : Option Program :=
  match name with
  | "true" | ":" | "sleep" => some fun _ ↦ quiet 0
  | "false" => some fun _ ↦ quiet 1
  | "echo" => some echo
  | "cat" => some cat
  | "touch" => some (each touch)
  | "mkdir" => some (each fun p d ↦ d.makeDirs p)
  | "rm" => some (each fun p d ↦ d.remove p)
  | _ => none

/-- The name of a program by its path. -/
def programName (path : Path) : String :=
  match path.location with
  | ["bin", name] | ["usr", "bin", name] => if path.toList.head? = some '/' then name else path
  | _ => path

/-- Why something that is no program cannot be run: files on the disk are no programs. -/
def obstacle (path : Path) (d : Disk) : FileError :=
  if '/' ∉ path.toList then .notFound
  else
    match d.find .read path with
    | .error e => e
    | .ok none => .notFound
    | .ok (some _) => .denied

/-! ## Words -/

/-- The state of a shell. -/
structure State where
  disk : Disk
  /-- The code of the last command. -/
  code : Nat := 0
  /-- The name of the script and its arguments. -/
  parameters : List String
  output : Bytes := []

namespace State

/-- The number of the shell's process. -/
def process : String := "4096"

/-- The value of a parameter. -/
def value (s : State) (name : Char) : String :=
  if name.isDigit then s.parameters.getD (name.toNat - 48) ""
  else if name = '$' then process
  else if name = '?' then toString s.code
  else if name = '#' then toString (s.parameters.length - 1)
  else if name = '@' ∨ name = '*' then " ".intercalate s.parameters.tail
  else ""

/-- What a letter stands for, each character with whether the word is split at it. -/
def expandLetter (s : State) : Script.Letter → List (Char × Bool)
  | .plain c | .quoted c => [(c, false)]
  | .parameter name isQuoted =>
    (s.value name).toList.map fun c ↦ (c, !isQuoted && (c = ' ' || c = '\t' || c = '\n'))
  | .quotes => []

/-- The text of a word that is not split. -/
def text (s : State) (w : Script.Word) : String :=
  String.ofList ((w.flatMap s.expandLetter).map (·.1))

/-- The arguments that a word makes. -/
def arguments (s : State) (w : Script.Word) : List String :=
  let cs := w.flatMap s.expandLetter
  let cut := cs.foldr (fun c (parts : List (List Char)) ↦
    match parts with
    | [] => if c.2 then [[]] else [[c.1]]
    | p :: ps => if c.2 then [] :: p :: ps else (c.1 :: p) :: ps) []
  let texts := cut.map String.ofList
  if texts.all (· = "") then if w.contains .quotes then [""] else []
  else texts.filter (· ≠ "")

/-! ## Commands -/

/-- Where a stream goes: to a file, or nowhere that is kept apart from the shell's own streams. -/
inductive Sink where
  | own (stream : Nat)
  | file (p : Path)
deriving DecidableEq

/-- Opens what a redirection names. -/
def redirect (s : State) (r : Script.Redirect) (sinks : Table Nat Sink) :
    Option (Table Nat Sink × State) :=
  let target := s.text r.target
  let opened (x : Except FileError Unit × Disk) : Option (Table Nat Sink × State) :=
    match x with
    | (.ok (), disk) => some (sinks.insert r.stream (.file target), { s with disk })
    | (.error _, _) => none
  match r.operator with
  | ">" => opened (s.disk.write target [])
  | ">>" => opened (touch target s.disk)
  | ">&" =>
    match target.toNat? with
    | some n => some (sinks.insert r.stream ((sinks.get? n).getD (.own n)), s)
    | none => opened (s.disk.write target [])
  | _ => if (s.disk.read target).toBool then some (sinks, s) else none

/-- Opens what the redirections of a command name. -/
def redirectAll (s : State) :
    List Script.Redirect → Table Nat Sink → Option (Table Nat Sink × State)
  | [], sinks => some (sinks, s)
  | r :: rs, sinks => (s.redirect r sinks).bind fun x ↦ x.2.redirectAll rs x.1

/-- Writes the output of a command where it goes. -/
def emit (s : State) (sinks : Table Nat Sink) (output : Bytes) : State :=
  match (sinks.get? 1).getD (.own 1) with
  | .own 1 => { s with output := s.output ++ output }
  | .own _ => s
  | .file p =>
    match s.disk.read p with
    | .ok content => { s with disk := (s.disk.write p (content ++ output)).2 }
    | .error _ => s

/-- The code for a command that cannot be launched. -/
def launchCode : FileError → Nat
  | .notFound => 127
  | _ => 126

/-- Runs a command. The shell goes on unless the second component says how it ended. -/
def runCommand (launch : String → Program) (s : State) (c : Script.Simple) :
    State × Option CommandEnd :=
  match s.redirectAll c.redirects {} with
  | none => ({ s with code := 2 }, none)
  | some (sinks, s) =>
    match c.words.flatMap s.arguments with
    | [] => ({ s with code := 0 }, none)
    | ["exit"] => (s, some (.exited s.code))
    | "exit" :: n :: _ => (s, some (.exited ((n.toNat?.getD 2) % 256)))
    | "kill" :: args =>
      if args = ["-9", process] ∨ args = ["-KILL", process] then (s, some .killed)
      else ({ s with code := 1 }, none)
    | name :: args =>
      let run := launch name args s.disk
      let s := { s with disk := run.disk }.emit sinks run.output
      match run.ended with
      | .exited code => ({ s with code }, none)
      | .killed => ({ s with code := 137 }, none)
      | .notLaunched e => ({ s with code := launchCode e }, none)

/-- Whether a command is run after one that ended with a code. -/
def isDue (j : Script.Joint) (code : Nat) : Bool :=
  match j with
  | .always => true
  | .ifOk => code = 0
  | .ifFailed => code ≠ 0

/-- Runs commands to the end, or until one ends the shell. -/
def run (launch : String → Program) (s : State) : List (Script.Joint × Script.Simple) → ProgramRun
  | [] => ⟨.exited s.code, s.output, s.disk⟩
  | (j, c) :: cs =>
    if isDue j s.code then
      match s.runCommand launch c with
      | (s, some ended) => ⟨ended, s.output, s.disk⟩
      | (s, none) => s.run launch cs
    else s.run launch cs

end State

/-- Runs the text of a script. -/
def runScript (launch : String → Program) (script : String) (parameters : List String) (d : Disk) :
    ProgramRun :=
  match Script.parse? script with
  | none => quiet 2 d
  | some cs => State.run launch { disk := d, parameters } cs

/-- The shell: takes its script as an argument or from a file. -/
def shell (launch : String → Program) : Program := fun args d ↦
  match args with
  | [] => quiet 0 d
  | ["-c"] => quiet 2 d
  | ["-c", script] => runScript launch script ["sh"] d
  | "-c" :: script :: parameters => runScript launch script parameters d
  | file :: _ =>
    match d.readText file with
    | .ok script => runScript launch script args d
    | .error _ => quiet 127 d

/-- Runs a program, with shells nested at most `depth` deep. -/
def launch : (depth : Nat) → String → Program
  | 0, _ => fun _ d ↦ ⟨.notLaunched .denied, [], d⟩
  | depth + 1, path => fun args d ↦
    let name := programName path
    if name = "sh" then shell (launch depth) args d
    else
      match program? name with
      | some program => program args d
      | none => ⟨.notLaunched (obstacle path d), [], d⟩

end Shell

/-- Runs commands with the small shell. -/
def Runner.shell : Runner := fun program args d ↦
  let run := Shell.launch 16 program args d
  (run.ended, run.disk)

end NodeAgent
