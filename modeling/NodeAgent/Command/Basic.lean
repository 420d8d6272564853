import NodeAgent.Disk.Basic
import NodeAgent.Node.Site
/-!
# Commands

What a site has to do beyond keeping files, encrypting its disk for instance, is done by commands
that its configuration names. An agent only tells whether a command could be launched and how it
ended. What programs there are and what they do is no matter of the agent's: a `Runner` says it.
-/

namespace NodeAgent

/-- How a command ended. -/
inductive CommandEnd where
  | notLaunched (e : FileError)
  | exited (code : Nat)
  /-- It was ended by a signal and has no exit code. -/
  | killed
deriving DecidableEq

/-- Runs a program with its arguments on a disk. -/
abbrev Runner := (program : String) → (args : List String) → Disk → CommandEnd × Disk

namespace CommandEnd

/-- The failure of the program of a step that ended with an exit code other than zero. -/
def processFailed (program : String) (code : Int) : ServiceError :=
  .failed ("process failed: cmd=" ++ program ++ ", code=" ++ toString code) code

/-- The result of the step for which a program was run. -/
def result (step program : String) : CommandEnd → Except ServiceError Unit
  | notLaunched e => .error (.general (step ++ " launch failed: " ++ e.message))
  | exited 0 => .ok ()
  | exited code => .error (processFailed program code)
  | killed => .error (processFailed program (-1))

end CommandEnd

/-- Runs the command of a step: a program followed by its arguments, or nothing at all. -/
def Runner.run (runner : Runner) (step : String) : List String → Action Disk Unit
  | [] => .done ()
  | program :: args => fun d ↦
    let (ended, d) := runner program args d
    (ended.result step program, d)

end NodeAgent
