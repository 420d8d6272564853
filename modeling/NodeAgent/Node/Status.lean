import NodeAgent.Text.Blank
/-!
# The status of a node

A node is unprovisioned, provisioned or paused. On the wire the status is an integer, and peers
may send integers that name no status; those are kept where they are stored but read as
*unspecified*. A status is therefore two things here: a `StatusCode`, which is any integer, and a
`NodeStatus`, which is what the integer means.

Main statements: reading back a written status gives it again (`ofCode_code`), and the label of a
specified status is parsed as that status (`parse_label`).
-/

namespace NodeAgent

/-- The integer that carries a status in messages. -/
abbrev StatusCode := Int

/-- What a node is allowed to do. -/
inductive NodeStatus where
  /-- No status the agent knows. -/
  | unspecified
  /-- Fresh from the factory or deprovisioned. -/
  | unprovisioned
  /-- In service. -/
  | provisioned
  /-- In service, but paused. -/
  | paused
deriving DecidableEq, Inhabited

namespace NodeStatus

/-- The word for a status, as files and messages spell it. -/
def label : NodeStatus → String
  | unspecified => "unspecified"
  | unprovisioned => "unprovisioned"
  | provisioned => "provisioned"
  | paused => "paused"

/-- The integer that carries the status. -/
def code : NodeStatus → StatusCode
  | unspecified => 0
  | unprovisioned => 1
  | provisioned => 2
  | paused => 3

/-- What an integer means as a status; an unknown one means `unspecified`. -/
def ofCode (n : StatusCode) : NodeStatus :=
  if n = 1 then unprovisioned
  else if n = 2 then provisioned
  else if n = 3 then paused
  else unspecified

@[simp] theorem ofCode_code (s : NodeStatus) : ofCode s.code = s := by cases s <;> rfl

/-- Reads a status label, leaving out surrounding blanks and ASCII case. The word for
`unspecified` is not accepted: nobody may ask for it. On failure the text that was compared is
returned. -/
def parse (text : String) : Except String NodeStatus :=
  let word := Text.lower (Text.trim text)
  if word = unprovisioned.label then .ok unprovisioned
  else if word = provisioned.label then .ok provisioned
  else if word = paused.label then .ok paused
  else .error word

theorem parse_label {s : NodeStatus} (h : s ≠ unspecified) : parse s.label = .ok s := by
  cases s with
  | unspecified => exact absurd rfl h
  | unprovisioned => cbv
  | provisioned => cbv
  | paused => cbv

/-- The message for a text that is no status label. -/
def unknownMessage (word : String) : String := "unknown node status: " ++ word

end NodeStatus

end NodeAgent
