import NodeAgent.Text.Base64
import NodeAgent.Text.Blank
import NodeAgent.Text.Lines
/-!
# Armoured data

Keys and certificates are kept as text: a block of Base64 between a `BEGIN` line and an `END` line
that carry the same label. Anything may stand around the blocks. Headers, `key: value` lines set
off by an empty line, may come before the data; they are checked and otherwise ignored.

A text without a block is no failure for those who look for every block; for those who need one it
is.
-/

namespace NodeAgent.Text

/-- A block of labelled data. -/
structure Armour where
  label : String
  data : List UInt8
deriving DecidableEq, Inhabited

namespace Armour

/-- Why a text has no readable block. -/
inductive Error where
  /-- No block begins and ends. -/
  | noBlock
  | emptyBeginLabel
  | emptyEndLabel
  | labelsDiffer (begun ended : String)
  /-- The data is no Base64. -/
  | invalidData
  | invalidHeader (line : String)
deriving DecidableEq

namespace Error

/-- The wording of the failure. -/
def message : Error → String
  | noBlock => "malformedframing"
  | emptyBeginLabel => "missing BEGIN tag"
  | emptyEndLabel => "missing END tag"
  | labelsDiffer b e => "mismatching BEGIN (\"" ++ b ++ "\") and END (\"" ++ e ++ "\") tags"
  | invalidData => "invalid data"
  | invalidHeader h => "invalid header: " ++ h

end Error

/-! ## Framing -/

/-- Looks for a marker, of which the last `found` characters read already match a beginning. A
character that does not continue the match ends it, and no other match begins with it or before it:
one dash too many in front of a marker hides it. The characters read so far are in `seen`, last
first. -/
def seek (marker : List Char) (found : Nat) (seen : List Char) :
    List Char → Option (List Char × List Char)
  | [] => none
  | c :: cs =>
    let found := if marker[found]? = some c then found + 1 else 0
    if found = marker.length then some (((c :: seen).drop marker.length).reverse, cs)
    else seek marker found (c :: seen) cs

/-- The characters before and after a marker. -/
def cutAt (marker : String) (cs : List Char) : Option (List Char × List Char) :=
  seek marker.toList 0 [] cs

/-- The characters after blanks of a block. -/
def skipBlanks (cs : List Char) : List Char :=
  cs.dropWhile fun c ↦ c == ' ' || c == '\t' || c == '\n' || c == '\r'

/-- A block as it stands in a text. -/
structure Frame where
  begun : String
  body : List Char
  ended : String

/-- The first block of a text, and what follows it. -/
def frame? (cs : List Char) : Option (Frame × List Char) := do
  let (_, cs) ← cutAt "-----BEGIN " cs
  let (begun, cs) ← cutAt "-----" cs
  let (body, cs) ← cutAt "-----END " (skipBlanks cs)
  let (ended, cs) ← cutAt "-----" cs
  some (⟨String.ofList begun, body, String.ofList ended⟩, skipBlanks cs)

/-- The headers and the data of a block's body. -/
def splitBody (body : List Char) : List Char × List Char :=
  ((cutAt "\n\n" body).or (cutAt "\r\n\r\n" body)).getD ([], body)

/-- The lines of a part of a body, without the blanks at their ends. -/
def trimmedLines (cs : List Char) : List (List Char) :=
  (lines (String.ofList cs)).map fun l ↦ (l.reverse.dropWhile isBlank).reverse

/-! ## Reading -/

/-- The data of a framed block. -/
def ofFrame (f : Frame) : Except Error Armour :=
  if f.begun = "" then .error .emptyBeginLabel
  else if f.ended = "" then .error .emptyEndLabel
  else if f.begun ≠ f.ended then .error (.labelsDiffer f.begun f.ended)
  else
    let (headers, data) := splitBody f.body
    match Base64.decode (trimmedLines data).flatten with
    | none => .error .invalidData
    | some bytes =>
      match (trimmedLines headers).find? fun h ↦ ':' ∉ h with
      | some h => .error (.invalidHeader (String.ofList h))
      | none => .ok ⟨f.begun, bytes⟩

/-- The first block of a text. -/
def parse (text : String) : Except Error Armour :=
  match frame? text.toList with
  | none => .error .noBlock
  | some (f, _) => ofFrame f

/-- The blocks of the first `fuel` frames. -/
def parseFrames : (fuel : Nat) → List Char → Except Error (List Armour)
  | 0, _ => .ok []
  | fuel + 1, cs =>
    match frame? cs with
    | none => .ok []
    | some (f, rest) => do
      let block ← ofFrame f
      let blocks ← parseFrames fuel rest
      return block :: blocks

/-- Every block of a text. A block has at least one character. -/
def parseAll (text : String) : Except Error (List Armour) :=
  parseFrames text.length text.toList

/-! ## Writing -/

/-- The characters in lines of 64. -/
def wrap : (fuel : Nat) → List Char → List Char
  | 0, _ | _, [] => []
  | fuel + 1, cs => cs.take 64 ++ '\n' :: wrap fuel (cs.drop 64)

/-- The block as text. -/
def render (a : Armour) : String :=
  let body := Base64.encode a.data
  "-----BEGIN " ++ a.label ++ "-----\n" ++ String.ofList (wrap body.length body) ++
    "-----END " ++ a.label ++ "-----\n"

end Armour

end NodeAgent.Text
