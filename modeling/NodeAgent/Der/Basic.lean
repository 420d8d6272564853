import NodeAgent.Crypto.Bytes
/-!
# Tagged values

Keys, certificates and requests for certificates are trees of tagged values: a tag, a length, and a
content that is either plain bytes or tagged values again. A value has exactly one written form, so
two values are the same if their bytes are. A length is therefore read by writing it again.

A reader takes values off the front of some bytes and fails if they are not what it expects. It
reads a content completely: what is left over in it is a failure as well.
-/

namespace NodeAgent.Der

/-- The sort of a value. -/
abbrev Tag := UInt8

namespace Tag

def boolean : Tag := 0x01
def integer : Tag := 0x02
def bitString : Tag := 0x03
def octetString : Tag := 0x04
def null : Tag := 0x05
def identifier : Tag := 0x06
def utf8Text : Tag := 0x0c
def shortTime : Tag := 0x17
def longTime : Tag := 0x18
def sequence : Tag := 0x30
def set : Tag := 0x31

/-- A part that is told from its neighbours by a number; `isConstructed` says whether its content is
a tagged value. -/
def part (number : UInt8) (isConstructed : Bool) : Tag :=
  if isConstructed then 0xa0 + number else 0x80 + number

end Tag

/-! ## Writing -/

/-- A length as it is written: in one byte if it is short, else in as many as it needs, with their
number before. -/
def lengthBytes (n : Nat) : Bytes :=
  if n < 128 then [UInt8.ofNat n]
  else UInt8.ofNat (128 + Bytes.width n) :: Bytes.ofNat (Bytes.width n) n

/-- A value of a tag with a content. -/
def write (tag : Tag) (content : Bytes) : Bytes :=
  tag :: (lengthBytes content.length ++ content)

/-- A sequence of values. -/
def sequence (values : List Bytes) : Bytes := write .sequence values.flatten

/-- A number. Its highest bit is clear, since it would be a sign. -/
def natural (n : Nat) : Bytes := write .integer (Bytes.ofNat ((n.log2 + 1) / 8 + 1) n)

/-- A string of whole bytes as a string of bits. -/
def bits (bs : Bytes) : Bytes := write .bitString (0 :: bs)

/-- The bytes of a number in groups of seven bits, of which all but the last are marked; the last
group has the number `last`. -/
def groups (n last : Nat) : (fuel : Nat) → Bytes
  | 0 => []
  | fuel + 1 =>
    (if n / 128 = 0 then [] else groups (n / 128) 128 fuel) ++ [UInt8.ofNat (n % 128 + last)]

/-- The content of an identifier: its first two numbers share a byte. -/
def identifierBytes : List Nat → Bytes
  | a :: b :: rest => UInt8.ofNat (40 * a + b) :: rest.flatMap fun n ↦ groups n 0 8
  | _ => []

/-- An identifier. -/
def identifier (numbers : List Nat) : Bytes := write .identifier (identifierBytes numbers)

/-! ## Reading -/

/-- The length at the front, and what follows it. -/
def length? : Bytes → Option (Nat × Bytes)
  | [] => none
  | b :: bs =>
    if b < 128 then some (b.toNat, bs)
    else
      let width := b.toNat - 128
      let n := Bytes.toNat (bs.take width)
      if width ≤ 4 ∧ lengthBytes n = b :: bs.take width then some (n, bs.drop width) else none

/-- The tag and the content of the value at the front, and what follows it. -/
def value? : Bytes → Option ((Tag × Bytes) × Bytes)
  | [] => none
  | tag :: bs => do
    let (n, bs) ← length? bs
    if n ≤ bs.length then some ((tag, bs.take n), bs.drop n) else none

/-- Takes something off the front of bytes. -/
abbrev Reader (α : Type) := StateT Bytes Option α

namespace Reader

variable {α : Type}

/-- The content of the next value, which has the tag. -/
def content (tag : Tag) : Reader Bytes := fun bs ↦
  match value? bs with
  | some ((t, c), rest) => if t = tag then some (c, rest) else none
  | none => none

/-- The content of the next value if it has the tag. -/
def content? (tag : Tag) : Reader (Option Bytes) := fun bs ↦
  if bs.head? = some tag then (content tag bs).map fun x ↦ (some x.1, x.2) else some (none, bs)

/-- The next value with its tag and length, which has the tag. -/
def whole (tag : Tag) : Reader Bytes := fun bs ↦
  (content tag bs).map fun x ↦ (bs.take (bs.length - x.2.length), x.2)

/-- What a reader makes of bytes as a whole. -/
def of? (r : Reader α) (bs : Bytes) : Option α :=
  match r bs with
  | some (a, []) => some a
  | _ => none

/-- Reads the content of the next value, which has the tag. -/
def inside (tag : Tag) (r : Reader α) : Reader α := do
  match r.of? (← content tag) with
  | some a => return a
  | none => failure

/-- Reads the content of the next value if it has the tag. -/
def inside? (tag : Tag) (r : Reader α) : Reader (Option α) := do
  match ← content? tag with
  | none => return none
  | some bs =>
    match r.of? bs with
    | some a => return some a
    | none => failure

/-- Reads on until nothing is left, at most `fuel` times. -/
def repeated (r : Reader α) : (fuel : Nat) → Reader (List α)
  | 0 => return []
  | fuel + 1 => do
    if (← get).isEmpty then return []
    let a ← r
    return a :: (← repeated r fuel)

/-- Reads values until nothing is left. -/
def many (r : Reader α) : Reader (List α) := fun bs ↦ repeated r bs.length bs

/-- Reads a number. -/
def natural : Reader Nat := do
  let bs ← content .integer
  if bs ≠ [] ∧ Der.natural (Bytes.toNat bs) = write .integer bs then return Bytes.toNat bs
  else failure

/-- Reads a string of whole bytes out of one of bits. -/
def bits : Reader Bytes := do
  match ← content .bitString with
  | 0 :: bs => return bs
  | _ => failure

/-- The next value, whatever it is. -/
def any : Reader (Tag × Bytes) := value?

end Reader

end NodeAgent.Der
