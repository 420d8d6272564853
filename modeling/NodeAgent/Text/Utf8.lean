/-!
# Characters from bytes

Text is kept and sent as UTF-8. Bytes that are no text are refused with the place of the first
fault: the index at which the last good character ends, and how many bytes there cannot belong to
any character, or that the bytes end in the middle of one.
-/

namespace NodeAgent.Text.Utf8

/-- Why bytes are no text. -/
structure Fault where
  /-- Where the last good character ends. -/
  index : Nat
  /-- How many bytes are bad; `none` if more bytes might have made them good. -/
  length : Option Nat
deriving DecidableEq

namespace Fault

/-- The wording of the refusal. -/
def message (f : Fault) : String :=
  match f.length with
  | some n => "invalid utf-8 sequence of " ++ toString n ++ " bytes from index " ++ toString f.index
  | none => "incomplete utf-8 byte sequence from index " ++ toString f.index

end Fault

/-- Whether a byte goes on with a character begun before it. -/
def isContinuation (b : Nat) : Bool := decide (128 ≤ b) && decide (b < 192)

/-- The values that the second byte of a character may have after its first byte, and how many
bytes the character has. -/
def shape? (b : Nat) : Option (Nat × Nat × Nat) :=
  if b < 194 then none
  else if b < 224 then some (128, 191, 2)
  else if b = 224 then some (160, 191, 3)
  else if b = 237 then some (128, 159, 3)
  else if b < 240 then some (128, 191, 3)
  else if b = 240 then some (144, 191, 4)
  else if b < 244 then some (128, 191, 4)
  else if b = 244 then some (128, 143, 4)
  else none

/-- Reads `left` more bytes of a character, of which `read` were read and gave `acc`. -/
def continuation (index : Nat) (acc read : Nat) : (left : Nat) → List Nat →
    Except Fault (Char × List Nat)
  | 0, bs => .ok (Char.ofNat acc, bs)
  | _ + 1, [] => .error ⟨index, none⟩
  | left + 1, b :: bs =>
    if isContinuation b then continuation index (acc * 64 + b % 64) (read + 1) left bs
    else .error ⟨index, some read⟩

/-- Reads the character at the start of bytes. -/
def decodeOne (index : Nat) : List Nat → Except Fault (Option (Char × Nat × List Nat))
  | [] => .ok none
  | b :: bs =>
    if b < 128 then .ok (some (Char.ofNat b, 1, bs))
    else
      match shape? b with
      | none => .error ⟨index, some 1⟩
      | some (low, high, size) =>
        match bs with
        | [] => .error ⟨index, none⟩
        | c :: bs =>
          if low ≤ c ∧ c ≤ high then
            let acc := b % Nat.pow 2 (7 - size) * 64 + c % 64
            (continuation index acc 2 (size - 2) bs).map fun (ch, bs) ↦ some (ch, size, bs)
          else .error ⟨index, some 1⟩

/-- Reads up to `fuel` characters. -/
def decodeMany (index : Nat) : (fuel : Nat) → List Nat → Except Fault (List Char)
  | 0, _ => .ok []
  | fuel + 1, bs =>
    match decodeOne index bs with
    | .error f => .error f
    | .ok none => .ok []
    | .ok (some (c, size, bs)) => (decodeMany (index + size) fuel bs).map (c :: ·)

/-- The text of bytes. -/
def decode (bs : List UInt8) : Except Fault String :=
  (decodeMany 0 bs.length (bs.map (·.toNat))).map String.ofList

/-- The bytes of a text. -/
def encode (s : String) : List UInt8 := s.toUTF8.toList

end NodeAgent.Text.Utf8
