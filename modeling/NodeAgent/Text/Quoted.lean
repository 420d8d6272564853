import NodeAgent.Text.Unprintable
/-!
# Quoted texts

Failures that show a text a user wrote put it in quotation marks and write what cannot be seen by
its name or number, so that a stray tab or a look-alike character is visible in a log. A text is
quoted with `"`, a single character with `'`; each escapes its own mark only.
-/

namespace NodeAgent.Text

/-- The hexadecimal digits of `n`, lower case and without leading zeros. -/
def hexDigits (n : Nat) : List Char := Nat.toDigits 16 n

/-- One character between marks `mark`. -/
def escapeChar (mark c : Char) : List Char :=
  if c = '\x00' then ['\\', '0']
  else if c = '\t' then ['\\', 't']
  else if c = '\r' then ['\\', 'r']
  else if c = '\n' then ['\\', 'n']
  else if c = '\\' ∨ c = mark then ['\\', c]
  else if isUnprintable c then "\\u\x7b".toList ++ hexDigits c.toNat ++ ['\x7d']
  else [c]

/-- The text between double quotation marks. -/
def quoted (s : String) : String :=
  String.ofList ('"' :: s.toList.flatMap (escapeChar '"') ++ ['"'])

/-- The character between single quotation marks. -/
def quotedChar (c : Char) : String := String.ofList ('\'' :: escapeChar '\'' c ++ ['\''])

end NodeAgent.Text
