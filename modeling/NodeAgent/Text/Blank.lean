/-!
# Blank characters and letter case

Texts that come from files, addresses and status labels are compared after their surrounding
white space is removed. White space is the Unicode property of that name, which is wider than the
five characters core's own test knows: a label copied from a document may well end in a
no-break space. Letter case, on the other hand, is folded for ASCII letters only, because every
word the agent compares without regard to case is an ASCII word.
-/

namespace NodeAgent.Text

/-- The Unicode property `White_Space`. -/
def isBlank (c : Char) : Bool :=
  let n := c.toNat
  (9 ≤ n && n ≤ 13) || n == 0x20 || n == 0x85 || n == 0xa0 || n == 0x1680 ||
    (0x2000 ≤ n && n ≤ 0x200a) || n == 0x2028 || n == 0x2029 || n == 0x202f || n == 0x205f ||
    n == 0x3000

/-- The characters of `cs` without the blanks at either end. -/
def trimBlanks (cs : List Char) : List Char :=
  ((cs.dropWhile isBlank).reverse.dropWhile isBlank).reverse

/-- The text without the blanks at either end. -/
def trim (s : String) : String := String.ofList (trimBlanks s.toList)

/-- The lower-case form of an ASCII capital; any other character is itself. -/
def lowerChar (c : Char) : Char :=
  if 'A' ≤ c ∧ c ≤ 'Z' then Char.ofNat (c.toNat + 32) else c

/-- The text with its ASCII capitals lowered. -/
def lower (s : String) : String := String.ofList (s.toList.map lowerChar)

/-- Whether two texts agree up to the case of ASCII letters. -/
def sameWord (s t : String) : Bool := s.toList.map lowerChar == t.toList.map lowerChar

end NodeAgent.Text
