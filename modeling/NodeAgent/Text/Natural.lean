/-!
# Reading natural numbers

A natural number is written in decimal digits, perhaps after a plus sign. It is read digit by digit
against an upper bound, so what is told about a text is what is wrong with it at its front: a long
number is too large before its last character is seen to be no digit.
-/

namespace NodeAgent.Text.Natural

/-- Why a text is no number. -/
inductive Fault where
  | empty
  | invalidDigit
  | tooLarge
deriving DecidableEq

/-- The wording of the failure. -/
def Fault.message : Fault → String
  | empty => "cannot parse integer from empty string"
  | invalidDigit => "invalid digit found in string"
  | tooLarge => "number too large to fit in target type"

/-- Goes on reading a number below `bound` whose first digits have the value `n`. -/
def digits (bound n : Nat) : List Char → Except Fault Nat
  | [] => .ok n
  | c :: cs =>
    if !c.isDigit then .error .invalidDigit
    else
      let m := 10 * n + (c.toNat - 48)
      if m < bound then digits bound m cs else .error .tooLarge

/-- Reads a number below `bound`. -/
def parse (bound : Nat) : List Char → Except Fault Nat
  | [] => .error .empty
  | ['+'] => .error .invalidDigit
  | '+' :: cs | cs => digits bound 0 cs

/-- The numbers that fit a machine word. -/
def wordBound : Nat := Nat.pow 2 64

end NodeAgent.Text.Natural
