import NodeAgent.Text.Quoted
import NodeAgent.Text.Shortest
/-!
# Reading JSON

A JSON text is read from front to back by readers that know what they expect, so the first thing
that is wrong is what a failure tells: that the text is *malformed*, that it is *truncated*, or
that a value is well written but *unfit* for its place. Only the last is described in words.

What nobody expects is skipped. Skipping is more lenient than reading in one respect: the escapes of
a skipped text need not pair up to characters.
-/

namespace NodeAgent.Json

/-- Why a text cannot be read. -/
inductive Fault where
  | malformed
  | truncated
  | unfit (message : String)
deriving DecidableEq

/-- Reads a value off the front of a text. -/
abbrev Reader (α : Type) := StateT (List Char) (Except Fault) α

/-- A reader of characters from its effect on the text. -/
abbrev ofStep {α : Type} (f : List Char → Except Fault (α × List Char)) : Reader α := f

/-- Whether a character may stand between values. -/
def isSpace (c : Char) : Bool := c == ' ' || c == '\n' || c == '\t' || c == '\r'

/-- The next character that is no space, which stays. -/
def peek : Reader (Option Char) := ofStep fun cs ↦
  let cs := cs.dropWhile isSpace
  .ok (cs.head?, cs)

/-- Takes one character. -/
def take : Reader Unit := ofStep fun cs ↦ .ok ((), cs.tail)

/-- The fault of a text that ends here or goes on with the wrong character. -/
def faultAt : List Char → Fault
  | [] => .truncated
  | _ => .malformed

/-- Takes the given characters. -/
def expect : List Char → List Char → Except Fault (Unit × List Char)
  | [], cs => .ok ((), cs)
  | _ :: _, [] => .error .truncated
  | w :: ws, c :: cs => if w = c then expect ws cs else .error .malformed

/-! ## Texts -/

/-- The value of a hexadecimal digit. -/
def hexValue? (c : Char) : Option Nat :=
  if '0' ≤ c ∧ c ≤ '9' then some (c.toNat - 48)
  else if 'a' ≤ c ∧ c ≤ 'f' then some (c.toNat - 87)
  else if 'A' ≤ c ∧ c ≤ 'F' then some (c.toNat - 55)
  else none

/-- Takes four hexadecimal digits. Fewer than four bytes are too few, whatever they are. -/
def hexFour (cs : List Char) : Except Fault (Nat × List Char) :=
  if (cs.take 4).foldl (fun n c ↦ n + c.utf8Size) 0 < 4 then .error .truncated
  else
    match cs with
    | a :: b :: c :: d :: rest =>
      match hexValue? a, hexValue? b, hexValue? c, hexValue? d with
      | some w, some x, some y, some z => .ok (((w * 16 + x) * 16 + y) * 16 + z, rest)
      | _, _, _, _ => .error .malformed
    | _ => .error .malformed

/-- The character of a one-letter escape. -/
def escapeOf? : Char → Option Char
  | '"' => some '"'
  | '\\' => some '\\'
  | '/' => some '/'
  | 'b' => some '\x08'
  | 'f' => some '\x0c'
  | 'n' => some '\n'
  | 'r' => some '\r'
  | 't' => some '\t'
  | _ => none

/-- Takes the second half of a pair of escapes, whose first half had the value `high`. -/
def lowHalf (high : Nat) : List Char → Except Fault (Char × List Char)
  | '\\' :: 'u' :: cs => do
    let (low, cs) ← hexFour cs
    if 0xDC00 ≤ low ∧ low ≤ 0xDFFF then
      return (Char.ofNat ((high - 0xD800) * 1024 + (low - 0xDC00) + 0x10000), cs)
    else throw .malformed
  | ['\\'] => .error .truncated
  | cs => .error (faultAt cs)

/-- Takes an escape after its backslash. -/
def escape : List Char → Except Fault (Char × List Char)
  | 'u' :: cs => do
    let (n, cs) ← hexFour cs
    if 0xDC00 ≤ n ∧ n ≤ 0xDFFF then throw .malformed
    else if 0xD800 ≤ n ∧ n ≤ 0xDBFF then lowHalf n cs
    else return (Char.ofNat n, cs)
  | c :: cs =>
    match escapeOf? c with
    | some e => .ok (e, cs)
    | none => .error .malformed
  | [] => .error .truncated

/-- Takes an escape after its backslash, whatever character it stands for. -/
def skipEscape : List Char → Except Fault (Char × List Char)
  | 'u' :: cs => (hexFour cs).map fun (_, cs) ↦ ('u', cs)
  | cs => escape cs

/-- Takes the rest of a text up to its closing quote; `esc` takes an escape. -/
def textBody (esc : List Char → Except Fault (Char × List Char)) :
    (fuel : Nat) → List Char → Except Fault (List Char × List Char)
  | 0, _ | _, [] => .error .truncated
  | fuel + 1, c :: cs =>
    if c = '"' then .ok ([], cs)
    else if c = '\\' then do
      let (e, cs) ← esc cs
      let (rest, cs) ← textBody esc fuel cs
      return (e :: rest, cs)
    else if c.toNat < 32 then .error .malformed
    else do
      let (rest, cs) ← textBody esc fuel cs
      return (c :: rest, cs)

/-- Takes a text whose opening quote was taken. -/
def readText : Reader String := ofStep fun cs ↦ do
  let (body, cs) ← textBody escape (cs.length + 1) cs
  return (String.ofList body, cs)

/-- Skips a text whose opening quote was taken. -/
def skipText : Reader Unit := ofStep fun cs ↦ do
  let (_, cs) ← textBody skipEscape (cs.length + 1) cs
  return ((), cs)

/-! ## Numbers -/

/-- A number as it was written. -/
inductive Number where
  | nat (n : Nat)
  /-- The negative of a positive number. -/
  | neg (n : Nat)
  | float (x : Float)

namespace Number

/-- The number as a failure describes it. -/
def describe : Number → String
  | nat n => "integer " ++ "\x60" ++ toString n ++ "\x60"
  | neg n => "integer " ++ "\x60" ++ "-" ++ toString n ++ "\x60"
  | float x => "floating point " ++ "\x60" ++ Text.Shortest.text x ++ "\x60"

end Number

/-- The greatest integer that is not turned into a float. -/
def greatest : Nat := Nat.pow 2 64 - 1

/-- Adds digits to a significand as long as it does not exceed the greatest integer. Also gives how
many digits were added and how many came after those. -/
def gather (significand : Nat) : List Char → Nat × Nat × Nat
  | [] => (significand, 0, 0)
  | d :: ds =>
    let next := significand * 10 + (d.toNat - 48)
    if next ≤ greatest then
      let (s, added, dropped) := gather next ds
      (s, added + 1, dropped)
    else (significand, 0, ds.length + 1)

/-- The float `f * 10 ^ exponent`, scaled in steps; none if it is too large. -/
def scale (f : Float) (exponent : Int) : (fuel : Nat) → Option Float
  | 0 => some f
  | fuel + 1 =>
    if exponent.natAbs ≤ 308 then
      let power := Float.ofScientific 1 false exponent.natAbs
      if 0 ≤ exponent then
        let g := f * power
        if g.isInf then none else some g
      else some (f / power)
    else if f == 0.0 then some f
    else if 0 ≤ exponent then none
    else scale (f / Float.ofScientific 1 false 308) (exponent + 308) fuel

/-- The number of a significand and an exponent. -/
def float (positive : Bool) (significand : Nat) (exponent : Int) : Except Fault Number :=
  match scale (UInt64.ofNat significand).toFloat exponent (exponent.natAbs / 308 + 2) with
  | none => .error .malformed
  | some f => .ok (.float (if positive then f else -f))

/-- Takes the exponent of a number after its letter, for a number whose significand is known. -/
def exponentPart (positive : Bool) (significand : Nat) (exponent : Int) (cs : List Char) :
    Except Fault (Number × List Char) :=
  let (up, cs) := match cs with
    | '+' :: cs => (true, cs)
    | '-' :: cs => (false, cs)
    | cs => (true, cs)
  let ds := cs.takeWhile Char.isDigit
  let rest := cs.dropWhile Char.isDigit
  if ds = [] then .error (faultAt rest)
  else
    let e := ds.foldl (fun n c ↦ 10 * n + (c.toNat - 48)) 0
    if Nat.pow 2 31 ≤ e then
      if significand ≠ 0 && up then .error .malformed
      else .ok (.float (if positive then 0.0 else -0.0), rest)
    else
      (float positive significand (exponent + (if up then Int.ofNat e else -Int.ofNat e))).map
        (·, rest)

/-- Takes what follows the significand of a float. -/
def floatTail (positive : Bool) (significand : Nat) (exponent : Int) :
    List Char → Except Fault (Number × List Char)
  | c :: cs =>
    if c = 'e' || c = 'E' then exponentPart positive significand exponent cs
    else (float positive significand exponent).map (·, c :: cs)
  | [] => (float positive significand exponent).map (·, [])

/-- Takes the digits after a point, and what follows them. -/
def fractionPart (positive : Bool) (significand : Nat) (exponent : Int) (cs : List Char) :
    Except Fault (Number × List Char) :=
  let ds := cs.takeWhile Char.isDigit
  let rest := cs.dropWhile Char.isDigit
  if ds = [] then .error (faultAt rest)
  else
    let (s, added, _) := gather significand ds
    floatTail positive s (exponent - added) rest

/-- Takes a number after its sign. -/
def number (positive : Bool) (cs : List Char) : Except Fault (Number × List Char) :=
  let ds := cs.takeWhile Char.isDigit
  let rest := cs.dropWhile Char.isDigit
  match ds with
  | [] => .error (faultAt rest)
  | '0' :: _ :: _ => .error .malformed
  | _ =>
    let (s, _, dropped) := gather 0 ds
    match rest with
    | '.' :: rest => fractionPart positive s dropped rest
    | c :: _ =>
      if c = 'e' || c = 'E' || 0 < dropped then floatTail positive s dropped rest
      else .ok (integer positive s, rest)
    | [] =>
      if 0 < dropped then floatTail positive s dropped rest else .ok (integer positive s, rest)
where
  /-- The integer of a sign and a size; minus zero and what is too far below zero is a float. -/
  integer (positive : Bool) (s : Nat) : Number :=
    if positive then .nat s
    else if s = 0 ∨ Nat.pow 2 63 < s then .float (-(UInt64.ofNat s).toFloat)
    else .neg s

/-- Takes a number whose sign, if it has one, is still there. -/
def readNumber : Reader Number := ofStep fun
  | '-' :: cs => number false cs
  | cs => number true cs

/-- Skips digits, of which there must be one. -/
def skipDigits (cs : List Char) : Except Fault (List Char) :=
  if (cs.takeWhile Char.isDigit).isEmpty then .error .malformed else .ok (cs.dropWhile Char.isDigit)

/-- Skips the exponent of a number, if there is one. -/
def skipExponent : List Char → Except Fault (Unit × List Char)
  | c :: cs =>
    if c = 'e' || c = 'E' then
      let cs := match cs with
        | '+' :: cs | '-' :: cs => cs
        | cs => cs
      (skipDigits cs).map ((), ·)
    else .ok ((), c :: cs)
  | [] => .ok ((), [])

/-- Skips a number. -/
def skipNumber : Reader Unit := ofStep fun cs ↦ do
  let cs := match cs with
    | '-' :: cs => cs
    | cs => cs
  let rest ← skipDigits cs
  if cs.head? = some '0' ∧ (cs.takeWhile Char.isDigit).length ≠ 1 then throw .malformed
  match rest with
  | '.' :: rest => skipExponent (← skipDigits rest)
  | rest => skipExponent rest

/-! ## Anything -/

/-- Takes a character, which must be the next that is no space. -/
def takeChar (c : Char) : Reader Unit := do
  match ← peek with
  | none => throw .truncated
  | some d => if c = d then take else throw .malformed

/-- Whether a list or an object that ends with `close` has another item; `first` says that none was
taken yet. -/
def hasItem (close : Char) (first : Bool) : Reader Bool := do
  match ← peek with
  | none => throw .truncated
  | some c =>
    if c = close then return false
    else if first then return true
    else if c = ',' then
      take
      match ← peek with
      | none => throw .truncated
      | some d => if d = close then throw .malformed else return true
    else throw .malformed

mutual

/-- Skips a value. -/
def skip : (fuel : Nat) → Reader Unit
  | 0 => throw .truncated
  | fuel + 1 => do
    match ← peek with
    | none => throw .truncated
    | some 'n' => ofStep (expect "null".toList)
    | some 't' => ofStep (expect "true".toList)
    | some 'f' => ofStep (expect "false".toList)
    | some '"' => take; skipText
    | some '[' => take; skipItems ']' false fuel true
    | some '{' => take; skipItems '}' true fuel true
    | some c => if c = '-' || c.isDigit then skipNumber else throw .malformed

/-- Skips the items that are left of a list or an object, and its end. -/
def skipItems (close : Char) (keyed : Bool) : (fuel : Nat) → (first : Bool) → Reader Unit
  | 0, _ => throw .truncated
  | fuel + 1, first => do
    if ← hasItem close first then
      if keyed then
        takeChar '"'
        skipText
        takeChar ':'
      skip fuel
      skipItems close keyed fuel false
    else take

end

/-- Skips a value. Every step of skipping takes a character, save two for each value. -/
def skipValue : Reader Unit := do skip (3 * (← get).length + 3)

end NodeAgent.Json
