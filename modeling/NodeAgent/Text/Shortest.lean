/-!
# The shortest decimal of a float

A float stands for the one number it is, but it is shown by the shortest decimal that reads back as
the same float, and of those by the nearest. The float is taken apart into `m * 2 ^ q` and all
comparisons are made on natural numbers, so nothing is rounded on the way.

How a decimal is laid out is a separate matter (`layOut`): positional notation for exponents from
-5 to 15, always with a digit after the point, and scientific notation outside.
-/

namespace NodeAgent.Text.Shortest

/-- A positive float as a fraction of natural numbers, with the bounds of the numbers that read
back as it; the bounds count if `closed`. All have the one denominator `den`. -/
structure Binade where
  low : Nat
  value : Nat
  high : Nat
  den : Nat
  closed : Bool

/-- The float of the given bits, whose sign is left out. -/
def Binade.ofBits (bits : Nat) : Binade :=
  let expo := bits / Nat.pow 2 52 % Nat.pow 2 11
  let frac := bits % Nat.pow 2 52
  let m := if expo = 0 then frac else frac + Nat.pow 2 52
  let q : Int := ((if expo = 0 then 1 else expo : Nat) : Int) - 1075
  let gapBelow := if frac = 0 ∧ 1 < expo then 1 else 2
  let up := Nat.pow 2 q.toNat
  { low := (4 * m - gapBelow) * up, value := 4 * m * up, high := (4 * m + 2) * up
    den := 4 * Nat.pow 2 (-q).toNat, closed := m % 2 == 0 }

/-- Whether `d * 10 ^ e` reads back as the float. -/
def Binade.contains (b : Binade) (d : Nat) (e : Int) : Bool :=
  let x := d * Nat.pow 10 e.toNat * b.den
  let scale := Nat.pow 10 (-e).toNat
  if b.closed then b.low * scale ≤ x && x ≤ b.high * scale
  else b.low * scale < x && x < b.high * scale

/-- The distance of `d * 10 ^ e` from the float, on the scale of that power of ten. -/
def Binade.distance (b : Binade) (d : Nat) (e : Int) : Nat :=
  let x := d * Nat.pow 10 e.toNat * b.den
  let v := b.value * Nat.pow 10 (-e).toNat
  (x - v) + (v - x)

/-- The exponent of the first digit of a number below one, counted down from `-k`. -/
def smallExponent (b : Binade) (k : Nat) : (fuel : Nat) → Nat
  | 0 => k
  | fuel + 1 => if b.den ≤ b.value * Nat.pow 10 k then k else smallExponent b (k + 1) fuel

/-- The exponent of the first digit. -/
def exponent (b : Binade) : Int :=
  if b.den ≤ b.value then ((toString (b.value / b.den)).length : Int) - 1
  else -(smallExponent b 1 400 : Int)

/-- The decimal of `n` digits that reads back as the float, if there is one; the nearer of two, and
the even one of two that are equally near. -/
def ofLength? (b : Binade) (k : Int) (n : Nat) : Option (Nat × Int) :=
  let e := k - n + 1
  let d := b.value * Nat.pow 10 (-e).toNat / (b.den * Nat.pow 10 e.toNat)
  match b.contains d e, b.contains (d + 1) e with
  | false, false => none
  | true, false => some (d, e)
  | false, true => some (d + 1, e)
  | true, true =>
    let x := b.distance d e
    let y := b.distance (d + 1) e
    if x < y || (x == y && d % 2 == 0) then some (d, e) else some (d + 1, e)

/-- The shortest decimal of at least `n` digits. -/
def search (b : Binade) (k : Int) (n : Nat) : (fuel : Nat) → Nat × Int
  | 0 => (0, 0)
  | fuel + 1 =>
    match ofLength? b k n with
    | some r => r
    | none => search b k (n + 1) fuel

/-- The digits of a decimal and the exponent of the first of them. -/
structure Decimal where
  digits : List Char
  exponent : Int

/-- The shortest decimal of a positive float. -/
def decimal (bits : Nat) : Decimal :=
  let b := Binade.ofBits bits
  let (d, e) := search b (exponent b) 1 17
  let ds := (toString d).toList
  { digits := (ds.reverse.dropWhile (· == '0')).reverse, exponent := e + ds.length - 1 }

/-- The decimal as text. -/
def layOut (d : Decimal) : List Char :=
  let zeros (n : Nat) := List.replicate n '0'
  let n := d.digits.length
  if 0 ≤ d.exponent ∧ d.exponent ≤ 15 then
    let whole := d.exponent.toNat + 1
    if n ≤ whole then d.digits ++ zeros (whole - n) ++ ['.', '0']
    else d.digits.take whole ++ '.' :: d.digits.drop whole
  else if -5 ≤ d.exponent ∧ d.exponent < 0 then
    ['0', '.'] ++ zeros (-d.exponent - 1).toNat ++ d.digits
  else
    let e := (toString d.exponent.natAbs).toList
    let mantissa := match d.digits with
      | [c] => [c]
      | c :: cs => c :: '.' :: cs
      | [] => []
    mantissa ++ ['e', if d.exponent < 0 then '-' else '+'] ++ zeros (2 - e.length) ++ e

/-- A finite float as text. -/
def text (x : Float) : String :=
  let bits := x.toBits.toNat
  let sign := if Nat.pow 2 63 ≤ bits then ['-'] else []
  let size := bits % Nat.pow 2 63
  let rest := if size = 0 then ['0', '.', '0'] else layOut (decimal size)
  String.ofList (sign ++ rest)

end NodeAgent.Text.Shortest
