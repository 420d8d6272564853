/-!
# Arithmetic for curves

What the curves have in common: arithmetic modulo a prime, and multiples of a point by doubling and
adding.
-/

namespace NodeAgent

/-- A power modulo `m`, with as many bits of the exponent as there is fuel. -/
def powMod (m b e : Nat) : (fuel : Nat) → Nat
  | 0 => 1 % m
  | fuel + 1 =>
    if e = 0 then 1 % m
    else
      let h := powMod m (b * b % m) (e / 2) fuel
      if e % 2 = 1 then b * h % m else h

/-- The inverse modulo a prime. -/
def inverseMod (p a : Nat) : Nat := powMod p (a % p) (p - 2) p.log2.succ

/-- The difference modulo `m` of two remainders. -/
def subMod (m a b : Nat) : Nat := (a + m - b) % m

/-- The `k`-th multiple of a point. -/
def multiple {α : Type} (add : α → α → α) (zero : α) (point : α) (k : Nat) : (fuel : Nat) → α
  | 0 => zero
  | fuel + 1 =>
    if k = 0 then zero
    else
      let h := multiple add zero (add point point) (k / 2) fuel
      if k % 2 = 1 then add point h else h

end NodeAgent
