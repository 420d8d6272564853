import NodeAgent.Crypto.Group
import NodeAgent.Crypto.Sha2
/-!
# The Edwards curve modulo `2 ^ 255 - 19`

The curve `-x² + y² = 1 + d x² y²`. Points are kept as `(X, Y, Z, T)` for `(X / Z, Y / Z)` with
`T = X Y / Z`; one formula adds any two of them.
-/

namespace NodeAgent.Edwards

/-- The prime of the coordinates. -/
def prime : Nat := Nat.pow 2 255 - 19

/-- The factor `d` of the curve. -/
def factor : Nat := subMod prime 0 (121665 * inverseMod prime 121666 % prime)

/-- A point, in extended coordinates. -/
structure Point where
  x : Nat
  y : Nat
  z : Nat
  t : Nat

/-- The neutral point. -/
def neutral : Point := ⟨0, 1, 1, 0⟩

/-- The base point, whose `y` is four fifths. -/
def base : Point :=
  let x := 0x216936d3cd6e53fec0a4e231fdd6dc5c692cc7609525a7b2c9562d608f25d51a
  let y := 0x6666666666666666666666666666666666666666666666666666666666666658
  ⟨x, y, 1, x * y % prime⟩

/-- The sum of two points; `twice` is twice the factor of the curve. -/
def add (twice : Nat) (q r : Point) : Point :=
  let a := subMod prime q.y q.x * subMod prime r.y r.x % prime
  let b := (q.y + q.x) * (r.y + r.x) % prime
  let c := q.t * twice * r.t % prime
  let d := 2 * q.z * r.z % prime
  let e := subMod prime b a
  let f := subMod prime d c
  let g := d + c
  let h := b + a
  ⟨e * f % prime, g * h % prime, f * g % prime, e * h % prime⟩

/-- The secret number of a seed: the front half of its digest, read backwards, with its lowest bits
and its highest cleared and the one below that set. -/
def secret (seed : Bytes) : Nat :=
  let n := Bytes.toNat ((Sha2.sha512.digest seed).take 32).reverse
  Nat.pow 2 254 + n % Nat.pow 2 254 / 8 * 8

/-- The public key of a seed. -/
def publicBytes (seed : Bytes) : Bytes :=
  let q := multiple (add (2 * factor % prime)) neutral base (secret seed) 256
  let i := inverseMod prime q.z
  let x := q.x * i % prime
  let y := q.y * i % prime
  (Bytes.ofNat 32 (y + x % 2 * Nat.pow 2 255)).reverse

end NodeAgent.Edwards
