import NodeAgent.Crypto.Bytes
import NodeAgent.Crypto.Group
/-!
# Elliptic curves of prime order

The curves `y² = x³ - 3 x + b` on which most keys live. Points are kept as `(X, Y, Z)` for
`(X / Z², Y / Z³)`, so that adding needs no division; a point with `Z = 0` is the one at infinity.
-/

namespace NodeAgent

/-- A curve with the point that generates it. -/
structure Curve where
  /-- The prime of the coordinates. -/
  p : Nat
  /-- The number of points. -/
  order : Nat
  base : Nat × Nat
  /-- The number of bytes of a coordinate. -/
  width : Nat
deriving DecidableEq

/-- A point, in Jacobian coordinates. -/
structure CurvePoint where
  x : Nat
  y : Nat
  z : Nat

namespace Curve

/-- The curve with coordinates of 256 bits. -/
def p256 : Curve where
  p := Nat.pow 2 256 - Nat.pow 2 224 + Nat.pow 2 192 + Nat.pow 2 96 - 1
  order := 0xffffffff00000000ffffffffffffffffbce6faada7179e84f3b9cac2fc632551
  base :=
    (0x6b17d1f2e12c4247f8bce6e563a440f277037d812deb33a0f4a13945d898c296,
      0x4fe342e2fe1a7f9b8ee7eb4a7c0f9e162bce33576b315ececbb6406837bf51f5)
  width := 32

/-- The curve with coordinates of 384 bits. -/
def p384 : Curve where
  p := Nat.pow 2 384 - Nat.pow 2 128 - Nat.pow 2 96 + Nat.pow 2 32 - 1
  order :=
    0xffffffffffffffffffffffffffffffffffffffffffffffffc7634d81f4372ddf581a0db248b0a77aecec196accc52973
  base :=
    (0xaa87ca22be8b05378eb1c71ef320ad746e1d3b628ba79b9859f741e082542a385502f25dbf55296c3a545e3872760ab7,
      0x3617de4a96262c6f5d9e98bf9292dc29f8f41dbd289a147ce9da3113b5f0b8c00a60b1ce1d7e819d7a431d7c90ea0e5f)
  width := 48

variable (c : Curve)

/-- The point at infinity. -/
def infinity : CurvePoint := ⟨1, 1, 0⟩

/-- Twice a point. -/
def double (q : CurvePoint) : CurvePoint :=
  let sub := subMod c.p
  let delta := q.z * q.z % c.p
  let gamma := q.y * q.y % c.p
  let beta := q.x * gamma % c.p
  let alpha := 3 * sub q.x delta * (q.x + delta) % c.p
  let x := sub (alpha * alpha % c.p) (8 * beta % c.p)
  let y := sub (alpha * sub (4 * beta % c.p) x % c.p) (8 * gamma * gamma % c.p)
  ⟨x, y, 2 * q.y * q.z % c.p⟩

/-- The sum of two points. -/
def add (q r : CurvePoint) : CurvePoint :=
  if q.z = 0 then r
  else if r.z = 0 then q
  else
    let sub := subMod c.p
    let qz := q.z * q.z % c.p
    let rz := r.z * r.z % c.p
    let u := q.x * rz % c.p
    let s := q.y * r.z * rz % c.p
    let h := sub (r.x * qz % c.p) u
    let d := sub (r.y * q.z * qz % c.p) s
    if h = 0 then if d = 0 then c.double q else infinity
    else
      let hh := h * h % c.p
      let hhh := h * hh % c.p
      let v := u * hh % c.p
      let x := sub (sub (d * d % c.p) hhh) (2 * v % c.p)
      ⟨x, sub (d * sub v x % c.p) (s * hhh % c.p), q.z * r.z * h % c.p⟩

/-- The coordinates of a point that is not at infinity. -/
def coordinates (q : CurvePoint) : Nat × Nat :=
  let i := inverseMod c.p q.z
  let ii := i * i % c.p
  (q.x * ii % c.p, q.y * ii * i % c.p)

/-- The coordinates of a multiple of the base point. -/
def baseMultiple (k : Nat) : Nat × Nat :=
  c.coordinates (multiple c.add infinity ⟨c.base.1, c.base.2, 1⟩ k (8 * c.width))

/-- The public key of a secret number, as the bytes of its point. -/
def publicBytes (secret : Nat) : Bytes :=
  let (x, y) := c.baseMultiple secret
  4 :: Bytes.ofNat c.width x ++ Bytes.ofNat c.width y

/-- Whether a number can be a secret one. -/
def isSecret (n : Nat) : Bool := decide (0 < n) && decide (n < c.order)

/-- The signature of a digest. The number drawn for it must not be drawn again. -/
def sign (secret digest drawn : Nat) : Nat × Nat :=
  let r := (c.baseMultiple drawn).1 % c.order
  (r, inverseMod c.order drawn * (digest + r * secret) % c.order)

end Curve

end NodeAgent
