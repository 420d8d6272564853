import NodeAgent.Crypto.Bytes
/-!
# SHA-2 digests

The digests with 32-bit and with 64-bit words are one construction with different rotations. Its
constants are the leading bits of the fractional parts of square and cube roots of primes, so they
are computed here and not listed; those of the shorter words are the front halves of the others.
-/

namespace NodeAgent.Sha2

/-- One digest of the family. -/
structure Variant where
  /-- The number of bits of a word. -/
  bits : Nat
  rounds : Nat
  /-- The rotations of the two great sums. -/
  great0 : Nat × Nat × Nat
  great1 : Nat × Nat × Nat
  /-- The two rotations and the shift of the two small sums. -/
  small0 : Nat × Nat × Nat
  small1 : Nat × Nat × Nat

/-- The digest of 32 bytes. -/
def sha256 : Variant := ⟨32, 64, (2, 13, 22), (6, 11, 25), (7, 18, 3), (17, 19, 10)⟩

/-- The digest of 64 bytes. -/
def sha512 : Variant := ⟨64, 80, (28, 34, 39), (14, 18, 41), (1, 8, 7), (19, 61, 6)⟩

/-- Whether a number has no divisor from 2 on except itself. -/
def isPrime (n : Nat) : Bool := decide (2 ≤ n) && (List.range n).all fun d ↦ d < 2 || n % d ≠ 0

/-- The primes below 410, which are the first 80. -/
def primes : List Nat := (List.range 410).filter isPrime

/-- The greatest number below `2 ^ bits` more than `r` whose `k`-th power is at most `n`. -/
def rootFrom (k n : Nat) (r : Nat) : (bits : Nat) → Nat
  | 0 => r
  | bits + 1 =>
    let r' := r + Nat.pow 2 bits
    rootFrom k n (if Nat.pow r' k ≤ n then r' else r) bits

/-- The first 64 bits of the fractional part of the `k`-th root. -/
def rootBits (k n : Nat) : Nat := rootFrom k (n * Nat.pow 2 (64 * k)) 0 72 % Nat.pow 2 64

namespace Variant

variable (v : Variant)

/-- A sum of words. -/
def sum (ws : List Nat) : Nat := ws.foldl (· + ·) 0 % Nat.pow 2 v.bits

/-- A word rotated to the right. -/
def rotate (w n : Nat) : Nat := (w >>> n) ||| (w <<< (v.bits - n)) % Nat.pow 2 v.bits

/-- The sum of three rotations. -/
def great (r : Nat × Nat × Nat) (w : Nat) : Nat :=
  v.rotate w r.1 ^^^ v.rotate w r.2.1 ^^^ v.rotate w r.2.2

/-- The sum of two rotations and a shift. -/
def small (r : Nat × Nat × Nat) (w : Nat) : Nat :=
  v.rotate w r.1 ^^^ v.rotate w r.2.1 ^^^ (w >>> r.2.2)

/-- The initial words. -/
def initial : List Nat := (primes.take 8).map fun p ↦ rootBits 2 p >>> (64 - v.bits)

/-- The constants of the rounds. -/
def constants : List Nat := (primes.take v.rounds).map fun p ↦ rootBits 3 p >>> (64 - v.bits)

/-- The message with its end marked and its length appended, a whole number of blocks. -/
def padded (m : Bytes) : Bytes :=
  let block := 2 * v.bits
  let tail := v.bits / 4
  let zeros := (2 * block - 1 - tail - m.length % block) % block
  m ++ 0x80 :: List.replicate zeros 0 ++ Bytes.ofNat tail (8 * m.length)

/-- The words of a block. -/
def words : (fuel : Nat) → Bytes → List Nat
  | 0, _ | _, [] => []
  | fuel + 1, bs => Bytes.toNat (bs.take (v.bits / 8)) :: words fuel (bs.drop (v.bits / 8))

/-- The words of the rounds: those of the block, and then each from four before it. -/
def schedule (block : List Nat) : List Nat :=
  ((List.range (v.rounds - 16)).foldl (fun (ws : Array Nat) _ ↦
    let back (n : Nat) := ws.getD (ws.size - n) 0
    ws.push (v.sum [v.small v.small1 (back 2), back 7, v.small v.small0 (back 15), back 16]))
    block.toArray).toList

/-- One round on the eight words of the state. -/
def round (s : List Nat) (constant word : Nat) : List Nat :=
  match s with
  | [a, b, c, d, e, f, g, h] =>
    let choice := (e &&& f) ^^^ ((e ^^^ (Nat.pow 2 v.bits - 1)) &&& g)
    let majority := (a &&& b) ^^^ (a &&& c) ^^^ (b &&& c)
    let t := v.sum [h, v.great v.great1 e, choice, constant, word]
    [v.sum [t, v.great v.great0 a, majority], a, b, c, v.sum [d, t], e, f, g]
  | s => s

/-- The state after a block. -/
def compress (constants : List Nat) (s block : List Nat) : List Nat :=
  let rounds := constants.zip (v.schedule block)
  let t := rounds.foldl (fun t r ↦ v.round t r.1 r.2) s
  (s.zip t).map fun p ↦ v.sum [p.1, p.2]

/-- The state after all blocks. -/
def absorb (constants : List Nat) (s : List Nat) : (fuel : Nat) → List Nat → List Nat
  | 0, _ | _, [] => s
  | fuel + 1, ws => absorb constants (v.compress constants s (ws.take 16)) fuel (ws.drop 16)

/-- The digest of a message. -/
def digest (m : Bytes) : Bytes :=
  let bs := v.padded m
  (v.absorb v.constants v.initial bs.length (v.words bs.length bs)).flatMap
    (Bytes.ofNat (v.bits / 8))

end Variant

end NodeAgent.Sha2
