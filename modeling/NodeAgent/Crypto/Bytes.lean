/-!
# Numbers as bytes

Keys, digests and lengths are numbers written as bytes, most significant byte first.
-/

namespace NodeAgent

/-- Bytes of an encoded value. -/
abbrev Bytes := List UInt8

namespace Bytes

/-- The number that bytes stand for. -/
def toNat (bs : Bytes) : Nat := bs.foldl (fun n b ↦ 256 * n + b.toNat) 0

/-- The last `width` bytes of a number. -/
def ofNat (width n : Nat) : Bytes :=
  (List.range width).map fun i ↦ UInt8.ofNat (n / Nat.pow 256 (width - 1 - i))

/-- How many bytes a number takes; one at least. -/
def width (n : Nat) : Nat := n.log2 / 8 + 1

@[simp] theorem length_ofNat (width n : Nat) : (ofNat width n).length = width := by
  simp [ofNat]

end Bytes

end NodeAgent
