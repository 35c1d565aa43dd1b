/-!
# Byte strings

Byte strings are lists of bytes, so that codecs and hashes over them can be reasoned about by
induction. Numbers enter and leave byte strings in fixed width, least or most significant byte
first; a number that does not fit loses its high bytes.

* `Bytes.ofNatLE`, `Bytes.ofNatBE`: the fixed-width encodings of a number.
* `Bytes.toNatLE`, `Bytes.toNatBE`: the number a byte string denotes.
-/

namespace ShieldedPayments

/-- A finite string of bytes. -/
abbrev Bytes := List UInt8

namespace Bytes

/-- The `width` low bytes of `n`, least significant first. -/
def ofNatLE : (width n : Nat) → Bytes
  | 0, _ => []
  | width + 1, n => n.toUInt8 :: ofNatLE width (n / 256)

/-- The `width` low bytes of `n`, most significant first. -/
def ofNatBE (width n : Nat) : Bytes :=
  (ofNatLE width n).reverse

/-- The number with the given bytes, least significant first. -/
def toNatLE (b : Bytes) : Nat :=
  b.foldr (fun x high => x.toNat + 256 * high) 0

/-- The number with the given bytes, most significant first. -/
def toNatBE (b : Bytes) : Nat :=
  b.foldl (fun high x => 256 * high + x.toNat) 0

/-- The bytes of a text of ASCII characters. -/
def ascii (s : String) : Bytes :=
  s.toList.map fun c => c.toNat.toUInt8

/-- The first `count` blocks of `size` bytes each. -/
def blocks (size : Nat) : (count : Nat) → Bytes → List Bytes
  | 0, _ => []
  | count + 1, b => b.take size :: blocks size count (b.drop size)

/-- The bytes of `b` followed by zeros up to `size` bytes. -/
def padTo (size : Nat) (b : Bytes) : Bytes :=
  b ++ List.replicate (size - b.length) 0

/-- The position-wise exclusive or of two byte strings, as long as the shorter one. -/
def xor (a b : Bytes) : Bytes :=
  List.zipWith (· ^^^ ·) a b

end Bytes

end ShieldedPayments
