import ShieldedPayments.Group.Hashing
import ShieldedPayments.Wire

/-!
# ElGamal encryption of points

A point is hidden by a random multiple of the recipient's public key; the random factor travels as a
multiple of the base. It carries the key of a hybrid ciphertext.
-/

namespace ShieldedPayments

/-- A hidden point: the random factor's point, and the message plus the shared point. -/
structure ElGamalCiphertext (G : Type) where
  c1 : G
  c2 : G

namespace ElGamalCiphertext

variable {F G : Type} [ScalarField F] [PointGroup F G]

/-- Bytes in an encoding (`ELGAMAL_CIPHERTEXT_SIZE`). -/
def size : Nat := 2 * (elementSize + 1)

/-- Both points, each with a length byte (`ElGamalCiphertext::to_bytes`). -/
def toBytes (ct : ElGamalCiphertext G) : Bytes :=
  Writer.optPoint (some ct.c1) ++ Writer.optPoint (some ct.c2)

/-- Reads both points. -/
def reader : Reader (ElGamalCiphertext G) := do
  let c1 ← Reader.prefixedPoint
  let c2 ← Reader.prefixedPoint
  return ⟨c1, c2⟩

/-- The ciphertext with this encoding (`ElGamalCiphertext::from_bytes`). -/
def ofBytes (b : Bytes) : Outcome (ElGamalCiphertext G) := do
  ensure (b.length == size) (.malformedEncoding "elgamal ciphertext length")
  reader.result b

/-- Hides a point from all but the owner of a public key. -/
def encrypt (publicKey message : G) : Drawing (ElGamalCiphertext G) := do
  let k : F ← Drawing.scalar
  return ⟨baseMultiple k, k • publicKey + message⟩

/-- The hidden point. -/
def decrypt (ct : ElGamalCiphertext G) (secretKey : F) : G :=
  ct.c2 - secretKey • ct.c1

end ElGamalCiphertext

end ShieldedPayments
