import ShieldedPayments.Text.Hex
import ShieldedPayments.Wire

/-!
# Transaction randomness

What a sender publishes with a one-time coin: the random point from which the recipient recomputes
the shared secret, the index at which the one-time key was found, and the random point to which the
amount is concealed.
-/

namespace ShieldedPayments

/-- The public randomness of a one-time coin. -/
structure TxRandom (G : Type) where
  otaRandom : G
  index : UInt32
  concealRandom : G
  deriving BEq

namespace TxRandom

/-- Bytes in an encoding (`TX_RANDOM_SIZE`). -/
def size : Nat := elementSize + 4 + elementSize

variable {F G : Type} [ScalarField F] [PointGroup F G]

/-- Randomness that says nothing (`TxRandom::default`). -/
def zero : TxRandom G :=
  ⟨0, 0, 0⟩

/-- The first point, the index in four bytes, and the second point. -/
def toBytes (r : TxRandom G) : Bytes :=
  PointGroup.encode r.otaRandom ++ Bytes.ofNatBE 4 r.index.toNat ++ PointGroup.encode r.concealRandom

/-- Reads both points and the index. -/
def reader : Reader (TxRandom G) := do
  let otaRandom ← Reader.point
  let index ← Reader.number 4
  let concealRandom ← Reader.point
  return ⟨otaRandom, index.toUInt32, concealRandom⟩

/-- The randomness with this encoding (`TxRandom::from_bytes`). -/
def ofBytes (b : Bytes) : Outcome (TxRandom G) := do
  ensure (b.length == size) (.malformedEncoding "tx random length")
  reader.result b

/-- The randomness as it is shown in logs (`TxRandom::fmt`). -/
def describe (r : TxRandom G) : String :=
  "TxRandom(" ++ Text.Hex.encode r.toBytes ++ ")"

end TxRandom

end ShieldedPayments
