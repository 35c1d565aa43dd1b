import ShieldedPayments.Bytes

/-!
# Scalars and points

Every protocol of this library works over a group of points with a field of scalars acting on it.
`ScalarField` and `PointGroup` collect the operations that the protocols need: the arithmetic, the
encodings in 32 bytes, and the fixed points that commitments are built on. The ristretto group is
the instance that runs; statements about protocols hold for any other one that obeys the laws of a
vector space.

The fixed points are the five bases of Pedersen commitments, one for each part of a coin
(`Role`), and the bases of the inner-product argument.
-/

namespace ShieldedPayments

/-- Bytes in the encoding of a point, and of a scalar (`POINT_SIZE`, `SCALAR_SIZE`). -/
def elementSize : Nat := 32

/-- The operations on scalars. -/
class ScalarField (F : Type) extends Add F, Sub F, Mul F, Neg F, Zero F, One F, Inv F, BEq F where
  /-- The scalar with the value of a natural number. -/
  ofNat : Nat → F
  /-- The encoding in 32 bytes. -/
  encode : F → Bytes
  /-- The scalar with this encoding, if the bytes are one. -/
  decode : Bytes → Option F
  /-- The scalar that a string of 64 bytes is reduced to. -/
  ofUniform : Bytes → F

/-- The part of a coin that a commitment base stands for. -/
inductive Role where
  | spendKey
  | value
  | derivator
  | shard
  | blinding
  deriving DecidableEq, Repr

namespace Role

/-- All roles in the order of their numbers. -/
def all : List Role := [spendKey, value, derivator, shard, blinding]

/-- The role with the given number, if there is one. -/
def ofNat? (n : Nat) : Option Role := all[n]?

end Role

/-- The bases of Pedersen commitments, one for each role (`PedersenGens`). -/
structure PedersenBases (G : Type) where
  spendKey : G
  value : G
  derivator : G
  shard : G
  blinding : G

namespace PedersenBases

variable {G : Type}

/-- The base of a role (`PedersenGens::base`). -/
def base (p : PedersenBases G) : Role → G
  | .spendKey => p.spendKey
  | .value => p.value
  | .derivator => p.derivator
  | .shard => p.shard
  | .blinding => p.blinding

end PedersenBases

/-- The bases of the inner-product argument: two vectors of equal length and one more point
(`BulletproofGens`). -/
structure InnerProductBases (G : Type) where
  left : List G
  right : List G
  inner : G

/-- The operations on points, with scalars from `F`. -/
class PointGroup (F : outParam Type) (G : Type) extends Add G, Sub G, Neg G, Zero G, SMul F G,
    BEq G where
  /-- The encoding in 32 bytes. -/
  encode : G → Bytes
  /-- The point with this encoding, if the bytes are one. -/
  decode : Bytes → Option G
  /-- The point that a string of 64 bytes is mapped to. -/
  ofUniform : Bytes → G
  /-- The sum of scaled points. -/
  combination : List (F × G) → G
  /-- A multiple of the base of spend keys. -/
  baseMultiple : F → G
  /-- The bases of Pedersen commitments. -/
  pedersen : PedersenBases G
  /-- The bases of the inner-product argument, as many as the largest range proof needs. -/
  innerProduct : InnerProductBases G

export ScalarField (ofNat)
export PointGroup (combination baseMultiple pedersen)

end ShieldedPayments
