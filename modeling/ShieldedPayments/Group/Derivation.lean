import ShieldedPayments.Group.Basic
import ShieldedPayments.Hash.Sha2

/-!
# Derivation of the fixed points

Apart from the base of spend keys, which is the group's base point, every fixed point is hashed from
a label, so that no relation between them is known. Hashing onto the group goes through SHA-512 and
the map from 64 uniform bytes to points, which is a parameter here.
-/

namespace ShieldedPayments

/-- The bit length of the values that range proofs cover (`MAX_EXP`). -/
def valueBits : Nat := 64

/-- The most outputs of a payment, and the most values in a range proof (`MAX_OUTPUT_COIN`). -/
def maxOutputs : Nat := 32

/-- The 64 bytes that data is hashed to on its way to a point. -/
def pointDigest (data : Bytes) : Bytes :=
  Hash.Sha512.digest (Bytes.ascii "privacy-core/hash-to-point" ++ data)

namespace PedersenBases

variable {G : Type}

/-- The Pedersen bases over a base point: every role but the first is hashed from its number
(`PedersenGens::new`). -/
def derive (basePoint : G) (ofUniform : Bytes → G) : PedersenBases G :=
  let hashed := fun (n : UInt8) =>
    ofUniform (pointDigest (Bytes.ascii "privacy-core/pedersen/" ++ [n]))
  ⟨basePoint, hashed 1, hashed 2, hashed 3, hashed 4⟩

end PedersenBases

namespace InnerProductBases

variable {G : Type}

/-- `capacity` points hashed from a label and their positions (`labelled`). -/
def hashedVector (ofUniform : Bytes → G) (label : String) (capacity : Nat) : List G :=
  (List.range capacity).map fun i =>
    ofUniform (pointDigest (Bytes.ascii label ++ Bytes.ofNatBE 4 i))

/-- The inner-product bases for vectors of length `capacity` (`BulletproofGens::new`). -/
def derive (ofUniform : Bytes → G) (capacity : Nat) : InnerProductBases G where
  left := hashedVector ofUniform "privacy-core/bulletproofs/G" capacity
  right := hashedVector ofUniform "privacy-core/bulletproofs/H" capacity
  inner := ofUniform (pointDigest (Bytes.ascii "privacy-core/bulletproofs/U"))

/-- The length of the longest bit vectors: every output of a payment, with all its bits. -/
def largest : Nat := valueBits * maxOutputs

end InnerProductBases

end ShieldedPayments
