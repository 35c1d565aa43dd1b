import ShieldedPayments.Group.Derivation
import ShieldedPayments.Tape

/-!
# Hashing onto scalars and points

A scalar is hashed from a list of parts. Each part is framed by its length, so that the hashed bytes
determine the parts; the framed parts follow a domain label. Points are hashed from plain data under
another label. Random scalars and points take 64 bytes of a tape each.
-/

namespace ShieldedPayments

/-- A part preceded by its length in four bytes. -/
def framedPart (part : Bytes) : Bytes :=
  Bytes.ofNatBE 4 part.length ++ part

/-- The bytes that are hashed for a list of parts. -/
def scalarHashInput (parts : List Bytes) : Bytes :=
  Bytes.ascii "privacy-core/hash-to-scalar" ++ parts.flatMap framedPart

section

variable {F G : Type} [ScalarField F] [PointGroup F G]

/-- The scalar hashed from a list of parts (`hash_to_scalar_parts`). -/
def hashToScalar (parts : List Bytes) : F :=
  ScalarField.ofUniform (Hash.Blake2b.digest (scalarHashInput parts))

/-- The point hashed from data (`hash_to_point`). -/
def hashToPoint (data : Bytes) : G :=
  PointGroup.ofUniform (pointDigest data)

end

namespace Drawing

/-- A random scalar (`random_scalar`). -/
def scalar {F : Type} [ScalarField F] : Drawing F := do
  return ScalarField.ofUniform (← bytes 64)

/-- A random point (`random_point`). -/
def point {F G : Type} [PointGroup F G] : Drawing G := do
  return PointGroup.ofUniform (← bytes 64)

/-- A list of `n` random scalars. -/
def scalars {F : Type} [ScalarField F] : (n : Nat) → Drawing (List F)
  | 0 => return []
  | n + 1 => do
    let s ← scalar
    return s :: (← scalars n)

end Drawing

/-- A random scalar, in a computation that may refuse. -/
def Proving.scalar {F : Type} [ScalarField F] : Proving F :=
  ExceptT.lift Drawing.scalar

end ShieldedPayments
