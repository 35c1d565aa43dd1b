import ShieldedPayments.Group.Basic

/-!
# The scalar field

The integers modulo the prime order of the ristretto group. A scalar is encoded in 32 bytes, least
significant first, and only the encoding of the value below the group order is accepted.
-/

namespace ShieldedPayments.Curve

/-- The order of the group, `2 ^ 252 + 27742317777372353535851937790883648493`. -/
def groupOrder : Nat := 1 <<< 252 + 27742317777372353535851937790883648493

-- The zero is spelled out, so that the instance is the same one where Mathlib has other zeros.
instance : @NeZero Nat ⟨0⟩ groupOrder := ⟨by decide⟩

/-- The integers modulo the group order. -/
abbrev Scalar := Fin groupOrder

namespace Scalar

/-- The power of `x` with the exponent `n`, by repeated squaring. -/
def power (x : Scalar) (n : Nat) : Scalar :=
  if n = 0 then 1
  else
    let rest := power (x * x) (n / 2)
    if n % 2 = 1 then x * rest else rest
termination_by n

/-- The inverse of a scalar, and zero for zero. -/
def invert (x : Scalar) : Scalar :=
  power x (groupOrder - 2)

/-- The 32 bytes of a scalar, least significant first. -/
def encode (x : Scalar) : Bytes :=
  Bytes.ofNatLE elementSize x.val

/-- The scalar with this encoding: 32 bytes that denote a number below the group order. -/
def decode (b : Bytes) : Option Scalar :=
  if b.length = elementSize then
    if h : b.toNatLE < groupOrder then some ⟨b.toNatLE, h⟩ else none
  else none

instance : ScalarField Scalar where
  zero := 0
  one := 1
  inv := invert
  ofNat := Fin.ofNat groupOrder
  encode := encode
  decode := decode
  ofUniform b := Fin.ofNat groupOrder b.toNatLE

end Scalar

end ShieldedPayments.Curve
