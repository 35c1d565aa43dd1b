import ShieldedPayments.Proofs.Curve.Scalar
import ShieldedPayments.Group.Derivation

/-!
# A group of known discrete logarithms

The simplest group that obeys all laws: a point is the scalar by which it is a multiple of the base
of spend keys, and is encoded as that scalar. Nothing is hidden in it, but whatever follows from the
laws alone holds here, and whether a proof is accepted can be worked out by arithmetic on scalars.
-/

namespace ShieldedPayments

open Curve (Scalar)

/-- A point, as a multiple of the base of spend keys. -/
@[ext]
structure Exponent where
  log : Scalar
  deriving DecidableEq

namespace Exponent

instance : PointGroup Scalar Exponent where
  add p q := ⟨p.log + q.log⟩
  sub p q := ⟨p.log - q.log⟩
  neg p := ⟨-p.log⟩
  zero := ⟨0⟩
  smul s p := ⟨s * p.log⟩
  beq p q := p.log == q.log
  encode p := ScalarField.encode p.log
  decode b := (ScalarField.decode b).map mk
  ofUniform b := ⟨ScalarField.ofUniform b⟩
  combination terms := ⟨(terms.map fun term => term.1 * term.2.log).sum⟩
  baseMultiple s := ⟨s⟩
  pedersen := ⟨⟨1⟩, ⟨2⟩, ⟨3⟩, ⟨4⟩, ⟨5⟩⟩
  innerProduct := ⟨List.replicate InnerProductBases.largest ⟨6⟩,
    List.replicate InnerProductBases.largest ⟨7⟩, ⟨8⟩⟩

instance : PointGroup.Lawful Scalar Exponent where
  add_assoc p q r := Exponent.ext (add_assoc p.log q.log r.log)
  add_comm p q := Exponent.ext (add_comm p.log q.log)
  zero_add p := Exponent.ext (zero_add p.log)
  neg_add_cancel p := Exponent.ext (neg_add_cancel p.log)
  sub_eq_add_neg p q := Exponent.ext (sub_eq_add_neg p.log q.log)
  one_smul p := Exponent.ext (one_mul p.log)
  mul_smul a b p := Exponent.ext (mul_assoc a b p.log)
  add_smul a b p := Exponent.ext (add_mul a b p.log)
  smul_add a p q := Exponent.ext (mul_add a p.log q.log)
  beq_iff_eq p q := by
    show (p.log == q.log) = true ↔ p = q
    rw [beq_iff_eq]
    exact ⟨Exponent.ext, congrArg log⟩
  combination_nil := rfl
  combination_cons a p terms := Exponent.ext <| by
    show (((a, p) :: terms).map fun term => term.1 * term.2.log).sum =
      a * p.log + (terms.map fun term => term.1 * term.2.log).sum
    rw [List.map_cons, List.sum_cons]
  baseMultiple_eq a := Exponent.ext (mul_one a).symm

instance : PointGroup.Canonical Scalar Exponent where
  length_encode p := ScalarField.Canonical.length_encode p.log
  decode_encode p := by
    show (ScalarField.decode (ScalarField.encode p.log)).map mk = some p
    rw [ScalarField.Canonical.decode_encode]
    rfl
  encode_of_decode b p h := by
    obtain ⟨x, hx, rfl⟩ := Option.map_eq_some_iff.mp h
    exact Scalar.encode_of_decode hx

end Exponent

end ShieldedPayments
