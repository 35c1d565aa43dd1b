import Mathlib.LinearAlgebra.LinearIndependent.Lemmas
import ShieldedPayments.Proofs.Curve.Scalar
import ShieldedPayments.Group.Derivation

/-!
# A group with independent bases

In a group of prime order every point is a multiple of every other one; that nobody knows the factor is
what protocols rely on. The group here has no such factor between the base of spend keys and that of
blindings: a point is a pair of scalars, and the two bases are the unit vectors
(`Plane.linearIndependent_bases`). A commitment to a spend key has one opening in it.
-/

namespace ShieldedPayments

open Curve (Scalar)

/-- A point, as a combination of the bases of spend keys and of blindings. -/
@[ext]
structure Plane where
  spendKey : Scalar
  blinding : Scalar
  deriving DecidableEq

namespace Plane

instance : PointGroup Scalar Plane where
  add p q := ⟨p.spendKey + q.spendKey, p.blinding + q.blinding⟩
  sub p q := ⟨p.spendKey - q.spendKey, p.blinding - q.blinding⟩
  neg p := ⟨-p.spendKey, -p.blinding⟩
  zero := ⟨0, 0⟩
  smul s p := ⟨s * p.spendKey, s * p.blinding⟩
  beq p q := p.spendKey == q.spendKey && p.blinding == q.blinding
  encode p := ScalarField.encode p.spendKey ++ ScalarField.encode p.blinding
  decode b := do
    let spendKey ← ScalarField.decode (b.take elementSize)
    let blinding ← ScalarField.decode (b.drop elementSize)
    return ⟨spendKey, blinding⟩
  ofUniform b := ⟨ScalarField.ofUniform b, 1⟩
  combination terms := ⟨(terms.map fun term => term.1 * term.2.spendKey).sum,
    (terms.map fun term => term.1 * term.2.blinding).sum⟩
  baseMultiple s := ⟨s, 0⟩
  pedersen := ⟨⟨1, 0⟩, ⟨1, 1⟩, ⟨1, 2⟩, ⟨1, 3⟩, ⟨0, 1⟩⟩
  innerProduct := ⟨List.replicate InnerProductBases.largest ⟨2, 1⟩,
    List.replicate InnerProductBases.largest ⟨3, 1⟩, ⟨4, 1⟩⟩

instance : PointGroup.Lawful Scalar Plane where
  add_assoc p q r := Plane.ext (add_assoc _ _ _) (add_assoc _ _ _)
  add_comm p q := Plane.ext (add_comm _ _) (add_comm _ _)
  zero_add p := Plane.ext (zero_add _) (zero_add _)
  neg_add_cancel p := Plane.ext (neg_add_cancel _) (neg_add_cancel _)
  sub_eq_add_neg p q := Plane.ext (sub_eq_add_neg _ _) (sub_eq_add_neg _ _)
  one_smul p := Plane.ext (one_mul _) (one_mul _)
  mul_smul a b p := Plane.ext (mul_assoc _ _ _) (mul_assoc _ _ _)
  add_smul a b p := Plane.ext (add_mul _ _ _) (add_mul _ _ _)
  smul_add a p q := Plane.ext (mul_add _ _ _) (mul_add _ _ _)
  beq_iff_eq p q := by
    show (p.spendKey == q.spendKey && p.blinding == q.blinding) = true ↔ p = q
    rw [Bool.and_eq_true, beq_iff_eq, beq_iff_eq]
    exact ⟨fun h => Plane.ext h.1 h.2, fun h => ⟨congrArg spendKey h, congrArg blinding h⟩⟩
  combination_nil := rfl
  combination_cons a p terms := Plane.ext List.sum_cons List.sum_cons
  baseMultiple_eq a := Plane.ext (mul_one a).symm (mul_zero a).symm

/-- No commitment to a spend key has two openings. -/
theorem linearIndependent_bases :
    LinearIndependent Scalar ![(PointGroup.pedersen : PedersenBases Plane).spendKey,
      (PointGroup.pedersen : PedersenBases Plane).blinding] := by
  rw [LinearIndependent.pair_iff]
  intro a b h
  have hspendKey : a * 1 + b * 0 = 0 := congrArg spendKey h
  have hblinding : a * 0 + b * 1 = 0 := congrArg blinding h
  constructor
  · rwa [mul_one, mul_zero, add_zero] at hspendKey
  · rwa [mul_one, mul_zero, zero_add] at hblinding

end Plane

end ShieldedPayments
