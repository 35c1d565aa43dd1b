import ShieldedPayments.Argument.Range
import ShieldedPayments.Curve.Ristretto
import ShieldedPayments.Proofs.Group.Exponents

/-!
# Enough bases

Range proofs take the bases of their inner-product argument off the front of two fixed vectors. Those
are as long as the bit vector of the largest range proof, so that no proof runs out of bases. Nor does a
byte of the encoding of a point go missing: all have the same size.
-/

namespace ShieldedPayments

/-- There are as many inner-product bases on either side as the largest range proof needs. -/
class PointGroup.FullBases (F : outParam Type) (G : Type) [ScalarField F] [PointGroup F G] :
    Prop where
  length_left :
    (PointGroup.innerProduct : InnerProductBases G).left.length = InnerProductBases.largest
  length_right :
    (PointGroup.innerProduct : InnerProductBases G).right.length = InnerProductBases.largest

theorem InnerProductBases.length_hashedVector {G : Type} (ofUniform : Bytes → G) (label : String)
    (capacity : Nat) : (hashedVector ofUniform label capacity).length = capacity := by
  rw [hashedVector, List.length_map, List.length_range]

theorem InnerProductBases.length_derive {G : Type} (ofUniform : Bytes → G) (capacity : Nat) :
    (derive ofUniform capacity).left.length = capacity ∧
      (derive ofUniform capacity).right.length = capacity :=
  ⟨length_hashedVector _ _ _, length_hashedVector _ _ _⟩

instance : PointGroup.FullBases Curve.Scalar Curve.RistrettoPoint :=
  have h := InnerProductBases.length_derive Curve.RistrettoPoint.ofUniform InnerProductBases.largest
  { length_left := h.1
    length_right := h.2 }

instance : PointGroup.Sized Curve.Scalar Curve.RistrettoPoint :=
  ⟨fun p => Bytes.length_ofNatLE 32 p.coordinate.toNat⟩

instance : PointGroup.FullBases Curve.Scalar Exponent where
  length_left := List.length_replicate
  length_right := List.length_replicate

variable {F G : Type} [ScalarField F] [PointGroup F G] [PointGroup.FullBases F G]

theorem RangeProof.length_vectorBases_of_le {n : Nat} (h : n ≤ InnerProductBases.largest) :
    (vectorBases G n).1.length = n ∧ (vectorBases G n).2.length = n := by
  unfold vectorBases
  rw [List.length_take, List.length_take, PointGroup.FullBases.length_left,
    PointGroup.FullBases.length_right]
  exact ⟨min_eq_left h, min_eq_left h⟩

end ShieldedPayments
