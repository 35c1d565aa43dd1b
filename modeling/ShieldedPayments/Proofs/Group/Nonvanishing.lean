import ShieldedPayments.Proofs.Group.Bases

/-!
# Scalars that are never hashed to zero

Honest proofs are accepted unless a challenge is zero. That happens for one in `groupOrder` strings of
bytes, none of which anybody knows. The field here replaces the zero that such a string is reduced to
by one, and obeys the same laws otherwise; over it, every honest proof is accepted.

* `ScalarField.Nonvanishing`: no bytes are reduced to zero.
* `InnerProductProof.challenges_ne_zero`: what that means for the rounds of an argument.
* `NonzeroScalar`, `NonzeroExponent`: a field and a group for which it holds.
-/

namespace ShieldedPayments

open Curve (Scalar)

/-- No uniform bytes are reduced to zero. -/
class ScalarField.Nonvanishing (F : Type) [ScalarField F] : Prop where
  ofUniform_ne_zero : ∀ b : Bytes, (ofUniform b : F) ≠ 0

section

variable {F G : Type} [ScalarField F] [ScalarField.Nonvanishing F] [PointGroup F G]

theorem Transcript.challenge_ne_zero (t : Transcript) (label : Bytes) :
    (t.challenge label : F × Transcript).1 ≠ 0 :=
  ScalarField.Nonvanishing.ofUniform_ne_zero _

theorem InnerProductProof.challenges_ne_zero (rounds : List (G × G)) (t : Transcript) :
    ∀ x ∈ challenges rounds t, x ≠ (0 : F) := by
  induction rounds generalizing t with
  | nil => exact fun _ h => absurd h List.not_mem_nil
  | cons round rounds ih =>
    rw [challenges, List.forall_mem_cons, roundChallenge]
    exact ⟨Transcript.challenge_ne_zero _ _, ih _⟩

end

/-! ## Replacing zero -/

section

variable {F : Type}

/-- The same scalars, with one in the place of zero where bytes are reduced. -/
@[reducible]
def ScalarField.nonvanishing (S : ScalarField F) : ScalarField F :=
  { S with ofUniform := fun b => if S.ofUniform b == 0 then 1 else S.ofUniform b }

variable (S : ScalarField F)

theorem ScalarField.lawful_nonvanishing [h : Lawful F] : @Lawful F S.nonvanishing :=
  @Lawful.mk F S.nonvanishing h.add_assoc h.add_comm h.zero_add h.neg_add_cancel h.sub_eq_add_neg
    h.mul_assoc h.mul_comm h.one_mul h.mul_add h.zero_ne_one h.mul_inv_cancel h.inv_zero
    h.beq_iff_eq h.ofNat_zero h.ofNat_succ

theorem ScalarField.canonical_nonvanishing [h : Canonical F] : @Canonical F S.nonvanishing :=
  @Canonical.mk F S.nonvanishing h.length_encode h.decode_encode h.ofNat_encode h.encode_ofNat

theorem ScalarField.singleForm_nonvanishing [h : SingleForm F] : @SingleForm F S.nonvanishing :=
  @SingleForm.mk F S.nonvanishing h.encode_of_decode

theorem ScalarField.nonvanishing_nonvanishing [h : Lawful F] : @Nonvanishing F S.nonvanishing :=
  @Nonvanishing.mk F S.nonvanishing <| by
    intro b
    show (if S.ofUniform b == 0 then 1 else S.ofUniform b) ≠ 0
    split
    · exact h.zero_ne_one.symm
    · next hb => exact fun hzero => hb ((h.beq_iff_eq _ _).mpr hzero)

variable {G : Type} [PointGroup F G]

theorem PointGroup.lawful_nonvanishing [h : Lawful F G] : @Lawful F G S.nonvanishing _ :=
  @Lawful.mk F G S.nonvanishing _ h.add_assoc h.add_comm h.zero_add h.neg_add_cancel
    h.sub_eq_add_neg h.one_smul h.mul_smul h.add_smul h.smul_add h.beq_iff_eq h.combination_nil
    h.combination_cons h.baseMultiple_eq

theorem PointGroup.canonical_nonvanishing [h : Canonical F G] : @Canonical F G S.nonvanishing _ :=
  @Canonical.mk F G S.nonvanishing _ h.length_encode h.decode_encode h.encode_of_decode

end

/-! ## Scalars and exponents -/

/-- The scalars, never reduced to zero. -/
def NonzeroScalar : Type := Scalar

/-- The group of exponents over these scalars. -/
def NonzeroExponent : Type := Exponent

namespace NonzeroScalar

instance : DecidableEq NonzeroScalar :=
  inferInstanceAs (DecidableEq Scalar)

instance : ScalarField NonzeroScalar :=
  ScalarField.nonvanishing (inferInstance : ScalarField Scalar)

instance : ScalarField.Lawful NonzeroScalar :=
  ScalarField.lawful_nonvanishing (inferInstance : ScalarField Scalar)

instance : ScalarField.Canonical NonzeroScalar :=
  ScalarField.canonical_nonvanishing (inferInstance : ScalarField Scalar)

instance : ScalarField.SingleForm NonzeroScalar :=
  ScalarField.singleForm_nonvanishing (inferInstance : ScalarField Scalar)

instance : ScalarField.Nonvanishing NonzeroScalar :=
  ScalarField.nonvanishing_nonvanishing (inferInstance : ScalarField Scalar)

end NonzeroScalar

namespace NonzeroExponent

instance : DecidableEq NonzeroExponent :=
  inferInstanceAs (DecidableEq Exponent)

instance : PointGroup NonzeroScalar NonzeroExponent :=
  (inferInstance : PointGroup Scalar Exponent)

instance : PointGroup.Lawful NonzeroScalar NonzeroExponent :=
  PointGroup.lawful_nonvanishing (G := Exponent) (inferInstance : ScalarField Scalar)

instance : PointGroup.Canonical NonzeroScalar NonzeroExponent :=
  PointGroup.canonical_nonvanishing (G := Exponent) (inferInstance : ScalarField Scalar)

instance : PointGroup.FullBases NonzeroScalar NonzeroExponent where
  length_left := PointGroup.FullBases.length_left (G := Exponent)
  length_right := PointGroup.FullBases.length_right (G := Exponent)

end NonzeroExponent

end ShieldedPayments
