import Mathlib.Tactic.Module
import ShieldedPayments.Proofs.Argument.InnerProduct
import ShieldedPayments.Proofs.Fault

/-!
# What range proofs show

The challenges of a range proof, and the three equations that it is checked by
(`RangeProof.verify_eq_ok_iff`). The check of the inner-product argument is one sum here, since both
ways of checking it agree.
-/

namespace ShieldedPayments.RangeProof

open PointGroup

variable {F G : Type} [ScalarField F] [PointGroup F G]

/-- The challenges of a range proof, and the transcript that its inner-product argument goes on
with. -/
structure Challenges (F : Type) where
  y : F
  z : F
  x : F
  w : F
  transcript : Transcript

/-- The challenges that a proof leads to. -/
def challenges (proof : RangeProof F G) (base : G) (padded : Nat) : Challenges F :=
  let (y, z, t) : F × F × Transcript :=
    challengesYZ (transcript proof.version base proof.commitments padded) proof.a proof.s
  let (x, t) : F × Transcript := challengeX t proof.t1 proof.t2
  let (w, t) := challengeW t proof.tauX proof.tHat proof.mu
  ⟨y, z, x, w, t⟩

/-- The equations of a range proof for its challenges. -/
structure Holds (proof : RangeProof F G) (base : G) (padded : Nat) (c : Challenges F) : Prop where
  rounds : 1 <<< proof.argument.rounds.length = padded * valueBits
  polynomial : proof.polynomialRemainder base padded c.x c.y c.z = 0
  statement : proof.expectedStatement (vectorBases G (padded * valueBits)).1
    (vectorBases G (padded * valueBits)).2 padded c.x c.y c.z c.w = proof.argument.p
  argument : proof.argument.verifyScaled c.transcript (vectorBases G (padded * valueBits)).1
    (vectorBases G (padded * valueBits)).2 (powers c.y⁻¹ (padded * valueBits))
    (c.w • (PointGroup.innerProduct : InnerProductBases G).inner) = true

theorem paddedCount_eq_ok_iff (count padded : Nat) :
    paddedCount count = .ok padded ↔
      (count ≠ 0 ∧ count ≤ maxOutputs) ∧ count.nextPowerOfTwo = padded := by
  unfold paddedCount
  rw [ensure_bind_eq_ok_iff, Outcome.pure_eq_ok_iff, Bool.and_eq_true, bne_iff_ne, decide_eq_true_iff]

theorem defined_paddedCount (count : Nat) : (paddedCount count).Defined :=
  (Outcome.defined_ensure (by nofun)).bind fun _ _ => Outcome.defined_ok _

/-- The responses and the inner-product argument only enter the last challenge. -/
theorem challenges_with (proof : RangeProof F G) (tauX tHat mu : F) (argument : InnerProductProof F G)
    (base : G) (padded : Nat) :
    ∃ w t, { proof with tauX, tHat, mu, argument : RangeProof F G }.challenges base padded =
      { proof.challenges base padded with w := w, transcript := t } := by
  simp only [challenges]
  generalize (challengesYZ (transcript proof.version base proof.commitments padded) proof.a proof.s :
    F × F × Transcript) = first
  obtain ⟨y, z, t⟩ := first
  simp only
  generalize (challengeX t proof.t1 proof.t2 : F × Transcript) = second
  obtain ⟨x, t⟩ := second
  exact ⟨_, _, rfl⟩

variable [ScalarField.Lawful F] [PointGroup.Lawful F G]

theorem polynomialRemainder_with (proof : RangeProof F G) (tauX tHat mu : F)
    (argument : InnerProductProof F G) (base : G) (padded : Nat) (x y z : F) :
    { proof with tauX, tHat, mu, argument : RangeProof F G }.polynomialRemainder base padded x y z =
      proof.polynomialRemainder base padded x y z + ((tHat - proof.tHat) • base
        + (tauX - proof.tauX) • (pedersen : PedersenBases G).blinding) := by
  unfold polynomialRemainder
  simp only [combination_append, combination_cons]
  module

/-- **A range proof is accepted if its equations hold**, whichever way its inner-product argument is
checked. -/
theorem verify_eq_ok_iff (proof : RangeProof F G) (check : RangeCheck) (base : G) :
    proof.verify check base = .ok () ↔
      ∃ padded, paddedCount proof.commitments.length = .ok padded ∧
        proof.Holds base padded (proof.challenges base padded) := by
  have hsingle : proof.verify check base = proof.verify .singleSum base := by
    cases check with
    | folding => exact proof.verify_check base
    | singleSum => rfl
  rw [hsingle, verify, Outcome.bind_eq_ok_iff]
  refine exists_congr fun padded => and_congr_right fun _ => ?_
  unfold challenges
  obtain ⟨y, z, t⟩ : F × F × Transcript :=
    challengesYZ (transcript proof.version base proof.commitments padded) proof.a proof.s
  obtain ⟨x, t⟩ : F × Transcript := challengeX t proof.t1 proof.t2
  obtain ⟨w, t⟩ : F × Transcript := challengeW t proof.tauX proof.tHat proof.mu
  simp only [ensure_bind_eq_ok_iff, ensure_eq_ok_iff, beq_iff_eq]
  constructor
  · rintro ⟨hrounds, hpolynomial, hstatement, hargument⟩
    exact ⟨hrounds, hpolynomial, hstatement, hargument⟩
  · rintro ⟨hrounds, hpolynomial, hstatement, hargument⟩
    exact ⟨hrounds, hpolynomial, hstatement, hargument⟩

end ShieldedPayments.RangeProof
