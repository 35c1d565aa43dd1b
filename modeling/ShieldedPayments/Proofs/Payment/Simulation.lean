import ShieldedPayments.Proofs.Group.Exponents
import ShieldedPayments.Proofs.Payment.Hidden

/-!
# Simulated payments

Where discrete logarithms are known, any statement has an accepted proof: the equation that is checked
last leaves a multiple of the blinding base open, which a last response makes up for. In the group of
exponents this gives a ring proof for any ring (`verify_simulateRing`), a range proof for any
commitment (`verify_simulateRange`), and a private payment for any commitments that balance
(`verify_simulate`), whatever the challenges are.
-/

namespace ShieldedPayments

open Curve (Scalar)

namespace Exponent

/-- A point as a multiple of the blinding base. -/
def overBlinding (p : Exponent) : Scalar :=
  p.log * 5⁻¹

theorem overBlinding_smul (p : Exponent) :
    p.overBlinding • (PointGroup.pedersen : PedersenBases Exponent).blinding = p := by
  apply Exponent.ext
  have hfive : (5 : Scalar) ≠ 0 := by decide
  show p.log * 5⁻¹ * 5 = p.log
  rw [mul_assoc, mul_comm 5⁻¹, ScalarField.Lawful.mul_inv_cancel 5 hfive, mul_one]

end Exponent

/-! ## Range proofs -/

namespace RangeProof

variable {F G : Type} [ScalarField F] [ScalarField.Lawful F] [PointGroup F G] [PointGroup.Lawful F G]

/-- A proof with other responses for the polynomial and the blinding. -/
def withResponses (proof : RangeProof F G) (tauX mu : F) : RangeProof F G :=
  { proof with tauX, mu }

omit [ScalarField.Lawful F] [PointGroup.Lawful F G] in
/-- The responses only enter the last challenge. -/
theorem challenges_withResponses (proof : RangeProof F G) (tauX mu : F) (base : G) (padded : Nat) :
    ∃ w t, (proof.withResponses tauX mu).challenges base padded =
      { proof.challenges base padded with w := w, transcript := t } :=
  challenges_with proof tauX proof.tHat mu proof.argument base padded

theorem polynomialRemainder_withResponses (proof : RangeProof F G) (tauX mu : F) (base : G)
    (padded : Nat) (x y z : F) :
    (proof.withResponses tauX mu).polynomialRemainder base padded x y z =
      proof.polynomialRemainder base padded x y z
        + (tauX - proof.tauX) • (PointGroup.pedersen : PedersenBases G).blinding := by
  have h := polynomialRemainder_with proof tauX proof.tHat mu proof.argument base padded x y z
  rwa [sub_self, zero_smul, zero_add] at h

theorem expectedStatement_withResponses (proof : RangeProof F G) (tauX mu : F) (g h : List G)
    (padded : Nat) (x y z w : F) :
    (proof.withResponses tauX mu).expectedStatement g h padded x y z w =
      proof.expectedStatement g h padded x y z w
        - (mu - proof.mu) • (PointGroup.pedersen : PedersenBases G).blinding := by
  unfold expectedStatement withResponses
  simp only [PointGroup.combination_append, PointGroup.combination_cons]
  module

/-- A proof about one commitment with nothing in it. -/
def blank (commitment : Exponent) : RangeProof Scalar Exponent where
  version := 1
  commitments := [commitment]
  a := 0
  s := 0
  t1 := 0
  t2 := 0
  tauX := 0
  tHat := 0
  mu := 0
  argument := ⟨List.replicate 6 (0, 0), 0, 0, 0⟩

/-- A proof about one commitment, with responses that make up for everything else under the given
challenges. -/
def simulateFor (commitment base : Exponent) (c : Challenges Scalar) : RangeProof Scalar Exponent :=
  let bases := vectorBases Exponent (1 * valueBits)
  (blank commitment).withResponses
    (-((blank commitment).polynomialRemainder base 1 c.x c.y c.z).overBlinding)
    ((blank commitment).expectedStatement bases.1 bases.2 1 c.x c.y c.z 0).overBlinding

/-- A proof about one commitment that is accepted. -/
def simulate (commitment base : Exponent) : RangeProof Scalar Exponent :=
  simulateFor commitment base ((blank commitment).challenges base 1)

theorem expectedStatement_blank (commitment : Exponent) (g h : List Exponent) (x y z w : Scalar) :
    (blank commitment).expectedStatement g h 1 x y z w =
      (blank commitment).expectedStatement g h 1 x y z 0 := by
  unfold expectedStatement blank
  simp only [PointGroup.combination_append, PointGroup.combination_cons, mul_zero]

theorem roundSum_replicate_zero (xs : List F) (n : Nat) :
    InnerProductProof.roundSum xs (List.replicate n ((0 : G), (0 : G))) = 0 := by
  induction xs generalizing n with
  | nil => simp [InnerProductProof.roundSum]
  | cons x xs ih =>
    cases n with
    | zero => simp [InnerProductProof.roundSum]
    | succ n => rw [List.replicate_succ, InnerProductProof.roundSum_cons, ih]; simp

/-- An inner-product argument about nothing is accepted. -/
theorem verifyScaled_replicate_zero (n : Nat) (t : Transcript) (g h : List G) (scale : List F) (u : G)
    (hg : 2 ^ n = g.length) (hh : h.length = g.length) (hscale : scale.length = g.length) :
    (⟨List.replicate n (0, 0), 0, 0, 0⟩ : InnerProductProof F G).verifyScaled t g h scale u =
      true := by
  rw [InnerProductProof.verifyScaled_iff, InnerProductProof.fits_iff]
  refine ⟨⟨⟨hh, by simpa using hg⟩, hscale⟩, ?_⟩
  rw [roundSum_replicate_zero]
  simp [InnerProductProof.foldedSum]

theorem length_vectorBases (n : Nat) (h : n ≤ InnerProductBases.largest) :
    (vectorBases Exponent n).1.length = n ∧ (vectorBases Exponent n).2.length = n := by
  constructor
  · show ((List.replicate InnerProductBases.largest (⟨6⟩ : Exponent)).take n).length = n
    rw [List.length_take, List.length_replicate, min_eq_left h]
  · show ((List.replicate InnerProductBases.largest (⟨7⟩ : Exponent)).take n).length = n
    rw [List.length_take, List.length_replicate, min_eq_left h]

theorem holds_simulateFor (commitment base : Exponent) (c : Challenges Scalar) :
    (simulateFor commitment base c).Holds base 1 c := by
  obtain ⟨hleft, hright⟩ := length_vectorBases (1 * valueBits) (by decide)
  refine ⟨rfl, ?_, ?_, ?_⟩
  · rw [simulateFor, polynomialRemainder_withResponses]
    show _ + (-_ - (0 : Scalar)) • _ = _
    rw [sub_zero, neg_smul, Exponent.overBlinding_smul, add_neg_cancel]
  · rw [simulateFor, expectedStatement_withResponses, expectedStatement_blank]
    show _ - (_ - (0 : Scalar)) • _ = _
    rw [sub_zero, Exponent.overBlinding_smul, sub_self]
    rfl
  · apply verifyScaled_replicate_zero
    · rw [hleft]
      rfl
    · rw [hleft, hright]
    · rw [length_powers, hleft]

theorem paddedCount_one : paddedCount 1 = .ok 1 :=
  (paddedCount_eq_ok_iff 1 1).mpr ⟨by decide, by decide +kernel⟩

theorem verify_simulate (commitment base : Exponent) (check : RangeCheck) :
    (simulate commitment base).verify check base = .ok () := by
  rw [verify_eq_ok_iff]
  refine ⟨1, paddedCount_one, ?_⟩
  obtain ⟨w, t, hc⟩ := challenges_withResponses (blank commitment) _ _ base 1
  rw [simulate, simulateFor, hc]
  exact holds_simulateFor commitment base
    { (blank commitment).challenges base 1 with w, transcript := t }

end RangeProof

/-! ## Ring proofs -/

namespace RingProof

/-- Points of a proof, all of them zero. -/
def blankPoints : Vector Exponent ringDepth :=
  Vector.replicate ringDepth 0

/-- A proof with nothing in it but its last response. -/
def blank (zd : Scalar) : RingProof Scalar Exponent where
  cl := blankPoints
  ca := blankPoints
  cb := blankPoints
  cd := blankPoints
  f := Vector.replicate ringDepth 0
  za := Vector.replicate ringDepth 0
  zb := Vector.replicate ringDepth 0
  zd := zd

/-- A proof for a ring under a given challenge, with a last response that makes up for all members. -/
def simulateFor (ring : List Exponent) (x : Scalar) : RingProof Scalar Exponent :=
  blank ((blank 0).remainder ring x).overBlinding

/-- A proof for a ring. -/
def simulate (ring : List Exponent) : RingProof Scalar Exponent :=
  simulateFor ring (challenge ring blankPoints blankPoints blankPoints blankPoints)

theorem remainder_blank (zd x : Scalar) (ring : List Exponent) :
    (blank zd).remainder ring x =
      (blank 0).remainder ring x - zd • (PointGroup.pedersen : PedersenBases Exponent).blinding := by
  unfold remainder blank
  simp only [PointGroup.combination_append, PointGroup.combination_cons]
  module

theorem get_replicate {α : Type} (n : Nat) (a : α) (j : Fin n) : (Vector.replicate n a).get j = a :=
  Vector.getElem_replicate j.isLt

theorem holds_simulateFor (ring : List Exponent) (x : Scalar) :
    (simulateFor ring x).Holds ring x := by
  refine ⟨?_, ?_, ?_⟩
  · intro j
    simp only [simulateFor, blank, blankPoints, get_replicate]
    rw [smul_zero, add_zero, Pedersen.commitAt_zero_left, zero_smul]
  · intro j
    simp only [simulateFor, blank, blankPoints, get_replicate]
    rw [smul_zero, add_zero, zero_smul]
  · rw [simulateFor, remainder_blank, Exponent.overBlinding_smul, sub_self]

theorem verify_simulate (ring : List Exponent) (h : ring.length = ringSize) :
    (simulate ring).verify ring = .ok () := by
  rw [verify_eq_ok_iff]
  refine ⟨h, ?_⟩
  unfold simulate
  generalize hx : (challenge ring blankPoints blankPoints blankPoints blankPoints : Scalar) = x
  have hcl : (simulateFor ring x).cl = blankPoints := rfl
  have hca : (simulateFor ring x).ca = blankPoints := rfl
  have hcb : (simulateFor ring x).cb = blankPoints := rfl
  have hcd : (simulateFor ring x).cd = blankPoints := rfl
  rw [hcl, hca, hcb, hcd, hx]
  exact holds_simulateFor ring x

end RingProof

/-! ## Serial numbers -/

namespace HiddenSerialProof

/-- The statement that everything is zero but the serial number, which is the base of spend keys. -/
def blankStatement : HiddenSerialStatement Exponent :=
  ⟨(PointGroup.pedersen : PedersenBases Exponent).spendKey, 0, 0⟩

/-- A proof of that statement under a given challenge. -/
def simulateFor (x : Scalar) : HiddenSerialProof Scalar Exponent where
  serial := blankStatement.serial
  derivatorCommitment := blankStatement.derivatorCommitment
  keyMask := 0
  derivatorMask := 0
  serialMask := 0
  response := ⟨x, (-(x • blankStatement.serial)).overBlinding, 0, 0⟩

/-- A proof of that statement. -/
def simulate : HiddenSerialProof Scalar Exponent :=
  simulateFor (challenge blankStatement 0 0 0)

theorem holds_simulateFor (x : Scalar) : (simulateFor x).Holds blankStatement.keyCommitment x := by
  refine ⟨?_, ?_, ?_⟩
  · unfold simulateFor Pedersen.commitAt
    simp only [Exponent.overBlinding_smul]
    show x • (0 : Exponent) + 0 = _
    rw [smul_zero, add_zero]
    exact (add_neg_cancel _).symm
  · simp [simulateFor, blankStatement, Pedersen.commitAt]
  · rw [PointGroup.baseMultiple_eq]
    simp [simulateFor, blankStatement]

theorem verify_simulate : simulate.verify blankStatement.keyCommitment none = .ok () := by
  rw [verify_eq_ok_iff, Option.getD_none]
  unfold simulate
  generalize hx : (challenge blankStatement 0 0 0 : Scalar) = x
  have hstatement : (simulateFor x).statement blankStatement.keyCommitment = blankStatement := rfl
  have hkey : (simulateFor x).keyMask = 0 := rfl
  have hderivator : (simulateFor x).derivatorMask = 0 := rfl
  have hserial : (simulateFor x).serialMask = 0 := rfl
  rw [hstatement, hkey, hderivator, hserial, hx]
  exact holds_simulateFor x

end HiddenSerialProof

/-! ## Payments -/

namespace AccountPayment

/-- A payment from a ledger of zeros: one input, with parts for its value and its shard, and one
output with its parts. -/
def simulate (value shard : Exponent) (output : SealedCoin Scalar Exponent)
    (outputValue outputDerivator outputShard : Exponent) : AccountPayment Scalar Exponent where
  ringProofs := [RingProof.simulate (List.replicate ringSize (0 - (0 + value + 0 + shard)))]
  hiddenSerialProofs := [HiddenSerialProof.simulate]
  rangeProof := some (RangeProof.simulate outputValue RangeProof.defaultBase)
  inputs := [{ serialNumber := some HiddenSerialProof.simulate.serial }]
  outputs := [output]
  outputValues := [outputValue]
  outputDerivators := [outputDerivator]
  outputShards := [outputShard]
  inputKey := some 0
  inputValues := [value]
  inputDerivators := [0]
  inputShard := some shard
  ledgerIndices := List.replicate ringSize 0

/-- A ledger that has zero at every position. -/
def zeroSource : CommitmentSource Exponent := fun _ _ _ => .ok 0

theorem ring_zeroSource (token : TokenId) (shard : UInt8) (sum : Exponent) (indices : List UInt64) :
    ring zeroSource token shard sum indices = .ok (List.replicate indices.length (0 - sum)) := by
  unfold ring
  rw [Outcome.mapM_eq_ok_iff]
  induction indices with
  | nil => exact List.Forall₂.nil
  | cons index indices ih => exact List.Forall₂.cons rfl ih

/-- **A simulated payment is accepted** if its parts add up to its commitments and balance. -/
theorem verify_simulate (context : VerifyContext) (value shard : Exponent)
    (output : SealedCoin Scalar Exponent) (outputValue outputDerivator outputShard : Exponent)
    (houtput : HiddenOutputHolds output outputValue outputDerivator outputShard)
    (hbalance : value = outputValue
      + (ofNat context.fee.toNat : Scalar) • (pedersen : PedersenBases Exponent).value) :
    (simulate value shard output outputValue outputDerivator outputShard).verify context zeroSource =
      .ok () := by
  rw [verify_eq_ok_iff_of_private _ _ _ rfl]
  refine ⟨0, shard, RangeProof.simulate outputValue RangeProof.defaultBase, ?_⟩
  refine {
    shape := ⟨rfl, rfl, rfl, rfl, rfl, rfl, List.cons_ne_nil _ _, rfl, rfl, rfl⟩
    inputKey := rfl
    inputShard := rfl
    serials := rfl
    inputs := ?_
    outputs := ?_
    hasRange := rfl
    commitments := rfl
    range := RangeProof.verify_simulate _ _ _
    balance := ?_ }
  · intro input hinput
    obtain rfl := List.mem_singleton.mp hinput
    rw [checkHiddenInput_eq_ok_iff]
    exact ⟨_, ring_zeroSource _ _ _ _, RingProof.verify_simulate _ rfl, rfl, rfl,
      HiddenSerialProof.verify_simulate⟩
  · intro coin v d s hmem
    obtain ⟨rfl, rfl, rfl, rfl⟩ := by simpa [simulate] using hmem
    exact houtput
  · simpa [simulate] using hbalance

end AccountPayment

end ShieldedPayments
