import ShieldedPayments.Proofs.Payment.OpenConserves
import ShieldedPayments.Proofs.Payment.Hidden
import ShieldedPayments.Payment.Basic

/-!
# How many coins a payment has

An accepted payment spends at least one coin and creates between one and `maxOutputs` coins, if it is of
one-time coins, a conversion, or a private payment of account coins. Private payments are bounded through
their parts: a payment with a proof of membership has an input, and a range proof covers no more than
`maxOutputs` outputs (`AccountPayment.HiddenHolds.counts`).

Transparent payments are not bounded. All that holds of them is what the balance leaves: without inputs
nothing of value is created, and as many coins without value as one likes can be added
(`AccountPayment.verify_appendOutputs_iff`). `AnyPayment.coin_counts_of_verify` puts both together.
-/

namespace ShieldedPayments

variable {F G : Type} [ScalarField F] [PointGroup F G]

/-- Values that balance still do after more are added, if all of these are zero. -/
theorem Balance.Exact.append_iff {inputs outputs more : List UInt64} {fee : UInt64}
    (h : Exact inputs outputs fee) : Exact inputs (outputs ++ more) fee ↔ ∀ v ∈ more, v = 0 := by
  obtain ⟨hbalance, hsize⟩ := h
  have hsum : Exact inputs (outputs ++ more) fee ↔ (more.map UInt64.toNat).sum = 0 := by
    unfold Exact
    rw [List.map_append, List.sum_append]
    omega
  rw [hsum, List.sum_eq_zero_iff, List.forall_mem_map]
  exact forall₂_congr fun v _ => UInt64.toNat_inj (b := 0)

theorem RangeProof.length_commitments_le [ScalarField.Lawful F] [PointGroup.Lawful F G]
    {proof : RangeProof F G} {check : RangeCheck} {base : G} (h : proof.verify check base = .ok ()) :
    proof.commitments.length ≤ maxOutputs := by
  obtain ⟨padded, hpadded, -⟩ := (proof.verify_eq_ok_iff check base).mp h
  exact ((paddedCount_eq_ok_iff _ padded).mp hpadded).1.2

namespace AnyPayment

/-- A payment spends a coin, and creates at least one coin and no more than `maxOutputs`. -/
structure CountsInBounds (payment : AnyPayment F G) : Prop where
  inputs : 1 ≤ payment.inputs.length
  outputs : 1 ≤ payment.outputs.length
  outputs_le : payment.outputs.length ≤ maxOutputs

end AnyPayment

/-! ## Private payments, one-time coins and conversions -/

section

variable {context : VerifyContext} {source : CommitmentSource G}

/-- A private payment has an input because it has a proof of membership. Its outputs are no more than
the commitments that its range proof covers. -/
theorem AccountPayment.HiddenHolds.counts [ScalarField.Lawful F] [PointGroup.Lawful F G]
    {payment : AccountPayment F G} {key shard : G} {rangeProof : RangeProof F G}
    (h : payment.HiddenHolds context source key shard rangeProof) (hprivate : payment.isPrivate = true) :
    (AnyPayment.account payment).CountsInBounds := by
  have hrings : payment.ringProofs ≠ [] := by
    unfold isPrivate at hprivate
    rwa [Bool.not_eq_true', List.isEmpty_eq_false_iff] at hprivate
  have hcovered : payment.outputs.length = rangeProof.commitments.length := by
    rw [h.commitments, h.shape.outputValues]
  constructor
  · rw [AnyPayment.inputs, List.length_map, ← h.shape.ringProofs]
    exact List.length_pos_iff.mpr hrings
  · rw [AnyPayment.outputs, List.length_map]
    exact List.length_pos_iff.mpr h.shape.outputs
  · rw [AnyPayment.outputs, List.length_map, hcovered]
    exact RangeProof.length_commitments_le h.range

theorem OneTimePayment.counts_of_verify {payment : OneTimePayment F G}
    (h : payment.verify context = .ok ()) : (AnyPayment.oneTime payment).CountsInBounds := by
  unfold verify at h
  rw [ensure_bind_eq_ok_iff, ensure_bind_eq_ok_iff, Bool.and_eq_true, decide_eq_true_iff,
    Bool.not_eq_true', Bool.not_eq_true', List.isEmpty_eq_false_iff, List.isEmpty_eq_false_iff] at h
  obtain ⟨hinputs, ⟨houtputs, hlength⟩, -⟩ := h
  constructor
  · rw [AnyPayment.inputs, List.length_map]
    exact List.length_pos_iff.mpr hinputs
  · rw [AnyPayment.outputs, List.length_map]
    exact List.length_pos_iff.mpr houtputs
  · rwa [AnyPayment.outputs, List.length_map]

theorem Conversion.Holds.counts {conversion : Conversion F G}
    (h : conversion.Holds context) : (AnyPayment.conversion conversion).CountsInBounds := by
  constructor
  · rw [AnyPayment.inputs, List.length_map]
    exact List.length_pos_iff.mpr h.inputs_ne_nil
  · rw [AnyPayment.outputs, List.length_map]
    exact List.length_pos_iff.mpr h.outputs_ne_nil
  · rw [AnyPayment.outputs, List.length_map]
    exact h.outputs_length

end

/-! ## Transparent payments -/

/-- An output that opens without a seal and is worth nothing. -/
def SealedCoin.OpensAsZero (coin : SealedCoin F G) (params : ShardParams) : Prop :=
  coin.encrypted = none ∧ coin.details.verifyCommitment params = .ok () ∧ coin.details.value = 0

namespace AccountPayment

variable {payment : AccountPayment F G} {context : VerifyContext} {source : CommitmentSource G}

/-- A payment with more outputs. -/
def appendOutputs (payment : AccountPayment F G) (coins : List (SealedCoin F G)) :
    AccountPayment F G :=
  { payment with outputs := payment.outputs ++ coins }

theorem OpenHolds.appendOutputs_iff (h : payment.OpenHolds context source)
    (coins : List (SealedCoin F G)) :
    (payment.appendOutputs coins).OpenHolds context source ↔
      ∀ coin ∈ coins, coin.encrypted = none ∧
        coin.details.verifyCommitment context.params = .ok () := by
  constructor
  · intro happended coin hcoin
    exact happended.outputs coin (List.mem_append_right _ hcoin)
  · intro hcoins
    exact { h with outputs := List.forall_mem_append.mpr ⟨h.outputs, hcoins⟩ }

variable [ScalarField.Lawful F] [PointGroup.Lawful F G]

/-- **Nothing bounds the outputs of a transparent payment.** Coins can be added to an accepted one, as
many as one likes, if each opens and is worth nothing. -/
theorem verify_appendOutputs_iff (hopen : payment.isPrivate = false)
    (haccepted : payment.verify context source = .ok ()) (coins : List (SealedCoin F G)) :
    (payment.appendOutputs coins).verify context source = .ok () ↔
      ∀ coin ∈ coins, coin.OpensAsZero context.params := by
  obtain ⟨h, hbalance⟩ := (verify_eq_ok_iff_of_open payment context source hopen).mp haccepted
  have hvalues : (payment.appendOutputs coins).outputs.map (·.details.value) =
      payment.outputs.map (·.details.value) ++ coins.map (·.details.value) := List.map_append
  rw [verify_eq_ok_iff_of_open (payment.appendOutputs coins) context source hopen,
    h.appendOutputs_iff, hvalues, show (payment.appendOutputs coins).inputs = payment.inputs from rfl,
    hbalance.append_iff, List.forall_mem_map, ← forall₂_and]
  exact forall₂_congr fun _ _ => and_assoc

/-- A transparent payment that spends nothing pays no fee and creates nothing of value. -/
theorem worthless_of_no_inputs (hopen : payment.isPrivate = false)
    (haccepted : payment.verify context source = .ok ()) (hnone : payment.inputs = []) :
    context.fee = 0 ∧ ∀ coin ∈ payment.outputs, coin.OpensAsZero context.params := by
  obtain ⟨h, hbalance⟩ := (verify_eq_ok_iff_of_open payment context source hopen).mp haccepted
  have hzero : (payment.outputs.map (·.details.value.toNat)).sum = 0 ∧ context.fee.toNat = 0 := by
    have hsum := hbalance.1
    rw [hnone, List.map_nil, List.map_nil, List.sum_nil, List.map_map] at hsum
    exact Nat.add_eq_zero_iff.mp hsum.symm
  refine ⟨UInt64.toNat_inj.mp hzero.2, fun coin hcoin => ?_⟩
  obtain ⟨hplain, hopens⟩ := h.outputs coin hcoin
  have hvalue := List.sum_eq_zero_iff.mp hzero.1 _ (List.mem_map_of_mem hcoin)
  exact ⟨hplain, hopens, UInt64.toNat_inj.mp hvalue⟩

end AccountPayment

/-! ## Payments of any version -/

namespace AnyPayment

/-- A transparent payment of account coins. -/
def IsTransparent : AnyPayment F G → Prop
  | account payment => payment.isPrivate = false
  | oneTime _ => False
  | conversion _ => False

/-- **Whose coins are counted.** An accepted payment spends a coin and creates between one and
`maxOutputs` coins, unless it is a transparent payment of account coins. Such a payment may have no
inputs, and then it pays no fee and creates nothing of value; and it may have any number of outputs: it is
still accepted after coins are added exactly if each of them opens and is worth nothing. -/
theorem coin_counts_of_verify [ScalarField.Lawful F] [PointGroup.Lawful F G] (payment : AnyPayment F G)
    (context : VerifyContext) (source : CommitmentSource G)
    (haccepted : payment.verify context source = .ok ()) :
    (¬ payment.IsTransparent → payment.CountsInBounds) ∧
    ∀ transparent, payment = .account transparent → transparent.isPrivate = false →
      (transparent.inputs = [] →
        context.fee = 0 ∧ ∀ coin ∈ transparent.outputs, coin.OpensAsZero context.params) ∧
      ∀ coins, (transparent.appendOutputs coins).verify context source = .ok () ↔
        ∀ coin ∈ coins, coin.OpensAsZero context.params := by
  constructor
  · intro hcounted
    cases payment with
    | account payment =>
      have hprivate : payment.isPrivate = true := (Bool.not_eq_false _).mp hcounted
      obtain ⟨_, _, _, h⟩ :=
        (AccountPayment.verify_eq_ok_iff_of_private payment context source hprivate).mp haccepted
      exact h.counts hprivate
    | oneTime payment => exact OneTimePayment.counts_of_verify haccepted
    | conversion payment => exact ((Conversion.verify_eq_ok_iff payment context).mp haccepted).counts
  · rintro transparent rfl hopen
    exact ⟨AccountPayment.worthless_of_no_inputs hopen haccepted,
      AccountPayment.verify_appendOutputs_iff hopen haccepted⟩

open Curve (Scalar)
open AccountPayment (openPayment openLedger verify_openPayment verifyCommitment_coinOfValue)

/-- A conversion has its coins counted; the transparent payment of a coin for two others is accepted with 31
more outputs as well. -/
theorem coin_counts_openPayment :
    (conversion (Conversion.ofAmount 5)).CountsInBounds ∧
      openPayment.verify { fee := 3, shard := 0 } openLedger.source = .ok () ∧
      (openPayment.appendOutputs
          (List.replicate 31 { details := Conversion.coinOfValue 0 })).verify
        { fee := 3, shard := 0 } openLedger.source = .ok () := by
  have hcounted := (coin_counts_of_verify (.conversion (Conversion.ofAmount 5)) _ openLedger.source
    (Conversion.verify_ofAmount 5)).1 not_false
  have hopen := (coin_counts_of_verify (.account openPayment) _ _ verify_openPayment).2 openPayment rfl rfl
  refine ⟨hcounted, verify_openPayment, (hopen.2 _).mpr fun coin hcoin => ?_⟩
  obtain rfl := List.eq_of_mem_replicate hcoin
  exact ⟨rfl, verifyCommitment_coinOfValue 0, rfl⟩

/-- The payment without coins is accepted for no fee, so coins need not be counted. -/
theorem coin_counts_not_bounded :
    ¬ ∀ (payment : AnyPayment Scalar Exponent) (context : VerifyContext)
      (source : CommitmentSource Exponent), payment.verify context source = .ok () →
        payment.CountsInBounds := by
  intro hclaim
  have haccepted : ({} : AccountPayment Scalar Exponent).verify { fee := 0, shard := 0 }
      (fun _ _ _ => .ok 0) = .ok () := rfl
  have hcounts := hclaim (.account {}) _ _ haccepted
  exact absurd hcounts.inputs (Nat.not_succ_le_zero 0)

end AnyPayment

end ShieldedPayments
