import Mathlib.Algebra.BigOperators.Group.List.Basic
import Mathlib.Algebra.Module.Torsion.Field
import ShieldedPayments.Proofs.Payment.Simulation

/-!
# The value commitments of hidden inputs

Of the four parts of an input commitment, the ring proof sees only the sum, and the balance only the
value part. The proof of the serial number opens the parts for the spend key and the derivator; no
proof opens the part for the shard, which all inputs share. So a point may be moved from the shard
part to every value part (`shiftInputs`), and what this does to the balance is settled by the fee
alone (`verify_shiftInputs_iff`).
-/

namespace ShieldedPayments.AccountPayment

variable {F G : Type} [PointGroup F G]

/-- An input with a point added to its value commitment. -/
def InputEntry.shift (input : InputEntry F G) (d : G) : InputEntry F G :=
  { input with valueCommitment := input.valueCommitment + d }

/-- The payment with a point moved from the shard commitment of its inputs to each of their value
commitments. -/
def shiftInputs (payment : AccountPayment F G) (d : G) : AccountPayment F G :=
  { payment with
    inputValues := payment.inputValues.map (· + d)
    inputShard := payment.inputShard.map (· - d) }

theorem inputEntries_shiftInputs (payment : AccountPayment F G) (d : G) :
    (payment.shiftInputs d).inputEntries = payment.inputEntries.map (·.shift d) := by
  unfold inputEntries shiftInputs
  simp only [List.zip_map_left, List.zipWith_map_right, List.map_zipWith]
  rfl

theorem HiddenShape.shiftInputs {payment : AccountPayment F G} (h : payment.HiddenShape) (d : G) :
    (payment.shiftInputs d).HiddenShape :=
  { h with inputValues := (List.length_map _).trans h.inputValues }

variable [ScalarField F] [ScalarField.Lawful F] [PointGroup.Lawful F G]

omit [ScalarField.Lawful F] in
/-- The ring of an input, and all else that is checked of it, stays as it is. -/
theorem checkHiddenInput_shift (context : VerifyContext) (source : CommitmentSource G)
    (key shard d : G) (input : InputEntry F G) :
    checkHiddenInput context source key (shard - d) (input.shift d) =
      checkHiddenInput context source key shard input := by
  have hsum : key + (input.valueCommitment + d) + input.derivatorCommitment + (shard - d) =
      key + input.valueCommitment + input.derivatorCommitment + shard := by abel
  unfold checkHiddenInput InputEntry.shift
  simp only [hsum]

omit [ScalarField.Lawful F] in
theorem sum_map_add_right (ps : List G) (d : G) :
    (ps.map (· + d)).sum = ps.sum + ps.length • d := by
  rw [List.sum_map_add, List.map_id', List.map_const', List.sum_replicate]

/-- A shifted payment is checked like the payment itself, but for its balance and its fee. -/
theorem hiddenHolds_shiftInputs_iff {payment : AccountPayment F G} {context : VerifyContext}
    {source : CommitmentSource G} {key shard : G} {rangeProof : RangeProof F G}
    (h : payment.HiddenHolds context source key shard rangeProof) (d : G) (fee : UInt64) :
    (payment.shiftInputs d).HiddenHolds { context with fee } source key (shard - d) rangeProof ↔
      payment.inputValues.length • d =
        (ofNat fee.toNat - ofNat context.fee.toNat : F) • (pedersen : PedersenBases G).value := by
  have hbalance : payment.inputValues.sum + payment.inputValues.length • d =
        payment.outputValues.sum + (ofNat fee.toNat : F) • (pedersen : PedersenBases G).value ↔
      payment.inputValues.length • d =
        (ofNat fee.toNat - ofNat context.fee.toNat : F) • (pedersen : PedersenBases G).value := by
    rw [h.balance, add_assoc, add_right_inj, sub_smul, eq_sub_iff_add_eq']
  rw [← hbalance, ← sum_map_add_right]
  constructor
  · intro hshifted
    exact hshifted.balance
  · intro hsum
    refine { h with
      shape := h.shape.shiftInputs d
      inputShard := congrArg (Option.map (· - d)) h.inputShard
      inputs := ?_
      balance := hsum }
    rw [inputEntries_shiftInputs, List.forall_mem_map]
    intro input hinput
    exact (checkHiddenInput_shift context source key shard d input).trans (h.inputs input hinput)

/-- **A shifted payment is accepted for one difference of fees**: the one that the shift of all value
commitments amounts to. -/
theorem verify_shiftInputs_iff {payment : AccountPayment F G} {context : VerifyContext}
    {source : CommitmentSource G} (hprivate : payment.isPrivate = true)
    (haccepted : payment.verify context source = .ok ()) (d : G) (fee : UInt64) :
    (payment.shiftInputs d).verify { context with fee } source = .ok () ↔
      payment.inputValues.length • d =
        (ofNat fee.toNat - ofNat context.fee.toNat : F) • (pedersen : PedersenBases G).value := by
  obtain ⟨key, shard, rangeProof, h⟩ :=
    (verify_eq_ok_iff_of_private payment context source hprivate).mp haccepted
  rw [verify_eq_ok_iff_of_private (payment.shiftInputs d) _ _ hprivate,
    ← hiddenHolds_shiftInputs_iff h d fee]
  constructor
  · rintro ⟨key', shard', rangeProof', h'⟩
    have hkey : key' = key := Option.some.inj (h'.inputKey.symm.trans h.inputKey)
    have hshard : shard' = shard - d := by
      have hmap : (payment.shiftInputs d).inputShard = some (shard - d) :=
        congrArg (Option.map (· - d)) h.inputShard
      exact Option.some.inj (h'.inputShard.symm.trans hmap)
    have hrange : rangeProof' = rangeProof := Option.some.inj (h'.hasRange.symm.trans h.hasRange)
    rwa [hkey, hshard, hrange] at h'
  · intro h'
    exact ⟨key, shard - d, rangeProof, h'⟩

/-- Accepted payments with the same outputs pay the same fee if their value commitments add up to the
same point. -/
theorem fee_eq_iff_sum_eq [ScalarField.Canonical F] (payment payment' : AccountPayment F G)
    (context context' : VerifyContext) (source : CommitmentSource G)
    (hprivate : payment.isPrivate = true) (hprivate' : payment'.isPrivate = true)
    (haccepted : payment.verify context source = .ok ())
    (haccepted' : payment'.verify context' source = .ok ())
    (hvalues : payment'.outputValues = payment.outputValues)
    (hbase : (pedersen : PedersenBases G).value ≠ 0) :
    context.fee = context'.fee ↔ payment.inputValues.sum = payment'.inputValues.sum := by
  obtain ⟨_, _, _, h⟩ := (verify_eq_ok_iff_of_private _ _ _ hprivate).mp haccepted
  obtain ⟨_, _, _, h'⟩ := (verify_eq_ok_iff_of_private _ _ _ hprivate').mp haccepted'
  rw [h.balance, h'.balance, hvalues, add_right_inj, smul_left_inj hbase,
    ScalarField.ofNat_toNat_inj]

/-- **What binds the fee of a private payment to its inputs.** Given one accepted payment, another one
that differs in its value commitments and the shard commitment pays the same fee exactly if the value
commitments add up to the same point. No proof keeps them from adding up to another one: a payment
whose value commitments are all shifted by a point is accepted, for the fee that this amounts to. -/
theorem accepted_fee_iff [ScalarField.Canonical F] {payment : AccountPayment F G}
    {context : VerifyContext} {source : CommitmentSource G} (hprivate : payment.isPrivate = true)
    (haccepted : payment.verify context source = .ok ())
    (hbase : (pedersen : PedersenBases G).value ≠ 0) :
    (∀ (values : List G) (shard : Option G) (fee : UInt64),
      { payment with inputValues := values, inputShard := shard }.verify { context with fee } source =
          .ok () →
        (context.fee = fee ↔ payment.inputValues.sum = values.sum)) ∧
    ∀ (d : G) (fee : UInt64),
      (payment.shiftInputs d).verify { context with fee } source = .ok () ↔
        payment.inputValues.length • d =
          (ofNat fee.toNat - ofNat context.fee.toNat : F) • (pedersen : PedersenBases G).value := by
  constructor
  · intro values shard fee haccepted'
    exact fee_eq_iff_sum_eq payment { payment with inputValues := values, inputShard := shard } _ _ _
      hprivate hprivate haccepted haccepted' rfl hbase
  · exact verify_shiftInputs_iff hprivate haccepted

/-! ## A shifted payment -/

/-- A payment of nothing that is accepted without a fee. -/
def zeroPayment : AccountPayment Curve.Scalar Exponent :=
  simulate 0 0 { details := { publicKey := some 0, commitment := some (0 + 0 + 0 + 0) } } 0 0 0

theorem verify_zeroPayment : zeroPayment.verify { fee := 0, shard := 0 } zeroSource = .ok () := by
  apply verify_simulate
  · exact ⟨0, rfl, rfl⟩
  · rfl

/-- The shift by the value base amounts to a fee of one. -/
theorem zeroPayment_shift :
    zeroPayment.inputValues.length • (pedersen : PedersenBases Exponent).value =
      (ofNat (1 : UInt64).toNat - ofNat (0 : UInt64).toNat : Curve.Scalar)
        • (pedersen : PedersenBases Exponent).value := by
  rw [show zeroPayment.inputValues.length = 1 from rfl, one_nsmul]
  rfl

theorem accepted_fee_iff_zeroPayment :
    zeroPayment.isPrivate = true ∧ zeroPayment.verify { fee := 0, shard := 0 } zeroSource = .ok () ∧
      (pedersen : PedersenBases Exponent).value ≠ 0 ∧
      (zeroPayment.shiftInputs (pedersen : PedersenBases Exponent).value).verify
        { fee := 1, shard := 0 } zeroSource = .ok () := by
  have hbase : (pedersen : PedersenBases Exponent).value ≠ 0 := by decide
  exact ⟨rfl, verify_zeroPayment, hbase,
    ((accepted_fee_iff rfl verify_zeroPayment hbase).2 _ 1).mpr zeroPayment_shift⟩

/-- The fee does not follow from what an accepted payment shows apart from its value commitments and
the shard commitment of its inputs. -/
theorem fee_not_determined :
    ¬ ∀ (payment : AccountPayment Curve.Scalar Exponent) (values : List Exponent)
      (shard : Option Exponent) (context : VerifyContext) (fee : UInt64)
      (source : CommitmentSource Exponent), payment.isPrivate = true →
        payment.verify context source = .ok () →
        { payment with inputValues := values, inputShard := shard }.verify { context with fee }
            source = .ok () →
        context.fee = fee := by
  intro hclaim
  have hshifted := (verify_shiftInputs_iff rfl verify_zeroPayment
    (pedersen : PedersenBases Exponent).value 1).mpr zeroPayment_shift
  have hfee := hclaim zeroPayment _ _ _ 1 zeroSource rfl verify_zeroPayment hshifted
  exact absurd hfee (by decide)

end ShieldedPayments.AccountPayment
