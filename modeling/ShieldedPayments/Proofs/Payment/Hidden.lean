import ShieldedPayments.Proofs.Argument.Range
import ShieldedPayments.Proofs.Argument.RingMember
import ShieldedPayments.Proofs.Argument.Serial
import ShieldedPayments.Payment.Account

/-!
# What private payments show

A private payment is accepted if its parts have matching lengths, its serial numbers differ, the
proofs of each input hold, each output commitment is the sum of its parts, the range proof covers the
value commitments of the outputs, and these balance. `AccountPayment.verify_eq_ok_iff_of_private`
states this as the structure `HiddenHolds`, whose fields other modules cite.
-/

namespace ShieldedPayments.AccountPayment

variable {F G : Type}

/-- The parts of a private payment have the lengths that its inputs and outputs call for. -/
structure HiddenShape (payment : AccountPayment F G) : Prop where
  ringProofs : payment.ringProofs.length = payment.inputs.length
  hiddenSerialProofs : payment.hiddenSerialProofs.length = payment.inputs.length
  inputValues : payment.inputValues.length = payment.inputs.length
  inputDerivators : payment.inputDerivators.length = payment.inputs.length
  ledgerIndices : payment.ledgerIndices.length = payment.inputs.length * ringSize
  serialProofs : payment.serialProofs = []
  outputs : payment.outputs ≠ []
  outputValues : payment.outputValues.length = payment.outputs.length
  outputDerivators : payment.outputDerivators.length = payment.outputs.length
  outputShards : payment.outputShards.length = payment.outputs.length

theorem checkShape_eq_ok_iff (payment : AccountPayment F G) :
    payment.checkShape = .ok () ↔ payment.HiddenShape := by
  unfold checkShape
  simp only [ensure_bind_eq_ok_iff, ensure_eq_ok_iff, Bool.and_eq_true, beq_iff_eq, bne_iff_ne,
    List.isEmpty_iff, ne_eq, List.length_eq_zero_iff]
  constructor
  · rintro ⟨⟨⟨⟨⟨⟨h₁, h₂⟩, h₃⟩, h₄⟩, h₅⟩, h₆⟩, ⟨⟨⟨h₇, h₈⟩, h₉⟩, h₁₀⟩⟩
    exact ⟨h₁, h₂, h₃, h₄, h₅, h₆, h₇, h₈, h₉, h₁₀⟩
  · rintro ⟨h₁, h₂, h₃, h₄, h₅, h₆, h₇, h₈, h₉, h₁₀⟩
    exact ⟨⟨⟨⟨⟨⟨h₁, h₂⟩, h₃⟩, h₄⟩, h₅⟩, h₆⟩, ⟨⟨⟨h₇, h₈⟩, h₉⟩, h₁₀⟩⟩

variable [ScalarField F] [PointGroup F G]

/-- What is checked of one input: `ring` is what its ring proof is about. -/
structure HiddenInputHolds (context : VerifyContext) (source : CommitmentSource G)
    (key shard : G) (input : InputEntry F G) (members : List G) : Prop where
  ring : ring source context.token context.shard
    (key + input.valueCommitment + input.derivatorCommitment + shard) input.indices = .ok members
  ringProof : input.ringProof.verify members = .ok ()
  derivator : input.serialProof.derivatorCommitment = input.derivatorCommitment
  serial : input.coin.serialNumber = some input.serialProof.serial
  serialProof : input.serialProof.verify key none = .ok ()

/-- What is checked of one output: its commitment is its public key and three more parts. -/
def HiddenOutputHolds (coin : SealedCoin F G) (value derivator shard : G) : Prop :=
  ∃ publicKey, coin.details.publicKey = some publicKey ∧
    coin.details.commitment = some (publicKey + value + derivator + shard)

/-- What is checked of a private payment. -/
structure HiddenHolds (payment : AccountPayment F G) (context : VerifyContext)
    (source : CommitmentSource G) (key shard : G) (rangeProof : RangeProof F G) : Prop where
  shape : payment.HiddenShape
  inputKey : payment.inputKey = some key
  inputShard : payment.inputShard = some shard
  serials : checkSerials payment.inputs = .ok ()
  inputs : ∀ input ∈ payment.inputEntries,
    checkHiddenInput context source key shard input = .ok ()
  outputs : ∀ coin value derivator shard,
    (coin, value, derivator, shard) ∈ payment.outputs.zip (payment.outputValues.zip
      (payment.outputDerivators.zip payment.outputShards)) →
    HiddenOutputHolds coin value derivator shard
  hasRange : payment.rangeProof = some rangeProof
  commitments : rangeProof.commitments = payment.outputValues
  range : rangeProof.verify .singleSum RangeProof.defaultBase = .ok ()
  balance : payment.inputValues.sum = payment.outputValues.sum
    + (ofNat context.fee.toNat : F) • (pedersen : PedersenBases G).value

variable [ScalarField.Lawful F] [PointGroup.Lawful F G]

omit [ScalarField.Lawful F] in
theorem checkHiddenInput_eq_ok_iff (context : VerifyContext) (source : CommitmentSource G)
    (key shard : G) (input : InputEntry F G) :
    checkHiddenInput context source key shard input = .ok () ↔
      ∃ members, HiddenInputHolds context source key shard input members := by
  unfold checkHiddenInput
  rw [Outcome.bind_eq_ok_iff]
  refine exists_congr fun members => ?_
  simp only [Outcome.check_bind_eq_ok_iff, ensure_eq_ok_iff, beq_iff_eq]
  constructor
  · rintro ⟨hmembers, hring, hderivator, hserial, hproof⟩
    exact ⟨hmembers, hring, hderivator, hserial, hproof⟩
  · rintro ⟨hmembers, hring, hderivator, hserial, hproof⟩
    exact ⟨hmembers, hring, hderivator, hserial, hproof⟩

omit [ScalarField.Lawful F] in
theorem checkHiddenOutput_eq_ok_iff (coin : SealedCoin F G) (value derivator shard : G) :
    checkHiddenOutput coin value derivator shard = .ok () ↔
      HiddenOutputHolds coin value derivator shard := by
  unfold checkHiddenOutput HiddenOutputHolds
  simp only [require_bind_eq_ok_iff, ensure_eq_ok_iff, beq_iff_eq]

theorem balancePoint_eq_zero_iff (inputs outputs : List G) (fee : UInt64) :
    balancePoint inputs outputs fee = 0 ↔
      inputs.sum = outputs.sum + (ofNat fee.toNat : F) • (pedersen : PedersenBases G).value := by
  unfold balancePoint
  rw [Pedersen.commitAt_zero_right, sub_sub, sub_eq_zero]
  rfl

theorem verifyHidden_eq_ok_iff (payment : AccountPayment F G) (context : VerifyContext)
    (source : CommitmentSource G) :
    payment.verifyHidden context source = .ok () ↔
      ∃ key shard rangeProof, payment.HiddenHolds context source key shard rangeProof := by
  unfold verifyHidden
  simp only [Outcome.check_bind_eq_ok_iff, require_bind_eq_ok_iff, Outcome.forM_eq_ok_iff,
    ensure_eq_ok_iff, beq_iff_eq, checkShape_eq_ok_iff, balancePoint_eq_zero_iff, Prod.forall,
    checkHiddenOutput_eq_ok_iff]
  constructor
  · rintro ⟨hshape, key, hkey, shard, hshard, hserials, hinputs, houtputs, rangeProof, hrange,
      hcommitments, hproof, hbalance⟩
    exact ⟨key, shard, rangeProof, hshape, hkey, hshard, hserials, hinputs, houtputs, hrange,
      hcommitments, hproof, hbalance⟩
  · rintro ⟨key, shard, rangeProof, hshape, hkey, hshard, hserials, hinputs, houtputs, hrange,
      hcommitments, hproof, hbalance⟩
    exact ⟨hshape, key, hkey, shard, hshard, hserials, hinputs, houtputs, rangeProof, hrange,
      hcommitments, hproof, hbalance⟩

/-- **A private payment is accepted if all of `HiddenHolds` is true of it.** -/
theorem verify_eq_ok_iff_of_private (payment : AccountPayment F G) (context : VerifyContext)
    (source : CommitmentSource G) (hprivate : payment.isPrivate = true) :
    payment.verify context source = .ok () ↔
      ∃ key shard rangeProof, payment.HiddenHolds context source key shard rangeProof := by
  rw [verify, if_pos hprivate, verifyHidden_eq_ok_iff]

end ShieldedPayments.AccountPayment
