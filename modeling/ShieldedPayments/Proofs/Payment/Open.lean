import ShieldedPayments.Proofs.Argument.Serial
import ShieldedPayments.Proofs.Coin.Account
import ShieldedPayments.Proofs.Payment.Balance
import ShieldedPayments.Payment.Account

/-!
# What transparent payments show

A transparent payment is accepted if its parts have matching lengths, its serial numbers differ, each
input stands on the ledger, opens and has a proved serial number, each output opens, and the values
balance exactly. `AccountPayment.verify_eq_ok_iff_of_open` states this as the structure `OpenHolds`.
-/

namespace ShieldedPayments.AccountPayment

variable {F G : Type} [ScalarField F] [PointGroup F G]

/-- What is checked of one input of a transparent payment. -/
structure OpenInputHolds (context : VerifyContext) (source : CommitmentSource G)
    (coin : AccountCoin F G) (proof : SerialProof F G) (index : UInt64) : Prop where
  publicKey : coin.publicKey = some proof.statement.publicKey
  derivator : coin.derivator = some proof.statement.derivator
  serial : coin.serialNumber = some proof.statement.serial
  opens : coin.verifyCommitment context.params = .ok ()
  stored : ∃ stored, source context.token context.shard index = .ok stored ∧
    coin.commitment = some stored
  proved : proof.verify none = .ok ()

/-- What is checked of a transparent payment, apart from its balance. -/
structure OpenHolds (payment : AccountPayment F G) (context : VerifyContext)
    (source : CommitmentSource G) : Prop where
  serialProofs : payment.serialProofs.length = payment.inputs.length
  ledgerIndices : payment.ledgerIndices.length = payment.inputs.length
  hiddenSerialProofs : payment.hiddenSerialProofs = []
  serials : checkSerials payment.inputs = .ok ()
  inputs : ∀ coin proof index,
    (coin, proof, index) ∈ payment.inputs.zip (payment.serialProofs.zip payment.ledgerIndices) →
    OpenInputHolds context source coin proof index
  outputs : ∀ coin ∈ payment.outputs, coin.encrypted = none ∧
    coin.details.verifyCommitment context.params = .ok ()

variable [ScalarField.Lawful F] [PointGroup.Lawful F G]

theorem checkOpenInput_eq_ok_iff (context : VerifyContext) (source : CommitmentSource G)
    (coin : AccountCoin F G) (proof : SerialProof F G) (index : UInt64) :
    checkOpenInput context source coin proof index = .ok () ↔
      OpenInputHolds context source coin proof index := by
  unfold checkOpenInput matchesStatement
  rw [ensure_bind_eq_ok_iff, Outcome.check_bind_eq_ok_iff, Outcome.bind_eq_ok_iff]
  simp only [ensure_bind_eq_ok_iff, Bool.and_eq_true, beq_iff_eq]
  constructor
  · rintro ⟨⟨⟨hkey, hderivator⟩, hserial⟩, hopens, stored, hstored, hcommitment, hproved⟩
    exact ⟨hkey, hderivator, hserial, hopens, ⟨stored, hstored, hcommitment⟩, hproved⟩
  · rintro ⟨hkey, hderivator, hserial, hopens, ⟨stored, hstored, hcommitment⟩, hproved⟩
    exact ⟨⟨⟨hkey, hderivator⟩, hserial⟩, hopens, stored, hstored, hcommitment, hproved⟩

omit [ScalarField.Lawful F] [PointGroup.Lawful F G] in
theorem checkOpenOutput_eq_ok_iff (context : VerifyContext) (coin : SealedCoin F G) :
    checkOpenOutput context coin = .ok () ↔ coin.encrypted = none ∧
      coin.details.verifyCommitment context.params = .ok () := by
  unfold checkOpenOutput
  rw [ensure_bind_eq_ok_iff, Option.isNone_iff_eq_none]

/-- **A transparent payment is accepted if `OpenHolds` is true of it and its values balance.** -/
theorem verify_eq_ok_iff_of_open (payment : AccountPayment F G) (context : VerifyContext)
    (source : CommitmentSource G) (hopen : payment.isPrivate = false) :
    payment.verify context source = .ok () ↔ payment.OpenHolds context source ∧
      Balance.Exact (payment.inputs.map (·.value)) (payment.outputs.map (·.details.value))
        context.fee := by
  rw [verify, hopen, if_neg Bool.false_ne_true]
  unfold verifyOpen
  simp only [Outcome.check_bind_eq_ok_iff, ensure_eq_ok_iff, Outcome.forM_eq_ok_iff,
    Bool.and_eq_true, beq_iff_eq, List.isEmpty_iff, Prod.forall, checkOpenInput_eq_ok_iff,
    checkOpenOutput_eq_ok_iff, Balance.check_eq_ok_iff_exact]
  constructor
  · rintro ⟨⟨⟨hproofs, hindices⟩, hhidden⟩, hserials, hinputs, houtputs, hbalance⟩
    exact ⟨⟨hproofs, hindices, hhidden, hserials, hinputs, houtputs⟩, hbalance⟩
  · rintro ⟨⟨hproofs, hindices, hhidden, hserials, hinputs, houtputs⟩, hbalance⟩
    exact ⟨⟨⟨hproofs, hindices⟩, hhidden⟩, hserials, hinputs, houtputs, hbalance⟩

end ShieldedPayments.AccountPayment
