import ShieldedPayments.Proofs.Payment.Conversion
import ShieldedPayments.Proofs.Payment.Open

/-!
# Transparent payments conserve value

An accepted transparent payment spends coins that stand on the ledger and open there, creates coins that
open without a seal, and neither makes nor loses value (`AccountPayment.open_payment_conserves`). As all
lists that belong to the inputs have one length, no input escapes the checks.
-/

namespace ShieldedPayments.AccountPayment

section

variable {F G : Type} [ScalarField F] [PointGroup F G] [ScalarField.Lawful F] [PointGroup.Lawful F G]

omit [ScalarField.Lawful F] [PointGroup.Lawful F G] in
/-- Every input has a proof of its serial number with which it passed. -/
theorem OpenHolds.exists_proof {payment : AccountPayment F G} {context : VerifyContext}
    {source : CommitmentSource G} (h : payment.OpenHolds context source) {coin : AccountCoin F G}
    {index : UInt64} (hmem : (coin, index) ∈ payment.inputs.zip payment.ledgerIndices) :
    ∃ proof, OpenInputHolds context source coin proof index := by
  obtain ⟨i, hi, heq⟩ := List.getElem_of_mem hmem
  rw [List.length_zip, lt_min_iff] at hi
  rw [List.getElem_zip, Prod.mk.injEq] at heq
  obtain ⟨rfl, rfl⟩ := heq
  have hproof : i < payment.serialProofs.length := h.serialProofs ▸ hi.1
  refine ⟨payment.serialProofs[i], h.inputs _ _ _ (List.mem_of_getElem? (i := i) ?_)⟩
  rw [List.getElem?_zip_eq_some, List.getElem?_zip_eq_some]
  exact ⟨List.getElem?_eq_getElem _, List.getElem?_eq_getElem _, List.getElem?_eq_getElem _⟩

/-- **Transparent payments conserve value and spend coins of the ledger.** If one is accepted, the
ledger has the commitment of each input at the position that the payment gives for it, and the fields of
the input open it; no output is sealed, and its fields open its commitment; and inputs balance outputs
and fee as integers, with a total of 64 bits. -/
theorem open_payment_conserves {payment : AccountPayment F G} {context : VerifyContext}
    {source : CommitmentSource G} (hopen : payment.isPrivate = false)
    (haccepted : payment.verify context source = .ok ()) :
    List.Forall₂ (fun coin index => ∃ commitment,
        source context.token context.shard index = .ok commitment ∧
        coin.commitment = some commitment ∧
        ∃ publicKey derivator shard randomness,
          coin.Opens context.params publicKey derivator shard randomness)
      payment.inputs payment.ledgerIndices ∧
    (∀ coin ∈ payment.outputs, coin.encrypted = none ∧
      ∃ publicKey derivator shard randomness,
        coin.details.Opens context.params publicKey derivator shard randomness) ∧
    (payment.inputs.map (·.value.toNat)).sum =
      (payment.outputs.map (·.details.value.toNat)).sum + context.fee.toNat ∧
    (payment.inputs.map (·.value.toNat)).sum < 2 ^ 64 := by
  obtain ⟨h, hbalance⟩ := (verify_eq_ok_iff_of_open payment context source hopen).mp haccepted
  unfold Balance.Exact at hbalance
  rw [List.map_map, List.map_map] at hbalance
  refine ⟨List.forall₂_iff_zip.mpr ⟨h.ledgerIndices.symm, ?_⟩, ?_, hbalance⟩
  · intro coin index hmem
    obtain ⟨proof, hinput⟩ := h.exists_proof hmem
    obtain ⟨commitment, hstored, hcommitment⟩ := hinput.stored
    exact ⟨commitment, hstored, hcommitment,
      (AccountCoin.verifyCommitment_eq_ok_iff _ _).mp hinput.opens⟩
  · intro coin hcoin
    obtain ⟨hplain, hopens⟩ := h.outputs coin hcoin
    exact ⟨hplain, (AccountCoin.verifyCommitment_eq_ok_iff _ _).mp hopens⟩

end

/-! ## A transparent payment -/

open Curve (Scalar)
open Conversion (coinOfValue coinOfValue_opens serialOfZero verify_serialOfZero)

/-- A ledger on which a coin worth ten has the position one. -/
def openLedger : Ledger Exponent :=
  ⟨[((.native, 0), [⟨7⟩, (coinOfValue 10).commitment.getD 0])]⟩

/-- The coin is spent for coins worth four and three, and a fee of three. -/
def openPayment : AccountPayment Scalar Exponent where
  inputs := [coinOfValue 10]
  outputs := [{ details := coinOfValue 4 }, { details := coinOfValue 3 }]
  serialProofs := [serialOfZero]
  ledgerIndices := [1]

theorem verifyCommitment_coinOfValue (value : UInt64) :
    (coinOfValue value).verifyCommitment {} = .ok () :=
  (AccountCoin.verifyCommitment_eq_ok_iff _ _).mpr ⟨_, _, _, _, coinOfValue_opens value⟩

theorem verify_openPayment :
    openPayment.verify { fee := 3, shard := 0 } openLedger.source = .ok () := by
  rw [verify_eq_ok_iff_of_open _ _ _ rfl]
  refine ⟨⟨rfl, rfl, rfl, rfl, ?_, ?_⟩, by decide⟩
  · intro coin proof index hmem
    obtain ⟨rfl, rfl, rfl⟩ := by simpa [openPayment] using hmem
    exact ⟨rfl, rfl, rfl, verifyCommitment_coinOfValue 10, ⟨_, rfl, rfl⟩, verify_serialOfZero⟩
  · intro coin hcoin
    rcases List.mem_pair.mp hcoin with rfl | rfl
    · exact ⟨rfl, verifyCommitment_coinOfValue 4⟩
    · exact ⟨rfl, verifyCommitment_coinOfValue 3⟩

/-- Ten is spent for seven and a fee of three. -/
theorem open_payment_conserves_ten :
    openPayment.isPrivate = false ∧
    openPayment.verify { fee := 3, shard := 0 } openLedger.source = .ok () ∧
    (∃ commitment, openLedger.source .native 0 1 = .ok commitment ∧
      (coinOfValue 10).commitment = some commitment) ∧
    (∀ coin ∈ openPayment.outputs, coin.encrypted = none) ∧
    (openPayment.inputs.map (·.value.toNat)).sum =
      (openPayment.outputs.map (·.details.value.toNat)).sum + 3 := by
  obtain ⟨hinputs, houtputs, hbalance, _⟩ := open_payment_conserves rfl verify_openPayment
  obtain ⟨commitment, hstored, hcommitment, _⟩ := (List.forall₂_cons.mp hinputs).1
  exact ⟨rfl, verify_openPayment, ⟨commitment, hstored, hcommitment⟩,
    fun coin hcoin => (houtputs coin hcoin).1, hbalance⟩

end ShieldedPayments.AccountPayment
