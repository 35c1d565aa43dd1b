import ShieldedPayments.Payment.Basic
import ShieldedPayments.Proofs.Argument.ByIndex
import ShieldedPayments.Proofs.Coin.ByIndex
import ShieldedPayments.Proofs.Payment.Hidden

/-!
# Payments are checked by index

The checks of payments, with an index where a check goes over several lists at once, and with the checks
by index of all that a payment contains. They do what the checks over lists do: the lists have been
compared in length before an element of one is looked up at a position in another.

* `AccountPayment.verifyByIndex_eq`, `OneTimePayment.verifyByIndex_eq`, `Conversion.verifyByIndex_eq`: the
  payments of each version.
* `AnyPayment.verifyByIndex_eq`: all payments.
-/

namespace ShieldedPayments

variable {F G : Type} [ScalarField F] [PointGroup F G]

namespace AccountPayment

/-! ## What belongs to a coin of a private payment -/

section

omit [ScalarField F] [PointGroup F G]

/-- What belongs to the input at a position: the commitments to its value and derivator, the ledger
positions of its ring, and its proofs. -/
def inputPartsAt (payment : AccountPayment F G) (i : Nat) :
    Outcome ((G × G) × List UInt64 × RingProof F G × HiddenSerialProof F G) := do
  let value ← elementAt payment.inputValues i
  let derivator ← elementAt payment.inputDerivators i
  let indices ← slice payment.ledgerIndices (i * ringSize) ((i + 1) * ringSize)
  let ringProof ← elementAt payment.ringProofs i
  let serialProof ← elementAt payment.hiddenSerialProofs i
  return ((value, derivator), indices, ringProof, serialProof)

/-- What belongs to the output at a position: the commitments to its value, derivator and shard. -/
def outputPartsAt (payment : AccountPayment F G) (j : Nat) : Outcome (G × G × G) := do
  let value ← elementAt payment.outputValues j
  let derivator ← elementAt payment.outputDerivators j
  let shard ← elementAt payment.outputShards j
  return (value, derivator, shard)

/-- What belongs to the inputs, in their order. -/
def inputParts (payment : AccountPayment F G) :
    List ((G × G) × List UInt64 × RingProof F G × HiddenSerialProof F G) :=
  (payment.inputValues.zip payment.inputDerivators).zip
    ((ringIndices payment.inputs.length payment.ledgerIndices).zip
      (payment.ringProofs.zip payment.hiddenSerialProofs))

/-- What belongs to the outputs, in their order. -/
def outputParts (payment : AccountPayment F G) : List (G × G × G) :=
  payment.outputValues.zip (payment.outputDerivators.zip payment.outputShards)

namespace HiddenShape

variable {payment : AccountPayment F G} (h : payment.HiddenShape)

include h

theorem length_inputParts : payment.inputParts.length = payment.inputs.length := by
  simp only [inputParts, ringIndices, List.length_zip, List.length_map, List.length_range,
    h.inputValues, h.inputDerivators, h.ringProofs, h.hiddenSerialProofs, min_self]

theorem length_outputParts : payment.outputParts.length = payment.outputs.length := by
  simp only [outputParts, List.length_zip, h.outputValues, h.outputDerivators, h.outputShards,
    min_self]

/-- The ledger positions of the ring of an input are a slice of all positions. -/
theorem slice_ledgerIndices {i : Nat} {indices : List UInt64}
    (hi : (ringIndices payment.inputs.length payment.ledgerIndices)[i]? = some indices) :
    slice payment.ledgerIndices (i * ringSize) ((i + 1) * ringSize) = .ok indices := by
  rw [ringIndices, List.getElem?_map, Option.map_eq_some_iff] at hi
  obtain ⟨i', hi', rfl⟩ := hi
  obtain ⟨hlt, hget⟩ := List.getElem?_eq_some_iff.mp hi'
  rw [List.getElem_range] at hget
  subst hget
  rw [List.length_range] at hlt
  have hstop : (i + 1) * ringSize ≤ payment.ledgerIndices.length := by
    rw [h.ledgerIndices]
    exact Nat.mul_le_mul_right ringSize hlt
  have hstart : i * ringSize ≤ (i + 1) * ringSize := Nat.mul_le_mul_right ringSize (Nat.le_succ i)
  have hwidth : (i + 1) * ringSize - i * ringSize = ringSize := by
    rw [Nat.succ_mul, Nat.add_sub_cancel_left]
  rw [slice_eq hstart hstop, List.drop_take, hwidth]

theorem inputPartsAt_eq (i : Nat) (parts) (hi : payment.inputParts[i]? = some parts) :
    payment.inputPartsAt i = .ok parts := by
  obtain ⟨⟨value, derivator⟩, indices, ringProof, serialProof⟩ := parts
  simp only [inputParts, List.getElem?_zip_eq_some] at hi
  obtain ⟨⟨hvalue, hderivator⟩, hindices, hring, hserial⟩ := hi
  rw [inputPartsAt, elementAt_of_getElem? hvalue, Outcome.ok_bind, elementAt_of_getElem? hderivator,
    Outcome.ok_bind, h.slice_ledgerIndices hindices, Outcome.ok_bind, elementAt_of_getElem? hring,
    Outcome.ok_bind, elementAt_of_getElem? hserial, Outcome.ok_bind]
  rfl

omit h in
theorem outputPartsAt_eq (j : Nat) (parts) (hj : payment.outputParts[j]? = some parts) :
    payment.outputPartsAt j = .ok parts := by
  obtain ⟨value, derivator, shard⟩ := parts
  simp only [outputParts, List.getElem?_zip_eq_some] at hj
  obtain ⟨hvalue, hderivator, hshard⟩ := hj
  rw [outputPartsAt, elementAt_of_getElem? hvalue, Outcome.ok_bind, elementAt_of_getElem? hderivator,
    Outcome.ok_bind, elementAt_of_getElem? hshard, Outcome.ok_bind]
  rfl

/-- Looking up what belongs to each input. -/
theorem forM_inputPartsAt (f : InputEntry F G → Outcome Unit) :
    (payment.inputs.zipIdx.forM fun (coin, i) => do
      let (commitments, indices, proofs) ← payment.inputPartsAt i
      f ⟨coin, commitments.1, commitments.2, indices, proofs.1, proofs.2⟩) =
        payment.inputEntries.forM f := by
  have hentries : payment.inputEntries = (payment.inputs.zip payment.inputParts).map
      fun (coin, commitments, indices, proofs) =>
        ⟨coin, commitments.1, commitments.2, indices, proofs.1, proofs.2⟩ := by
    rw [inputEntries, ← List.map_uncurry_zip_eq_zipWith]
    rfl
  have hloop := Outcome.forM_zipIdx_eq h.length_inputParts h.inputPartsAt_eq
    (f := fun coin (commitments, indices, proofs) =>
      f ⟨coin, commitments.1, commitments.2, indices, proofs.1, proofs.2⟩)
  rw [hentries]
  refine hloop.trans ?_
  exact (List.forM_map).symm

/-- Looking up what belongs to each output. -/
theorem forM_outputPartsAt (f : SealedCoin F G → G → G → G → Outcome Unit) :
    (payment.outputs.zipIdx.forM fun (coin, j) => do
      let (value, derivator, shard) ← payment.outputPartsAt j
      f coin value derivator shard) =
        (payment.outputs.zip payment.outputParts).forM
          fun (coin, value, derivator, shard) => f coin value derivator shard :=
  Outcome.forM_zipIdx_eq h.length_outputParts outputPartsAt_eq
    (f := fun coin (value, derivator, shard) => f coin value derivator shard)

end HiddenShape

end

/-! ## Transparent payments -/

/-- Refuses an input of a transparent payment that is not on the ledger at its position, does not
open, or does not have the serial number that was proved. -/
def checkOpenInputByIndex (context : VerifyContext) (source : CommitmentSource G)
    (coin : AccountCoin F G) (proof : SerialProof F G) (index : UInt64) : Outcome Unit := do
  ensure (matchesStatement coin proof.statement)
    (.proofVerificationFailed "proof v1: input coin and serial number statement differ")
  coin.verifyCommitmentByIndex context.params
  let stored ← source context.token context.shard index
  ensure (coin.commitment == some stored) (.commitmentMismatch "input commitment not on ledger")
  proof.verify none

/-- Refuses a sealed output, and one that does not open. -/
def checkOpenOutputByIndex (context : VerifyContext) (coin : SealedCoin F G) : Outcome Unit := do
  ensure coin.encrypted.isNone
    (.proofVerificationFailed "proof v1: encrypted output without privacy")
  coin.details.verifyCommitmentByIndex context.params

/-- Refuses a transparent payment that does not hold. -/
def verifyOpenByIndex (payment : AccountPayment F G) (context : VerifyContext)
    (source : CommitmentSource G) : Outcome Unit := do
  let n := payment.inputs.length
  ensure (payment.serialProofs.length == n && payment.ledgerIndices.length == n
      && payment.hiddenSerialProofs.isEmpty)
    (.proofVerificationFailed "proof v1: input proof count")
  checkSerials payment.inputs
  (payment.inputs.zip (payment.serialProofs.zip payment.ledgerIndices)).forM
    fun (coin, proof, index) => checkOpenInputByIndex context source coin proof index
  payment.outputs.forM (checkOpenOutputByIndex context)
  Balance.check (payment.inputs.map (·.value)) (payment.outputs.map (·.details.value))
    context.fee (.proofVerificationFailed "proof v1: balance")

theorem verifyOpenByIndex_eq [PointGroup.Sized F G] (payment : AccountPayment F G)
    (context : VerifyContext) (source : CommitmentSource G) :
    payment.verifyOpenByIndex context source = payment.verifyOpen context source := by
  have hinput : checkOpenInputByIndex context source = checkOpenInput (F := F) context source := by
    funext coin proof index
    unfold checkOpenInputByIndex
    rw [coin.verifyCommitmentByIndex_eq]
    rfl
  have houtput : checkOpenOutputByIndex context = checkOpenOutput (F := F) (G := G) context := by
    funext coin
    unfold checkOpenOutputByIndex
    rw [coin.details.verifyCommitmentByIndex_eq]
    rfl
  unfold verifyOpenByIndex
  rw [hinput, houtput]
  rfl

/-! ## Private payments -/

/-- Refuses an input of a private payment whose ring proof or serial number does not hold. -/
def checkHiddenInputByIndex (context : VerifyContext) (source : CommitmentSource G)
    (keyCommitment shardCommitment : G) (input : InputEntry F G) : Outcome Unit := do
  let sum :=
    keyCommitment + input.valueCommitment + input.derivatorCommitment + shardCommitment
  let ring ← ring source context.token context.shard sum input.indices
  input.ringProof.verifyByIndex ring
  ensure (input.serialProof.derivatorCommitment == input.derivatorCommitment)
    (.proofVerificationFailed
      "proof v1: serial number proof bound to another derivator commitment")
  ensure (input.coin.serialNumber == some input.serialProof.serial)
    (.proofVerificationFailed "proof v1: input serial number differs from proven one")
  input.serialProof.verify keyCommitment none

/-- Refuses a private payment that does not hold. -/
def verifyHiddenByIndex (payment : AccountPayment F G) (context : VerifyContext)
    (source : CommitmentSource G) : Outcome Unit := do
  payment.checkShape
  let missing := Fault.proofVerificationFailed "proof v1: missing input key commitments"
  let keyCommitment ← require payment.inputKey missing
  let shardCommitment ← require payment.inputShard missing
  checkSerials payment.inputs
  payment.inputs.zipIdx.forM fun (coin, i) => do
    let (commitments, indices, proofs) ← payment.inputPartsAt i
    checkHiddenInputByIndex context source keyCommitment shardCommitment
      ⟨coin, commitments.1, commitments.2, indices, proofs.1, proofs.2⟩
  payment.outputs.zipIdx.forM fun (coin, j) => do
    let (value, derivator, shard) ← payment.outputPartsAt j
    checkHiddenOutput coin value derivator shard
  let rangeProof ← require payment.rangeProof
    (.proofVerificationFailed "proof v1: missing range proof")
  ensure (rangeProof.commitments == payment.outputValues)
    (.proofVerificationFailed "proof v1: range proof covers other commitments")
  rangeProof.verifyByIndex .singleSum RangeProof.defaultBase
  ensure (balancePoint payment.inputValues payment.outputValues context.fee == 0)
    (.proofVerificationFailed "proof v1: balance")

theorem verifyHiddenByIndex_eq [PointGroup.FullBases F G] (payment : AccountPayment F G)
    (context : VerifyContext) (source : CommitmentSource G) :
    payment.verifyHiddenByIndex context source = payment.verifyHidden context source := by
  have hinput (key shard : G) : checkHiddenInputByIndex context source key shard =
      checkHiddenInput (F := F) context source key shard := by
    funext input
    unfold checkHiddenInputByIndex
    simp only [RingProof.verifyByIndex_eq]
    rfl
  unfold verifyHiddenByIndex verifyHidden
  cases hshape : payment.checkShape with
  | error fault => rfl
  | ok _ =>
    -- Behind the check of the counts, each position of an input or output finds what belongs to it.
    have h := (checkShape_eq_ok_iff payment).mp hshape
    simp only [h.forM_inputPartsAt, h.forM_outputPartsAt, hinput, RangeProof.verifyByIndex_eq]
    rfl

/-- Refuses a payment that does not hold. -/
def verifyByIndex (payment : AccountPayment F G) (context : VerifyContext)
    (source : CommitmentSource G) : Outcome Unit :=
  if payment.isPrivate then payment.verifyHiddenByIndex context source
  else payment.verifyOpenByIndex context source

theorem verifyByIndex_eq [PointGroup.Sized F G] [PointGroup.FullBases F G]
    (payment : AccountPayment F G) (context : VerifyContext) (source : CommitmentSource G) :
    payment.verifyByIndex context source = payment.verify context source := by
  rw [verifyByIndex, payment.verifyHiddenByIndex_eq, payment.verifyOpenByIndex_eq, verify]

end AccountPayment

/-! ## Payments of one-time coins -/

namespace OneTimePayment

/-- The base that the outputs are committed on: the asset tag of the output at position zero if all
outputs have one and should, or the value base if none has one or should. -/
def outputBaseByIndex (payment : OneTimePayment F G) (confidentialAsset : Bool) : Outcome G := do
  if confidentialAsset then
    ensure (payment.outputs.all (·.assetTag.isSome))
      (.typeMismatch "confidential asset coin" "plain coin")
    let first ← elementAt payment.outputs 0
    require first.assetTag (.proofVerificationFailed "proof v2: output without asset tag")
  else
    ensure (payment.outputs.all (·.assetTag.isNone))
      (.typeMismatch "plain coin" "confidential asset coin")
    return RangeProof.defaultBase

omit [ScalarField F] in
theorem outputBaseByIndex_eq {payment : OneTimePayment F G} (h : payment.outputs ≠ [])
    (confidentialAsset : Bool) :
    payment.outputBaseByIndex confidentialAsset = payment.outputBase confidentialAsset := by
  obtain ⟨first, rest, houtputs⟩ := List.exists_cons_of_ne_nil h
  have hfirst : elementAt payment.outputs 0 = .ok first := by
    rw [houtputs]
    rfl
  have hhead : payment.outputs.head? = some first := by rw [houtputs, List.head?_cons]
  unfold outputBaseByIndex outputBase
  rw [hfirst, hhead]
  rfl

/-- Refuses a payment that does not hold. -/
def verifyByIndex (payment : OneTimePayment F G) (context : VerifyContext) : Outcome Unit := do
  ensure (!payment.inputs.isEmpty) (.proofVerificationFailed "proof v2: no inputs")
  ensure (!payment.outputs.isEmpty && payment.outputs.length ≤ maxOutputs)
    (.proofVerificationFailed "proof v2: output count")
  checkKeyImages [] payment.inputs
  let rangeProof ← require payment.rangeProof
    (.proofVerificationFailed "proof v2: missing range proof")
  ensure (rangeProof.version == rangeVersion)
    (.proofVerificationFailed "proof v2: range proof version")
  let commitments ← payment.outputs.mapM fun coin =>
    require coin.commitment (.proofVerificationFailed "proof v2: output without commitment")
  ensure (rangeProof.commitments == commitments)
    (.proofVerificationFailed "proof v2: range proof covers other commitments")
  let base ← payment.outputBaseByIndex context.confidentialAsset
  rangeProof.verifyByIndex .singleSum base

theorem verifyByIndex_eq [PointGroup.FullBases F G] (payment : OneTimePayment F G)
    (context : VerifyContext) : payment.verifyByIndex context = payment.verify context := by
  unfold verifyByIndex verify
  simp only [RangeProof.verifyByIndex_eq]
  by_cases h : payment.outputs = []
  · rw [h]
    rfl
  · rw [outputBaseByIndex_eq h]

end OneTimePayment

/-! ## Conversions -/

namespace Conversion

/-- Refuses inputs one of which does not have the serial number that was proved, has that of an
earlier input, or does not open. -/
def checkInputsByIndex (params : ShardParams) :
    (seen : List Bytes) → (inputs : List (AccountCoin F G × SerialProof F G)) → Outcome Unit
  | _, [] => .ok ()
  | seen, (coin, proof) :: inputs => do
    ensure (AccountPayment.matchesStatement coin proof.statement)
      (.proofVerificationFailed "conversion: input coin and serial number statement differ")
    let serial := PointGroup.encode proof.statement.serial
    ensure (!seen.contains serial)
      (.proofVerificationFailed "conversion: duplicate serial number")
    coin.verifyCommitmentByIndex params
    proof.verify none
    checkInputsByIndex params (serial :: seen) inputs

theorem checkInputsByIndex_eq [PointGroup.Sized F G] (params : ShardParams) (seen : List Bytes)
    (inputs : List (AccountCoin F G × SerialProof F G)) :
    checkInputsByIndex params seen inputs = checkInputs params seen inputs := by
  induction inputs generalizing seen with
  | nil => rfl
  | cons input inputs ih =>
    rw [checkInputsByIndex, checkInputs]
    simp only [AccountCoin.verifyCommitmentByIndex_eq, ih]

/-- Refuses a conversion that does not hold. -/
def verifyByIndex (conversion : Conversion F G) (context : VerifyContext) : Outcome Unit := do
  ensure (!conversion.inputs.isEmpty
      && conversion.serialProofs.length == conversion.inputs.length)
    (.proofVerificationFailed "conversion: input proof count")
  ensure (!conversion.outputs.isEmpty && conversion.outputs.length ≤ maxOutputs)
    (.proofVerificationFailed "conversion: output count")
  checkInputsByIndex context.params [] (conversion.inputs.zip conversion.serialProofs)
  conversion.outputs.forM checkOutput
  ensure (Balance.holdsFeeLast (conversion.inputs.map (·.value))
      (conversion.outputs.map (·.value)) context.fee)
    (.proofVerificationFailed "conversion: balance")

theorem verifyByIndex_eq [PointGroup.Sized F G] (conversion : Conversion F G)
    (context : VerifyContext) : conversion.verifyByIndex context = conversion.verify context := by
  unfold verifyByIndex
  rw [checkInputsByIndex_eq]
  rfl

end Conversion

/-! ## Payments of any version -/

namespace AnyPayment

/-- Refuses a payment that does not hold. -/
def verifyByIndex (payment : AnyPayment F G) (context : VerifyContext) (source : CommitmentSource G) :
    Outcome Unit :=
  match payment with
  | account payment => payment.verifyByIndex context source
  | oneTime payment => payment.verifyByIndex context
  | conversion payment => payment.verifyByIndex context

/-- **A payment is checked within range.** However many coins, commitments, proofs and ledger positions
a payment has, its check by index does what the check over lists does. -/
theorem verifyByIndex_eq [PointGroup.Sized F G] [PointGroup.FullBases F G] (payment : AnyPayment F G)
    (context : VerifyContext) (source : CommitmentSource G) :
    payment.verifyByIndex context source = payment.verify context source := by
  cases payment with
  | account payment => exact payment.verifyByIndex_eq context source
  | oneTime payment => exact payment.verifyByIndex_eq context
  | conversion payment => exact payment.verifyByIndex_eq context

end AnyPayment

end ShieldedPayments
