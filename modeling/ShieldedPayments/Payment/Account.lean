import ShieldedPayments.Argument.HiddenSerial
import ShieldedPayments.Argument.Range
import ShieldedPayments.Argument.RingMember
import ShieldedPayments.Argument.Serial
import ShieldedPayments.Payment.Balance
import ShieldedPayments.Payment.Ledger

/-!
# Payments of account coins

A payment of version 1 spends and creates account coins. A transparent one shows everything: each
input with its place on the ledger and a proof of its serial number, each output with its opening.

In a private one each input commitment is split into commitments to its spend key, value, derivator
and shard. Their sum is subtracted from eight ledger commitments, and a ring proof shows that one of
the differences opens to zero. Outputs are split the same way, a range proof covers their values, and
the blinding of the last output's value is chosen so that inputs less outputs and fee is the neutral
element.

* `AccountSpend.prove`: making payments.
* `AccountPayment.verify`: checking them.
* `AccountPayment.toBytes`, `AccountPayment.ofBytes`: the encoding.
-/

namespace ShieldedPayments

/-- A payment of version 1 (`ProofV1`). What the other kind of payment needs is empty. -/
structure AccountPayment (F G : Type) where
  ringProofs : List (RingProof F G) := []
  hiddenSerialProofs : List (HiddenSerialProof F G) := []
  serialProofs : List (SerialProof F G) := []
  rangeProof : Option (RangeProof F G) := none
  inputs : List (AccountCoin F G) := []
  outputs : List (SealedCoin F G) := []
  outputValues : List G := []
  outputDerivators : List G := []
  outputShards : List G := []
  inputKey : Option G := none
  inputValues : List G := []
  inputDerivators : List G := []
  inputShard : Option G := none
  ledgerIndices : List UInt64 := []
  deriving BEq, Inhabited

/-- What the sender knows (`PaymentWitnessParamV1`). -/
structure AccountSpend (F G : Type) where
  isPrivate : Bool
  key : PrivateKey F
  inputs : List (AccountCoin F G)
  payments : List (Payment G)
  fee : UInt64
  token : TokenId
  /-- The shard whose ledger holds the inputs. -/
  shard : UInt8
  /-- The ledger position of each input, or under privacy of the eight members of its ring. -/
  ledgerIndices : List UInt64
  /-- Under privacy, the position of each input in its ring. -/
  ringPositions : List Nat

variable {F G : Type} [ScalarField F] [PointGroup F G]

namespace AccountPayment

/-- The version of payments of account coins (`PROOF_VERSION_1`). -/
def version : UInt8 := 1

/-- The most inputs of a private payment: their ring members are counted in one byte
(`MAX_PRIVACY_INPUTS`). -/
def maxPrivateInputs : Nat := 255 / ringSize

/-- Whether a payment hides its inputs and amounts (`ProofV1::is_privacy`). -/
def isPrivate (payment : AccountPayment F G) : Bool :=
  !payment.ringProofs.isEmpty

/-- The ledger positions of the ring of each of `n` inputs (the slices of `commitment_indices` in
`prove_privacy` and `verify_privacy`). -/
def ringIndices (n : Nat) (indices : List UInt64) : List (List UInt64) :=
  (List.range n).map fun i => (indices.drop (i * ringSize)).take ringSize

/-- The members of a ring: ledger commitments less a sum (`ring` in `prove_privacy` and
`verify_privacy`). -/
def ring (source : CommitmentSource G) (token : TokenId) (shard : UInt8) (sum : G)
    (indices : List UInt64) : Outcome (List G) :=
  indices.mapM fun index => do
    return (← source token shard index) - sum

end AccountPayment

/-! ## Making payments -/

namespace AccountSpend

/-- Refuses a spend that does not balance, or whose coins the key does not own or cannot open
(`PaymentWitnessParamV1::check`). -/
def check (spend : AccountSpend F G) (params : ShardParams) : Outcome Unit := do
  checkCounts spend.inputs.length spend.payments.length
  Balance.check (spend.inputs.map (·.value)) (spend.payments.map (·.amount)) spend.fee
    (.invalidInput "inputs do not balance outputs and fee")
  let owner : G := spend.key.publicSpend
  spend.inputs.forM fun coin => do
    ensure (coin.publicKey == some owner) (.invalidInput "input coin not owned by private key")
    coin.verifyCommitment params
  let n := spend.inputs.length
  if spend.isPrivate then
    ensure (n ≤ AccountPayment.maxPrivateInputs)
      (.invalidInput "too many inputs for a privacy proof")
    ensure (spend.ledgerIndices.length == n * ringSize && spend.ringPositions.length == n)
      (.invalidInput "ring index count")
  else
    ensure (spend.ledgerIndices.length == n) (.invalidInput "commitment index count")

/-- An input of a transparent payment and the proof of its serial number (the body of the loop over
the inputs in `prove_no_privacy`). -/
def proveOpenInput (spend : AccountSpend F G) (source : CommitmentSource G)
    (coin : AccountCoin F G) (index : UInt64) : Proving (AccountCoin F G × SerialProof F G) := do
  let stored ← source spend.token spend.shard index
  ensure (coin.commitment == some stored)
    (.invalidInput "input commitment not found at ledger index")
  let derivator ← require coin.derivator (.invalidInput "coin has no serial number derivator")
  let serial : G := Pedersen.serialNumber spend.key.secret derivator
  let proof ← ExceptT.lift
    (SerialProof.prove ⟨serial, spend.key.publicSpend, derivator⟩ spend.key.secret none)
  return ({ coin with serialNumber := some serial, info := [] }, proof)

/-- An output of a transparent payment (the body of the loop over the outputs in
`prove_no_privacy`). -/
def openOutput (params : ShardParams) (payment : Payment G) : Proving (SealedCoin F G) := do
  let derivator ← Proving.scalar
  let randomness ← Proving.scalar
  let coin := AccountCoin.issue payment.address.publicSpend payment.amount derivator payment.message
  let coin ← { coin with randomness := some randomness }.commit params
  return { details := coin }

/-- A transparent payment (`PaymentWitnessParamV1::prove_no_privacy`). -/
def proveOpen (spend : AccountSpend F G) (params : ShardParams) (source : CommitmentSource G) :
    Proving (AccountPayment F G) := do
  let inputs ← (spend.inputs.zip spend.ledgerIndices).mapM fun (coin, index) =>
    spend.proveOpenInput source coin index
  let outputs ← spend.payments.mapM (openOutput params)
  return {
    inputs := inputs.map (·.1)
    serialProofs := inputs.map (·.2)
    outputs
    ledgerIndices := spend.ledgerIndices }

/-- The commitments to spend key and shard that all inputs of a private payment share, and their
blindings. -/
structure SharedInput (F G : Type) where
  keyBlinding : F
  shardBlinding : F
  keyCommitment : G
  shardCommitment : G

/-- What a private payment shows about one input, and the blinding of its value. -/
structure HiddenInput (F G : Type) where
  valueBlinding : F
  valueCommitment : G
  derivatorCommitment : G
  ringProof : RingProof F G
  serialProof : HiddenSerialProof F G
  coin : AccountCoin F G

/-- One input of a private payment, given the ledger positions of its ring and its position in it
(the body of the loop over the inputs in `prove_privacy`). -/
def proveHiddenInput (spend : AccountSpend F G) (source : CommitmentSource G)
    (shared : SharedInput F G) (coin : AccountCoin F G) (indices : List UInt64)
    (position : Nat) : Proving (HiddenInput F G) := do
  let derivator ← require coin.derivator (.invalidInput "coin has no serial number derivator")
  let randomness ← require coin.randomness (.invalidInput "coin has no randomness")
  let valueBlinding : F ← Proving.scalar
  let derivatorBlinding : F ← Proving.scalar
  let valueCommitment : G := Pedersen.commitAt .value (ofNat coin.value.toNat) valueBlinding
  let derivatorCommitment : G := Pedersen.commitAt .derivator derivator derivatorBlinding
  let sum :=
    shared.keyCommitment + valueCommitment + derivatorCommitment + shared.shardCommitment
  let ring ← AccountPayment.ring source spend.token spend.shard sum indices
  let rest := randomness
    - (shared.keyBlinding + valueBlinding + derivatorBlinding + shared.shardBlinding)
  let ringProof ← RingProof.prove ring rest position
  let serial : G := Pedersen.serialNumber spend.key.secret derivator
  let serialProof ← ExceptT.lift
    (HiddenSerialProof.prove ⟨serial, shared.keyCommitment, derivatorCommitment⟩
      ⟨spend.key.secret, shared.keyBlinding, derivator, derivatorBlinding⟩ none)
  return { valueBlinding, valueCommitment, derivatorCommitment, ringProof, serialProof
           coin := { coin with serialNumber := some serial } }

/-- What a private payment shows about one output, the blinding of its value, and the coin with its
opening. -/
structure HiddenOutput (F G : Type) where
  valueBlinding : F
  valueCommitment : G
  derivatorCommitment : G
  shardCommitment : G
  coin : AccountCoin F G

/-- One output of a private payment (the body of the loop over the outputs in `prove_privacy`). The
blinding of its value is drawn if it is not given. -/
def hiddenOutput (params : ShardParams) (payment : Payment G) (given : Option F) :
    Proving (HiddenOutput F G) := do
  let address := payment.address
  let derivator : F ← Proving.scalar
  let shard ← params.shardOf address.lastByte
  let valueBlinding ← match given with
    | some r => pure r
    | none => Proving.scalar
  let derivatorBlinding : F ← Proving.scalar
  let shardBlinding : F ← Proving.scalar
  let valueCommitment : G := Pedersen.commitAt .value (ofNat payment.amount.toNat) valueBlinding
  let derivatorCommitment : G := Pedersen.commitAt .derivator derivator derivatorBlinding
  let shardCommitment : G := Pedersen.commitAt .shard (ofNat shard.toNat) shardBlinding
  let coin := AccountCoin.issue address.publicSpend payment.amount derivator payment.message
  return {
    valueBlinding, valueCommitment, derivatorCommitment, shardCommitment
    coin := { coin with
      randomness := some (valueBlinding + derivatorBlinding + shardBlinding)
      commitment := some
        (address.publicSpend + valueCommitment + derivatorCommitment + shardCommitment) } }

/-- The outputs of a private payment (the loop over the outputs in `prove_privacy`). The blindings
of their values add up to `blinding`. -/
def hiddenOutputs (params : ShardParams) (blinding : F) :
    List (Payment G) → Proving (List (HiddenOutput F G))
  | [] => return []
  | [payment] => do
    let output ← hiddenOutput params payment (some blinding)
    return [output]
  | payment :: payments => do
    let output ← hiddenOutput params payment none
    let outputs ← hiddenOutputs params (blinding - output.valueBlinding) payments
    return output :: outputs

/-- The commitments that all inputs share (the start of `prove_privacy`). -/
def shareInput (spend : AccountSpend F G) (params : ShardParams) : Proving (SharedInput F G) := do
  let shard ← params.shardOf (lastByte (spend.key.publicSpend : G))
  let keyBlinding : F ← Proving.scalar
  let shardBlinding : F ← Proving.scalar
  return {
    keyBlinding, shardBlinding
    keyCommitment := Pedersen.commitAt .spendKey spend.key.secret keyBlinding
    shardCommitment := Pedersen.commitAt .shard (ofNat shard.toNat) shardBlinding }

/-- A private payment (`PaymentWitnessParamV1::prove_privacy`). Coins are sealed and redacted only
after everything has been proved. -/
def proveHidden (spend : AccountSpend F G) (params : ShardParams) (source : CommitmentSource G) :
    Proving (AccountPayment F G) := do
  let shared ← spend.shareInput params
  let rings := AccountPayment.ringIndices spend.inputs.length spend.ledgerIndices
  let inputs ← (spend.inputs.zip (rings.zip spend.ringPositions)).mapM
    fun (coin, indices, position) => spend.proveHiddenInput source shared coin indices position
  let blinding := (inputs.map (·.valueBlinding)).sum
  let outputs ← hiddenOutputs params blinding spend.payments
  let witness ← RangeWitness.create (spend.payments.map (·.amount))
    (outputs.map (·.valueBlinding))
  let rangeProof ← RangeProof.prove witness 1 (RangeProof.defaultBase : G)
  let sealedCoins ← (outputs.zip spend.payments).mapM fun (output, payment) => do
    let coin ← SealedCoin.sealTo { details := output.coin } payment.address.publicView
    return coin.strip
  return {
    ringProofs := inputs.map (·.ringProof)
    hiddenSerialProofs := inputs.map (·.serialProof)
    rangeProof := some rangeProof
    inputs := inputs.map (·.coin.redact)
    outputs := sealedCoins
    outputValues := outputs.map (·.valueCommitment)
    outputDerivators := outputs.map (·.derivatorCommitment)
    outputShards := outputs.map (·.shardCommitment)
    inputKey := some shared.keyCommitment
    inputValues := inputs.map (·.valueCommitment)
    inputDerivators := inputs.map (·.derivatorCommitment)
    inputShard := some shared.shardCommitment
    ledgerIndices := spend.ledgerIndices }

/-- The payment for a spend (`PaymentWitnessParamV1::prove`). -/
def prove (spend : AccountSpend F G) (params : ShardParams) (source : CommitmentSource G) :
    Proving (AccountPayment F G) := do
  spend.check params
  if spend.isPrivate then spend.proveHidden params source else spend.proveOpen params source

end AccountSpend

/-! ## Checking payments -/

namespace AccountPayment

/-- Refuses inputs of which two have the same serial number (`no_duplicate_serial_numbers`). -/
def checkSerials (inputs : List (AccountCoin F G)) : Outcome Unit :=
  ensure (allDistinct ((inputs.filterMap (·.serialNumber)).map PointGroup.encode))
    (.proofVerificationFailed "proof v1: duplicate serial number")

/-- Whether a coin has the serial number, public key and derivator of a statement. -/
def matchesStatement (coin : AccountCoin F G) (statement : SerialStatement F G) : Bool :=
  coin.publicKey == some statement.publicKey && coin.derivator == some statement.derivator
    && coin.serialNumber == some statement.serial

/-- Refuses an input of a transparent payment that is not on the ledger at its position, does not
open, or does not have the serial number that was proved (the body of the loop over the inputs in
`verify_no_privacy`). -/
def checkOpenInput (context : VerifyContext) (source : CommitmentSource G)
    (coin : AccountCoin F G) (proof : SerialProof F G) (index : UInt64) : Outcome Unit := do
  ensure (matchesStatement coin proof.statement)
    (.proofVerificationFailed "proof v1: input coin and serial number statement differ")
  coin.verifyCommitment context.params
  let stored ← source context.token context.shard index
  ensure (coin.commitment == some stored) (.commitmentMismatch "input commitment not on ledger")
  proof.verify none

/-- Refuses a sealed output, and one that does not open (the body of the loop over the outputs in
`verify_no_privacy`). -/
def checkOpenOutput (context : VerifyContext) (coin : SealedCoin F G) : Outcome Unit := do
  ensure coin.encrypted.isNone
    (.proofVerificationFailed "proof v1: encrypted output without privacy")
  coin.details.verifyCommitment context.params

/-- Refuses a transparent payment that does not hold (`ProofV1::verify_no_privacy`). -/
def verifyOpen (payment : AccountPayment F G) (context : VerifyContext)
    (source : CommitmentSource G) : Outcome Unit := do
  let n := payment.inputs.length
  ensure (payment.serialProofs.length == n && payment.ledgerIndices.length == n
      && payment.hiddenSerialProofs.isEmpty)
    (.proofVerificationFailed "proof v1: input proof count")
  checkSerials payment.inputs
  (payment.inputs.zip (payment.serialProofs.zip payment.ledgerIndices)).forM
    fun (coin, proof, index) => checkOpenInput context source coin proof index
  payment.outputs.forM (checkOpenOutput context)
  Balance.check (payment.inputs.map (·.value)) (payment.outputs.map (·.details.value))
    context.fee (.proofVerificationFailed "proof v1: balance")

/-- One input of a private payment, with all that belongs to it. -/
structure InputEntry (F G : Type) where
  coin : AccountCoin F G
  valueCommitment : G
  derivatorCommitment : G
  indices : List UInt64
  ringProof : RingProof F G
  serialProof : HiddenSerialProof F G

/-- The inputs of a payment with all that belongs to them. -/
def inputEntries (payment : AccountPayment F G) : List (InputEntry F G) :=
  let rings := ringIndices payment.inputs.length payment.ledgerIndices
  let commitments := payment.inputValues.zip payment.inputDerivators
  let proofs := payment.ringProofs.zip payment.hiddenSerialProofs
  List.zipWith (fun coin (commitments, indices, proofs) =>
      ⟨coin, commitments.1, commitments.2, indices, proofs.1, proofs.2⟩)
    payment.inputs (commitments.zip (rings.zip proofs))

/-- Refuses an input of a private payment whose ring proof or serial number does not hold (the body
of the loop over the inputs in `verify_privacy`). -/
def checkHiddenInput (context : VerifyContext) (source : CommitmentSource G)
    (keyCommitment shardCommitment : G) (input : InputEntry F G) : Outcome Unit := do
  let sum :=
    keyCommitment + input.valueCommitment + input.derivatorCommitment + shardCommitment
  let ring ← ring source context.token context.shard sum input.indices
  input.ringProof.verify ring
  ensure (input.serialProof.derivatorCommitment == input.derivatorCommitment)
    (.proofVerificationFailed
      "proof v1: serial number proof bound to another derivator commitment")
  ensure (input.coin.serialNumber == some input.serialProof.serial)
    (.proofVerificationFailed "proof v1: input serial number differs from proven one")
  input.serialProof.verify keyCommitment none

/-- Refuses an output of a private payment whose commitment is not the sum of its parts (the body of
the loop over the outputs in `verify_privacy`). -/
def checkHiddenOutput (coin : SealedCoin F G) (value derivator shard : G) : Outcome Unit := do
  let publicKey ← require coin.details.publicKey
    (.proofVerificationFailed "proof v1: output has no public key")
  ensure (coin.details.commitment == some (publicKey + value + derivator + shard))
    (.commitmentMismatch "output commitment decomposition")

/-- Input commitments less output commitments and the fee (`balance_point`). -/
def balancePoint (inputs outputs : List G) (fee : UInt64) : G :=
  inputs.sum - outputs.sum - Pedersen.commitAt .value (ofNat fee.toNat) (0 : F)

/-- Refuses a private payment in which something is missing or left over (the tests at the start of
`verify_privacy`). -/
def checkShape (payment : AccountPayment F G) : Outcome Unit := do
  let n := payment.inputs.length
  ensure (payment.ringProofs.length == n && payment.hiddenSerialProofs.length == n
      && payment.inputValues.length == n && payment.inputDerivators.length == n
      && payment.ledgerIndices.length == n * ringSize && payment.serialProofs.isEmpty)
    (.proofVerificationFailed "proof v1: input proof count")
  let m := payment.outputs.length
  ensure (m != 0 && payment.outputValues.length == m && payment.outputDerivators.length == m
      && payment.outputShards.length == m)
    (.proofVerificationFailed "proof v1: output commitment count")

/-- Refuses a private payment that does not hold (`ProofV1::verify_privacy`). -/
def verifyHidden (payment : AccountPayment F G) (context : VerifyContext)
    (source : CommitmentSource G) : Outcome Unit := do
  payment.checkShape
  let missing := Fault.proofVerificationFailed "proof v1: missing input key commitments"
  let keyCommitment ← require payment.inputKey missing
  let shardCommitment ← require payment.inputShard missing
  checkSerials payment.inputs
  payment.inputEntries.forM (checkHiddenInput context source keyCommitment shardCommitment)
  (payment.outputs.zip (payment.outputValues.zip
      (payment.outputDerivators.zip payment.outputShards))).forM
    fun (coin, value, derivator, shard) => checkHiddenOutput coin value derivator shard
  let rangeProof ← require payment.rangeProof
    (.proofVerificationFailed "proof v1: missing range proof")
  ensure (rangeProof.commitments == payment.outputValues)
    (.proofVerificationFailed "proof v1: range proof covers other commitments")
  rangeProof.verify .singleSum RangeProof.defaultBase
  ensure (balancePoint payment.inputValues payment.outputValues context.fee == 0)
    (.proofVerificationFailed "proof v1: balance")

/-- Refuses a payment that does not hold (`ProofV1::verify`). -/
def verify (payment : AccountPayment F G) (context : VerifyContext)
    (source : CommitmentSource G) : Outcome Unit :=
  if payment.isPrivate then payment.verifyHidden context source
  else payment.verifyOpen context source

/-! ## Encoding -/

/-- A sealed coin behind a length of one or two bytes. -/
def outputBytes (coin : SealedCoin F G) : Bytes :=
  let b := coin.toBytes
  dualLength b.length ++ b

/-- The version and all parts of a payment, lists behind count bytes (`ProofV1::to_bytes`). -/
def toBytes (payment : AccountPayment F G) : Bytes :=
  version :: Writer.counted (fun p => Writer.prefixed 2 p.toBytes) payment.ringProofs
    ++ Writer.counted (fun p => Writer.prefixed 2 p.toBytes) payment.hiddenSerialProofs
    ++ Writer.counted (fun p => Writer.shortPrefixed p.toBytes) payment.serialProofs
    ++ Writer.prefixed 2 ((payment.rangeProof.map RangeProof.toBytes).getD [])
    ++ Writer.counted (fun c => Writer.shortPrefixed c.toBytes) payment.inputs
    ++ Writer.counted outputBytes payment.outputs
    ++ Writer.points payment.outputValues ++ Writer.points payment.outputDerivators
    ++ Writer.points payment.outputShards ++ Writer.optPoint payment.inputKey
    ++ Writer.points payment.inputValues ++ Writer.points payment.inputDerivators
    ++ Writer.optPoint payment.inputShard
    ++ Writer.counted (fun i => Writer.number 8 i.toNat) payment.ledgerIndices

/-- Reads a range proof behind a length of `width` bytes, which is zero if there is none. -/
def rangeProofReader (width : Nat) : Reader (Option (RangeProof F G)) := do
  let b ← Reader.prefixed width
  if b.isEmpty then return none
  else
    let proof ← RangeProof.ofBytes b
    return some proof

/-- Reads a payment. -/
def reader : Reader (AccountPayment F G) := do
  if (← Reader.byte) ≠ version then throw (.malformedEncoding "proof v1 version")
  let ringProofs ← Reader.counted do RingProof.ofBytes (← Reader.prefixed 2)
  let hiddenSerialProofs ← Reader.counted do HiddenSerialProof.ofBytes (← Reader.prefixed 2)
  let serialProofs ← Reader.counted do SerialProof.ofBytes (← Reader.prefixed 1)
  let rangeProof ← rangeProofReader 2
  let inputs ← Reader.counted do AccountCoin.ofBytes (← Reader.prefixed 1)
  let outputs ← Reader.counted (Reader.dualPrefixed SealedCoin.ofBytes)
  let outputValues ← Reader.points
  let outputDerivators ← Reader.points
  let outputShards ← Reader.points
  let inputKey ← Reader.optPoint
  let inputValues ← Reader.points
  let inputDerivators ← Reader.points
  let inputShard ← Reader.optPoint
  let indices ← Reader.counted (Reader.number 8)
  Reader.finish
  return { ringProofs, hiddenSerialProofs, serialProofs, rangeProof, inputs, outputs, outputValues,
           outputDerivators, outputShards, inputKey, inputValues, inputDerivators, inputShard
           ledgerIndices := indices.map Nat.toUInt64 }

/-- The payment with this encoding (`ProofV1::from_bytes`). -/
def ofBytes (b : Bytes) : Outcome (AccountPayment F G) :=
  reader.result b

/-- The payment with other inputs, which must be account coins (`ProofV1::set_input_coins`). -/
def withInputs (payment : AccountPayment F G) (coins : List (InputCoin F G)) :
    Outcome (AccountPayment F G) := do
  return { payment with
    inputs := ← expectKind "PlainCoinV1" InputCoin.kind InputCoin.account? coins }

/-- The payment with other outputs, which must be sealed coins (`ProofV1::set_output_coins`). -/
def withOutputs (payment : AccountPayment F G) (coins : List (OutputCoin F G)) :
    Outcome (AccountPayment F G) := do
  return { payment with
    outputs := ← expectKind "CoinV1" OutputCoin.kind OutputCoin.account? coins }

end AccountPayment

end ShieldedPayments
