import ShieldedPayments.Payment.Account

/-!
# Payments of one-time coins

A payment of version 2 spends and creates one-time coins. Of each input only the key image is left;
one range proof covers the values of all outputs.

The outputs of a confidential asset are committed on asset tags with different blinders. The range
proof needs one base, and takes the tag of the first output: to commit the value `v` on it instead of
on a tag whose blinder is larger by `d`, the mask grows by `d` times `v`, and the commitment stays the
same point.

* `OneTimeSpend.prove`: making payments.
* `OneTimePayment.verify`: checking them.
* `OneTimePayment.toBytes`, `OneTimePayment.ofBytes`: the encoding.
-/

namespace ShieldedPayments

/-- A payment of version 2 (`ProofV2`). -/
structure OneTimePayment (F G : Type) where
  rangeProof : Option (RangeProof F G) := none
  inputs : List (OneTimeCoin F G) := []
  outputs : List (OneTimeCoin F G) := []
  deriving Inhabited

/-- What the sender knows (`PaymentWitnessParamV2`). The inputs are open. -/
structure OneTimeSpend (F G : Type) where
  key : PrivateKey F
  inputs : List (OneTimeCoin F G)
  payments : List (Payment G)
  fee : UInt64
  token : TokenId
  confidentialAsset : Bool
  /-- The sender's shard, if one-time keys are to show it. -/
  senderShard : Option UInt8

variable {F G : Type} [ScalarField F] [PointGroup F G]

/-! ## Making payments -/

namespace OneTimeSpend

/-- Refuses a spend that does not balance, or whose inputs are concealed
(`PaymentWitnessParamV2::check`). -/
def check (spend : OneTimeSpend F G) : Outcome Unit := do
  checkCounts spend.inputs.length spend.payments.length
  ensure (!spend.inputs.any (·.isEncrypted)) (.invalidInput "input coin is still concealed")
  ensure (Balance.holdsFeeFirst (spend.inputs.map (·.value)) (spend.payments.map (·.amount))
      spend.fee)
    (.invalidInput "inputs do not balance outputs and fee")

/-- An output, and the blinder of its asset tag, which is zero for a coin without one (the body of
the loop over the outputs in `PaymentWitnessParamV2::prove`). -/
def output (spend : OneTimeSpend F G) (params : ShardParams) (payment : Payment G) :
    Proving (OneTimeCoin F G × F) := do
  let request := ⟨payment, spend.senderShard.map fun shard => (shard, .transfer)⟩
  if spend.confidentialAsset then
    let (coin, sharedSecret) ← OneTimeCoin.payAsset params request spend.token
    return (coin, AssetTag.blinder sharedSecret)
  else
    let coin ← OneTimeCoin.pay params request
    return (coin, 0)

/-- The mask under which the first of several asset tags is the base of a commitment, if `mask` is
the one for a tag with the given blinder (`shifted` in `PaymentWitnessParamV2::prove`). -/
def shiftMask (first blinder mask value : F) : F :=
  mask + (blinder - first) * value

/-- The masks of coins (`masks` in `PaymentWitnessParamV2::prove`). -/
def maskList (coins : List (OneTimeCoin F G)) : Outcome (List F) :=
  coins.mapM fun coin => require coin.mask (.invalidInput "output has no mask")

/-- The range proof for outputs with the blinders of their asset tags (`range_proof` in
`PaymentWitnessParamV2::prove`). -/
def proveRange (spend : OneTimeSpend F G) (outputs : List (OneTimeCoin F G × F)) :
    Proving (RangeProof F G) := do
  let values := spend.payments.map (·.amount)
  let masks ← maskList (outputs.map (·.1))
  if spend.confidentialAsset then
    let (coin, first) ← require outputs.head? .undefined
    let base ← require coin.assetTag (.invalidInput "output has no asset tag")
    let shifted := List.zipWith (fun (mask, blinder) v => shiftMask first blinder mask (ofNat v.toNat))
      (masks.zip (outputs.map (·.2))) values
    let witness ← RangeWitness.create values shifted
    RangeProof.prove witness 2 base
  else
    let witness ← RangeWitness.create values masks
    RangeProof.prove witness 2 RangeProof.defaultBase

/-- The outputs, each concealed from all but its recipient (`conceal_output_coin` on every output in
`PaymentWitnessParamV2::prove`). -/
def concealAll (payments : List (Payment G)) (coins : List (OneTimeCoin F G)) :
    Outcome (List (OneTimeCoin F G)) :=
  (coins.zip payments).mapM fun (coin, payment) => coin.conceal payment.address.publicView

/-- The inputs, each with its key image and nothing else (`inputs` in
`PaymentWitnessParamV2::prove`). -/
def redactInputs (spend : OneTimeSpend F G) : Outcome (List (OneTimeCoin F G)) :=
  spend.inputs.mapM fun coin => do
    let keyImage ← coin.keyImageFor spend.key
    return OneTimeCoin.redact { coin with keyImage := some keyImage }

/-- The payment for a spend (`PaymentWitnessParamV2::prove`). Coins are concealed and redacted only
after the range has been proved. -/
def prove (spend : OneTimeSpend F G) (params : ShardParams) : Proving (OneTimePayment F G) := do
  spend.check
  let outputs ← spend.payments.mapM (spend.output params)
  let rangeProof ← spend.proveRange outputs
  let concealed ← concealAll spend.payments (outputs.map (·.1))
  let inputs ← spend.redactInputs
  return { rangeProof := some rangeProof, inputs, outputs := concealed }

end OneTimeSpend

/-! ## Checking payments -/

namespace OneTimePayment

instance : BEq (OneTimePayment F G) where
  beq a b := a.rangeProof == b.rangeProof && a.inputs == b.inputs && a.outputs == b.outputs

/-- The version of payments of one-time coins (`PROOF_VERSION_2`). -/
def version : UInt8 := 2

/-- The version of the range proof in such a payment (`RANGE_PROOF_VERSION_2`). -/
def rangeVersion : UInt8 := 2

/-- Whether a payment hides amounts (`ProofV2::is_privacy`). -/
def isPrivate (payment : OneTimePayment F G) : Bool :=
  payment.outputs.any (·.isEncrypted)

/-- Refuses inputs one of which lacks a key image or has that of an earlier input
(`ProofV2::check_key_images`). -/
def checkKeyImages : (seen : List Bytes) → (inputs : List (OneTimeCoin F G)) → Outcome Unit
  | _, [] => .ok ()
  | seen, coin :: inputs => do
    let keyImage ← require coin.keyImage
      (.proofVerificationFailed "proof v2: input without key image")
    let b := PointGroup.encode keyImage
    ensure (!seen.contains b) (.proofVerificationFailed "proof v2: duplicate key image")
    checkKeyImages (b :: seen) inputs

/-- The base that the outputs are committed on: the first asset tag if all outputs have one and
should, or the value base if none has one or should (`base` in `ProofV2::verify`). -/
def outputBase (payment : OneTimePayment F G) (confidentialAsset : Bool) : Outcome G := do
  if confidentialAsset then
    ensure (payment.outputs.all (·.assetTag.isSome))
      (.typeMismatch "confidential asset coin" "plain coin")
    require (payment.outputs.head?.bind (·.assetTag))
      (.proofVerificationFailed "proof v2: output without asset tag")
  else
    ensure (payment.outputs.all (·.assetTag.isNone))
      (.typeMismatch "plain coin" "confidential asset coin")
    return RangeProof.defaultBase

/-- Refuses a payment that does not hold (`ProofV2::verify`). -/
def verify (payment : OneTimePayment F G) (context : VerifyContext) : Outcome Unit := do
  ensure (!payment.inputs.isEmpty) (.proofVerificationFailed "proof v2: no inputs")
  ensure (!payment.outputs.isEmpty && payment.outputs.length ≤ maxOutputs)
    (.proofVerificationFailed "proof v2: output count")
  checkKeyImages [] payment.inputs
  let rangeProof ← require payment.rangeProof
    (.proofVerificationFailed "proof v2: missing range proof")
  ensure (rangeProof.version == rangeVersion)
    (.proofVerificationFailed "proof v2: range proof version")
  let commitments ← payment.outputs.mapM fun coin =>
    require coin.commitment (.proofVerificationFailed "proof v2: output without commitment")
  ensure (rangeProof.commitments == commitments)
    (.proofVerificationFailed "proof v2: range proof covers other commitments")
  let base ← payment.outputBase context.confidentialAsset
  rangeProof.verify .singleSum base

/-! ## Encoding -/

/-- The version, the range proof, and the coins (`ProofV2::to_bytes`). -/
def toBytes (payment : OneTimePayment F G) : Bytes :=
  version :: Writer.prefixed 4 ((payment.rangeProof.map RangeProof.toBytes).getD [])
    ++ Writer.counted (fun c => Writer.prefixed 4 c.toBytes) payment.inputs
    ++ Writer.counted (fun c => Writer.prefixed 4 c.toBytes) payment.outputs

/-- Reads a payment. -/
def reader : Reader (OneTimePayment F G) := do
  if (← Reader.byte) ≠ version then throw (.malformedEncoding "proof v2 version")
  let rangeProof ← AccountPayment.rangeProofReader 4
  let inputs ← Reader.counted do OneTimeCoin.ofBytes (← Reader.prefixed 4)
  let outputs ← Reader.counted do OneTimeCoin.ofBytes (← Reader.prefixed 4)
  Reader.finish
  return { rangeProof, inputs, outputs }

/-- The payment with this encoding (`ProofV2::from_bytes`). -/
def ofBytes (b : Bytes) : Outcome (OneTimePayment F G) :=
  reader.result b

/-- The payment with other inputs, which must be one-time coins (`ProofV2::set_input_coins`). -/
def withInputs (payment : OneTimePayment F G) (coins : List (InputCoin F G)) :
    Outcome (OneTimePayment F G) := do
  return { payment with inputs := ← expectKind "CoinV2" InputCoin.kind InputCoin.oneTime? coins }

/-- The payment with other outputs, which must be one-time coins (`ProofV2::set_output_coins`). -/
def withOutputs (payment : OneTimePayment F G) (coins : List (OutputCoin F G)) :
    Outcome (OneTimePayment F G) := do
  return { payment with
    outputs := ← expectKind "CoinV2" OutputCoin.kind OutputCoin.oneTime? coins }

end OneTimePayment

end ShieldedPayments
