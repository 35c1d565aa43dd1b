import ShieldedPayments.Payment.Account

/-!
# Conversions

A conversion spends account coins in the open and creates one-time coins whose amounts are in the
open too. Each input comes with a proof of its serial number; the amounts are simply added up.

* `ConversionSpend.prove`: making conversions.
* `Conversion.verify`: checking them.
* `Conversion.toBytes`, `Conversion.ofBytes`: the encoding.
-/

namespace ShieldedPayments

/-- Account coins turned into one-time coins (`ConversionProof`). -/
structure Conversion (F G : Type) where
  inputs : List (AccountCoin F G) := []
  outputs : List (OneTimeCoin F G) := []
  serialProofs : List (SerialProof F G) := []
  deriving Inhabited

/-- What the sender knows (`ConversionWitness`). -/
structure ConversionSpend (F G : Type) where
  key : PrivateKey F
  inputs : List (AccountCoin F G)
  payments : List (Payment G)
  fee : UInt64

variable {F G : Type} [ScalarField F] [PointGroup F G]

/-! ## Making conversions -/

namespace ConversionSpend

/-- Refuses a spend that does not balance (the start of `ConversionWitness::prove`). -/
def check (spend : ConversionSpend F G) : Outcome Unit := do
  checkCounts spend.inputs.length spend.payments.length
  ensure (Balance.holdsFeeLast (spend.inputs.map (·.value)) (spend.payments.map (·.amount))
      spend.fee)
    (.invalidInput "inputs do not balance outputs and fee")

/-- An input with its serial number and without its memo, and the proof of the serial number (the
body of the loop over the inputs in `ConversionWitness::prove`). -/
def proveInput (spend : ConversionSpend F G) (params : ShardParams) (coin : AccountCoin F G) :
    Proving (AccountCoin F G × SerialProof F G) := do
  let owner : G := spend.key.publicSpend
  ensure (coin.publicKey == some owner) (.invalidInput "input coin not owned by private key")
  coin.verifyCommitment params
  let derivator ← require coin.derivator (.invalidInput "coin has no serial number derivator")
  let serial : G := Pedersen.serialNumber spend.key.secret derivator
  let proof ← ExceptT.lift
    (SerialProof.prove ⟨serial, owner, derivator⟩ spend.key.secret none)
  return ({ coin with serialNumber := some serial, info := [] }, proof)

/-- An output whose amount is in the open (the body of the loop over the outputs in
`ConversionWitness::prove`). -/
def output (params : ShardParams) (payment : Payment G) : Proving (OneTimeCoin F G) := do
  let coin ← OneTimeCoin.pay params { payment }
  return coin.forgetRandoms

/-- The conversion for a spend (`ConversionWitness::prove`). -/
def prove (spend : ConversionSpend F G) (params : ShardParams) : Proving (Conversion F G) := do
  spend.check
  let inputs ← spend.inputs.mapM (spend.proveInput params)
  let outputs ← spend.payments.mapM (output params)
  return { inputs := inputs.map (·.1), outputs, serialProofs := inputs.map (·.2) }

end ConversionSpend

/-! ## Checking conversions -/

namespace Conversion

instance : BEq (Conversion F G) where
  beq a b := a.inputs == b.inputs && a.outputs == b.outputs && a.serialProofs == b.serialProofs

/-- The version of conversions (`CONVERSION_PROOF_VERSION`). -/
def version : UInt8 := 255

/-- Refuses inputs one of which does not have the serial number that was proved, has that of an
earlier input, or does not open (the loop over the inputs in `ConversionProof::verify`). -/
def checkInputs (params : ShardParams) :
    (seen : List Bytes) → (inputs : List (AccountCoin F G × SerialProof F G)) → Outcome Unit
  | _, [] => .ok ()
  | seen, (coin, proof) :: inputs => do
    ensure (AccountPayment.matchesStatement coin proof.statement)
      (.proofVerificationFailed "conversion: input coin and serial number statement differ")
    let serial := PointGroup.encode proof.statement.serial
    ensure (!seen.contains serial)
      (.proofVerificationFailed "conversion: duplicate serial number")
    coin.verifyCommitment params
    proof.verify none
    checkInputs params (serial :: seen) inputs

/-- Refuses an output of a confidential asset, and a concealed one (the body of the loop over the
outputs in `ConversionProof::verify`). -/
def checkOutput (coin : OneTimeCoin F G) : Outcome Unit := do
  ensure coin.assetTag.isNone (.typeMismatch "plain coin" "confidential asset coin")
  ensure (!coin.isEncrypted) (.proofVerificationFailed "conversion: concealed output")

/-- Refuses a conversion that does not hold (`ConversionProof::verify`). -/
def verify (conversion : Conversion F G) (context : VerifyContext) : Outcome Unit := do
  ensure (!conversion.inputs.isEmpty
      && conversion.serialProofs.length == conversion.inputs.length)
    (.proofVerificationFailed "conversion: input proof count")
  ensure (!conversion.outputs.isEmpty && conversion.outputs.length ≤ maxOutputs)
    (.proofVerificationFailed "conversion: output count")
  checkInputs context.params [] (conversion.inputs.zip conversion.serialProofs)
  conversion.outputs.forM checkOutput
  ensure (Balance.holdsFeeLast (conversion.inputs.map (·.value))
      (conversion.outputs.map (·.value)) context.fee)
    (.proofVerificationFailed "conversion: balance")

/-! ## Encoding -/

/-- The version, the coins, and the proofs (`ConversionProof::to_bytes`). -/
def toBytes (conversion : Conversion F G) : Bytes :=
  version :: Writer.counted (fun c => Writer.prefixed 4 c.toBytes) conversion.inputs
    ++ Writer.counted (fun c => Writer.prefixed 4 c.toBytes) conversion.outputs
    ++ Writer.counted (fun p => Writer.shortPrefixed p.toBytes) conversion.serialProofs

/-- Reads a conversion. -/
def reader : Reader (Conversion F G) := do
  if (← Reader.byte) ≠ version then throw (.malformedEncoding "conversion proof version")
  let inputs ← Reader.counted do AccountCoin.ofBytes (← Reader.prefixed 4)
  let outputs ← Reader.counted do OneTimeCoin.ofBytes (← Reader.prefixed 4)
  let serialProofs ← Reader.counted do SerialProof.ofBytes (← Reader.prefixed 1)
  Reader.finish
  return { inputs, outputs, serialProofs }

/-- The conversion with this encoding (`ConversionProof::from_bytes`). -/
def ofBytes (b : Bytes) : Outcome (Conversion F G) :=
  reader.result b

/-- The conversion with other inputs, which must be account coins
(`ConversionProof::set_input_coins`). -/
def withInputs (conversion : Conversion F G) (coins : List (InputCoin F G)) :
    Outcome (Conversion F G) := do
  return { conversion with
    inputs := ← expectKind "PlainCoinV1" InputCoin.kind InputCoin.account? coins }

/-- The conversion with other outputs, which must be one-time coins
(`ConversionProof::set_output_coins`). -/
def withOutputs (conversion : Conversion F G) (coins : List (OutputCoin F G)) :
    Outcome (Conversion F G) := do
  return { conversion with
    outputs := ← expectKind "CoinV2" OutputCoin.kind OutputCoin.oneTime? coins }

end Conversion

end ShieldedPayments
