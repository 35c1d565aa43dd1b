import ShieldedPayments.Payment.Conversion
import ShieldedPayments.Payment.OneTime

/-!
# Payments of any version

The first byte of an encoding is the version: 1 for account coins, 2 for one-time coins, and 255 for
conversions between them.

* `AnyPayment.ofBytes`: reading a payment of any version.
* `AnyPayment.verify`: checking it.
-/

namespace ShieldedPayments

/-- A payment of any version (`Proof`). -/
inductive AnyPayment (F G : Type) where
  | account (payment : AccountPayment F G)
  | oneTime (payment : OneTimePayment F G)
  | conversion (payment : Conversion F G)

variable {F G : Type} [ScalarField F] [PointGroup F G]

namespace AnyPayment

instance : BEq (AnyPayment F G) where
  beq
    | account a, account b => a == b
    | oneTime a, oneTime b => a == b
    | conversion a, conversion b => a == b
    | _, _ => false

/-- The version of a payment (`PaymentProof::version`). -/
def version : AnyPayment F G → UInt8
  | account _ => AccountPayment.version
  | oneTime _ => OneTimePayment.version
  | conversion _ => Conversion.version

/-- Whether a payment hides amounts (`PaymentProof::is_privacy`). -/
def isPrivate : AnyPayment F G → Bool
  | account payment => payment.isPrivate
  | oneTime payment => payment.isPrivate
  | conversion _ => false

/-- The coins that a payment spends (`PaymentProof::input_coins`). -/
def inputs : AnyPayment F G → List (InputCoin F G)
  | account payment => payment.inputs.map .account
  | oneTime payment => payment.inputs.map .oneTime
  | conversion payment => payment.inputs.map .account

/-- The coins that a payment creates (`PaymentProof::output_coins`). -/
def outputs : AnyPayment F G → List (OutputCoin F G)
  | account payment => payment.outputs.map .account
  | oneTime payment => payment.outputs.map .oneTime
  | conversion payment => payment.outputs.map .oneTime

/-- The range proof of a payment, if it has one (`PaymentProof::range_proof`). -/
def rangeProof : AnyPayment F G → Option (RangeProof F G)
  | account payment => payment.rangeProof
  | oneTime payment => payment.rangeProof
  | conversion _ => none

/-- The payment with other inputs, which must be of its kind (`PaymentProof::set_input_coins`). -/
def withInputs (payment : AnyPayment F G) (coins : List (InputCoin F G)) :
    Outcome (AnyPayment F G) :=
  match payment with
  | account payment => (payment.withInputs coins).map account
  | oneTime payment => (payment.withInputs coins).map oneTime
  | conversion payment => (payment.withInputs coins).map conversion

/-- The payment with other outputs, which must be of its kind (`PaymentProof::set_output_coins`). -/
def withOutputs (payment : AnyPayment F G) (coins : List (OutputCoin F G)) :
    Outcome (AnyPayment F G) :=
  match payment with
  | account payment => (payment.withOutputs coins).map account
  | oneTime payment => (payment.withOutputs coins).map oneTime
  | conversion payment => (payment.withOutputs coins).map conversion

/-- Refuses a payment that does not hold (`PaymentProof::verify`). -/
def verify (payment : AnyPayment F G) (context : VerifyContext) (source : CommitmentSource G) :
    Outcome Unit :=
  match payment with
  | account payment => payment.verify context source
  | oneTime payment => payment.verify context
  | conversion payment => payment.verify context

/-- The encoding of a payment (`PaymentProof::to_bytes`). -/
def toBytes : AnyPayment F G → Bytes
  | account payment => payment.toBytes
  | oneTime payment => payment.toBytes
  | conversion payment => payment.toBytes

/-- The payment with this encoding (`Proof::from_bytes`). -/
def ofBytes (b : Bytes) : Outcome (AnyPayment F G) :=
  match b with
  | [] => .error (.malformedEncoding "empty proof")
  | first :: _ =>
    if first = AccountPayment.version then (AccountPayment.ofBytes b).map account
    else if first = OneTimePayment.version then (OneTimePayment.ofBytes b).map oneTime
    else if first = Conversion.version then (Conversion.ofBytes b).map conversion
    else .error (.malformedEncoding "unknown proof version")

end AnyPayment

end ShieldedPayments
