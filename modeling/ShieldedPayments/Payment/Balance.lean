import ShieldedPayments.Fault

/-!
# Balance

A payment balances if its inputs add up to its outputs and its fee. Sums are taken in 64-bit numbers
and refused as soon as one does not fit, so a payment never balances by wrapping around. Three forms
of the test are in use: they differ in when the fee is added, and in whether a sum that does not fit
is a fault of its own.
-/

namespace ShieldedPayments.Balance

/-- The sum of two numbers, if it has 64 bits. -/
def checkedAdd (a b : UInt64) : Option UInt64 :=
  if a.toNat + b.toNat < UInt64.size then some (a + b) else none

/-- The sum of `start` and a list of numbers, if it has 64 bits. -/
def total (start : UInt64) (values : List UInt64) : Option UInt64 :=
  values.foldlM checkedAdd start

/-- The sum of a list of numbers; one that does not fit is a fault of its own (`sum_values`). -/
def requireTotal (values : List UInt64) : Outcome UInt64 :=
  require (total 0 values) (.invalidInput "value sum overflows")

/-- Refuses inputs and outputs that do not balance with the fee, with a fault of its own for sums of
either side that do not fit (the balance tests of `PaymentWitnessParamV1::check` and
`verify_no_privacy`). -/
def check (inputs outputs : List UInt64) (fee : UInt64) (unbalanced : Fault) : Outcome Unit := do
  let totalIn ← requireTotal inputs
  let totalOut ← requireTotal outputs
  ensure (checkedAdd totalOut fee == some totalIn) unbalanced

/-- Whether inputs balance outputs and fee, adding the outputs to the fee (the balance test of
`PaymentWitnessParamV2::check`). -/
def holdsFeeFirst (inputs outputs : List UInt64) (fee : UInt64) : Bool :=
  match total 0 inputs, total fee outputs with
  | some totalIn, some totalOut => totalIn == totalOut
  | _, _ => false

/-- Whether inputs balance outputs and fee, adding the fee to the outputs (the balance tests of
`ConversionWitness::prove` and `ConversionProof::verify`). -/
def holdsFeeLast (inputs outputs : List UInt64) (fee : UInt64) : Bool :=
  let totalIn := total 0 inputs
  let totalOut := (total 0 outputs).bind (checkedAdd · fee)
  totalIn.isSome && totalIn == totalOut

end ShieldedPayments.Balance
