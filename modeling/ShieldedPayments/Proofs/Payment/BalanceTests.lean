import ShieldedPayments.Payment.Conversion
import ShieldedPayments.Payment.OneTime
import ShieldedPayments.Proofs.Coin.Concealing
import ShieldedPayments.Proofs.Group.Exponents
import ShieldedPayments.Proofs.Payment.Balance
import ShieldedPayments.Proofs.Tape

/-!
# The tests of balance

Balance is tested in five places, in three ways (`BalanceTest.run`): spends and transparent payments of
account coins have faults of their own for sums that do not fit, spends of one-time coins add the fee
first, conversions and spends for them add it last. All five decide exact balance, and what they refuse
they refuse for causes that can be told from the sums (`BalanceTest.run_eq`). Each place is the sequence
of the steps before the test, the test, and the steps behind it (`BalanceTest.Places`).
-/

namespace ShieldedPayments

/-- A place where inputs are tested to balance outputs and fee. -/
inductive BalanceTest where
  /-- A spend of account coins, before its payment is made. -/
  | accountSpend
  /-- A transparent payment of account coins. -/
  | openPayment
  /-- A spend of one-time coins, before its payment is made. -/
  | oneTimeSpend
  /-- A spend of account coins, before its conversion is made. -/
  | conversionSpend
  /-- A conversion. -/
  | conversion
  deriving DecidableEq, Repr

namespace BalanceTest

/-- The fault for sums that disagree. -/
def unbalanced : BalanceTest → Fault
  | accountSpend | oneTimeSpend | conversionSpend =>
    .invalidInput "inputs do not balance outputs and fee"
  | openPayment => .proofVerificationFailed "proof v1: balance"
  | conversion => .proofVerificationFailed "conversion: balance"

/-- The test of balance in one place. -/
def run (test : BalanceTest) (inputs outputs : List UInt64) (fee : UInt64) : Outcome Unit :=
  match test with
  | accountSpend | openPayment => Balance.check inputs outputs fee test.unbalanced
  | oneTimeSpend => ensure (Balance.holdsFeeFirst inputs outputs fee) test.unbalanced
  | conversionSpend | conversion => ensure (Balance.holdsFeeLast inputs outputs fee) test.unbalanced

/-- The fault of a test for inputs that do not balance outputs and fee. -/
def refusal (test : BalanceTest) (inputs outputs : List UInt64) : Fault :=
  match test with
  | accountSpend | openPayment =>
    if Balance.Overflows inputs outputs then .invalidInput "value sum overflows" else test.unbalanced
  | oneTimeSpend | conversionSpend | conversion => test.unbalanced

/-- **Each test decides exact balance**, and refuses for its own causes. -/
theorem run_eq (test : BalanceTest) (inputs outputs : List UInt64) (fee : UInt64) :
    test.run inputs outputs fee =
      if Balance.Exact inputs outputs fee then .ok () else .error (test.refusal inputs outputs) := by
  have hcheck : ∀ fault, Balance.check inputs outputs fee fault =
      if Balance.Exact inputs outputs fee then .ok ()
      else .error
        (if Balance.Overflows inputs outputs then .invalidInput "value sum overflows" else fault) := by
    intro fault
    rw [Balance.check_eq, apply_ite Except.error]
  have hensure : ∀ fault, ensure (Balance.holdsFeeLast inputs outputs fee) fault =
      if Balance.Exact inputs outputs fee then .ok () else .error fault := by
    intro fault
    simp only [ensure, Balance.holdsFeeLast_iff_exact]
  cases test with
  | accountSpend | openPayment => exact hcheck _
  | oneTimeSpend =>
    rw [run, Balance.holdsFeeFirst_eq_holdsFeeLast]
    exact hensure _
  | conversionSpend | conversion => exact hensure _

theorem run_eq_ok_iff (test : BalanceTest) (inputs outputs : List UInt64) (fee : UInt64) :
    test.run inputs outputs fee = .ok () ↔ Balance.Exact inputs outputs fee := by
  rw [run_eq]
  split
  · next h => exact iff_of_true rfl h
  · next h => exact iff_of_false nofun h

/-- The order of coins does not matter to a test, nor to the cause for which it refuses. -/
theorem run_congr_perm (test : BalanceTest) {inputs inputs' outputs outputs' : List UInt64}
    (hin : inputs.Perm inputs') (hout : outputs.Perm outputs') (fee : UInt64) :
    test.run inputs outputs fee = test.run inputs' outputs' fee := by
  have hrefusal : test.refusal inputs outputs = test.refusal inputs' outputs' := by
    cases test <;> simp only [refusal, Balance.overflows_congr_perm hin hout]
  simp only [run_eq, Balance.exact_congr_perm hin hout, hrefusal]

end BalanceTest

/-! ## The places of the tests -/

variable {F G : Type} [ScalarField F] [PointGroup F G]

/-- What a spend of account coins is checked for once it balances. -/
def AccountSpend.checkOwned (spend : AccountSpend F G) (params : ShardParams) : Outcome Unit := do
  let owner : G := spend.key.publicSpend
  spend.inputs.forM fun coin => do
    ensure (coin.publicKey == some owner) (.invalidInput "input coin not owned by private key")
    coin.verifyCommitment params
  let n := spend.inputs.length
  if spend.isPrivate then
    ensure (n ≤ AccountPayment.maxPrivateInputs)
      (.invalidInput "too many inputs for a privacy proof")
    ensure (spend.ledgerIndices.length == n * ringSize && spend.ringPositions.length == n)
      (.invalidInput "ring index count")
  else
    ensure (spend.ledgerIndices.length == n) (.invalidInput "commitment index count")

/-- What a transparent payment is checked for before its balance. -/
def AccountPayment.checkOpenCoins (payment : AccountPayment F G) (context : VerifyContext)
    (source : CommitmentSource G) : Outcome Unit := do
  let n := payment.inputs.length
  ensure (payment.serialProofs.length == n && payment.ledgerIndices.length == n
      && payment.hiddenSerialProofs.isEmpty)
    (.proofVerificationFailed "proof v1: input proof count")
  checkSerials payment.inputs
  (payment.inputs.zip (payment.serialProofs.zip payment.ledgerIndices)).forM
    fun (coin, proof, index) => checkOpenInput context source coin proof index
  payment.outputs.forM (checkOpenOutput context)

/-- What a conversion is made of once its spend balances. -/
def ConversionSpend.proveCoins (spend : ConversionSpend F G) (params : ShardParams) :
    Proving (Conversion F G) := do
  let inputs ← spend.inputs.mapM (spend.proveInput params)
  let outputs ← spend.payments.mapM (output params)
  return { inputs := inputs.map (·.1), outputs, serialProofs := inputs.map (·.2) }

/-- What a conversion is checked for before its balance. -/
def Conversion.checkCoins (conversion : Conversion F G) (context : VerifyContext) : Outcome Unit := do
  ensure (!conversion.inputs.isEmpty
      && conversion.serialProofs.length == conversion.inputs.length)
    (.proofVerificationFailed "conversion: input proof count")
  ensure (!conversion.outputs.isEmpty && conversion.outputs.length ≤ maxOutputs)
    (.proofVerificationFailed "conversion: output count")
  checkInputs context.params [] (conversion.inputs.zip conversion.serialProofs)
  conversion.outputs.forM checkOutput

namespace BalanceTest

/-- Where each test is run, on which values, and between which steps. -/
structure Places (F G : Type) [ScalarField F] [PointGroup F G] : Prop where
  accountSpend : ∀ (spend : AccountSpend F G) (params : ShardParams),
    spend.check params = (do
      checkCounts spend.inputs.length spend.payments.length
      BalanceTest.accountSpend.run (spend.inputs.map (·.value)) (spend.payments.map (·.amount))
        spend.fee
      spend.checkOwned params)
  openPayment : ∀ (payment : AccountPayment F G) (context : VerifyContext)
      (source : CommitmentSource G),
    payment.verifyOpen context source = (do
      payment.checkOpenCoins context source
      BalanceTest.openPayment.run (payment.inputs.map (·.value))
        (payment.outputs.map (·.details.value)) context.fee)
  oneTimeSpend : ∀ spend : OneTimeSpend F G,
    spend.check = (do
      checkCounts spend.inputs.length spend.payments.length
      ensure (!spend.inputs.any (·.isEncrypted)) (.invalidInput "input coin is still concealed")
      BalanceTest.oneTimeSpend.run (spend.inputs.map (·.value)) (spend.payments.map (·.amount))
        spend.fee)
  conversionSpend : ∀ (spend : ConversionSpend F G) (params : ShardParams),
    spend.prove params = (do
      checkCounts spend.inputs.length spend.payments.length
      BalanceTest.conversionSpend.run (spend.inputs.map (·.value)) (spend.payments.map (·.amount))
        spend.fee
      spend.proveCoins params)
  conversion : ∀ (conversion : Conversion F G) (context : VerifyContext),
    conversion.verify context = (do
      conversion.checkCoins context
      BalanceTest.conversion.run (conversion.inputs.map (·.value)) (conversion.outputs.map (·.value))
        context.fee)

theorem places (F G : Type) [ScalarField F] [PointGroup F G] : Places F G where
  accountSpend _ _ := rfl
  openPayment payment context source := by
    simp only [AccountPayment.checkOpenCoins, bind_assoc]
    rfl
  oneTimeSpend _ := rfl
  conversionSpend spend params := by
    show (do spend.check; spend.proveCoins params : Proving (Conversion F G)) = _
    unfold ConversionSpend.check
    -- a refusal is lifted to a computation that reads a tape before the test or behind it
    cases checkCounts spend.inputs.length spend.payments.length <;> rfl
  conversion conversion context := by
    simp only [Conversion.checkCoins, bind_assoc]
    rfl

/-- **All five tests of balance decide exact balance.** A test passes exactly if inputs add up to outputs
and fee in the natural numbers and the total has 64 bits, whatever the values are and however many. So
whatever passes one test passes the others; neither what passes nor the cause of a refusal depends on the
order of coins; and the fee can be added to the outputs first or last. -/
theorem tests_decide_exact_balance :
    (∀ (test : BalanceTest) (inputs outputs : List UInt64) (fee : UInt64),
      test.run inputs outputs fee =
        if (inputs.map UInt64.toNat).sum = (outputs.map UInt64.toNat).sum + fee.toNat ∧
            (inputs.map UInt64.toNat).sum < 2 ^ 64
        then .ok () else .error (test.refusal inputs outputs)) ∧
    (∀ (test other : BalanceTest) (inputs outputs : List UInt64) (fee : UInt64),
      test.run inputs outputs fee = .ok () ↔ other.run inputs outputs fee = .ok ()) ∧
    (∀ (test : BalanceTest) (inputs inputs' outputs outputs' : List UInt64) (fee : UInt64),
      inputs.Perm inputs' → outputs.Perm outputs' →
        test.run inputs outputs fee = test.run inputs' outputs' fee) ∧
    (∀ (outputs : List UInt64) (fee : UInt64),
      Balance.total fee outputs = (Balance.total 0 outputs).bind (Balance.checkedAdd · fee)) ∧
    Places F G := by
  refine ⟨run_eq, ?_, ?_, ?_, places F G⟩
  · intro test other inputs outputs fee
    rw [run_eq_ok_iff, run_eq_ok_iff]
  · intro test inputs inputs' outputs outputs' fee hin hout
    exact test.run_congr_perm hin hout fee
  · intro outputs fee
    exact Balance.total_eq_bind_checkedAdd fee outputs

open Curve (Scalar)

/-- A spend of one coin worth five, to create one worth four. -/
def spendFive (fee : UInt64) : OneTimeSpend Scalar Exponent where
  key := ⟨5⟩
  inputs :=
    [(OneTimeCoin.made ⟨⟨⟨2⟩, ⟨3⟩, some ⟨4⟩⟩, 5, []⟩ ⟨4⟩ ⟨6, 7, 8, 1⟩ none none).forgetRandoms]
  payments := [⟨⟨⟨2⟩, ⟨3⟩, some ⟨4⟩⟩, 4, []⟩]
  fee
  token := .native
  confidentialAsset := false
  senderShard := none

/-- The input of the spend is open and worth five, so that only the balance can be refused. -/
theorem check_spendFive (fee : UInt64) : (spendFive fee).check = oneTimeSpend.run [5] [4] fee := by
  have hopen : ((spendFive fee).inputs.any (·.isEncrypted)) = false := by
    rw [spendFive, List.any_cons, OneTimeCoin.isEncrypted_forgetRandoms, OneTimeCoin.isEncrypted_made]
    rfl
  have hvalue : (spendFive fee).inputs.map (·.value) = [5] := by
    rw [spendFive, List.map_singleton, OneTimeCoin.value_made]
  rw [(places Scalar Exponent).oneTimeSpend, hopen, hvalue]
  rfl

/-- Every test passes the largest total, `2 ^ 64 - 1`, in whatever order its parts are given. It refuses
sums that agree once they are reduced, and sums of which neither fits. -/
theorem tests_decide_exact_balance_limits :
    let half : UInt64 := 0x8000000000000000
    (∀ test : BalanceTest, test.run [half, half - 1] [half - 2, half] 1 = .ok ()) ∧
    (∀ test : BalanceTest, test.run [half - 1, half] [half - 2, half] 1 = .ok ()) ∧
    (∀ test : BalanceTest, test.run [0] [half, half - 1] 1 = .error test.unbalanced) ∧
    (∀ test : BalanceTest, test.run [half, half] [half, half] 0 =
      .error (test.refusal [half, half] [half, half])) ∧
    accountSpend.refusal [half, half] [half, half] = .invalidInput "value sum overflows" ∧
    (spendFive 1).check = .ok () ∧
    (spendFive 2).check = .error oneTimeSpend.unbalanced := by
  intro half
  obtain ⟨hrun, -, hperm, -, -⟩ := tests_decide_exact_balance (F := Scalar) (G := Exponent)
  have hlargest : ∀ test : BalanceTest, test.run [half, half - 1] [half - 2, half] 1 = .ok () :=
    fun test => (hrun test _ _ _).trans (if_pos (by decide +kernel))
  refine ⟨hlargest, ?_, ?_, ?_, by decide +kernel, ?_, ?_⟩
  · intro test
    rw [hperm test _ _ _ _ 1 (List.Perm.swap half (half - 1) []) (List.Perm.refl _)]
    exact hlargest test
  · intro test
    rw [hrun, if_neg (by decide +kernel)]
    cases test with
    | accountSpend | openPayment => exact congrArg _ (if_neg (by decide +kernel))
    | oneTimeSpend | conversionSpend | conversion => rfl
  · intro test
    exact (hrun test _ _ _).trans (if_neg (by decide +kernel))
  · exact (check_spendFive 1).trans ((hrun _ _ _ _).trans (if_pos (by decide +kernel)))
  · exact (check_spendFive 2).trans ((hrun _ _ _ _).trans (if_neg (by decide +kernel)))

end BalanceTest

end ShieldedPayments
