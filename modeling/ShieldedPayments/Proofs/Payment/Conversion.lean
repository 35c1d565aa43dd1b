import ShieldedPayments.Proofs.Group.Exponents
import ShieldedPayments.Proofs.Argument.Serial
import ShieldedPayments.Proofs.Coin.Account
import ShieldedPayments.Proofs.Coin.OneTime
import ShieldedPayments.Proofs.Payment.Balance
import ShieldedPayments.Payment.Conversion

/-!
# What conversions show

An accepted conversion has inputs that open, with serial numbers that differ and are proved, outputs
that open without an asset tag, and values that balance exactly (`Conversion.verify_eq_ok_iff`). The
value of an output is the low 64 bits of its amount, while its commitment is to the whole amount: both
are the same only if the amount has 64 bits, which is not checked (`Conversion.verify_conserves`).
-/

namespace ShieldedPayments.Conversion

variable {F G : Type} [ScalarField F] [PointGroup F G]

/-- What is checked of an input, given the serial numbers of the inputs before it. -/
structure InputHolds (params : ShardParams) (seen : List Bytes) (coin : AccountCoin F G)
    (proof : SerialProof F G) : Prop where
  statement : AccountPayment.matchesStatement coin proof.statement = true
  fresh : PointGroup.encode proof.statement.serial ∉ seen
  commitment : coin.verifyCommitment params = .ok ()
  proof : proof.verify none = .ok ()

theorem checkInputs_cons_iff (params : ShardParams) (seen : List Bytes) (coin : AccountCoin F G)
    (proof : SerialProof F G) (inputs : List (AccountCoin F G × SerialProof F G)) :
    checkInputs params seen ((coin, proof) :: inputs) = .ok () ↔
      InputHolds params seen coin proof ∧
        checkInputs params (PointGroup.encode proof.statement.serial :: seen) inputs = .ok () := by
  rw [checkInputs]
  simp only [Outcome.check_bind_eq_ok_iff, ensure_eq_ok_iff, Bool.not_eq_true',
    List.contains_eq_mem, decide_eq_false_iff_not]
  constructor
  · rintro ⟨hstatement, hfresh, hcommitment, hproof, hrest⟩
    exact ⟨⟨hstatement, hfresh, hcommitment, hproof⟩, hrest⟩
  · rintro ⟨⟨hstatement, hfresh, hcommitment, hproof⟩, hrest⟩
    exact ⟨hstatement, hfresh, hcommitment, hproof, hrest⟩

/-- Every input that passes opens its commitment, whatever serial numbers came before. -/
theorem verifyCommitment_of_checkInputs {params : ShardParams} {seen : List Bytes}
    {inputs : List (AccountCoin F G × SerialProof F G)}
    (h : checkInputs params seen inputs = .ok ()) :
    ∀ input ∈ inputs, input.1.verifyCommitment params = .ok () := by
  induction inputs generalizing seen with
  | nil => intro _ hmem; cases hmem
  | cons input inputs ih =>
    obtain ⟨coin, proof⟩ := input
    obtain ⟨hinput, hrest⟩ := (checkInputs_cons_iff params seen coin proof inputs).mp h
    rw [List.forall_mem_cons]
    exact ⟨hinput.commitment, ih hrest⟩

/-- What is checked of a conversion. -/
structure Holds (conversion : Conversion F G) (context : VerifyContext) : Prop where
  inputs_ne_nil : conversion.inputs ≠ []
  serialProofs : conversion.serialProofs.length = conversion.inputs.length
  outputs_ne_nil : conversion.outputs ≠ []
  outputs_length : conversion.outputs.length ≤ maxOutputs
  inputs : checkInputs context.params [] (conversion.inputs.zip conversion.serialProofs) = .ok ()
  outputs : ∀ coin ∈ conversion.outputs, ∃ mask amount, coin.PlainOpens mask amount
  balance : Balance.Exact (conversion.inputs.map (·.value)) (conversion.outputs.map (·.value))
    context.fee

variable [PointGroup.Lawful F G]

theorem checkOutput_eq_ok_iff (coin : OneTimeCoin F G) :
    checkOutput coin = .ok () ↔ ∃ mask amount, coin.PlainOpens mask amount := by
  unfold checkOutput
  rw [ensure_bind_eq_ok_iff, ensure_eq_ok_iff, Option.isNone_iff_eq_none, Bool.not_eq_true',
    OneTimeCoin.plain_and_open_iff]

/-- **A conversion is accepted if all of `Holds` is true of it.** -/
theorem verify_eq_ok_iff (conversion : Conversion F G) (context : VerifyContext) :
    conversion.verify context = .ok () ↔ conversion.Holds context := by
  unfold verify
  simp only [Outcome.check_bind_eq_ok_iff, Outcome.forM_eq_ok_iff, ensure_eq_ok_iff,
    Bool.and_eq_true, Bool.not_eq_true', List.isEmpty_eq_false_iff, beq_iff_eq, decide_eq_true_iff,
    checkOutput_eq_ok_iff, Balance.holdsFeeLast_iff_exact]
  constructor
  · rintro ⟨⟨hin, hproofs⟩, ⟨hout, hlength⟩, hinputs, houtputs, hbalance⟩
    exact ⟨hin, hproofs, hout, hlength, hinputs, houtputs, hbalance⟩
  · rintro ⟨hin, hproofs, hout, hlength, hinputs, houtputs, hbalance⟩
    exact ⟨⟨hin, hproofs⟩, ⟨hout, hlength⟩, hinputs, houtputs, hbalance⟩

variable [ScalarField.Lawful F]

theorem Holds.input_opens {conversion : Conversion F G} {context : VerifyContext}
    (h : conversion.Holds context) {coin : AccountCoin F G} (hcoin : coin ∈ conversion.inputs) :
    ∃ publicKey derivator shard randomness,
      coin.Opens context.params publicKey derivator shard randomness := by
  rw [← AccountCoin.verifyCommitment_eq_ok_iff]
  obtain ⟨i, hi, rfl⟩ := List.getElem_of_mem hcoin
  have hproof : i < conversion.serialProofs.length := h.serialProofs ▸ hi
  have hmem : (conversion.inputs[i], conversion.serialProofs[i]) ∈
      conversion.inputs.zip conversion.serialProofs := by
    rw [← List.getElem_zip (h := by rw [List.length_zip]; omega)]
    exact List.getElem_mem _
  exact verifyCommitment_of_checkInputs h.inputs _ hmem

/-- **What an accepted conversion conserves.** Every input opens its commitment, and the values of
inputs and outputs balance as integers. Every output is committed to its amount, of which its value is
the low 64 bits; so it is committed to its value exactly if the amount has no more bits. -/
theorem verify_conserves [ScalarField.Canonical F] {conversion : Conversion F G}
    {context : VerifyContext} (haccepted : conversion.verify context = .ok ()) :
    (∀ coin ∈ conversion.inputs, ∃ publicKey derivator shard randomness,
      coin.Opens context.params publicKey derivator shard randomness) ∧
    (∀ coin ∈ conversion.outputs, ∃ mask amount, coin.PlainOpens mask amount ∧
      coin.value.toNat = (ScalarField.encode amount).toNatLE % 2 ^ 64 ∧
      ((pedersen : PedersenBases G).value ≠ 0 →
        (coin.commitment = some ((ofNat coin.value.toNat : F) • (pedersen : PedersenBases G).value
            + mask • (pedersen : PedersenBases G).blinding) ↔
          (ScalarField.encode amount).toNatLE < 2 ^ 64))) ∧
    (conversion.inputs.map (·.value.toNat)).sum =
      (conversion.outputs.map (·.value.toNat)).sum + context.fee.toNat := by
  have h := (verify_eq_ok_iff conversion context).mp haccepted
  refine ⟨fun coin hcoin => h.input_opens hcoin, ?_, ?_⟩
  · intro coin hcoin
    obtain ⟨mask, amount, hopens⟩ := h.outputs coin hcoin
    refine ⟨mask, amount, hopens, ?_, ?_⟩
    · rw [hopens.value_eq, OneTimeCoin.toNat_lowWord]
    · intro hbase
      exact OneTimeCoin.commitment_eq_value_iff hopens hbase
  · have hbalance := h.balance.1
    rwa [List.map_map, List.map_map] at hbalance

/-! ## Conversions with amounts of any size -/

section

open Curve (Scalar)

/-- A coin of version 2 with the given amount and no mask. -/
def coinOfAmount (amount : Scalar) : OneTimeCoin Scalar Exponent where
  commitment := some (amount • (pedersen : PedersenBases Exponent).value
    + (0 : Scalar) • (pedersen : PedersenBases Exponent).blinding)
  mask := some 0
  amount := some amount

theorem coinOfAmount_opens (amount : Scalar) : (coinOfAmount amount).PlainOpens 0 amount :=
  ⟨⟨rfl, rfl, rfl⟩, rfl⟩

/-- A coin of version 1 with the given value, whose owner has the spend key zero. -/
def coinOfValue (value : UInt64) : AccountCoin Scalar Exponent where
  publicKey := some 0
  commitment := some (0 + (ofNat value.toNat : Scalar) • (pedersen : PedersenBases Exponent).value
    + (1 : Scalar) • (pedersen : PedersenBases Exponent).derivator
    + (ofNat 0 : Scalar) • (pedersen : PedersenBases Exponent).shard
    + (0 : Scalar) • (pedersen : PedersenBases Exponent).blinding)
  derivator := some 1
  serialNumber := some (pedersen : PedersenBases Exponent).spendKey
  randomness := some 0
  value := value

theorem coinOfValue_opens (value : UInt64) : (coinOfValue value).Opens {} 0 1 0 0 :=
  ⟨rfl, rfl, by decide, rfl, rfl⟩

/-- The proof of the serial number of such a coin. -/
def serialOfZero : SerialProof Scalar Exponent :=
  ⟨⟨(pedersen : PedersenBases Exponent).spendKey, 0, 1⟩, 0, 0, 0⟩

theorem verify_serialOfZero : serialOfZero.verify none = .ok () := by
  rw [SerialProof.verify_eq_ok_iff]
  generalize none.getD _ = x
  refine ⟨?_, ?_⟩
  · rw [PointGroup.baseMultiple_eq]
    simp [serialOfZero]
  · rw [PointGroup.baseMultiple_eq]
    simp [serialOfZero]

/-- A conversion of such a coin into one with an amount whose low 64 bits are its value. -/
def ofAmount (amount : Scalar) : Conversion Scalar Exponent where
  inputs := [coinOfValue (OneTimeCoin.lowWord amount)]
  outputs := [coinOfAmount amount]
  serialProofs := [serialOfZero]

/-- Amounts of any size are accepted. -/
theorem verify_ofAmount (amount : Scalar) :
    (ofAmount amount).verify { fee := 0, shard := 0 } = .ok () := by
  rw [verify_eq_ok_iff]
  refine ⟨List.cons_ne_nil _ _, rfl, List.cons_ne_nil _ _, ?_, ?_, ?_, ?_⟩
  · show 1 ≤ maxOutputs
    decide
  · show checkInputs {} [] [(coinOfValue _, serialOfZero)] = .ok ()
    rw [checkInputs_cons_iff]
    refine ⟨⟨?_, List.not_mem_nil, ?_, verify_serialOfZero⟩, rfl⟩
    · simp [AccountPayment.matchesStatement, coinOfValue, serialOfZero]
    · rw [AccountCoin.verifyCommitment_eq_ok_iff]
      exact ⟨0, 1, 0, 0, coinOfValue_opens _⟩
  · intro coin hcoin
    obtain rfl := List.mem_singleton.mp hcoin
    exact ⟨0, amount, coinOfAmount_opens amount⟩
  · have hvalue := (coinOfAmount_opens amount).value_eq
    show Balance.Exact [OneTimeCoin.lowWord amount] [(coinOfAmount amount).value] 0
    rw [hvalue]
    have hlt := (OneTimeCoin.lowWord amount).toNat_lt
    simp only [Balance.Exact, List.map_cons, List.map_nil, List.sum_cons, List.sum_nil, Nat.add_zero,
      UInt64.toNat_zero, true_and]
    exact hlt

theorem value_base_ne_zero : (pedersen : PedersenBases Exponent).value ≠ 0 := by decide

theorem verify_conserves_five :
    (ofAmount 5).verify { fee := 0, shard := 0 } = .ok () ∧
      ((ofAmount 5).inputs.map (·.value.toNat)).sum =
        ((ofAmount 5).outputs.map (·.value.toNat)).sum + 0 :=
  ⟨verify_ofAmount 5, (verify_conserves (verify_ofAmount 5)).2.2⟩

/-- The commitment of an output of an accepted conversion need not be to the value of that output. -/
theorem output_not_committed_to_value :
    ¬ ∀ (conversion : Conversion Scalar Exponent) (context : VerifyContext),
      conversion.verify context = .ok () → ∀ coin ∈ conversion.outputs, ∃ mask,
        coin.mask = some mask ∧
        coin.commitment =
          some ((ofNat coin.value.toNat : Scalar) • (pedersen : PedersenBases Exponent).value
            + mask • (pedersen : PedersenBases Exponent).blinding) := by
  intro hclaim
  obtain ⟨mask, hmask, hcommitment⟩ :=
    hclaim _ _ (verify_ofAmount (ofNat (2 ^ 64))) _ (List.mem_singleton.mpr rfl)
  obtain rfl : 0 = mask := Option.some.inj hmask
  rw [OneTimeCoin.commitment_eq_value_iff (coinOfAmount_opens _) value_base_ne_zero,
    ScalarField.Canonical.encode_ofNat _ (by decide)] at hcommitment
  exact absurd hcommitment (lt_irrefl _)

end

end ShieldedPayments.Conversion
