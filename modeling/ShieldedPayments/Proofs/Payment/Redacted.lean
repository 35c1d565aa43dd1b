import ShieldedPayments.Proofs.Payment.AccountComplete
import ShieldedPayments.Proofs.Payment.ConversionComplete
import ShieldedPayments.Proofs.Payment.OneTimeComplete

/-!
# What a payment gives away of the coins it spends

The inputs of a private payment are computed from their nullifiers alone: the serial numbers of account
coins (`AccountSpend.inputs_of_returns`), and the key images of one-time coins
(`OneTimeSpend.inputs_of_returns`). So two payments that spend coins with the same nullifiers have the
same inputs, byte by byte, and nothing else that the coins are made of shows in them
(`AnyPayment.inputs_reveal_nullifiers_only`). Nor do the outputs show the random scalars that their
sender drew.
-/

namespace ShieldedPayments

open PointGroup

variable {F G : Type} [ScalarField F] [PointGroup F G]

/-! ## Redacted coins -/

/-- A one-time coin with nothing but a key image. -/
def OneTimeCoin.ofKeyImage (image : Option G) : OneTimeCoin F G :=
  { keyImage := image, txRandom := some TxRandom.zero }

omit [ScalarField F] in
theorem OneTimeCoin.redact_eq (coin : OneTimeCoin F G) : coin.redact = ofKeyImage coin.keyImage := rfl

/-- An account coin with nothing but a serial number. -/
def AccountCoin.ofSerial (serial : Option G) : AccountCoin F G :=
  { serialNumber := serial }

omit [ScalarField F] [PointGroup F G] in
theorem AccountCoin.redact_eq (coin : AccountCoin F G) : coin.redact = ofSerial coin.serialNumber := rfl

/-- The serial number of a coin under a private key, if the coin has a derivator. -/
def AccountCoin.serialFor (coin : AccountCoin F G) (sk : PrivateKey F) : Option G :=
  coin.derivator.map (Pedersen.serialNumber sk.secret)

/-! ## Payments of account coins -/

namespace AccountSpend

variable {spend : AccountSpend F G} {params : ShardParams} {source : CommitmentSource G}
  {payment : AccountPayment F G}

/-- The serial numbers that the inputs have under the key of a spend. -/
def nullifiers (spend : AccountSpend F G) : List (Option G) :=
  spend.inputs.map (·.serialFor spend.key)

variable [ScalarField.Lawful F] [PointGroup.Lawful F G] [FullBases F G]

/-- The inputs of a private payment are made of the serial numbers and nothing else. -/
theorem inputs_of_returns (hprivate : spend.isPrivate = true)
    (h : (spend.prove params source).Returns payment) :
    payment.inputs = spend.nullifiers.map AccountCoin.ofSerial := by
  obtain ⟨hchecked, hrun⟩ := run_of_returns h
  rw [if_pos hprivate] at hrun
  obtain ⟨shared, inputs, outputs, rangeProof, hrun⟩ := hrun
  have hredacted : ∀ (input : AccountCoin F G × List UInt64 × Nat) (result : HiddenInput F G),
      (∃ derivator, spend.HiddenInputProved source shared input.1 input.2.1 result derivator) →
        AccountCoin.ofSerial (input.1.serialFor spend.key) = result.coin.redact := by
    rintro input result ⟨derivator, hresult⟩
    rw [hresult.coin_eq, AccountCoin.serialFor, hresult.derivator_eq]
    rfl
  calc payment.inputs
      = inputs.map (·.coin.redact) := congrArg AccountPayment.inputs hrun.payment_eq
    _ = (spend.inputs.zip ((AccountPayment.ringIndices spend.inputs.length
          spend.ledgerIndices).zip spend.ringPositions)).map
            fun input => AccountCoin.ofSerial (input.1.serialFor spend.key) :=
        (map_eq_of_forall₂ hrun.inputsProved hredacted).symm
    _ = spend.inputs.map fun coin => AccountCoin.ofSerial (coin.serialFor spend.key) :=
        map_comp_fst (f := fun coin : AccountCoin F G => AccountCoin.ofSerial (coin.serialFor spend.key))
          (hchecked.map_fst_zip_rings hprivate)
    _ = spend.nullifiers.map AccountCoin.ofSerial := by
        rw [nullifiers, List.map_map]
        rfl

end AccountSpend

/-! ## Payments of one-time coins -/

namespace OneTimeSpend

variable {spend : OneTimeSpend F G} {params : ShardParams} {payment : OneTimePayment F G}

/-- The key images that the inputs have under the key of a spend. -/
def nullifiers (spend : OneTimeSpend F G) : List (Option G) :=
  spend.inputs.map fun coin => (coin.keyImageFor spend.key).toOption

/-- Each input is left with the key image that the key of the spend leads to. -/
theorem redacted_of_returns (h : (spend.prove params).Returns payment) :
    List.Forall₂ (fun coin result => ∃ image, coin.keyImageFor spend.key = .ok image ∧
      result = OneTimeCoin.ofKeyImage (some image)) spend.inputs payment.inputs := by
  unfold prove at h
  obtain ⟨_, -, h⟩ := h.outcome_bind
  obtain ⟨_, -, h⟩ := h.bind
  obtain ⟨_, -, h⟩ := h.bind
  obtain ⟨_, -, h⟩ := h.outcome_bind
  obtain ⟨inputs, hinputs, h⟩ := h.outcome_bind
  obtain rfl := Proving.returns_pure_iff.mp h
  unfold redactInputs at hinputs
  refine (Outcome.mapM_eq_ok_iff.mp hinputs).imp fun coin result hresult => ?_
  obtain ⟨image, himage, hresult⟩ := Outcome.bind_eq_ok_iff.mp hresult
  exact ⟨image, himage, (Outcome.pure_eq_ok_iff.mp hresult).symm⟩

/-- The inputs of a payment are made of the key images and nothing else. -/
theorem inputs_of_returns (h : (spend.prove params).Returns payment) :
    payment.inputs = spend.nullifiers.map OneTimeCoin.ofKeyImage := by
  have hredacted : ∀ coin result : OneTimeCoin F G, (∃ image, coin.keyImageFor spend.key = .ok image ∧
      result = OneTimeCoin.ofKeyImage (some image)) →
        OneTimeCoin.ofKeyImage (coin.keyImageFor spend.key).toOption = id result := by
    rintro coin result ⟨image, himage, rfl⟩
    rw [himage]
    rfl
  calc payment.inputs
      = payment.inputs.map id := (List.map_id _).symm
    _ = spend.inputs.map fun coin => OneTimeCoin.ofKeyImage (coin.keyImageFor spend.key).toOption :=
        (map_eq_of_forall₂ (redacted_of_returns h) hredacted).symm
    _ = spend.nullifiers.map OneTimeCoin.ofKeyImage := by
        rw [nullifiers, List.map_map]
        rfl

/-- The random scalars that the sender drew for an output are forgotten when it is concealed. -/
theorem forgotten_of_returns [ScalarField.Lawful F] [PointGroup.Lawful F G] [FullBases F G]
    (h : (spend.prove params).Returns payment) :
    ∀ coin ∈ payment.outputs, coin.sharedRandom = none ∧ coin.sharedConcealRandom = none := by
  obtain ⟨_, _, _, _, _, hrun⟩ := run_of_returns h
  refine forall_mem_of_forall₂ hrun.outputs fun _ coin hconcealed => ?_
  obtain ⟨_, -, rfl⟩ := hconcealed
  exact ⟨rfl, rfl⟩

end OneTimeSpend

/-! ## Conversions -/

theorem ConversionSpend.forgotten_of_returns {spend : ConversionSpend F G} {params : ShardParams}
    {conversion : Conversion F G} (h : (spend.prove params).Returns conversion) :
    ∀ coin ∈ conversion.outputs, coin.sharedRandom = none ∧ coin.sharedConcealRandom = none := by
  refine forall_mem_of_forall₂ (run_of_returns h).outputs fun _ coin hmade => ?_
  obtain ⟨_, _, -, rfl⟩ := hmade
  exact ⟨rfl, rfl⟩

/-! ## What shows -/

/-- **Redacted inputs reveal nothing but their nullifiers.** One-time coins with one key image have the
same encoding once they are redacted, and so do account coins with one serial number. If two private
payments of account coins, or two payments of one-time coins, are made of spends whose inputs have the
same nullifiers in the same order, then the encodings of their inputs are the same, whatever the keys,
the parameters, the ledgers and the draws were, and whatever else the inputs were made of. No output of
a payment of one-time coins or of a conversion shows a random scalar of its sender. -/
theorem AnyPayment.inputs_reveal_nullifiers_only [ScalarField.Lawful F] [PointGroup.Lawful F G]
    [FullBases F G] :
    (∀ coin other : OneTimeCoin F G, coin.keyImage = other.keyImage →
      coin.redact.toBytes = other.redact.toBytes) ∧
    (∀ coin other : AccountCoin F G, coin.serialNumber = other.serialNumber →
      coin.redact.toBytes = other.redact.toBytes) ∧
    (∀ (spend spend' : AccountSpend F G) (params params' : ShardParams)
      (source source' : CommitmentSource G) (payment payment' : AccountPayment F G),
      spend.isPrivate = true → spend'.isPrivate = true →
      (spend.prove params source).Returns payment →
      (spend'.prove params' source').Returns payment' → spend.nullifiers = spend'.nullifiers →
      (account payment).inputs.map InputCoin.toBytes =
        (account payment').inputs.map InputCoin.toBytes) ∧
    (∀ (spend spend' : OneTimeSpend F G) (params params' : ShardParams)
      (payment payment' : OneTimePayment F G), (spend.prove params).Returns payment →
      (spend'.prove params').Returns payment' → spend.nullifiers = spend'.nullifiers →
      (oneTime payment).inputs.map InputCoin.toBytes =
        (oneTime payment').inputs.map InputCoin.toBytes) ∧
    (∀ (spend : OneTimeSpend F G) (params : ShardParams) (payment : OneTimePayment F G),
      (spend.prove params).Returns payment →
      ∀ coin ∈ payment.outputs, coin.sharedRandom = none ∧ coin.sharedConcealRandom = none) ∧
    ∀ (spend : ConversionSpend F G) (params : ShardParams) (conversion : Conversion F G),
      (spend.prove params).Returns conversion →
      ∀ coin ∈ conversion.outputs, coin.sharedRandom = none ∧ coin.sharedConcealRandom = none := by
  refine ⟨fun coin other h => ?_, fun coin other h => ?_, ?_, ?_,
    fun spend params payment => OneTimeSpend.forgotten_of_returns,
    fun spend params conversion => ConversionSpend.forgotten_of_returns⟩
  · rw [OneTimeCoin.redact_eq, OneTimeCoin.redact_eq, h]
  · rw [AccountCoin.redact_eq, AccountCoin.redact_eq, h]
  · intro spend spend' params params' source source' payment payment' hprivate hprivate' hmade hmade' h
    rw [inputs, inputs, AccountSpend.inputs_of_returns hprivate hmade,
      AccountSpend.inputs_of_returns hprivate' hmade', h]
  · intro spend spend' params params' payment payment' hmade hmade' h
    rw [inputs, inputs, OneTimeSpend.inputs_of_returns hmade, OneTimeSpend.inputs_of_returns hmade', h]

/-! ## Spends with the same nullifiers -/

/-- A private spend of another owner: of a coin with another value, derivator and memo, whose serial
number is that of the coin in `AccountSpend.ringSpend`. -/
def AccountSpend.otherRingSpend : AccountSpend NonzeroScalar NonzeroExponent :=
  { AccountSpend.ringSpend with
    key := ⟨ofNat 4⟩
    inputs := [{
      publicKey := some (baseMultiple (ofNat 4))
      commitment := some (baseMultiple (ofNat 57))
      derivator := some (ofNat 8)
      randomness := some (ofNat 1)
      value := 12
      info := [1, 2] }]
    fee := 5 }

/-- A ledger that has the coin of the other owner at index five. -/
def AccountSpend.otherRingLedger : CommitmentSource NonzeroExponent :=
  fun _ _ index => .ok (if index = 5 then baseMultiple (ofNat 57) else 0)

theorem AccountSpend.check_otherRingSpend : otherRingSpend.check {} = .ok () := rfl

theorem AccountSpend.onLedger_otherRingSpend : otherRingSpend.OnLedger otherRingLedger := by
  intro input hinput
  obtain rfl := List.mem_singleton.mp hinput
  exact ⟨fun index _ => ⟨_, rfl⟩, 5, rfl, _, rfl, rfl⟩

/-- Both serial numbers belong to the sum of key and derivator, which is twelve. -/
theorem AccountSpend.nullifiers_otherRingSpend : ringSpend.nullifiers = otherRingSpend.nullifiers := by
  have hsum : (ofNat 5 + ofNat 7 : NonzeroScalar) = ofNat 4 + ofNat 8 := by decide
  exact congrArg (fun sum : NonzeroScalar => [some (baseMultiple sum⁻¹)]) hsum

/-- A spend of a coin with the key and the randomness of the one in `OneTimeSpend.assetSpend`, and with
another amount, mask and memo. -/
def OneTimeSpend.otherAssetSpend : OneTimeSpend NonzeroScalar NonzeroExponent :=
  { OneTimeSpend.assetSpend with
    inputs := [{ OneTimeSpend.openCoin with
      info := [1]
      commitment := some (baseMultiple (ofNat 29))
      mask := some (ofNat 1)
      amount := some (ofNat 12) }]
    fee := 5 }

theorem OneTimeSpend.check_otherAssetSpend : otherAssetSpend.check = .ok () := rfl

open AccountSpend OneTimeSpend ConversionSpend in
/-- Two private payments of account coins with one serial number, and two payments of one-time coins with
one key image: they cannot be told apart by their inputs. -/
theorem AnyPayment.inputs_reveal_nullifiers_only_of_others :
    (∃ payment payment', (ringSpend.prove {} ringLedger).Returns payment ∧
      (otherRingSpend.prove {} otherRingLedger).Returns payment' ∧
      (account payment).inputs.map InputCoin.toBytes =
        (account payment').inputs.map InputCoin.toBytes) ∧
    (∃ payment payment', (assetSpend.prove { numShards := 1 }).Returns payment ∧
      (otherAssetSpend.prove { numShards := 1 }).Returns payment' ∧
      (oneTime payment).inputs.map InputCoin.toBytes =
        (oneTime payment').inputs.map InputCoin.toBytes ∧
      ∀ coin ∈ payment.outputs, coin.sharedRandom = none ∧ coin.sharedConcealRandom = none) ∧
    ∃ conversion, (twoCoins.prove { numShards := 1 }).Returns conversion ∧
      ∀ coin ∈ conversion.outputs, coin.sharedRandom = none ∧ coin.sharedConcealRandom = none := by
  refine ⟨?_, ?_, ?_⟩
  · obtain ⟨payment, hmade⟩ := (AccountSpend.succeeds_prove check_ringSpend
      onLedger_ringSpend).exists_returns
    obtain ⟨payment', hmade'⟩ := (AccountSpend.succeeds_prove check_otherRingSpend
      onLedger_otherRingSpend).exists_returns
    exact ⟨payment, payment', hmade, hmade', inputs_reveal_nullifiers_only.2.2.1 _ _ _ _ _ _ _ _ rfl rfl
      hmade hmade' nullifiers_otherRingSpend⟩
  · obtain ⟨payment, hmade⟩ := (OneTimeSpend.succeeds_prove check_assetSpend reachable_assetSpend
      (List.forall_mem_singleton.mpr ⟨rfl, rfl⟩)).exists_returns
    obtain ⟨payment', hmade'⟩ := (OneTimeSpend.succeeds_prove check_otherAssetSpend
      reachable_assetSpend (List.forall_mem_singleton.mpr ⟨rfl, rfl⟩)).exists_returns
    exact ⟨payment, payment', hmade, hmade', inputs_reveal_nullifiers_only.2.2.2.1 _ _ _ _ _ _ hmade
      hmade' rfl, inputs_reveal_nullifiers_only.2.2.2.2.1 _ _ _ hmade⟩
  · obtain ⟨conversion, hmade⟩ := (ConversionSpend.succeeds_prove check_twoCoins opens_twoCoins
      reachable_twoCoins).exists_returns
    exact ⟨conversion, hmade, inputs_reveal_nullifiers_only.2.2.2.2.2 _ _ _ hmade⟩

end ShieldedPayments
