import ShieldedPayments.Proofs.Payment.Conversion
import ShieldedPayments.Proofs.Payment.Lossless
import ShieldedPayments.Proofs.Payment.OneTimeSuccess

/-!
# Honest conversions

A conversion that was made is read back from its encoding, is accepted for the fee of its spend and for no
other fee, and each of its coins is open, worth what was paid, and recognised by whoever has the one-time
key of the address (`Conversion.complete_for_one_fee`). Nothing is hidden in a conversion, so that all of
its balance is a comparison of sums, and no range is proved.

* `ConversionSpend.InputProved`: what is known of an input and the proof of its serial number.
* `Conversion.checkInputs_of_nodup`: inputs that pass alone pass together if their serial numbers differ.
* `OneTimeCoin.DeliversOpen`: what the recipient of an output finds.
-/

namespace ShieldedPayments

open PointGroup

variable {F G : Type} [ScalarField F] [PointGroup F G]

/-! ## Outputs -/

/-- A coin that is open, without the random scalars of its sender, worth the amount of a payment, and
recognised by every key set with the one-time key of the payment's address. -/
structure OneTimeCoin.DeliversOpen (coin : OneTimeCoin F G) (payment : Payment G) : Prop where
  isEncrypted : coin.isEncrypted = false
  sharedRandom : coin.sharedRandom = none
  sharedConcealRandom : coin.sharedConcealRandom = none
  value : coin.value = payment.amount
  belongs : ∀ (keys : KeySet F G) (ota : OtaKey F G), keys.otaKey = some ota →
    ota.publicSpend = payment.address.publicSpend →
    payment.address.publicOta = some (baseMultiple ota.otaSecret) →
    (coin.recognise keys).belongs = true

/-- A coin that was made for a payment delivers it in the open once its random scalars are forgotten. -/
theorem OneTimeCoin.deliversOpen_made [ScalarField.Lawful F] [PointGroup.Lawful F G]
    [ScalarField.Canonical F] {payment : Payment G} {publicOta : G}
    (hota : payment.address.publicOta = some publicOta) (draws : CoinDraws F) (tag raw : Option G) :
    (made payment publicOta draws tag raw).forgetRandoms.DeliversOpen payment where
  isEncrypted := by rw [isEncrypted_forgetRandoms, isEncrypted_made]
  sharedRandom := rfl
  sharedConcealRandom := rfl
  value := value_made payment publicOta draws tag raw
  belongs := by
    intro keys ota hkey hspend hsecret
    obtain rfl := Option.some.inj (hota.symm.trans hsecret)
    refine (recognise_of_addressed hkey ⟨rfl, rfl, ?_⟩).1
    rw [hspend, smul_baseMultiple]
    rfl

/-! ## Inputs -/

/-- Inputs that pass on their own pass together if no serial number is proved twice. -/
theorem Conversion.checkInputs_of_nodup {params : ShardParams} {seen : List Bytes}
    {inputs : List (AccountCoin F G × SerialProof F G)}
    (h : ∀ input ∈ inputs, InputHolds params seen input.1 input.2)
    (hdistinct : (inputs.map fun input => PointGroup.encode input.2.statement.serial).Nodup) :
    checkInputs params seen inputs = .ok () := by
  induction inputs generalizing seen with
  | nil => rfl
  | cons input inputs ih =>
    rw [List.forall_mem_cons] at h
    rw [List.map_cons, List.nodup_cons] at hdistinct
    refine (checkInputs_cons_iff params seen input.1 input.2 inputs).mpr ⟨h.1, ih ?_ hdistinct.2⟩
    intro other hother
    obtain ⟨hstatement, hfresh, hcommitment, hproof⟩ := h.2 other hother
    refine ⟨hstatement, ?_, hcommitment, hproof⟩
    rw [List.mem_cons, not_or]
    exact ⟨fun hsame => hdistinct.1 (List.mem_map.mpr ⟨other, hother, hsame⟩), hfresh⟩

namespace ConversionSpend

variable {spend : ConversionSpend F G} {params : ShardParams} {conversion : Conversion F G}
  {proved : List (AccountCoin F G × SerialProof F G)}

/-- The key and derivator of no input add up to zero, so that each input has a serial number. -/
def HasSerials (spend : ConversionSpend F G) : Prop :=
  ∀ coin ∈ spend.inputs, ∀ derivator, coin.derivator = some derivator →
    spend.key.secret + derivator ≠ 0

/-- What is known of an input and its proof. -/
structure InputProved (spend : ConversionSpend F G) (params : ShardParams) (coin : AccountCoin F G)
    (proved : AccountCoin F G × SerialProof F G) (derivator : F) : Prop where
  opens : ∃ shard randomness,
    coin.Opens params (spend.key.publicSpend : G) derivator shard randomness
  coin_eq : proved.1 = { coin with
    serialNumber := some (Pedersen.serialNumber spend.key.secret derivator), info := [] }
  statement : proved.2.statement =
    ⟨Pedersen.serialNumber spend.key.secret derivator, spend.key.publicSpend, derivator⟩
  verify : spend.key.secret + derivator ≠ 0 → proved.2.verify none = .ok ()

/-- What is known of a conversion besides the counts and the form of its coins. -/
structure Balanced (spend : ConversionSpend F G) (params : ShardParams)
    (proved : List (AccountCoin F G × SerialProof F G)) (conversion : Conversion F G) : Prop where
  inputs : conversion.inputs = proved.map (·.1)
  serialProofs : conversion.serialProofs = proved.map (·.2)
  inputs_ne_nil : spend.inputs ≠ []
  payments_ne_nil : spend.payments ≠ []
  inputsProved : List.Forall₂ (fun coin result => ∃ derivator,
    spend.InputProved params coin result derivator) spend.inputs proved
  balance : Balance.Exact (spend.inputs.map (·.value)) (spend.payments.map (·.amount)) spend.fee

section

variable [ScalarField.Lawful F] [PointGroup.Lawful F G]

theorem inputProved_of_returns {coin : AccountCoin F G} {result : AccountCoin F G × SerialProof F G}
    (h : (spend.proveInput params coin).Returns result) :
    ∃ derivator, spend.InputProved params coin result derivator := by
  unfold proveInput at h
  obtain ⟨_, howner, h⟩ := h.outcome_bind
  obtain ⟨_, hcommitment, h⟩ := h.outcome_bind
  obtain ⟨derivator, hderivator, h⟩ := h.outcome_bind
  obtain ⟨proof, hproof, h⟩ := h.bind
  obtain rfl := Proving.returns_pure_iff.mp h
  obtain ⟨hstatement, hverify⟩ := SerialProof.honest_of_returns hproof
  obtain ⟨publicKey, derivator', shard, randomness, hopens⟩ :=
    (AccountCoin.verifyCommitment_eq_ok_iff coin params).mp hcommitment
  rw [ensure_eq_ok_iff, beq_iff_eq] at howner
  obtain rfl := Option.some.inj (hopens.publicKey_eq.symm.trans howner)
  obtain rfl := Option.some.inj (hopens.derivator_eq.symm.trans (require_eq_ok_iff.mp hderivator))
  exact ⟨derivator', ⟨shard, randomness, hopens⟩, rfl, hstatement, hverify⟩

theorem balanced_of_returns (h : (spend.prove params).Returns conversion) :
    ∃ proved, spend.Balanced params proved conversion := by
  unfold prove at h
  obtain ⟨_, hcheck, h⟩ := h.outcome_bind
  obtain ⟨proved, hproved, h⟩ := h.bind
  obtain ⟨outputs, -, h⟩ := h.bind
  obtain rfl := Proving.returns_pure_iff.mp h
  unfold check at hcheck
  rw [Outcome.check_bind_eq_ok_iff, checkCounts_eq_ok_iff, ensure_eq_ok_iff,
    Balance.holdsFeeLast_iff_exact] at hcheck
  obtain ⟨⟨⟨hinputs, -⟩, hpayments, -⟩, hbalance⟩ := hcheck
  exact ⟨proved, rfl, rfl, fun hnil => hinputs (congrArg List.length hnil),
    fun hnil => hpayments (congrArg List.length hnil),
    hproved.mapM.imp fun _ _ => inputProved_of_returns, hbalance⟩

/-- Everything that is checked of an input on its own was proved for it. -/
theorem InputProved.holds {coin : AccountCoin F G} {result : AccountCoin F G × SerialProof F G}
    {derivator : F} (h : spend.InputProved params coin result derivator)
    (hsum : spend.key.secret + derivator ≠ 0) :
    Conversion.InputHolds params [] result.1 result.2 := by
  obtain ⟨shard, randomness, hopens⟩ := h.opens
  have hopens' : result.1.Opens params (spend.key.publicSpend : G) derivator shard randomness := by
    rw [h.coin_eq]
    exact ⟨hopens.1, hopens.2, hopens.3, hopens.4, hopens.5⟩
  refine ⟨?_, List.not_mem_nil, ?_, h.verify hsum⟩
  · unfold AccountPayment.matchesStatement
    rw [h.statement, hopens'.publicKey_eq, hopens'.derivator_eq, h.coin_eq]
    simp only [BEq.rfl, Bool.and_self]
  · exact (AccountCoin.verifyCommitment_eq_ok_iff _ _).mpr ⟨_, _, _, _, hopens'⟩

variable [PointGroup.Canonical F G]

/-- The inputs of a conversion that was made pass together: different derivators lead to different serial
numbers. -/
theorem Balanced.checkInputs (h : spend.Balanced params proved conversion)
    (hbase : (pedersen : PedersenBases G).spendKey ≠ 0)
    (hdistinct : (spend.inputs.map (·.derivator)).Nodup) (hserials : spend.HasSerials) :
    Conversion.checkInputs params [] (conversion.inputs.zip conversion.serialProofs) = .ok () := by
  have hzip : conversion.inputs.zip conversion.serialProofs = proved := by
    rw [h.inputs, h.serialProofs, ← List.zip_of_prod rfl rfl]
  have hderivators : spend.inputs.map (·.derivator) =
      (proved.map (·.2.statement.derivator)).map some := by
    rw [List.map_map]
    refine map_eq_of_forall₂ h.inputsProved fun coin result ⟨derivator, hresult⟩ => ?_
    obtain ⟨_, _, hopens⟩ := hresult.opens
    rw [hopens.derivator_eq, Function.comp, hresult.statement]
  have hserial : ∀ result ∈ proved, result.2.statement.serial =
      Pedersen.serialNumber spend.key.secret result.2.statement.derivator := by
    refine forall_mem_of_forall₂ h.inputsProved fun coin result ⟨derivator, hresult⟩ => ?_
    rw [hresult.statement]
  rw [hzip]
  refine Conversion.checkInputs_of_nodup ?_ ?_
  · intro result hresult
    obtain ⟨j, hj⟩ := List.mem_iff_getElem?.mp hresult
    obtain ⟨coin, hcoin, derivator, hproved⟩ := exists_of_forall₂ h.inputsProved hj
    obtain ⟨_, _, hopens⟩ := hproved.opens
    exact hproved.holds (hserials coin (List.mem_of_getElem? hcoin) derivator hopens.derivator_eq)
  · -- Writing down the serial number of a derivator is injective.
    rw [hderivators] at hdistinct
    have hnodup := (List.Nodup.of_map some hdistinct).map (f := fun derivator =>
      PointGroup.encode (Pedersen.serialNumber spend.key.secret derivator : G))
      (PointGroup.encode_injective.comp fun d d' heq =>
        (Pedersen.serialNumber_inj hbase spend.key.secret d d').mp heq)
    rw [List.map_map] at hnodup
    rw [List.map_congr_left fun result hresult =>
      congrArg PointGroup.encode (hserial result hresult)]
    exact hnodup

omit [PointGroup.Canonical F G] in
theorem Run.deliversOpen [ScalarField.Canonical F] (hrun : spend.Run conversion) :
    List.Forall₂ (fun payment coin => coin.DeliversOpen payment) spend.payments
      conversion.outputs :=
  hrun.outputs.imp fun _ _ ⟨_, draws, hota, hcoin⟩ =>
    hcoin ▸ OneTimeCoin.deliversOpen_made hota draws none none

/-- All that is checked of a conversion that was made, except for its balance, was made sure of, and the
balance holds for the fee of its spend. -/
theorem Balanced.verify_iff [ScalarField.Canonical F] (h : spend.Balanced params proved conversion)
    (hrun : spend.Run conversion) (hbase : (pedersen : PedersenBases G).spendKey ≠ 0)
    (hdistinct : (spend.inputs.map (·.derivator)).Nodup) (hserials : spend.HasSerials)
    {context : VerifyContext} (hparams : context.params = params) :
    conversion.verify context = .ok () ↔ context.fee = spend.fee := by
  have hvalues : conversion.inputs.map (·.value) = spend.inputs.map (·.value) := by
    rw [h.inputs, List.map_map]
    exact (map_eq_of_forall₂ h.inputsProved fun _ _ ⟨_, hresult⟩ => by
      rw [Function.comp, hresult.coin_eq]).symm
  have hamounts : conversion.outputs.map (·.value) = spend.payments.map (·.amount) :=
    (map_eq_of_forall₂ hrun.deliversOpen fun _ _ hcoin => hcoin.value.symm).symm
  rw [Conversion.verify_eq_ok_iff]
  constructor
  · intro hholds
    have hbalance := hholds.balance
    rw [hvalues, hamounts] at hbalance
    exact (h.balance.fee_iff context.fee).mp hbalance
  · intro hfee
    refine ⟨?_, ?_, ?_, ?_, ?_, ?_, ?_⟩
    · rw [← List.length_pos_iff, hrun.inputCount.1, List.length_pos_iff]
      exact h.inputs_ne_nil
    · rw [hrun.proofCount, hrun.inputCount.1]
    · rw [← List.length_pos_iff, hrun.outputCount.1, List.length_pos_iff]
      exact h.payments_ne_nil
    · rw [hrun.outputCount.1]
      exact hrun.outputCount.2
    · rw [hparams]
      exact h.checkInputs hbase hdistinct hserials
    · refine forall_mem_of_forall₂ hrun.outputs fun payment coin ⟨publicOta, draws, hota, hcoin⟩ => ?_
      rw [← Conversion.checkOutput_eq_ok_iff, hcoin]
      unfold Conversion.checkOutput
      rw [ensure_bind_eq_ok_iff, ensure_eq_ok_iff, OneTimeCoin.isEncrypted_forgetRandoms,
        OneTimeCoin.isEncrypted_made]
      exact ⟨rfl, rfl⟩
    · rw [hvalues, hamounts, hfee]
      exact h.balance

end

/-! ## Conversions are made -/

variable [ScalarField.Lawful F] [PointGroup.Lawful F G]

theorem succeeds_proveInput {coin : AccountCoin F G} {derivator randomness : F} {shard : UInt8}
    (hopens : coin.Opens params (spend.key.publicSpend : G) derivator shard randomness) :
    (spend.proveInput params coin).Succeeds := by
  unfold proveInput
  refine Proving.Succeeds.ensure_bind (beq_iff_eq.mpr hopens.publicKey_eq) ?_
  refine Proving.Succeeds.outcome_bind
    ((AccountCoin.verifyCommitment_eq_ok_iff coin params).mpr ⟨_, _, _, _, hopens⟩) ?_
  refine Proving.Succeeds.require_bind hopens.derivator_eq ?_
  exact (Proving.succeeds_lift _).bind fun _ _ => Proving.succeeds_pure _

/-- **A spend that passes its check, owns inputs that open, and finds its one-time keys is refused on no
tape.** -/
theorem succeeds_prove (hcheck : spend.check = .ok ())
    (hopens : ∀ coin ∈ spend.inputs, ∃ derivator shard randomness,
      coin.Opens params (spend.key.publicSpend : G) derivator shard randomness)
    (hreachable : ∀ payment ∈ spend.payments, OneTimeCoin.Reachable params ⟨payment, none⟩) :
    (spend.prove params).Succeeds := by
  unfold prove
  refine Proving.Succeeds.outcome_bind hcheck ?_
  refine Proving.Succeeds.bind (Proving.Succeeds.mapM fun coin hcoin => ?_) fun _ _ => ?_
  · obtain ⟨_, _, _, hcoin⟩ := hopens coin hcoin
    exact succeeds_proveInput hcoin
  · refine Proving.Succeeds.bind (Proving.Succeeds.mapM fun payment hpayment => ?_)
      fun _ _ => Proving.succeeds_pure _
    exact (OneTimeCoin.succeeds_pay (hreachable payment hpayment)).bind
      fun _ _ => Proving.succeeds_pure _

end ConversionSpend

/-! ## The whole conversion -/

/-- **Conversions are complete, for exactly one fee.** What is made of a spend, whatever was drawn, is read
back from its encoding. Each of its outputs is open, shows no random scalar of the sender, is worth what
was paid, and is recognised by the recipient. And it is accepted in a context with the spend's shards
exactly if the context has the spend's fee.

This needs inputs with different derivators, none of which adds up to zero with the spend key, and a spend
key base other than the neutral element. -/
theorem Conversion.complete_for_one_fee [ScalarField.Lawful F] [PointGroup.Lawful F G]
    [ScalarField.Canonical F] [PointGroup.Canonical F G] {spend : ConversionSpend F G}
    {params : ShardParams} {conversion : Conversion F G} (h : (spend.prove params).Returns conversion)
    (hdistinct : (spend.inputs.map (·.derivator)).Nodup) (hserials : spend.HasSerials)
    (hbase : (pedersen : PedersenBases G).spendKey ≠ 0) :
    ofBytes conversion.toBytes = .ok conversion ∧
      List.Forall₂ (fun payment coin => coin.DeliversOpen payment) spend.payments
        conversion.outputs ∧
      ∀ context : VerifyContext, context.params = params →
        (conversion.verify context = .ok () ↔ context.fee = spend.fee) := by
  have hrun := ConversionSpend.run_of_returns h
  obtain ⟨proved, hbalanced⟩ := ConversionSpend.balanced_of_returns h
  refine ⟨?_, ?_, fun context hparams =>
    hbalanced.verify_iff hrun hbase hdistinct hserials hparams⟩
  · -- No output of a conversion remembers a raw asset tag, so that nothing is forgotten.
    have htags : conversion.forgetTags = conversion := by
      unfold forgetTags
      rw [OneTimePayment.map_forgetTag_eq_self]
      refine forall_mem_of_forall₂ hrun.outputs fun payment coin ⟨publicOta, draws, _, hcoin⟩ => ?_
      rw [hcoin]
      rfl
    have hread := ofBytes_toBytes (ConversionSpend.fits_of_returns h)
    rwa [htags] at hread
  · exact hrun.deliversOpen

/-! ## A conversion of two coins -/

namespace ConversionSpend

open Curve (Scalar)

/-- A coin worth ten. -/
def coinOfTen : AccountCoin Scalar Exponent where
  publicKey := some (baseMultiple (ofNat 5 : Scalar))
  commitment := some (baseMultiple (ofNat 91 : Scalar))
  derivator := some (ofNat 7)
  randomness := some (ofNat 9)
  value := 10

/-- A coin worth one. -/
def coinOfOne : AccountCoin Scalar Exponent where
  publicKey := some (baseMultiple (ofNat 5 : Scalar))
  commitment := some (baseMultiple (ofNat 31 : Scalar))
  derivator := some (ofNat 8)
  randomness := some (ofNat 0)
  value := 1

/-- A spend of both coins to the owners of two keys. -/
def twoCoins : ConversionSpend Scalar Exponent where
  key := ⟨ofNat 5⟩
  inputs := [coinOfTen, coinOfOne]
  payments := [⟨(KeySet.ofPrivateKey (⟨ofNat 2⟩ : PrivateKey Scalar)).address, 4, [104, 105]⟩,
    ⟨(KeySet.ofPrivateKey (⟨ofNat 3⟩ : PrivateKey Scalar)).address, 3, []⟩]
  fee := 4

theorem check_twoCoins : twoCoins.check = .ok () := rfl

theorem opens_twoCoins : ∀ coin ∈ twoCoins.inputs, ∃ derivator shard randomness,
    coin.Opens { numShards := 1 } (twoCoins.key.publicSpend : Exponent) derivator shard randomness := by
  refine List.forall_mem_cons.mpr ⟨?_, List.forall_mem_singleton.mpr ?_⟩
  · exact ⟨ofNat 7, 0, ofNat 9, rfl, rfl, by decide, rfl, rfl⟩
  · exact ⟨ofNat 8, 0, ofNat 0, rfl, rfl, by decide, rfl, rfl⟩

theorem hasSerials_twoCoins : twoCoins.HasSerials := by
  refine List.forall_mem_cons.mpr ⟨?_, List.forall_mem_singleton.mpr ?_⟩
  · intro derivator hderivator
    obtain rfl := Option.some.inj hderivator
    decide
  · intro derivator hderivator
    obtain rfl := Option.some.inj hderivator
    decide

theorem reachable_twoCoins : ∀ payment ∈ twoCoins.payments,
    OneTimeCoin.Reachable { numShards := 1 } ⟨payment, none⟩ := by
  have hota : ∀ payment ∈ twoCoins.payments, ∃ publicOta,
      payment.address.publicOta = some publicOta :=
    List.forall_mem_cons.mpr ⟨⟨_, rfl⟩, List.forall_mem_singleton.mpr ⟨_, rfl⟩⟩
  exact fun payment hpayment =>
    OneTimeCoin.reachable_of_single_shard rfl (by decide) (hota payment hpayment)

end ConversionSpend

open ConversionSpend in
/-- The conversion is read back and delivers both coins in the open. With the fee of the spend it is
accepted, and with one more it is not. -/
theorem Conversion.complete_for_one_fee_twoCoins :
    ∃ conversion, (twoCoins.prove { numShards := 1 }).Returns conversion ∧
      ofBytes conversion.toBytes = .ok conversion ∧
      List.Forall₂ (fun payment coin => coin.DeliversOpen payment) twoCoins.payments
        conversion.outputs ∧
      conversion.verify { fee := 4, shard := 0, params := { numShards := 1 } } = .ok () ∧
      conversion.verify { fee := 5, shard := 0, params := { numShards := 1 } } ≠ .ok () := by
  obtain ⟨conversion, hmade⟩ :=
    (succeeds_prove check_twoCoins opens_twoCoins reachable_twoCoins).exists_returns
  obtain ⟨hread, hdelivers, haccepted⟩ :=
    Conversion.complete_for_one_fee hmade (by decide) hasSerials_twoCoins (by decide)
  refine ⟨conversion, hmade, hread, hdelivers, (haccepted _ rfl).mpr rfl, fun hother => ?_⟩
  have hfee : (5 : UInt64) = 4 := (haccepted _ rfl).mp hother
  exact absurd hfee (by decide)

end ShieldedPayments
