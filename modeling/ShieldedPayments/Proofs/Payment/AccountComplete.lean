import ShieldedPayments.Proofs.Payment.AccountSuccess
import ShieldedPayments.Proofs.Payment.Hidden
import ShieldedPayments.Proofs.Payment.Lossless
import ShieldedPayments.Proofs.Payment.Nullifiers

/-!
# Honest payments of account coins

A payment that was made is read back from its encoding, is accepted for the fee of its spend and for no
other fee, and each of its coins delivers the amount and the message that were sent
(`AccountPayment.made_accepted_iff_fee`). Transparent payments are accepted because their sums are
exact. In private ones the blindings of the value commitments cancel, so that the balance is a multiple
of the value base by the fee alone.
-/

namespace ShieldedPayments

open PointGroup

/-! ## Serial numbers that differ -/

variable {F G : Type} [ScalarField F] [PointGroup F G]

section

variable [ScalarField.Lawful F] [PointGroup.Lawful F G] [PointGroup.Canonical F G]

/-- Inputs with different derivators pass the check for serial numbers that occur twice. -/
theorem AccountPayment.checkSerials_of_nodup {α : Type} {as : List α} {coins : List (AccountCoin F G)}
    {derivator : α → Option F} (key : F) (hbase : (pedersen : PedersenBases G).spendKey ≠ 0)
    (hdistinct : (as.map derivator).Nodup)
    (h : List.Forall₂ (fun a coin => ∃ d, derivator a = some d ∧
      coin.serialNumber = some (Pedersen.serialNumber key d : G)) as coins) :
    checkSerials coins = .ok () := by
  obtain ⟨ds, hds, hserials⟩ : ∃ ds : List F, as.map derivator = ds.map some ∧
      coins.map (·.serialNumber) = (ds.map fun d => (Pedersen.serialNumber key d : G)).map some := by
    clear hdistinct
    induction h with
    | nil => exact ⟨[], rfl, rfl⟩
    | cons hab _ ih =>
      obtain ⟨d, hderivator, hserial⟩ := hab
      obtain ⟨ds, hds, hserials⟩ := ih
      refine ⟨d :: ds, ?_, ?_⟩
      · rw [List.map_cons, hderivator, hds, List.map_cons]
      · rw [List.map_cons, hserial, hserials, List.map_cons, List.map_cons]
  rw [hds] at hdistinct
  rw [checkSerials_eq_ok_iff hserials, List.map_map]
  refine List.Nodup.map ?_ (List.Nodup.of_map some hdistinct)
  exact PointGroup.encode_injective.comp fun d d' heq =>
    (Pedersen.serialNumber_inj hbase key d d').mp heq

/-! ## Transparent payments -/

namespace AccountSpend

variable {spend : AccountSpend F G} {params : ShardParams} {source : CommitmentSource G}
  {payment : AccountPayment F G}

/-- The key and derivator of no input add up to zero, so that each input has a serial number. -/
def HasSerials (spend : AccountSpend F G) : Prop :=
  ∀ coin ∈ spend.inputs, ∀ derivator, coin.derivator = some derivator →
    spend.key.secret + derivator ≠ 0

omit [PointGroup.Canonical F G] in
theorem OpenInput.holds {coin : AccountCoin F G} {index : UInt64}
    {proved : AccountCoin F G × SerialProof F G} {derivator : F}
    (h : spend.OpenInput source coin index proved derivator) {context : VerifyContext}
    (hparams : context.params = params) (htoken : context.token = spend.token)
    (hshard : context.shard = spend.shard)
    (hopens : ∃ derivator shard randomness,
      coin.Opens params (spend.key.publicSpend : G) derivator shard randomness)
    (hsum : spend.key.secret + derivator ≠ 0) :
    AccountPayment.OpenInputHolds context source proved.1 proved.2 index := by
  obtain ⟨derivator', shard, randomness, hopens⟩ := hopens
  have hopens' : proved.1.Opens params (spend.key.publicSpend : G) derivator' shard randomness := by
    rw [h.coin_eq]
    exact ⟨hopens.1, hopens.2, hopens.3, hopens.4, hopens.5⟩
  obtain ⟨stored, hstored, hcommitment⟩ := h.stored
  refine ⟨?_, ?_, ?_, ?_, ⟨stored, ?_, ?_⟩, h.verify hsum⟩
  · rw [h.statement, hopens'.publicKey_eq]
  · rw [h.statement, h.coin_eq]
    exact h.derivator_eq
  · rw [h.statement, h.coin_eq]
  · rw [hparams]
    exact (AccountCoin.verifyCommitment_eq_ok_iff _ _).mpr ⟨_, _, _, _, hopens'⟩
  · rw [htoken, hshard]
    exact hstored
  · rw [h.coin_eq]
    exact hcommitment

omit [PointGroup.Canonical F G] in
/-- Everything that is checked of an input of a transparent payment was proved for it. -/
theorem OpenRun.inputs_hold {proved : List (AccountCoin F G × SerialProof F G)}
    (h : spend.OpenRun params source proved payment) (hchecked : spend.Checked params)
    (hserials : spend.HasSerials) {context : VerifyContext} (hparams : context.params = params)
    (htoken : context.token = spend.token) (hshard : context.shard = spend.shard) :
    ∀ coin proof index,
      (coin, proof, index) ∈ payment.inputs.zip (payment.serialProofs.zip payment.ledgerIndices) →
        AccountPayment.OpenInputHolds context source coin proof index := by
  intro coin proof index hmem
  obtain ⟨j, hj⟩ := List.mem_iff_getElem?.mp hmem
  rw [h.payment_eq] at hj
  simp only [List.getElem?_zip_eq_some, List.getElem?_map, Option.map_eq_some_iff] at hj
  obtain ⟨⟨result, hresult, rfl⟩, ⟨result', hresult', rfl⟩, hindex⟩ := hj
  obtain rfl := Option.some.inj (hresult.symm.trans hresult')
  obtain ⟨⟨input, index'⟩, hinput, derivator, hproved⟩ := exists_of_forall₂ h.inputsProved hresult
  rw [List.getElem?_zip_eq_some] at hinput
  obtain ⟨hinput, hindex'⟩ := hinput
  obtain rfl := Option.some.inj (hindex.symm.trans hindex')
  have hmem := List.mem_of_getElem? hinput
  exact hproved.holds hparams htoken hshard (hchecked.opens input hmem)
    (hserials input hmem derivator hproved.derivator_eq)

/-- All that is checked of a transparent payment, except for its balance, was made sure of. -/
theorem OpenRun.holds {proved : List (AccountCoin F G × SerialProof F G)}
    (h : spend.OpenRun params source proved payment) (hchecked : spend.Checked params)
    (hindices : spend.ledgerIndices.length = spend.inputs.length)
    (hbase : (pedersen : PedersenBases G).spendKey ≠ 0)
    (hdistinct : (spend.inputs.map (·.derivator)).Nodup) (hserials : spend.HasSerials)
    {context : VerifyContext} (hparams : context.params = params)
    (htoken : context.token = spend.token) (hshard : context.shard = spend.shard) :
    payment.OpenHolds context source := by
  have hlength := h.inputsProved.length_eq
  rw [List.length_zip, hindices, min_self] at hlength
  constructor
  · rw [h.payment_eq, List.length_map, List.length_map]
  · rw [h.payment_eq, List.length_map, hindices, hlength]
  · rw [h.payment_eq]
  · rw [← map_comp_fst (List.map_fst_zip hindices.ge)] at hdistinct
    refine AccountPayment.checkSerials_of_nodup spend.key.secret hbase hdistinct ?_
    rw [h.payment_eq, List.forall₂_map_right_iff]
    refine h.inputsProved.imp fun a b ⟨d, hab⟩ => ⟨d, hab.derivator_eq, ?_⟩
    rw [hab.coin_eq]
  · exact h.inputs_hold hchecked hserials hparams htoken hshard
  · refine forall_mem_of_forall₂ h.outputsIssued fun payment coin ⟨hopen, hissued⟩ => ⟨hopen, ?_⟩
    obtain ⟨derivator, shard, randomness, hopens⟩ := hissued.opens
    rw [hparams]
    exact (AccountCoin.verifyCommitment_eq_ok_iff _ _).mpr ⟨_, _, _, _, hopens⟩

/-- A transparent payment that was made is accepted for the fee of its spend and for no other fee. -/
theorem OpenRun.verify_iff {proved : List (AccountCoin F G × SerialProof F G)}
    (h : spend.OpenRun params source proved payment) (hchecked : spend.Checked params)
    (hopen : spend.isPrivate = false) (hbase : (pedersen : PedersenBases G).spendKey ≠ 0)
    (hdistinct : (spend.inputs.map (·.derivator)).Nodup) (hserials : spend.HasSerials)
    {context : VerifyContext} (hparams : context.params = params)
    (htoken : context.token = spend.token) (hshard : context.shard = spend.shard) :
    payment.verify context source = .ok () ↔ context.fee = spend.fee := by
  have hindices := hchecked.indices
  rw [hopen, if_neg Bool.false_ne_true] at hindices
  have hprivate : payment.isPrivate = false := by
    rw [h.payment_eq]
    rfl
  have hinputValues : payment.inputs.map (·.value) = spend.inputs.map (·.value) := by
    rw [h.payment_eq, List.map_map, ← map_comp_fst (List.map_fst_zip hindices.ge)]
    exact (map_eq_of_forall₂ h.inputsProved fun _ _ ⟨_, hab⟩ => by rw [Function.comp, hab.coin_eq]).symm
  have houtputValues : payment.outputs.map (·.details.value) = spend.payments.map (·.amount) :=
    (map_eq_of_forall₂ h.outputsIssued fun _ _ ⟨_, hissued⟩ => hissued.value.symm).symm
  rw [AccountPayment.verify_eq_ok_iff_of_open payment context source hprivate, hinputValues,
    houtputValues, hchecked.balance.fee_iff]
  exact and_iff_right
    (h.holds hchecked hindices hbase hdistinct hserials hparams htoken hshard)

/-! ## Private payments -/

omit [ScalarField.Lawful F] [PointGroup.Lawful F G] [PointGroup.Canonical F G] in
theorem HiddenInputProved.holds {shared : SharedInput F G} {coin : AccountCoin F G}
    {indices : List UInt64} {proved : HiddenInput F G} {derivator : F}
    (h : spend.HiddenInputProved source shared coin indices proved derivator)
    {context : VerifyContext} (htoken : context.token = spend.token)
    (hshard : context.shard = spend.shard) (hsum : spend.key.secret + derivator ≠ 0) :
    ∃ members, AccountPayment.HiddenInputHolds context source shared.keyCommitment
      shared.shardCommitment ⟨proved.coin.redact, proved.valueCommitment, proved.derivatorCommitment,
        indices, proved.ringProof, proved.serialProof⟩ members := by
  obtain ⟨members, hmembers, hring⟩ := h.ring
  refine ⟨members, ?_, hring, h.statement.2, ?_, h.verify hsum⟩
  · rw [htoken, hshard]
    exact hmembers
  · rw [h.statement.1, h.coin_eq]
    rfl

omit [PointGroup.Canonical F G] in
/-- Commitments to values add up to a commitment to the sum of the values. -/
theorem sum_commitAt_value {α : Type} (xs : List α) (value : α → UInt64) (blinding : α → F) :
    (xs.map fun x => (Pedersen.commitAt .value (ofNat (value x).toNat) (blinding x) : G)).sum =
      (ofNat ((xs.map value).map UInt64.toNat).sum : F) • (pedersen : PedersenBases G).value
        + (xs.map blinding).sum • (pedersen : PedersenBases G).blinding := by
  induction xs with
  | nil =>
    rw [List.map_nil, List.sum_nil, List.map_nil, List.map_nil, List.sum_nil, List.map_nil,
      List.sum_nil, ScalarField.Lawful.ofNat_zero, zero_smul, zero_smul, add_zero]
  | cons x xs ih =>
    rw [List.map_cons, List.sum_cons, ih]
    simp only [List.map_cons, List.sum_cons, ScalarField.ofNat_add, Pedersen.commitAt,
      PedersenBases.base]
    module

variable {shared : SharedInput F G} {inputs : List (HiddenInput F G)}
  {outputs : List (HiddenOutput F G)} {rangeProof : RangeProof F G}

omit [PointGroup.Canonical F G] in
/-- The value commitments of inputs, less those of outputs, commit to the fee without a blinding. -/
theorem HiddenRun.sum_commitments
    (h : spend.HiddenRun source params shared inputs outputs rangeProof payment)
    (hchecked : spend.Checked params) (hprivate : spend.isPrivate = true) :
    (inputs.map (·.valueCommitment)).sum = (outputs.map (·.valueCommitment)).sum
      + (ofNat spend.fee.toNat : F) • (pedersen : PedersenBases G).value := by
  have hinputValues : inputs.map (·.coin.value) = spend.inputs.map (·.value) := by
    rw [← map_comp_fst (hchecked.map_fst_zip_rings hprivate)]
    exact (map_eq_of_forall₂ h.inputsProved fun a b ⟨_, hab⟩ => by rw [hab.coin_eq]).symm
  have houtputValues : outputs.map (·.coin.value) = spend.payments.map (·.amount) :=
    (map_eq_of_forall₂ h.outputsMade fun _ _ hmade => hmade.issued.value.symm).symm
  have hinputs : inputs.map (·.valueCommitment) = inputs.map fun r =>
      (Pedersen.commitAt .value (ofNat r.coin.value.toNat) r.valueBlinding : G) := by
    refine List.map_congr_left (forall_mem_of_forall₂ h.inputsProved fun a b ⟨_, hab⟩ => ?_)
    rw [hab.valueCommitment, hab.coin_eq]
  have houtputs : outputs.map (·.valueCommitment) = outputs.map fun r =>
      (Pedersen.commitAt .value (ofNat r.coin.value.toNat) r.valueBlinding : G) := by
    refine List.map_congr_left (forall_mem_of_forall₂ h.outputsMade fun a b hmade => ?_)
    rw [hmade.valueCommitment, hmade.issued.value]
  rw [hinputs, houtputs, sum_commitAt_value, sum_commitAt_value, hinputValues, houtputValues,
    h.blinding hchecked.payments, hchecked.balance.1, ScalarField.ofNat_add]
  module

omit [ScalarField.Lawful F] [PointGroup.Lawful F G] [PointGroup.Canonical F G] in
/-- The parts of a private payment that was made have matching lengths. -/
theorem HiddenRun.shape (h : spend.HiddenRun source params shared inputs outputs rangeProof payment)
    (hchecked : spend.Checked params) (hprivate : spend.isPrivate = true) : payment.HiddenShape := by
  have hindices := hchecked.indices
  rw [if_pos hprivate] at hindices
  have hlength := h.length_inputs hchecked hprivate
  have houtputs := h.outputsMade.length_eq
  have hcoins := h.forall_outputs.length_eq
  have hnonempty : payment.outputs ≠ [] := by
    intro hnil
    rw [hnil] at hcoins
    exact hchecked.payments (List.eq_nil_of_length_eq_zero hcoins)
  rw [h.payment_eq]
  refine ⟨?_, ?_, ?_, ?_, ?_, rfl, hnonempty, ?_, ?_, ?_⟩ <;>
    simp only [List.length_map]
  · rw [hlength]
    exact hindices.2.1
  · omega
  · omega
  · omega

omit [ScalarField.Lawful F] [PointGroup.Canonical F G] in
/-- Everything that is checked of an input of a private payment was proved for it. -/
theorem HiddenRun.checkInputs
    (h : spend.HiddenRun source params shared inputs outputs rangeProof payment)
    (hchecked : spend.Checked params) (hprivate : spend.isPrivate = true) (hserials : spend.HasSerials)
    {context : VerifyContext} (htoken : context.token = spend.token)
    (hshard : context.shard = spend.shard) :
    ∀ input ∈ payment.inputEntries, AccountPayment.checkHiddenInput context source shared.keyCommitment
      shared.shardCommitment input = .ok () := by
  intro input hinput
  have hlength := h.length_inputs hchecked hprivate
  obtain ⟨j, hj⟩ := List.mem_iff_getElem?.mp hinput
  rw [h.payment_eq] at hj
  unfold AccountPayment.inputEntries at hj
  simp only [List.getElem?_zipWith_eq_some, List.getElem?_zip_eq_some, List.getElem?_map,
    Option.map_eq_some_iff, List.length_map, hlength, Prod.exists] at hj
  obtain ⟨_, _, _, indices, _, _, ⟨result, hresult, rfl⟩, ⟨⟨⟨_, hvalue, rfl⟩, _, hderivator, rfl⟩,
    hindices, ⟨_, hring, rfl⟩, _, hserial, rfl⟩, rfl⟩ := hj
  obtain rfl := Option.some.inj (hresult.symm.trans hvalue)
  obtain rfl := Option.some.inj (hresult.symm.trans hderivator)
  obtain rfl := Option.some.inj (hresult.symm.trans hring)
  obtain rfl := Option.some.inj (hresult.symm.trans hserial)
  obtain ⟨⟨coin, indices', position⟩, hinput, derivator, hproved⟩ :=
    exists_of_forall₂ h.inputsProved hresult
  simp only [List.getElem?_zip_eq_some] at hinput
  obtain ⟨hcoin, hindices', -⟩ := hinput
  obtain rfl := Option.some.inj (hindices.symm.trans hindices')
  rw [AccountPayment.checkHiddenInput_eq_ok_iff]
  exact hproved.holds htoken hshard
    (hserials coin (List.mem_of_getElem? hcoin) derivator hproved.derivator_eq)

omit [ScalarField.Lawful F] [PointGroup.Lawful F G] [PointGroup.Canonical F G] in
/-- The commitment of each output of a private payment is the sum of its parts. -/
theorem HiddenRun.outputs_hold
    (h : spend.HiddenRun source params shared inputs outputs rangeProof payment) :
    ∀ coin value derivator shard, (coin, value, derivator, shard) ∈ payment.outputs.zip
        (payment.outputValues.zip (payment.outputDerivators.zip payment.outputShards)) →
      AccountPayment.HiddenOutputHolds coin value derivator shard := by
  intro coin value derivator shard hmem
  obtain ⟨j, hj⟩ := List.mem_iff_getElem?.mp hmem
  have hcoins := h.sealedCoins
  generalize payment.outputs = coins at hj hcoins
  rw [h.payment_eq] at hj
  simp only [List.getElem?_zip_eq_some, List.getElem?_map, Option.map_eq_some_iff] at hj
  obtain ⟨hcoin, ⟨output, houtput, rfl⟩, ⟨_, hderivator, rfl⟩, _, hshard, rfl⟩ := hj
  obtain rfl := Option.some.inj (houtput.symm.trans hderivator)
  obtain rfl := Option.some.inj (houtput.symm.trans hshard)
  obtain ⟨⟨output', payment'⟩, hpair, randomness, t, -, hsealed⟩ := exists_of_forall₂ hcoins hcoin
  rw [List.getElem?_zip_eq_some] at hpair
  obtain rfl := Option.some.inj (houtput.symm.trans hpair.1)
  obtain ⟨_, -, hmade⟩ := exists_of_forall₂ h.outputsMade houtput
  rw [hsealed]
  exact ⟨_, hmade.publicKey, hmade.commitment⟩

/-- The serial numbers of a private payment differ if the derivators of its inputs do. -/
theorem HiddenRun.checkSerials
    (h : spend.HiddenRun source params shared inputs outputs rangeProof payment)
    (hchecked : spend.Checked params) (hprivate : spend.isPrivate = true)
    (hbase : (pedersen : PedersenBases G).spendKey ≠ 0)
    (hdistinct : (spend.inputs.map (·.derivator)).Nodup) :
    AccountPayment.checkSerials payment.inputs = .ok () := by
  rw [← map_comp_fst (hchecked.map_fst_zip_rings hprivate)] at hdistinct
  refine AccountPayment.checkSerials_of_nodup spend.key.secret hbase hdistinct ?_
  rw [h.payment_eq, List.forall₂_map_right_iff]
  refine h.inputsProved.imp fun a b ⟨d, hab⟩ => ⟨d, hab.derivator_eq, ?_⟩
  rw [hab.coin_eq]
  rfl

omit [ScalarField.Lawful F] [PointGroup.Canonical F G] in
/-- The range proof of a private payment is about the value commitments of its outputs. -/
theorem HiddenRun.range_commitments
    (h : spend.HiddenRun source params shared inputs outputs rangeProof payment) :
    rangeProof.commitments = payment.outputValues := by
  have houtputValues : payment.outputValues = outputs.map (·.valueCommitment) := by rw [h.payment_eq]
  rw [h.range.commitments, houtputValues, RangeProof.commitmentsTo, List.zipWith_map]
  refine zipWith_eq_map_of_forall₂ h.outputsMade fun payment output hmade => ?_
  rw [hmade.valueCommitment, combination_cons, combination_cons, combination_nil, add_zero]
  rfl

/-- A private payment that was made is accepted for the fee of its spend and for no other fee. -/
theorem HiddenRun.verify_iff [ScalarField.Canonical F]
    (h : spend.HiddenRun source params shared inputs outputs rangeProof payment)
    (hchecked : spend.Checked params) (hprivate : spend.isPrivate = true)
    (hbase : (pedersen : PedersenBases G).spendKey ≠ 0)
    (hvalue : (pedersen : PedersenBases G).value ≠ 0)
    (hdistinct : (spend.inputs.map (·.derivator)).Nodup) (hserials : spend.HasSerials)
    (hchallenges : rangeProof.NonzeroChallenges RangeProof.defaultBase)
    {context : VerifyContext} (htoken : context.token = spend.token)
    (hshard : context.shard = spend.shard) :
    payment.verify context source = .ok () ↔ context.fee = spend.fee := by
  have hsum := h.sum_commitments hchecked hprivate
  have hlength := h.length_inputs hchecked hprivate
  have hisPrivate : payment.isPrivate = true := by
    rw [h.payment_eq]
    cases inputs with
    | nil => exact absurd (List.eq_nil_of_length_eq_zero hlength.symm) hchecked.inputs
    | cons input inputs => rfl
  have hinputValues : payment.inputValues = inputs.map (·.valueCommitment) := by rw [h.payment_eq]
  have houtputValues : payment.outputValues = outputs.map (·.valueCommitment) := by rw [h.payment_eq]
  rw [AccountPayment.verify_eq_ok_iff_of_private payment context source hisPrivate]
  constructor
  · rintro ⟨_, _, _, hholds⟩
    have hbalance := hholds.balance
    rw [hinputValues, houtputValues, hsum, add_right_inj, smul_left_inj hvalue,
      ScalarField.ofNat_toNat_inj] at hbalance
    exact hbalance.symm
  · intro hfee
    refine ⟨shared.keyCommitment, shared.shardCommitment, rangeProof, h.shape hchecked hprivate, ?_,
      ?_, ?_, h.checkInputs hchecked hprivate hserials htoken hshard, h.outputs_hold, ?_, ?_,
      h.range.verify hchallenges _, ?_⟩
    · rw [h.payment_eq]
    · rw [h.payment_eq]
    · exact h.checkSerials hchecked hprivate hbase hdistinct
    · rw [h.payment_eq]
    · exact h.range_commitments
    · rw [hinputValues, houtputValues, hsum, hfee]

/-! ## What recipients find -/

omit [PointGroup.Canonical F G] in
/-- A coin in the open delivers what it shows. -/
theorem delivers_of_open {payment : Payment G} {coin : SealedCoin F G}
    (hopen : coin.encrypted = none) (h : coin.details.Issued params payment) :
    coin.Delivers params payment := by
  intro keys view hview _
  obtain ⟨derivator, shard, randomness, hopens⟩ := h.opens
  have hseal : coin.openSeal view params = .ok coin.details := by
    unfold SealedCoin.openSeal
    rw [hopen]
  have hreveal := SealedCoin.reveal_of_openSeal hview hseal hopens.derivator_eq
  obtain ⟨commitment, hcommitment, hexpected⟩ := hopens.expectedCommitment_eq
  exact ⟨_, commitment, hreveal, h.value, h.info, hcommitment, hexpected⟩

/-- A sealed coin delivers what was sealed in it. -/
theorem SealedTo.delivers [ScalarField.Canonical F] {payment : Payment G} {coin : AccountCoin F G}
    {result : SealedCoin F G} (hsealed : SealedTo payment.address.publicView coin result)
    (h : coin.Issued params payment) : result.Delivers params payment := by
  intro keys view hview haddress
  obtain ⟨randomness, t, hrandomness, rfl⟩ := hsealed
  obtain ⟨derivator, shard, randomness', hopens⟩ := h.opens
  obtain rfl := Option.some.inj (hrandomness.symm.trans hopens.randomness_eq)
  obtain ⟨commitment, hcommitment, hexpected⟩ := hopens.expectedCommitment_eq
  obtain ⟨serialNumber, hreveal⟩ := SealedCoin.exists_reveal_encrypt hview hopens t
  rw [haddress]
  exact ⟨_, commitment, hreveal, h.value, h.info, hcommitment, hexpected⟩

end AccountSpend

/-- **Payments of account coins are complete, for exactly one fee.** What is made of a spend, whatever
was drawn, is read back from its encoding, and accepted in a context with the spend's shards, token and
shard exactly if the context has the spend's fee. Whoever has the view secret of an address that was
paid finds the amount, the message up to its limit, and an opening of the coin's commitment.

This needs inputs with different derivators, none of which adds up to zero with the spend key, spend key
and value bases other than the neutral element, and for a private payment a range proof none of whose
challenges is zero. -/
theorem AccountPayment.made_accepted_iff_fee [ScalarField.Canonical F] [FullBases F G]
    {spend : AccountSpend F G} {params : ShardParams} {source : CommitmentSource G}
    {payment : AccountPayment F G}
    (h : (spend.prove params source).Returns payment)
    (hdistinct : (spend.inputs.map (·.derivator)).Nodup) (hserials : spend.HasSerials)
    (hchallenges : ∀ proof, payment.rangeProof = some proof →
      proof.NonzeroChallenges RangeProof.defaultBase)
    (hbase : (pedersen : PedersenBases G).spendKey ≠ 0)
    (hvalue : (pedersen : PedersenBases G).value ≠ 0) :
    ofBytes payment.toBytes = .ok payment ∧
      (∀ context : VerifyContext, context.params = params → context.token = spend.token →
        context.shard = spend.shard →
        (payment.verify context source = .ok () ↔ context.fee = spend.fee)) ∧
      List.Forall₂ (fun payment coin => coin.Delivers params payment) spend.payments
        payment.outputs := by
  refine ⟨ofBytes_toBytes (AccountSpend.fits_of_returns h), ?_⟩
  obtain ⟨hchecked, hrun⟩ := AccountSpend.run_of_returns h
  split at hrun
  · next hprivate =>
    obtain ⟨shared, inputs, outputs, rangeProof, hrun⟩ := hrun
    have hrange : payment.rangeProof = some rangeProof := by rw [hrun.payment_eq]
    constructor
    · intro context _ htoken hshard
      exact hrun.verify_iff hchecked hprivate hbase hvalue hdistinct hserials
        (hchallenges rangeProof hrange) htoken hshard
    · exact hrun.forall_outputs.imp fun _ _ ⟨_, hmade, hsealed⟩ => hsealed.delivers hmade.issued
  · next hopen =>
    obtain ⟨proved, hrun⟩ := hrun
    constructor
    · intro context hparams htoken hshard
      exact hrun.verify_iff hchecked (Bool.not_eq_true _ ▸ hopen) hbase hdistinct hserials hparams
        htoken hshard
    · exact hrun.outputsIssued.imp fun _ _ ⟨hopen, hissued⟩ =>
        AccountSpend.delivers_of_open hopen hissued

end

/-! ## A private payment -/

namespace AccountSpend

/-- A coin worth ten of the owner of the key five. -/
def ringCoin : AccountCoin NonzeroScalar NonzeroExponent where
  publicKey := some (baseMultiple (ofNat 5))
  commitment := some (baseMultiple (ofNat 91))
  derivator := some (ofNat 7)
  randomness := some (ofNat 9)
  value := 10

/-- A ledger that has this coin at index five. -/
def ringLedger : CommitmentSource NonzeroExponent :=
  fun _ _ index => .ok (if index = 5 then baseMultiple (ofNat 91) else 0)

/-- A private spend of the coin to two addresses. -/
def ringSpend : AccountSpend NonzeroScalar NonzeroExponent where
  isPrivate := true
  key := ⟨ofNat 5⟩
  inputs := [ringCoin]
  payments := [⟨⟨baseMultiple (ofNat 2), baseMultiple (ofNat 3), none⟩, 4, [104, 105]⟩,
    ⟨⟨baseMultiple (ofNat 11), baseMultiple (ofNat 13), none⟩, 3, []⟩]
  fee := 3
  token := .native
  shard := 0
  ledgerIndices := [0, 1, 2, 3, 4, 5, 6, 7]
  ringPositions := [5]

theorem check_ringSpend : ringSpend.check {} = .ok () := rfl

theorem onLedger_ringSpend : ringSpend.OnLedger ringLedger := by
  intro input hinput
  obtain rfl := List.mem_singleton.mp hinput
  exact ⟨fun index _ => ⟨_, rfl⟩, 5, rfl, _, rfl, rfl⟩

theorem hasSerials_ringSpend : ringSpend.HasSerials := by
  intro coin hcoin derivator hderivator
  obtain rfl := List.mem_singleton.mp hcoin
  obtain rfl := Option.some.inj hderivator
  decide

end AccountSpend

open AccountSpend in
/-- The private payment is accepted for the fee of three, and not for a fee of four. -/
theorem AccountPayment.made_accepted_ringSpend :
    ∃ payment, (ringSpend.prove {} ringLedger).Returns payment ∧
      ofBytes payment.toBytes = .ok payment ∧
      payment.verify { fee := 3, shard := 0 } ringLedger = .ok () ∧
      payment.verify { fee := 4, shard := 0 } ringLedger ≠ .ok () ∧
      List.Forall₂ (fun payment coin => coin.Delivers {} payment) ringSpend.payments
        payment.outputs := by
  obtain ⟨payment, hmade⟩ := (succeeds_prove check_ringSpend onLedger_ringSpend).exists_returns
  obtain ⟨hread, hverify, hdelivers⟩ := AccountPayment.made_accepted_iff_fee hmade
    (List.nodup_singleton _) hasSerials_ringSpend
    (fun proof _ => RangeProof.nonzeroChallenges proof _) (by decide) (by decide)
  refine ⟨payment, hmade, hread, ?_, ?_, hdelivers⟩
  · exact (hverify { fee := 3, shard := 0 } rfl rfl rfl).mpr rfl
  · intro haccepted
    have hfee := (hverify { fee := 4, shard := 0 } rfl rfl rfl).mp haccepted
    exact absurd hfee (by decide)

end ShieldedPayments
