import ShieldedPayments.Proofs.Argument.HonestRange
import ShieldedPayments.Proofs.Argument.HonestRing
import ShieldedPayments.Proofs.Argument.HonestSerial
import ShieldedPayments.Proofs.Coin.Sealing
import ShieldedPayments.Proofs.Pairwise
import ShieldedPayments.Proofs.Payment.Balance
import ShieldedPayments.Payment.Account

/-!
# What is made of a spend of account coins

Making a payment draws randomness at every step, but what is returned satisfies the same equations
whatever was drawn. There is one structure for what is known of each part of a payment, and one lemma
that what is returned for the part satisfies it.

* `AccountSpend.Checked`: a spend that was not refused.
* `AccountSpend.OpenInput`, `AccountSpend.HiddenInputProved`: an input with its proofs.
* `AccountCoin.Issued`, `AccountSpend.Hidden`, `AccountSpend.Delivered`: an output, its parts, and what
  its recipient finds.
* `AccountSpend.OpenRun`, `AccountSpend.HiddenRun`: a whole payment.
-/

namespace ShieldedPayments

open PointGroup

theorem checkCounts_eq_ok_iff (inputs outputs : Nat) :
    checkCounts inputs outputs = .ok () ↔
      (inputs ≠ 0 ∧ inputs ≤ maxInputs) ∧ (outputs ≠ 0 ∧ outputs ≤ maxOutputs) := by
  unfold checkCounts
  rw [ensure_bind_eq_ok_iff, ensure_eq_ok_iff]
  simp only [Bool.and_eq_true, bne_iff_ne, decide_eq_true_iff]

variable {F G : Type} [ScalarField F] [PointGroup F G]

/-! ## Outputs in the open -/

/-- A coin that was made for a payment and opens. -/
structure AccountCoin.Issued (coin : AccountCoin F G) (params : ShardParams) (payment : Payment G) :
    Prop where
  opens : ∃ derivator shard randomness,
    coin.Opens params payment.address.publicSpend derivator shard randomness
  value : coin.value = payment.amount
  info : coin.info = payment.message.take maxInfoSize

/-- What the owner of a coin's view secret finds in it is the coin of a payment, with the commitment
that the coin shows. -/
def SealedCoin.Delivers (coin : SealedCoin F G) (params : ShardParams) (payment : Payment G) : Prop :=
  ∀ (keys : KeySet F G) (view : F), keys.viewSecret = some view →
    payment.address.publicView = baseMultiple view →
    ∃ revealed commitment, coin.reveal keys params = .ok revealed ∧
      revealed.value = payment.amount ∧ revealed.info = payment.message.take maxInfoSize ∧
      coin.details.commitment = some commitment ∧
      revealed.expectedCommitment params = .ok commitment

namespace AccountSpend

variable {spend : AccountSpend F G} {params : ShardParams} {source : CommitmentSource G}

/-- What the check of a spend makes sure of. -/
structure Checked (spend : AccountSpend F G) (params : ShardParams) : Prop where
  inputs : spend.inputs ≠ []
  inputCount : spend.inputs.length ≤ maxInputs
  payments : spend.payments ≠ []
  paymentCount : spend.payments.length ≤ maxOutputs
  balance : Balance.Exact (spend.inputs.map (·.value)) (spend.payments.map (·.amount)) spend.fee
  opens : ∀ coin ∈ spend.inputs, ∃ derivator shard randomness,
    coin.Opens params (spend.key.publicSpend : G) derivator shard randomness
  indices : if spend.isPrivate then spend.inputs.length ≤ AccountPayment.maxPrivateInputs ∧
      spend.ledgerIndices.length = spend.inputs.length * ringSize ∧
      spend.ringPositions.length = spend.inputs.length
    else spend.ledgerIndices.length = spend.inputs.length

/-- With as many rings and positions as inputs, none of the inputs is left out. -/
theorem Checked.map_fst_zip_rings (h : spend.Checked params) (hprivate : spend.isPrivate = true) :
    (spend.inputs.zip ((AccountPayment.ringIndices spend.inputs.length spend.ledgerIndices).zip
      spend.ringPositions)).map (·.1) = spend.inputs := by
  have hindices := h.indices
  rw [if_pos hprivate] at hindices
  apply List.map_fst_zip
  rw [List.length_zip, AccountPayment.ringIndices, List.length_map, List.length_range, hindices.2.2,
    min_self]

variable [ScalarField.Lawful F] [PointGroup.Lawful F G]

/-- The check of a spend refuses nothing else. -/
theorem check_eq_ok_iff : spend.check params = .ok () ↔ spend.Checked params := by
  unfold check
  simp only [Outcome.check_bind_eq_ok_iff, checkCounts_eq_ok_iff, Balance.check_eq_ok_iff_exact,
    Outcome.forM_eq_ok_iff, ensure_eq_ok_iff, beq_iff_eq]
  constructor
  · rintro ⟨⟨⟨hinputs, hinputCount⟩, hpayments, hpaymentCount⟩, hbalance, hcoins, hindices⟩
    refine ⟨fun hnil => hinputs (congrArg List.length hnil), hinputCount,
      fun hnil => hpayments (congrArg List.length hnil), hpaymentCount, hbalance, ?_, ?_⟩
    · intro coin hcoin
      obtain ⟨hkey, hverified⟩ := hcoins coin hcoin
      obtain ⟨publicKey, derivator, shard, randomness, hopens⟩ :=
        (AccountCoin.verifyCommitment_eq_ok_iff coin params).mp hverified
      obtain rfl := Option.some.inj (hkey.symm.trans hopens.publicKey_eq)
      exact ⟨derivator, shard, randomness, hopens⟩
    · split at hindices
      · next hprivate =>
        rw [if_pos hprivate]
        simpa [ensure_eq_ok_iff] using hindices
      · next hopen =>
        rw [if_neg hopen]
        simpa [ensure_eq_ok_iff] using hindices
  · rintro ⟨hinputs, hinputCount, hpayments, hpaymentCount, hbalance, hopens, hindices⟩
    refine ⟨⟨⟨fun hzero => hinputs (List.eq_nil_of_length_eq_zero hzero), hinputCount⟩,
      fun hzero => hpayments (List.eq_nil_of_length_eq_zero hzero), hpaymentCount⟩, hbalance, ?_, ?_⟩
    · intro coin hcoin
      obtain ⟨derivator, shard, randomness, hopening⟩ := hopens coin hcoin
      exact ⟨hopening.publicKey_eq,
        (AccountCoin.verifyCommitment_eq_ok_iff coin params).mpr ⟨_, _, _, _, hopening⟩⟩
    · split at hindices
      · next hprivate =>
        rw [if_pos hprivate]
        simpa [ensure_eq_ok_iff] using hindices
      · next hopen =>
        rw [if_neg hopen]
        simpa [ensure_eq_ok_iff] using hindices

theorem checked_of_check (h : spend.check params = .ok ()) : spend.Checked params :=
  check_eq_ok_iff.mp h

/-! ## Transparent payments -/

/-- The ledger holds the commitment of a coin at an index. -/
def Stored (spend : AccountSpend F G) (source : CommitmentSource G) (coin : AccountCoin F G)
    (index : UInt64) : Prop :=
  ∃ stored, source spend.token spend.shard index = .ok stored ∧ coin.commitment = some stored

/-- What is known of an input of a transparent payment and its proof. -/
structure OpenInput (spend : AccountSpend F G) (source : CommitmentSource G) (coin : AccountCoin F G)
    (index : UInt64) (proved : AccountCoin F G × SerialProof F G) (derivator : F) : Prop where
  derivator_eq : coin.derivator = some derivator
  coin_eq : proved.1 = { coin with
    serialNumber := some (Pedersen.serialNumber spend.key.secret derivator), info := [] }
  statement : proved.2.statement =
    ⟨Pedersen.serialNumber spend.key.secret derivator, spend.key.publicSpend, derivator⟩
  stored : spend.Stored source coin index
  verify : spend.key.secret + derivator ≠ 0 → proved.2.verify none = .ok ()

theorem openInput_of_returns {coin : AccountCoin F G} {index : UInt64}
    {proved : AccountCoin F G × SerialProof F G}
    (h : (spend.proveOpenInput source coin index).Returns proved) :
    ∃ derivator, spend.OpenInput source coin index proved derivator := by
  unfold proveOpenInput at h
  obtain ⟨stored, hstored, h⟩ := h.outcome_bind
  obtain ⟨_, hcommitment, h⟩ := h.outcome_bind
  obtain ⟨derivator, hderivator, h⟩ := h.outcome_bind
  obtain ⟨proof, hproof, h⟩ := h.bind
  obtain ⟨hstatement, hverify⟩ := SerialProof.honest_of_returns hproof
  rw [ensure_eq_ok_iff, beq_iff_eq] at hcommitment
  obtain rfl := Proving.returns_pure_iff.mp h
  exact ⟨derivator, require_eq_ok_iff.mp hderivator, rfl, hstatement, ⟨stored, hstored, hcommitment⟩,
    hverify⟩

theorem issued_of_returns_openOutput {payment : Payment G} {coin : SealedCoin F G}
    (h : (openOutput params payment).Returns coin) :
    coin.encrypted = none ∧ coin.details.Issued params payment := by
  unfold openOutput at h
  obtain ⟨derivator, -, h⟩ := h.bind
  obtain ⟨randomness, -, h⟩ := h.bind
  obtain ⟨committed, hcommit, h⟩ := h.outcome_bind
  obtain rfl := Proving.returns_pure_iff.mp h
  obtain ⟨hfields, publicKey, derivator', shard, randomness', hopens⟩ :=
    AccountCoin.opens_of_commit hcommit
  have hkey : committed.publicKey = some payment.address.publicSpend := by rw [hfields]; rfl
  obtain rfl := Option.some.inj (hopens.publicKey_eq.symm.trans hkey)
  refine ⟨rfl, ⟨_, _, _, hopens⟩, ?_, ?_⟩
  · rw [hfields]
    rfl
  · rw [hfields]
    rfl

/-- What is known of a transparent payment. -/
structure OpenRun (spend : AccountSpend F G) (params : ShardParams) (source : CommitmentSource G)
    (proved : List (AccountCoin F G × SerialProof F G)) (payment : AccountPayment F G) : Prop where
  payment_eq : payment = {
    inputs := proved.map (·.1)
    serialProofs := proved.map (·.2)
    outputs := payment.outputs
    ledgerIndices := spend.ledgerIndices }
  inputsProved : List.Forall₂ (fun (input : AccountCoin F G × UInt64) result =>
    ∃ derivator, spend.OpenInput source input.1 input.2 result derivator)
    (spend.inputs.zip spend.ledgerIndices) proved
  outputsIssued : List.Forall₂
    (fun payment coin => coin.encrypted = none ∧ coin.details.Issued params payment)
    spend.payments payment.outputs

theorem openRun_of_returns {payment : AccountPayment F G}
    (h : (spend.proveOpen params source).Returns payment) :
    ∃ proved, spend.OpenRun params source proved payment := by
  unfold proveOpen at h
  obtain ⟨proved, hproved, h⟩ := h.bind
  obtain ⟨outputs, houtputs, h⟩ := h.bind
  obtain rfl := Proving.returns_pure_iff.mp h
  exact ⟨proved, rfl, hproved.mapM.imp fun _ _ => openInput_of_returns,
    houtputs.mapM.imp fun _ _ => issued_of_returns_openOutput⟩

/-! ## Inputs of private payments -/

omit [ScalarField.Lawful F] [PointGroup.Lawful F G] in
/-- What is known of the commitments that all inputs share. -/
theorem shared_of_returns {shared : SharedInput F G} (h : (spend.shareInput params).Returns shared) :
    shared.keyCommitment = Pedersen.commitAt .spendKey spend.key.secret shared.keyBlinding ∧
      ∃ shard, params.shardOf (lastByte (spend.key.publicSpend : G)) = .ok shard ∧
        shared.shardCommitment = Pedersen.commitAt .shard (ofNat shard.toNat) shared.shardBlinding := by
  unfold shareInput at h
  obtain ⟨shard, hshard, h⟩ := h.outcome_bind
  obtain ⟨_, -, h⟩ := h.bind
  obtain ⟨_, -, h⟩ := h.bind
  obtain rfl := Proving.returns_pure_iff.mp h
  exact ⟨rfl, shard, hshard, rfl⟩

/-- What is known of an input of a private payment. -/
structure HiddenInputProved (spend : AccountSpend F G) (source : CommitmentSource G)
    (shared : SharedInput F G) (coin : AccountCoin F G) (indices : List UInt64)
    (proved : HiddenInput F G) (derivator : F) : Prop where
  derivator_eq : coin.derivator = some derivator
  coin_eq : proved.coin = { coin with
    serialNumber := some (Pedersen.serialNumber spend.key.secret derivator) }
  valueCommitment : proved.valueCommitment =
    Pedersen.commitAt .value (ofNat coin.value.toNat) proved.valueBlinding
  ring : ∃ members, AccountPayment.ring source spend.token spend.shard
      (shared.keyCommitment + proved.valueCommitment + proved.derivatorCommitment
        + shared.shardCommitment) indices = .ok members ∧
    proved.ringProof.verify members = .ok ()
  statement : proved.serialProof.serial = Pedersen.serialNumber spend.key.secret derivator ∧
    proved.serialProof.derivatorCommitment = proved.derivatorCommitment
  verify : spend.key.secret + derivator ≠ 0 →
    proved.serialProof.verify shared.keyCommitment none = .ok ()

theorem hiddenInput_of_returns {shared : SharedInput F G} {coin : AccountCoin F G}
    {indices : List UInt64} {position : Nat} {proved : HiddenInput F G}
    (hkey : shared.keyCommitment =
      Pedersen.commitAt .spendKey spend.key.secret shared.keyBlinding)
    (h : (spend.proveHiddenInput source shared coin indices position).Returns proved) :
    ∃ derivator, spend.HiddenInputProved source shared coin indices proved derivator := by
  unfold proveHiddenInput at h
  obtain ⟨derivator, hderivator, h⟩ := h.outcome_bind
  obtain ⟨randomness, -, h⟩ := h.outcome_bind
  obtain ⟨valueBlinding, -, h⟩ := h.bind
  obtain ⟨derivatorBlinding, -, h⟩ := h.bind
  obtain ⟨members, hmembers, h⟩ := h.outcome_bind
  obtain ⟨ringProof, hring, h⟩ := h.bind
  obtain ⟨serialProof, hserial, h⟩ := h.bind
  obtain ⟨t, ht⟩ := hserial.lift
  have hstatement := HiddenSerialProof.statement_prove (F := F)
    ⟨(Pedersen.serialNumber spend.key.secret derivator : G), shared.keyCommitment,
      Pedersen.commitAt .derivator derivator derivatorBlinding⟩
    ⟨spend.key.secret, shared.keyBlinding, derivator, derivatorBlinding⟩ none t
  rw [ht] at hstatement
  obtain rfl := Proving.returns_pure_iff.mp h
  refine ⟨derivator, require_eq_ok_iff.mp hderivator, rfl, rfl,
    ⟨members, hmembers, RingProof.verify_of_returns hring⟩, ?_, fun hsum => ?_⟩
  · exact ⟨congrArg HiddenSerialStatement.serial hstatement,
      congrArg HiddenSerialStatement.derivatorCommitment hstatement⟩
  · have hverify : ((HiddenSerialProof.prove
        ⟨(Pedersen.serialNumber spend.key.secret derivator : G), shared.keyCommitment,
          Pedersen.commitAt .derivator derivator derivatorBlinding⟩
        ⟨spend.key.secret, shared.keyBlinding, derivator, derivatorBlinding⟩ none).run t).1.verify
          shared.keyCommitment none = .ok () :=
      HiddenSerialProof.verify_prove hkey rfl (Pedersen.smul_serialNumber hsum) none t
    rw [ht] at hverify
    exact hverify

/-! ## Outputs of private payments -/

/-- What is known of an output of a private payment. -/
structure HiddenOutputMade (params : ShardParams) (payment : Payment G) (output : HiddenOutput F G) :
    Prop where
  issued : output.coin.Issued params payment
  valueCommitment : output.valueCommitment =
    Pedersen.commitAt .value (ofNat payment.amount.toNat) output.valueBlinding
  publicKey : output.coin.publicKey = some payment.address.publicSpend
  commitment : output.coin.commitment = some (payment.address.publicSpend + output.valueCommitment
    + output.derivatorCommitment + output.shardCommitment)

theorem hiddenOutputMade_of_returns {payment : Payment G} {given : Option F}
    {output : HiddenOutput F G} (h : (hiddenOutput params payment given).Returns output) :
    HiddenOutputMade params payment output ∧ ∀ r, given = some r → output.valueBlinding = r := by
  unfold hiddenOutput at h
  obtain ⟨derivator, -, h⟩ := h.bind
  obtain ⟨shard, hshard, h⟩ := h.outcome_bind
  -- a given blinding and a drawn one are used in the same way
  cases given
  all_goals
    obtain ⟨valueBlinding, hblinding, h⟩ := h.bind
    obtain ⟨derivatorBlinding, -, h⟩ := h.bind
    obtain ⟨shardBlinding, -, h⟩ := h.bind
    obtain rfl := Proving.returns_pure_iff.mp h
    refine ⟨⟨⟨⟨derivator, shard, _, rfl, rfl, hshard, rfl, ?_⟩, rfl, rfl⟩, rfl, rfl, rfl⟩, ?_⟩
    · simp only [AccountCoin.issue, Pedersen.commitAt, PedersenBases.base]
      congr 1
      module
  case none =>
    intro r hr
    cases hr
  case some given =>
    rintro r ⟨⟩
    exact (Proving.returns_pure_iff.mp hblinding).symm

/-- The blindings of the values of all outputs add up to the one that was asked for. -/
theorem hiddenOutputsMade_of_returns {payments : List (Payment G)} {blinding : F}
    {outputs : List (HiddenOutput F G)} (h : (hiddenOutputs params blinding payments).Returns outputs) :
    List.Forall₂ (HiddenOutputMade params) payments outputs ∧
      (payments ≠ [] → (outputs.map (·.valueBlinding)).sum = blinding) := by
  induction payments generalizing blinding outputs with
  | nil =>
    unfold hiddenOutputs at h
    obtain rfl := Proving.returns_pure_iff.mp h
    exact ⟨List.Forall₂.nil, fun hnil => absurd rfl hnil⟩
  | cons payment payments ih =>
    cases payments with
    | nil =>
      unfold hiddenOutputs at h
      obtain ⟨output, houtput, h⟩ := h.bind
      obtain rfl := Proving.returns_pure_iff.mp h
      obtain ⟨hmade, hgiven⟩ := hiddenOutputMade_of_returns houtput
      refine ⟨List.Forall₂.cons hmade List.Forall₂.nil, fun _ => ?_⟩
      rw [List.map_singleton, List.sum_singleton, hgiven _ rfl]
    | cons second payments =>
      unfold hiddenOutputs at h
      obtain ⟨output, houtput, h⟩ := h.bind
      obtain ⟨rest, hrest, h⟩ := h.bind
      obtain rfl := Proving.returns_pure_iff.mp h
      obtain ⟨hmade, -⟩ := hiddenOutputMade_of_returns houtput
      obtain ⟨hothers, hsum⟩ := ih hrest
      refine ⟨List.Forall₂.cons hmade hothers, fun _ => ?_⟩
      rw [List.map_cons, List.sum_cons, hsum (List.cons_ne_nil _ _), add_sub_cancel]

/-- A coin whose opening was sealed to a public view key, and that was then stripped of it. -/
def SealedTo (publicView : G) (coin : AccountCoin F G) (result : SealedCoin F G) : Prop :=
  ∃ randomness t, coin.randomness = some randomness ∧
    result = SealedCoin.strip ⟨coin, some ((HybridCiphertext.encrypt
      (SealedCoin.opening randomness coin.value) publicView).run t).1⟩

/-- What is known of a private payment. -/
structure HiddenRun (spend : AccountSpend F G) (source : CommitmentSource G) (params : ShardParams)
    (shared : SharedInput F G) (inputs : List (HiddenInput F G)) (outputs : List (HiddenOutput F G))
    (rangeProof : RangeProof F G) (payment : AccountPayment F G) : Prop where
  payment_eq : payment = {
    ringProofs := inputs.map (·.ringProof)
    hiddenSerialProofs := inputs.map (·.serialProof)
    rangeProof := some rangeProof
    inputs := inputs.map (·.coin.redact)
    outputs := payment.outputs
    outputValues := outputs.map (·.valueCommitment)
    outputDerivators := outputs.map (·.derivatorCommitment)
    outputShards := outputs.map (·.shardCommitment)
    inputKey := some shared.keyCommitment
    inputValues := inputs.map (·.valueCommitment)
    inputDerivators := inputs.map (·.derivatorCommitment)
    inputShard := some shared.shardCommitment
    ledgerIndices := spend.ledgerIndices }
  inputsProved : List.Forall₂ (fun (input : AccountCoin F G × List UInt64 × Nat) result =>
      ∃ derivator, spend.HiddenInputProved source shared input.1 input.2.1 result derivator)
    (spend.inputs.zip ((AccountPayment.ringIndices spend.inputs.length spend.ledgerIndices).zip
      spend.ringPositions)) inputs
  outputsMade : List.Forall₂ (HiddenOutputMade params) spend.payments outputs
  blinding : spend.payments ≠ [] →
    (outputs.map (·.valueBlinding)).sum = (inputs.map (·.valueBlinding)).sum
  range : rangeProof.Proved ⟨spend.payments.map (·.amount), outputs.map (·.valueBlinding)⟩ 1
    RangeProof.defaultBase
  sealedCoins : List.Forall₂ (fun (output : HiddenOutput F G × Payment G) coin =>
      SealedTo output.2.address.publicView output.1.coin coin)
    (outputs.zip spend.payments) payment.outputs

omit [ScalarField.Lawful F] [PointGroup.Lawful F G] in
/-- There is a sealed coin for each payment. -/
theorem HiddenRun.forall_outputs {shared : SharedInput F G} {inputs : List (HiddenInput F G)}
    {outputs : List (HiddenOutput F G)} {rangeProof : RangeProof F G} {payment : AccountPayment F G}
    (h : spend.HiddenRun source params shared inputs outputs rangeProof payment) :
    List.Forall₂ (fun payment coin => ∃ output, HiddenOutputMade params payment output ∧
      SealedTo payment.address.publicView output.coin coin) spend.payments payment.outputs :=
  Forall₂.through_zip h.outputsMade h.sealedCoins fun _ output _ hmade hsealed =>
    ⟨output, hmade, hsealed⟩

omit [ScalarField.Lawful F] [PointGroup.Lawful F G] in
/-- There is a proved input for each coin that is spent. -/
theorem HiddenRun.length_inputs {shared : SharedInput F G} {inputs : List (HiddenInput F G)}
    {outputs : List (HiddenOutput F G)} {rangeProof : RangeProof F G} {payment : AccountPayment F G}
    (h : spend.HiddenRun source params shared inputs outputs rangeProof payment)
    (hchecked : spend.Checked params) (hprivate : spend.isPrivate = true) :
    inputs.length = spend.inputs.length := by
  have hlength := congrArg List.length (hchecked.map_fst_zip_rings hprivate)
  rw [List.length_map] at hlength
  rw [← h.inputsProved.length_eq, hlength]

theorem hiddenRun_of_returns [FullBases F G] {payment : AccountPayment F G}
    (h : (spend.proveHidden params source).Returns payment) :
    ∃ shared inputs outputs rangeProof,
      spend.HiddenRun source params shared inputs outputs rangeProof payment := by
  unfold proveHidden at h
  obtain ⟨shared, hshared, h⟩ := h.bind
  obtain ⟨inputs, hinputs, h⟩ := h.bind
  obtain ⟨outputs, houtputs, h⟩ := h.bind
  obtain ⟨witness, hcreate, h⟩ := h.outcome_bind
  obtain ⟨rangeProof, hrange, h⟩ := h.bind
  obtain ⟨sealedCoins, hsealed, h⟩ := h.bind
  obtain rfl := Proving.returns_pure_iff.mp h
  obtain ⟨hmade, hblinding⟩ := hiddenOutputsMade_of_returns houtputs
  obtain ⟨-, hproved⟩ := RangeProof.proved_of_returns hcreate hrange
  refine ⟨shared, inputs, outputs, rangeProof, rfl, ?_, hmade, hblinding, hproved, ?_⟩
  · exact hinputs.mapM.imp fun _ _ =>
      hiddenInput_of_returns (shared_of_returns hshared).1
  · refine hsealed.mapM.imp fun _ _ hcoin => ?_
    obtain ⟨coin', hcoin', hstrip⟩ := hcoin.bind
    obtain ⟨randomness, t, hrandomness, rfl⟩ := SealedCoin.returns_sealTo hcoin'
    exact ⟨randomness, t, hrandomness, (Proving.returns_pure_iff.mp hstrip).symm⟩

/-- **What is known of a payment that was made**: it is a transparent or a private one, as the spend
says. -/
theorem run_of_returns [FullBases F G] {payment : AccountPayment F G}
    (h : (spend.prove params source).Returns payment) :
    spend.Checked params ∧
      if spend.isPrivate then ∃ shared inputs outputs rangeProof,
        spend.HiddenRun source params shared inputs outputs rangeProof payment
      else ∃ proved, spend.OpenRun params source proved payment := by
  unfold prove at h
  obtain ⟨_, hcheck, h⟩ := h.outcome_bind
  refine ⟨checked_of_check hcheck, ?_⟩
  split at h
  · next hprivate =>
    rw [if_pos hprivate]
    exact hiddenRun_of_returns h
  · next hopen =>
    rw [if_neg hopen]
    exact openRun_of_returns h

end AccountSpend

end ShieldedPayments
