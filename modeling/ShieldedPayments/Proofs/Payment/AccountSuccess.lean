import ShieldedPayments.Proofs.Payment.AccountRuns

/-!
# Honest payments of account coins are made

A spend that passes its check, and whose inputs are on the ledger where it says they are
(`AccountSpend.OnLedger`), is refused on no tape (`AccountSpend.succeeds_prove`). In particular the ring
of each input has a member that opens to zero: what is left of the input's commitment when its four parts
are taken away is a multiple of the blinding base.
-/

namespace ShieldedPayments

open PointGroup

variable {F G : Type} [ScalarField F] [PointGroup F G]

theorem ShardParams.numShards_ne_zero {params : ShardParams} {lastByte shard : UInt8}
    (h : params.shardOf lastByte = .ok shard) : params.numShards ≠ 0 := by
  intro hzero
  rw [shardOf, if_pos hzero] at h
  cases h

/-- Every ring of a spend has its full size if there are as many ledger indices as that takes. -/
theorem AccountPayment.length_of_mem_ringIndices {n : Nat} {indices ring : List UInt64}
    (hlength : indices.length = n * ringSize) (hring : ring ∈ ringIndices n indices) :
    ring.length = ringSize := by
  unfold ringIndices at hring
  rw [List.mem_map] at hring
  obtain ⟨i, hi, rfl⟩ := hring
  have hle := Nat.mul_le_mul_right ringSize (List.mem_range.mp hi)
  rw [List.length_take, List.length_drop, hlength]
  rw [Nat.succ_mul] at hle
  omega

omit [ScalarField F] in
/-- A ring can be formed if all its indices are on the ledger. -/
theorem AccountPayment.exists_ring {source : CommitmentSource G} {token : TokenId} {shard : UInt8}
    {indices : List UInt64} (sum : G)
    (h : ∀ index ∈ indices, ∃ stored, source token shard index = .ok stored) :
    ∃ members, ring source token shard sum indices = .ok members ∧
      members.length = indices.length ∧
      ∀ (position : Nat) (index : UInt64) (stored : G), indices[position]? = some index →
        source token shard index = .ok stored → members[position]? = some (stored - sum) := by
  obtain ⟨members, hmembers⟩ : ∃ members, ring source token shard sum indices = .ok members := by
    refine Outcome.exists_mapM fun index hindex => ?_
    obtain ⟨stored, hstored⟩ := h index hindex
    exact ⟨stored - sum, Outcome.bind_eq_ok_iff.mpr ⟨stored, hstored, rfl⟩⟩
  have hmatch := Outcome.mapM_eq_ok_iff.mp hmembers
  refine ⟨members, hmembers, hmatch.length_eq.symm, fun position index stored hindex hstored => ?_⟩
  obtain ⟨member, hmember, hread⟩ := exists_of_forall₂ hmatch.flip hindex
  obtain ⟨stored', hstored', hsub⟩ := Outcome.bind_eq_ok_iff.mp hread
  obtain rfl := Except.ok.inj (hstored.symm.trans hstored')
  rw [hmember, ← Outcome.pure_eq_ok_iff.mp hsub]

theorem AccountCoin.succeeds_commit {coin : AccountCoin F G} {params : ShardParams} {publicKey : G}
    {derivator randomness : F} (hshards : params.numShards ≠ 0) (hkey : coin.publicKey = some publicKey)
    (hderivator : coin.derivator = some derivator) (hrandomness : coin.randomness = some randomness) :
    (liftM (coin.commit params) : Proving (AccountCoin F G)).Succeeds := by
  obtain ⟨committed, hcommit⟩ := exists_commit hshards hkey hderivator hrandomness
  exact Proving.succeeds_outcome hcommit

namespace AccountSpend

variable {spend : AccountSpend F G} {params : ShardParams} {source : CommitmentSource G}

/-- The ledger holds the inputs of a spend: each at its index or, under privacy, at its position in a
ring of indices all of which are on the ledger. -/
def OnLedger (spend : AccountSpend F G) (source : CommitmentSource G) : Prop :=
  if spend.isPrivate then
    ∀ input ∈ spend.inputs.zip ((AccountPayment.ringIndices spend.inputs.length
        spend.ledgerIndices).zip spend.ringPositions),
      (∀ index ∈ input.2.1, ∃ stored, source spend.token spend.shard index = .ok stored) ∧
      ∃ index, input.2.1[input.2.2]? = some index ∧ spend.Stored source input.1 index
  else
    ∀ input ∈ spend.inputs.zip spend.ledgerIndices, spend.Stored source input.1 input.2

variable [ScalarField.Lawful F] [PointGroup.Lawful F G]

/-! ## Transparent payments -/

omit [ScalarField.Lawful F] in
theorem succeeds_proveOpenInput {coin : AccountCoin F G} {index : UInt64} {publicKey : G}
    {derivator randomness : F} {shard : UInt8} (hstored : spend.Stored source coin index)
    (hopens : coin.Opens params publicKey derivator shard randomness) :
    (spend.proveOpenInput source coin index).Succeeds := by
  obtain ⟨stored, hsource, hcommitment⟩ := hstored
  unfold proveOpenInput
  refine Proving.Succeeds.outcome_bind hsource ?_
  refine Proving.Succeeds.ensure_bind (beq_iff_eq.mpr hcommitment) ?_
  refine Proving.Succeeds.require_bind hopens.derivator_eq ?_
  exact (Proving.succeeds_lift _).bind fun _ _ => Proving.succeeds_pure _

omit [ScalarField.Lawful F] [PointGroup.Lawful F G] in
theorem succeeds_openOutput (hshards : params.numShards ≠ 0) (payment : Payment G) :
    (openOutput params payment : Proving (SealedCoin F G)).Succeeds := by
  unfold openOutput
  refine (Proving.succeeds_lift _).bind fun derivator _ => ?_
  refine (Proving.succeeds_lift _).bind fun randomness _ => ?_
  exact (AccountCoin.succeeds_commit hshards rfl rfl rfl).bind fun _ _ => Proving.succeeds_pure _

omit [ScalarField.Lawful F] in
theorem succeeds_proveOpen (hchecked : spend.Checked params) (hshards : params.numShards ≠ 0)
    (hledger : ∀ input ∈ spend.inputs.zip spend.ledgerIndices,
      spend.Stored source input.1 input.2) :
    (spend.proveOpen params source).Succeeds := by
  unfold proveOpen
  refine Proving.Succeeds.bind (Proving.Succeeds.mapM fun input hinput => ?_) fun inputs _ => ?_
  · obtain ⟨derivator, shard, randomness, hopens⟩ :=
      hchecked.opens input.1 (List.of_mem_zip hinput).1
    exact succeeds_proveOpenInput (hledger input hinput) hopens
  · refine Proving.Succeeds.bind (Proving.Succeeds.mapM fun payment _ => ?_) fun outputs _ => ?_
    · exact succeeds_openOutput hshards payment
    · exact Proving.succeeds_pure _

/-! ## Private payments -/

/-- What is left of a commitment when its parts are taken away opens to zero. -/
theorem commitment_sub_parts {coin : AccountCoin F G} {shared : SharedInput F G}
    {derivator randomness valueBlinding derivatorBlinding : F} {shard : UInt8} {commitment : G}
    (hopens : coin.Opens params (spend.key.publicSpend : G) derivator shard randomness)
    (hcommitment : coin.commitment = some commitment)
    (hkey : shared.keyCommitment = Pedersen.commitAt .spendKey spend.key.secret shared.keyBlinding)
    (hshard : shared.shardCommitment =
      Pedersen.commitAt .shard (ofNat shard.toNat) shared.shardBlinding) :
    commitment - (shared.keyCommitment
        + Pedersen.commitAt .value (ofNat coin.value.toNat) valueBlinding
        + Pedersen.commitAt .derivator derivator derivatorBlinding + shared.shardCommitment) =
      Pedersen.commitAt .spendKey (0 : F) (randomness
        - (shared.keyBlinding + valueBlinding + derivatorBlinding + shared.shardBlinding)) := by
  obtain rfl := Option.some.inj (hcommitment.symm.trans hopens.commitment_eq)
  rw [hkey, hshard, PrivateKey.publicSpend, baseMultiple_eq]
  simp only [Pedersen.commitAt, PedersenBases.base]
  module

theorem succeeds_proveHiddenInput {shared : SharedInput F G} {coin : AccountCoin F G}
    {indices : List UInt64} {position : Nat} {derivator randomness : F} {shard : UInt8}
    {index : UInt64}
    (hopens : coin.Opens params (spend.key.publicSpend : G) derivator shard randomness)
    (hkey : shared.keyCommitment = Pedersen.commitAt .spendKey spend.key.secret shared.keyBlinding)
    (hshard : shared.shardCommitment =
      Pedersen.commitAt .shard (ofNat shard.toNat) shared.shardBlinding)
    (hsize : indices.length = ringSize)
    (hring : ∀ index ∈ indices, ∃ stored, source spend.token spend.shard index = .ok stored)
    (hindex : indices[position]? = some index) (hstored : spend.Stored source coin index) :
    (spend.proveHiddenInput source shared coin indices position).Succeeds := by
  obtain ⟨stored, hsource, hcommitment⟩ := hstored
  unfold proveHiddenInput
  refine Proving.Succeeds.require_bind hopens.derivator_eq ?_
  refine Proving.Succeeds.require_bind hopens.randomness_eq ?_
  refine (Proving.succeeds_lift _).bind fun valueBlinding _ => ?_
  refine (Proving.succeeds_lift _).bind fun derivatorBlinding _ => ?_
  obtain ⟨members, hmembers, hlength, hmember⟩ := AccountPayment.exists_ring _ hring
  refine Proving.Succeeds.outcome_bind hmembers ?_
  refine Proving.Succeeds.bind ?_ fun ringProof _ => ?_
  · refine RingProof.succeeds_prove (hlength.trans hsize) ?_
    rw [hmember position index stored hindex hsource,
      commitment_sub_parts hopens hcommitment hkey hshard]
  · exact (Proving.succeeds_lift _).bind fun _ _ => Proving.succeeds_pure _

omit [ScalarField.Lawful F] [PointGroup.Lawful F G] in
theorem succeeds_shareInput (hshards : params.numShards ≠ 0) : (spend.shareInput params).Succeeds := by
  unfold shareInput
  obtain ⟨shard, hshard⟩ :=
    ShardParams.exists_shardOf hshards (lastByte (spend.key.publicSpend : G))
  refine Proving.Succeeds.outcome_bind hshard ?_
  refine (Proving.succeeds_lift _).bind fun _ _ => ?_
  exact (Proving.succeeds_lift _).bind fun _ _ => Proving.succeeds_pure _

omit [ScalarField.Lawful F] [PointGroup.Lawful F G] in
theorem succeeds_hiddenOutput (hshards : params.numShards ≠ 0) (payment : Payment G)
    (given : Option F) : (hiddenOutput params payment given).Succeeds := by
  unfold hiddenOutput
  obtain ⟨shard, hshard⟩ := ShardParams.exists_shardOf hshards payment.address.lastByte
  refine (Proving.succeeds_lift _).bind fun derivator _ => ?_
  refine Proving.Succeeds.outcome_bind hshard ?_
  -- a given blinding and a drawn one are used in the same way
  cases given
  case' none => refine (Proving.succeeds_lift _).bind fun valueBlinding _ => ?_
  case' some r => refine (Proving.succeeds_pure r).bind fun valueBlinding _ => ?_
  all_goals
    refine (Proving.succeeds_lift _).bind fun derivatorBlinding _ => ?_
    exact (Proving.succeeds_lift _).bind fun shardBlinding _ => Proving.succeeds_pure _

omit [ScalarField.Lawful F] [PointGroup.Lawful F G] in
theorem succeeds_hiddenOutputs (hshards : params.numShards ≠ 0) (payments : List (Payment G))
    (blinding : F) : (hiddenOutputs params blinding payments).Succeeds := by
  induction payments generalizing blinding with
  | nil =>
    unfold hiddenOutputs
    exact Proving.succeeds_pure []
  | cons payment payments ih =>
    cases payments with
    | nil =>
      unfold hiddenOutputs
      exact (succeeds_hiddenOutput hshards payment _).bind fun _ _ => Proving.succeeds_pure _
    | cons second payments =>
      unfold hiddenOutputs
      refine (succeeds_hiddenOutput hshards payment none).bind fun output _ => ?_
      exact (ih _).bind fun _ _ => Proving.succeeds_pure _

theorem succeeds_proveHidden [FullBases F G] (hchecked : spend.Checked params)
    (hprivate : spend.isPrivate = true) (hshards : params.numShards ≠ 0)
    (hledger : spend.OnLedger source) : (spend.proveHidden params source).Succeeds := by
  have hindices := hchecked.indices
  rw [if_pos hprivate] at hindices
  unfold OnLedger at hledger
  rw [if_pos hprivate] at hledger
  unfold proveHidden
  refine (succeeds_shareInput hshards).bind fun shared hshared => ?_
  obtain ⟨hkey, shard, hshard, hshardCommitment⟩ := shared_of_returns hshared
  refine Proving.Succeeds.bind (Proving.Succeeds.mapM fun input hinput => ?_) fun inputs hinputs => ?_
  · obtain ⟨hmem, hzip⟩ := List.of_mem_zip hinput
    obtain ⟨derivator, shard', randomness, hopens⟩ := hchecked.opens input.1 hmem
    obtain rfl := Except.ok.inj (hshard.symm.trans hopens.shard_eq)
    obtain ⟨hring, index, hindex, hstored⟩ := hledger input hinput
    exact succeeds_proveHiddenInput hopens hkey hshardCommitment
      (AccountPayment.length_of_mem_ringIndices hindices.2.1 (List.of_mem_zip hzip).1) hring hindex
      hstored
  refine (succeeds_hiddenOutputs hshards _ _).bind fun outputs houtputs => ?_
  obtain ⟨hmade, -⟩ := hiddenOutputsMade_of_returns houtputs
  have hvalues : spend.payments.map (·.amount) ≠ [] :=
    fun hnil => hchecked.payments (List.map_eq_nil_iff.mp hnil)
  have hcount : (spend.payments.map (·.amount)).length ≤ maxOutputs := by
    rw [List.length_map]
    exact hchecked.paymentCount
  have hblindings : (outputs.map (·.valueBlinding)).length
      = (spend.payments.map (·.amount)).length := by
    rw [List.length_map, List.length_map, hmade.length_eq]
  refine Proving.Succeeds.outcome_bind (RangeProof.create_eq hvalues hcount hblindings) ?_
  refine (RangeProof.succeeds_prove 1 _ hvalues hcount hblindings).bind fun rangeProof _ => ?_
  refine Proving.Succeeds.bind (Proving.Succeeds.mapM fun output houtput => ?_) fun coins _ => ?_
  · have hissued := forall_mem_of_forall₂ (P := fun output : HiddenOutput F G =>
      ∃ randomness, output.coin.randomness = some randomness) hmade
      fun _ _ ⟨⟨⟨_, _, randomness, hopens⟩, _, _⟩, _, _, _⟩ => ⟨randomness, hopens.randomness_eq⟩
    obtain ⟨randomness, hrandomness⟩ := hissued output.1 (List.of_mem_zip houtput).1
    unfold SealedCoin.sealTo
    refine Proving.Succeeds.bind (Proving.Succeeds.require_bind hrandomness ?_)
      fun _ _ => Proving.succeeds_pure _
    exact (Proving.succeeds_lift _).bind fun _ _ => Proving.succeeds_pure _
  · exact Proving.succeeds_pure _

/-! ## Payments -/

/-- **A spend that passes its check and is on the ledger is refused on no tape.** -/
theorem succeeds_prove [FullBases F G] (hcheck : spend.check params = .ok ())
    (hledger : spend.OnLedger source) : (spend.prove params source).Succeeds := by
  have hchecked := checked_of_check hcheck
  obtain ⟨coin, hcoin⟩ := List.exists_mem_of_ne_nil _ hchecked.inputs
  obtain ⟨_, _, _, hopens⟩ := hchecked.opens coin hcoin
  have hshards := ShardParams.numShards_ne_zero hopens.shard_eq
  unfold prove
  refine Proving.Succeeds.outcome_bind hcheck ?_
  split
  · next hprivate => exact succeeds_proveHidden hchecked hprivate hshards hledger
  · next hopen =>
    unfold OnLedger at hledger
    rw [if_neg hopen] at hledger
    exact succeeds_proveOpen hchecked hshards hledger

end AccountSpend

end ShieldedPayments
