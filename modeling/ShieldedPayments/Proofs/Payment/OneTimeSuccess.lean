import ShieldedPayments.Proofs.Payment.OneTimeRuns

/-!
# Honest payments of one-time coins are made

A spend that passes its check is refused on no tape (`OneTimeSpend.succeeds_prove`), provided that the
search for one-time keys succeeds for every shared secret, which only the bound on its tries can prevent,
and that the inputs have the fields from which their key images are computed. With a single shard the
search succeeds at once (`OneTimeCoin.reachable_of_single_shard`).
-/

namespace ShieldedPayments

open PointGroup

variable {F G : Type} [ScalarField F] [PointGroup F G]

namespace OneTimeCoin

/-- One-time keys are found for a request, whatever secret is shared with the recipient. -/
def Reachable (params : ShardParams) (request : CoinRequest G) : Prop :=
  (∃ publicOta, request.payment.address.publicOta = some publicOta) ∧
    ∃ target, request.target params = .ok target ∧ ∀ secret : G, ∃ found,
      OneTimeKey.search params target secret request.payment.address.publicSpend = .ok found

variable {params : ShardParams} {request : CoinRequest G}

/-- With a single shard the first key that is tried is found. -/
theorem reachable_of_single_shard (hshards : params.numShards = 1)
    (htries : 2 ≤ params.maxTries.toNat) {payment : Payment G}
    (hota : ∃ publicOta, payment.address.publicOta = some publicOta) :
    Reachable params ⟨payment, none⟩ := by
  have hshard := ShardParams.shardOf_single hshards
  have haccepts : ∀ lastByte,
      OneTimeKey.Target.accepts ⟨0, none, .transfer⟩ params lastByte = .ok true := by
    intro lastByte
    unfold OneTimeKey.Target.accepts
    rw [hshard]
    rfl
  refine ⟨hota, ⟨0, none, .transfer⟩, ?_, fun secret => ?_⟩
  · unfold CoinRequest.target OneTimeKey.Target.ofAddress
    rw [hshard]
    rfl
  · exact ⟨_, OneTimeKey.search_eq_first htries (fun h => by cases h) rfl (haccepts _)⟩

theorem succeeds_prepare (h : Reachable params request) :
    (prepare params request : Proving (OneTimeCoin F G × G)).Succeeds := by
  obtain ⟨⟨publicOta, hota⟩, target, htarget, hsearch⟩ := h
  unfold prepare
  refine Proving.Succeeds.outcome_bind (require_eq_ok_iff.mpr hota) ?_
  refine (Proving.succeeds_lift _).bind fun sharedRandom _ => ?_
  refine (Proving.succeeds_lift _).bind fun concealRandom _ => ?_
  refine Proving.Succeeds.outcome_bind htarget ?_
  obtain ⟨found, hfound⟩ := hsearch (sharedRandom • publicOta)
  refine Proving.Succeeds.outcome_bind hfound ?_
  exact (Proving.succeeds_lift _).bind fun _ _ => Proving.succeeds_pure _

omit [ScalarField F] in
theorem succeeds_commit {coin : OneTimeCoin F G} {mask amount : F} (hmask : coin.mask = some mask)
    (hamount : coin.amount = some amount) :
    (liftM coin.commit : Proving (OneTimeCoin F G)).Succeeds := by
  unfold commit expectedCommitment
  rw [hmask, hamount]
  exact Proving.succeeds_pure _

theorem succeeds_pay (h : Reachable params request) :
    (pay params request : Proving (OneTimeCoin F G)).Succeeds := by
  unfold pay
  refine (succeeds_prepare h).bind fun ⟨coin, _⟩ hprepared => ?_
  obtain ⟨_, _, -, -, rfl⟩ := prepared_of_returns hprepared
  exact succeeds_commit rfl rfl

theorem succeeds_payAsset (h : Reachable params request) (token : TokenId) :
    (payAsset params request token : Proving (OneTimeCoin F G × G)).Succeeds := by
  unfold payAsset
  refine (succeeds_prepare h).bind fun ⟨coin, secret⟩ hprepared => ?_
  obtain ⟨_, _, -, -, rfl⟩ := prepared_of_returns hprepared
  exact (succeeds_commit rfl rfl).bind fun _ _ => Proving.succeeds_pure _

end OneTimeCoin

namespace OneTimeSpend

variable {spend : OneTimeSpend F G} {params : ShardParams}

theorem succeeds_output {payment : Payment G}
    (h : OneTimeCoin.Reachable params
      ⟨payment, spend.senderShard.map fun shard => (shard, .transfer)⟩) :
    (spend.output params payment).Succeeds := by
  unfold OneTimeSpend.output
  simp only
  split
  · exact (OneTimeCoin.succeeds_payAsset h _).bind fun _ _ => Proving.succeeds_pure _
  · exact (OneTimeCoin.succeeds_pay h).bind fun _ _ => Proving.succeeds_pure _

variable [ScalarField.Lawful F] [PointGroup.Lawful F G]

theorem succeeds_proveRange [FullBases F G] (hchecked : spend.Checked)
    {outputs : List (OneTimeCoin F G × F)}
    (hmade : List.Forall₂ spend.OutputMade spend.payments outputs) :
    (spend.proveRange outputs).Succeeds := by
  have hlength := hmade.length_eq
  obtain ⟨masks, hmasks⟩ : ∃ masks, maskList (outputs.map (·.1)) = .ok masks := by
    refine Outcome.exists_mapM (List.forall_mem_map.mpr (forall_mem_of_forall₂ hmade ?_))
    rintro payment output ⟨publicOta, draws, -, hcoin, -⟩
    rw [hcoin]
    exact ⟨draws.mask, rfl⟩
  have hcount : masks.length = outputs.length := by
    rw [← (Outcome.mapM_eq_ok_iff.mp hmasks).length_eq, List.length_map]
  have hvalues : spend.payments.map (·.amount) ≠ [] :=
    fun hnil => hchecked.payments (List.map_eq_nil_iff.mp hnil)
  have hbound : (spend.payments.map (·.amount)).length ≤ maxOutputs := by
    rw [List.length_map]
    exact hchecked.paymentCount
  unfold proveRange
  refine Proving.Succeeds.outcome_bind hmasks ?_
  simp only
  split
  · next hasset =>
    obtain ⟨⟨coin, first⟩, hhead⟩ : ∃ output, outputs.head? = some output := by
      cases outputs with
      | nil => exact absurd (List.eq_nil_of_length_eq_zero hlength) hchecked.payments
      | cons output _ => exact ⟨output, rfl⟩
    have htag := forall_mem_of_forall₂ hmade (fun _ _ => OutputMade.assetTag_eq) _
      (List.mem_of_head? hhead)
    rw [tags, if_pos hasset] at htag
    rw [hhead]
    refine Proving.Succeeds.outcome_bind (require_some _ _) ?_
    refine Proving.Succeeds.require_bind htag ?_
    refine Proving.Succeeds.outcome_bind (RangeProof.create_eq hvalues hbound ?_) ?_
    · simp only [List.length_zipWith, List.length_zip, List.length_map, hcount, hlength, min_self]
    · refine RangeProof.succeeds_prove 2 _ hvalues hbound ?_
      simp only [List.length_zipWith, List.length_zip, List.length_map, hcount, hlength, min_self]
  · refine Proving.Succeeds.outcome_bind (RangeProof.create_eq hvalues hbound ?_) ?_
    · rw [List.length_map, hcount, hlength]
    · exact RangeProof.succeeds_prove 2 _ hvalues hbound (by rw [List.length_map, hcount, hlength])

omit [ScalarField.Lawful F] in
theorem exists_concealAll {outputs : List (OneTimeCoin F G × F)}
    (hmade : List.Forall₂ spend.OutputMade spend.payments outputs) :
    ∃ concealed, concealAll spend.payments (outputs.map (·.1)) = .ok concealed := by
  refine Outcome.exists_mapM fun ⟨coin, recipient⟩ hpair => ?_
  obtain ⟨output, houtput, rfl⟩ := List.mem_map.mp (List.of_mem_zip hpair).1
  obtain ⟨payment, publicOta, draws, -, hmade, -⟩ := forall_mem_of_forall₂ hmade
    (P := fun output => ∃ payment, spend.OutputMade payment output) (fun payment _ h => ⟨payment, h⟩)
    output houtput
  rw [hmade]
  exact OneTimeCoin.exists_conceal _ _ _ _ _ _

omit [ScalarField.Lawful F] [PointGroup.Lawful F G] in
theorem exists_redactInputs (h : ∀ coin ∈ spend.inputs,
    coin.publicKey.isSome = true ∧ coin.txRandom.isSome = true) :
    ∃ inputs, spend.redactInputs = .ok inputs := by
  refine Outcome.exists_mapM fun coin hcoin => ?_
  obtain ⟨hkey, htx⟩ := h coin hcoin
  obtain ⟨publicKey, hkey⟩ := Option.isSome_iff_exists.mp hkey
  obtain ⟨tx, htx⟩ := Option.isSome_iff_exists.mp htx
  obtain ⟨image, himage⟩ := OneTimeCoin.exists_keyImageFor hkey htx spend.key
  exact ⟨_, Outcome.bind_eq_ok_iff.mpr ⟨image, himage, rfl⟩⟩

/-- **A spend that passes its check and finds its one-time keys is refused on no tape.** -/
theorem succeeds_prove [FullBases F G] (hcheck : spend.check = .ok ())
    (hreachable : ∀ payment ∈ spend.payments, OneTimeCoin.Reachable params
      ⟨payment, spend.senderShard.map fun shard => (shard, .transfer)⟩)
    (hinputs : ∀ coin ∈ spend.inputs,
      coin.publicKey.isSome = true ∧ coin.txRandom.isSome = true) :
    (spend.prove params).Succeeds := by
  unfold prove
  refine Proving.Succeeds.outcome_bind hcheck ?_
  refine Proving.Succeeds.bind (Proving.Succeeds.mapM fun payment hpayment => ?_)
    fun outputs houtputs => ?_
  · exact succeeds_output (hreachable payment hpayment)
  · have hmade := houtputs.mapM.imp fun _ _ => outputMade_of_returns
    refine (succeeds_proveRange (checked_of_check hcheck) hmade).bind fun rangeProof _ => ?_
    obtain ⟨concealed, hconcealed⟩ := exists_concealAll hmade
    obtain ⟨inputs, hredacted⟩ := exists_redactInputs hinputs
    refine Proving.Succeeds.outcome_bind hconcealed ?_
    exact Proving.Succeeds.outcome_bind hredacted (Proving.succeeds_pure _)

end OneTimeSpend

end ShieldedPayments
