import ShieldedPayments.Proofs.Payment.Lossless
import ShieldedPayments.Proofs.Payment.Nullifiers
import ShieldedPayments.Proofs.Payment.OneTimeSuccess

/-!
# Honest payments of one-time coins

A payment that was made is read back from its encoding, is accepted, and delivers its coins
(`OneTimePayment.made_accepted`). For a confidential asset each output is committed on its own tag, and
the range proof on the first one; the shift of the masks makes both the same point
(`OneTimeSpend.commitment_shiftMask`).
-/

namespace ShieldedPayments

open PointGroup

variable {F G : Type} [ScalarField F] [PointGroup F G]

/-! ## Key images that differ -/

/-- Inputs with different key images pass the check for those that occur twice. -/
theorem OneTimePayment.checkKeyImages_of_nodup [PointGroup.Canonical F G]
    {coins : List (OneTimeCoin F G)} (hsome : ∀ coin ∈ coins, ∃ image, coin.keyImage = some image)
    (hdistinct : (coins.map (·.keyImage)).Nodup) : checkKeyImages [] coins = .ok () := by
  obtain ⟨images, himages⟩ := exists_map_some hsome
  rw [himages] at hdistinct
  have hencoded : (images.map PointGroup.encode).Nodup :=
    hdistinct.of_map.map PointGroup.encode_injective
  exact (checkKeyImages_eq_ok_iff [] coins).mpr
    ⟨images, himages, hencoded, fun _ _ => List.not_mem_nil⟩

namespace OneTimeSpend

variable [ScalarField.Lawful F] [PointGroup.Lawful F G] {spend : OneTimeSpend F G}
  {params : ShardParams}

/-! ## The change of base -/

/-- A commitment on one tag is a commitment on another one with the mask shifted by the difference of the
blinders times the value. -/
theorem commitment_shiftMask (raw : G) (first blinder mask value : F) :
    value • AssetTag.blind raw blinder + mask • (pedersen : PedersenBases G).blinding =
      value • AssetTag.blind raw first
        + shiftMask first blinder mask value • (pedersen : PedersenBases G).blinding := by
  unfold AssetTag.blind shiftMask
  module

section

omit [ScalarField.Lawful F] [PointGroup.Lawful F G]

/-- An output is committed on its own tag, or on the value base if it has none. -/
theorem OutputMade.commitment_eq {payment : Payment G} {output : OneTimeCoin F G × F} {mask : F}
    (h : spend.OutputMade payment output) (hmask : output.1.mask = some mask) :
    output.1.commitment = some ((ofNat payment.amount.toNat : F)
        • (spend.tags output.2).1.getD (pedersen : PedersenBases G).value
      + mask • (pedersen : PedersenBases G).blinding) := by
  obtain ⟨_, _, -, hcoin, -⟩ := h
  rw [hcoin] at hmask ⊢
  obtain rfl := Option.some.inj hmask
  rfl

/-- What is known of each output and its mask is known of the lists of all of them. -/
theorem map_outputs_eq_zipWith {γ : Type} {payments : List (Payment G)}
    {outputs : List (OneTimeCoin F G × F)} {masks : List F}
    {f : OneTimeCoin F G × F → γ} {g : F × F → UInt64 → γ}
    (hmade : List.Forall₂ spend.OutputMade payments outputs)
    (hmasks : List.Forall₂ (fun (output : OneTimeCoin F G × F) mask => output.1.mask = some mask)
      outputs masks)
    (hfg : ∀ payment output mask, spend.OutputMade payment output → output.1.mask = some mask →
      f output = g (mask, output.2) payment.amount) :
    outputs.map f = List.zipWith g (masks.zip (outputs.map (·.2))) (payments.map (·.amount)) := by
  induction hmade generalizing masks with
  | nil =>
    cases hmasks
    rfl
  | cons houtput _ ih =>
    cases hmasks with
    | cons hmask hmasks =>
      simp only [List.map_cons, List.zip_cons_cons, List.zipWith_cons_cons]
      rw [ih hmasks, hfg _ _ _ houtput hmask]

end

/-- How the outputs of a confidential asset are committed: each with its own mask on its own tag, which is
blinded by its own blinder, and in the range proof with its shifted mask on the tag of the first output.
Both are the same points. -/
structure AssetCommitments (spend : OneTimeSpend F G) (outputs : List (OneTimeCoin F G))
    (proof : RangeProof F G) (masks blinders : List F) (first : F) : Prop where
  head : blinders.head? = some first
  tags : outputs.map (·.assetTag) = blinders.map fun b => some (AssetTag.blind spend.token.rawTag b)
  own : outputs.map (·.commitment) = List.zipWith (fun (maskBlinder : F × F) v =>
      some ((ofNat v.toNat : F) • AssetTag.blind spend.token.rawTag maskBlinder.2
        + maskBlinder.1 • (pedersen : PedersenBases G).blinding))
    (masks.zip blinders) (spend.payments.map (·.amount))
  shifted : proof.commitments = List.zipWith (fun (maskBlinder : F × F) v =>
      (ofNat v.toNat : F) • AssetTag.blind spend.token.rawTag first
        + shiftMask first maskBlinder.2 maskBlinder.1 (ofNat v.toNat)
          • (pedersen : PedersenBases G).blinding)
    (masks.zip blinders) (spend.payments.map (·.amount))
  same : outputs.map (·.commitment) = proof.commitments.map some

variable {outputs : List (OneTimeCoin F G × F)} {masks blindings : List F} {base : G}
  {proof : RangeProof F G}

/-- The range proof for a confidential asset commits to the points of the outputs. -/
theorem RangeMade.assetCommitments (h : spend.RangeMade outputs masks base blindings proof)
    (hmade : List.Forall₂ spend.OutputMade spend.payments outputs)
    (hasset : spend.confidentialAsset = true) :
    ∃ first, base = AssetTag.blind spend.token.rawTag first ∧
      spend.AssetCommitments (outputs.map (·.1)) proof masks (outputs.map (·.2)) first := by
  have hfound := h.blindingsFound
  rw [if_pos hasset] at hfound
  obtain ⟨coin, first, hhead, hbase, hblindings⟩ := hfound
  have htags : ∀ b, (spend.tags b).1 = some (AssetTag.blind spend.token.rawTag b) := by
    intro b
    rw [tags, if_pos hasset]
  have hfirst : base = AssetTag.blind spend.token.rawTag first := by
    have htag := forall_mem_of_forall₂ hmade (fun _ _ => OutputMade.assetTag_eq) _
      (List.mem_of_head? hhead)
    rw [htags] at htag
    exact Option.some.inj (hbase.symm.trans htag)
  have hcommitment : ∀ payment output mask, spend.OutputMade payment output →
      output.1.mask = some mask → output.1.commitment = some ((ofNat payment.amount.toNat : F)
        • AssetTag.blind spend.token.rawTag output.2
        + mask • (pedersen : PedersenBases G).blinding) := by
    intro payment output mask houtput hmask
    have hcommitment := houtput.commitment_eq hmask
    rwa [htags] at hcommitment
  have hshifted : proof.commitments = List.zipWith (fun (maskBlinder : F × F) v =>
      (ofNat v.toNat : F) • AssetTag.blind spend.token.rawTag first
        + shiftMask first maskBlinder.2 maskBlinder.1 (ofNat v.toNat)
          • (pedersen : PedersenBases G).blinding)
      (masks.zip (outputs.map (·.2))) (spend.payments.map (·.amount)) := by
    rw [h.proved.commitments, RangeProof.commitmentsTo, hblindings, zipWith_zipWith_self, hfirst]
    simp only [combination_cons, combination_nil, add_zero]
  refine ⟨first, hfirst, ?_, ?_, ?_, hshifted, ?_⟩
  · rw [List.head?_map, hhead]
    rfl
  · rw [List.map_map, List.map_map]
    refine List.map_congr_left fun output houtput => ?_
    have htag := forall_mem_of_forall₂ hmade (fun _ _ => OutputMade.assetTag_eq) output houtput
    exact htag.trans (htags output.2)
  · rw [List.map_map]
    exact map_outputs_eq_zipWith hmade h.masksFound hcommitment
  · rw [List.map_map, hshifted, List.map_zipWith]
    refine map_outputs_eq_zipWith hmade h.masksFound fun payment output mask houtput hmask => ?_
    rw [← commitment_shiftMask]
    exact hcommitment payment output mask houtput hmask

/-- The range proof commits to the points of the outputs, on the base that they have in common. -/
theorem RangeMade.commitments (h : spend.RangeMade outputs masks base blindings proof)
    (hmade : List.Forall₂ spend.OutputMade spend.payments outputs) :
    outputs.map (·.1.commitment) = proof.commitments.map some := by
  cases hasset : spend.confidentialAsset with
  | true =>
    obtain ⟨_, -, hcommitments⟩ := h.assetCommitments hmade hasset
    have hsame := hcommitments.same
    rwa [List.map_map] at hsame
  | false =>
    have hfound := h.blindingsFound
    rw [hasset, if_neg Bool.false_ne_true] at hfound
    obtain ⟨hbase, hblindings⟩ := hfound
    have htags : ∀ b, (spend.tags b).1 = (none : Option G) := by
      intro b
      rw [tags, hasset, if_neg Bool.false_ne_true]
    have hmasks : (masks.zip (outputs.map (·.2))).map (·.1) = masks := by
      apply List.map_fst_zip
      rw [List.length_map, h.masksFound.length_eq]
    rw [h.proved.commitments, RangeProof.commitmentsTo, hbase, hblindings, ← hmasks,
      List.zipWith_map_right, List.zipWith_comm, List.map_zipWith]
    refine map_outputs_eq_zipWith hmade h.masksFound fun payment output mask houtput hmask => ?_
    rw [houtput.commitment_eq hmask, htags, combination_cons, combination_cons, combination_nil,
      add_zero]
    rfl

/-! ## Acceptance -/

variable {rangeProof : RangeProof F G} {payment : OneTimePayment F G}

omit [ScalarField.Lawful F] [PointGroup.Lawful F G] in
/-- What concealing leaves as it is, is in the outputs of a payment what it was when they were made. -/
theorem Run.map_outputs {γ : Type} {f : OneTimeCoin F G → γ}
    (h : spend.Run outputs masks base blindings rangeProof payment)
    (hf : ∀ publicView coin result, OneTimeCoin.ConcealedTo publicView coin result → f coin = f result) :
    payment.outputs.map f = outputs.map fun output => f output.1 := by
  have hlength := h.outputsMade.length_eq
  have hconcealed := map_eq_of_forall₂ (f := fun pair => f pair.1) (g := f) h.outputs
    fun pair result => hf pair.2.address.publicView pair.1 result
  have hzip : ((outputs.map (·.1)).zip spend.payments).map (·.1) = outputs.map (·.1) := by
    apply List.map_fst_zip
    rw [List.length_map, hlength]
  rw [← hconcealed, map_comp_fst hzip, List.map_map]
  rfl

omit [ScalarField.Lawful F] [PointGroup.Lawful F G] in
theorem Run.map_assetTag (h : spend.Run outputs masks base blindings rangeProof payment) :
    payment.outputs.map (·.assetTag) = outputs.map (·.1.assetTag) := by
  refine h.map_outputs fun _ _ _ hconcealed => ?_
  obtain ⟨_, -, rfl⟩ := hconcealed
  rfl

omit [ScalarField.Lawful F] [PointGroup.Lawful F G] in
theorem Run.map_commitment (h : spend.Run outputs masks base blindings rangeProof payment) :
    payment.outputs.map (·.commitment) = outputs.map (·.1.commitment) := by
  refine h.map_outputs fun _ _ _ hconcealed => ?_
  obtain ⟨_, -, rfl⟩ := hconcealed
  rfl

/-- The outputs of a payment for a confidential asset are committed as the range proof says. -/
theorem Run.assetCommitments (h : spend.Run outputs masks base blindings rangeProof payment)
    (hasset : spend.confidentialAsset = true) :
    ∃ first, base = AssetTag.blind spend.token.rawTag first ∧
      spend.AssetCommitments payment.outputs rangeProof masks (outputs.map (·.2)) first := by
  obtain ⟨first, hbase, hcommitments⟩ := h.range.assetCommitments h.outputsMade hasset
  refine ⟨first, hbase, hcommitments.head, ?_, ?_, hcommitments.shifted, ?_⟩
  · rw [h.map_assetTag, ← hcommitments.tags, List.map_map]
    rfl
  · rw [h.map_commitment, ← hcommitments.own, List.map_map]
    rfl
  · rw [h.map_commitment, ← hcommitments.same, List.map_map]
    rfl

/-- The verifier finds the base that the range proof was made on. -/
theorem Run.outputBase (h : spend.Run outputs masks base blindings rangeProof payment) :
    payment.outputBase spend.confidentialAsset = .ok base := by
  unfold OneTimePayment.outputBase
  split
  · next hasset =>
    obtain ⟨first, rfl, hcommitments⟩ := h.assetCommitments hasset
    rw [ensure_bind_eq_ok_iff, require_eq_ok_iff]
    constructor
    · rw [List.all_eq_true]
      intro coin hcoin
      have hmem := List.mem_map_of_mem (f := (·.assetTag)) hcoin
      rw [hcommitments.tags] at hmem
      obtain ⟨_, -, htag⟩ := List.mem_map.mp hmem
      rw [← htag]
      rfl
    · have hhead := congrArg List.head? hcommitments.tags
      rw [List.head?_map, List.head?_map, hcommitments.head, Option.map_some,
        Option.map_eq_some_iff] at hhead
      obtain ⟨coin, hcoin, htag⟩ := hhead
      rw [hcoin]
      exact htag
  · next hplain =>
    have hfound := h.range.blindingsFound
    rw [if_neg hplain] at hfound
    rw [ensure_bind_eq_ok_iff, hfound.1]
    refine ⟨List.all_eq_true.mpr fun coin hcoin => ?_, rfl⟩
    have hmem := List.mem_map_of_mem (f := (·.assetTag)) hcoin
    rw [h.map_assetTag] at hmem
    obtain ⟨output, houtput, htag⟩ := List.mem_map.mp hmem
    have hnone := forall_mem_of_forall₂ h.outputsMade (fun _ _ => OutputMade.assetTag_eq) output houtput
    rw [tags, if_neg hplain] at hnone
    rw [← htag, hnone]
    rfl

/-- A payment that was made is accepted. -/
theorem Run.verify [PointGroup.Canonical F G]
    (h : spend.Run outputs masks base blindings rangeProof payment)
    (hdistinct : (payment.inputs.map (·.keyImage)).Nodup)
    (hchallenges : rangeProof.NonzeroChallenges base) {context : VerifyContext}
    (hasset : context.confidentialAsset = spend.confidentialAsset) :
    payment.verify context = .ok () := by
  have hinputs := h.inputs.length_eq
  have houtputs := h.forall_outputs.length_eq
  have hsame : payment.outputs.map (·.commitment) = rangeProof.commitments.map some := by
    rw [h.map_commitment, h.range.commitments h.outputsMade]
  have hbase := h.outputBase
  rw [← hasset] at hbase
  have hread : payment.outputs.mapM (fun coin => require coin.commitment
      (.proofVerificationFailed "proof v2: output without commitment")) =
        .ok rangeProof.commitments := by
    rw [Outcome.mapM_eq_ok_iff]
    exact (forall₂_of_map_eq hsame).imp fun _ _ => require_eq_ok_iff.mpr
  unfold OneTimePayment.verify
  rw [ensure_bind_eq_ok_iff, ensure_bind_eq_ok_iff, Outcome.check_bind_eq_ok_iff, h.rangeProof,
    require_some]
  refine ⟨?_, ?_, ?_, Outcome.bind_eq_ok_iff.mpr ⟨rangeProof, rfl, ?_⟩⟩
  · rw [Bool.not_eq_true', List.isEmpty_eq_false_iff]
    exact fun hnil => h.checked.inputs (List.eq_nil_of_length_eq_zero (hinputs.trans (congrArg _ hnil)))
  · rw [Bool.and_eq_true, Bool.not_eq_true', List.isEmpty_eq_false_iff, decide_eq_true_iff, ← houtputs]
    exact ⟨fun hnil => h.checked.payments
      (List.eq_nil_of_length_eq_zero (houtputs.trans (congrArg _ hnil))), h.checked.paymentCount⟩
  · refine OneTimePayment.checkKeyImages_of_nodup ?_ hdistinct
    exact forall_mem_of_forall₂ h.inputs fun _ _ ⟨image, hcoin⟩ => ⟨image, by rw [hcoin]⟩
  · rw [ensure_bind_eq_ok_iff, h.range.proved.version, hread]
    refine ⟨rfl, Outcome.bind_eq_ok_iff.mpr ⟨_, rfl, ?_⟩⟩
    rw [ensure_bind_eq_ok_iff, hbase]
    exact ⟨beq_iff_eq.mpr rfl, Outcome.bind_eq_ok_iff.mpr
      ⟨base, rfl, h.range.proved.verify hchallenges _⟩⟩

end OneTimeSpend

/-! ## What is read back -/

namespace OneTimePayment

omit [ScalarField F] in
theorem checkKeyImages_forgetTag (seen : List Bytes) (coins : List (OneTimeCoin F G)) :
    checkKeyImages seen (coins.map (·.forgetTag)) = checkKeyImages seen coins := by
  induction coins generalizing seen with
  | nil => rfl
  | cons coin coins ih =>
    rw [List.map_cons, checkKeyImages, checkKeyImages]
    simp only [ih]
    rfl

/-- The raw asset tags, which are not part of the coins, make no difference to a verifier. -/
theorem verify_forgetTags (payment : OneTimePayment F G) (context : VerifyContext) :
    payment.forgetTags.verify context = payment.verify context := by
  have hbase : payment.forgetTags.outputBase context.confidentialAsset =
      payment.outputBase context.confidentialAsset := by
    unfold outputBase forgetTags
    simp only [List.all_map, List.head?_map, Option.bind_map]
    rfl
  unfold verify
  rw [hbase]
  simp only [forgetTags, List.isEmpty_map, List.length_map, checkKeyImages_forgetTag, List.mapM_map]
  rfl

variable [ScalarField.Lawful F] [PointGroup.Lawful F G]

/-- Each output of a payment that was made, and each one that is read back, delivers what was paid. -/
theorem delivers_of_run [ScalarField.Canonical F] {spend : OneTimeSpend F G}
    {outputs : List (OneTimeCoin F G × F)} {masks blindings : List F} {base : G}
    {rangeProof : RangeProof F G} {payment : OneTimePayment F G}
    (h : spend.Run outputs masks base blindings rangeProof payment) :
    List.Forall₂ (fun payment coin => coin.Delivers payment ∧ coin.forgetTag.Delivers payment)
      spend.payments payment.outputs := by
  refine h.forall_outputs.imp fun payment coin ⟨output, hmade, hconcealed⟩ => ?_
  obtain ⟨publicOta, draws, hota, houtput, -⟩ := hmade
  rw [houtput] at hconcealed
  have hforgotten := hconcealed.forgetTag
  rw [OneTimeCoin.forgetTag_made] at hforgotten
  exact ⟨OneTimeCoin.delivers_of_concealedTo hota hconcealed,
    OneTimeCoin.delivers_of_concealedTo hota hforgotten⟩

/-- **Payments of one-time coins are complete.** What is made of a spend, whatever was drawn, is read
back from its encoding. As made and as read, it is accepted in every context that agrees on whether the
asset is confidential, and each of its coins is recognised by the owner of the address that was paid and,
if it is concealed, revealed with the amount. For a confidential asset the commitment of each output on
its own tag is the one of the range proof on the first tag, with the mask shifted by the difference of
the blinders times the value.

This needs inputs with different key images, and a range proof none of whose challenges is zero. -/
theorem made_accepted [ScalarField.Canonical F] [PointGroup.Canonical F G] [FullBases F G]
    {spend : OneTimeSpend F G} {params : ShardParams} {payment : OneTimePayment F G}
    (h : (spend.prove params).Returns payment)
    (hdistinct : (payment.inputs.map (·.keyImage)).Nodup)
    (hchallenges : ∀ proof base, payment.rangeProof = some proof →
      payment.outputBase spend.confidentialAsset = .ok base → proof.NonzeroChallenges base) :
    (∃ received, ofBytes payment.toBytes = .ok received ∧ (received == payment) = true) ∧
      (∀ received, received = payment ∨ ofBytes payment.toBytes = .ok received →
        (∀ context : VerifyContext, context.confidentialAsset = spend.confidentialAsset →
          received.verify context = .ok ()) ∧
        List.Forall₂ (fun payment coin => coin.Delivers payment) spend.payments received.outputs) ∧
      (spend.confidentialAsset = true → ∃ proof masks blinders first,
        payment.rangeProof = some proof ∧
          spend.AssetCommitments payment.outputs proof masks blinders first) := by
  have hread : ofBytes payment.toBytes = .ok payment.forgetTags :=
    ofBytes_toBytes (OneTimeSpend.fits_of_returns h)
  obtain ⟨outputs, masks, base, blindings, rangeProof, hrun⟩ := OneTimeSpend.run_of_returns h
  have hnonzero := hchallenges rangeProof base hrun.rangeProof hrun.outputBase
  have hdelivers := delivers_of_run hrun
  refine ⟨⟨_, hread, AnyPayment.forgetTags_beq (.oneTime payment)⟩, ?_, fun hasset => ?_⟩
  · rintro received (rfl | hreceived)
    · exact ⟨fun context hasset => hrun.verify hdistinct hnonzero hasset,
        hdelivers.imp fun _ _ => And.left⟩
    · obtain rfl := Except.ok.inj (hread.symm.trans hreceived)
      constructor
      · intro context hasset
        rw [verify_forgetTags]
        exact hrun.verify hdistinct hnonzero hasset
      · exact List.forall₂_map_right_iff.mpr (hdelivers.imp fun _ _ => And.right)
  · obtain ⟨first, -, hcommitments⟩ := hrun.assetCommitments hasset
    exact ⟨rangeProof, masks, _, first, hrun.rangeProof, hcommitments⟩

end OneTimePayment

/-! ## A payment of a confidential asset -/

namespace OneTimeSpend

/-- A coin in the open that is worth ten. -/
def openCoin : OneTimeCoin NonzeroScalar NonzeroExponent where
  publicKey := some (baseMultiple (ofNat 5))
  commitment := some (baseMultiple (ofNat 35))
  txRandom := some ⟨baseMultiple (ofNat 6), 1, baseMultiple (ofNat 7)⟩
  mask := some (ofNat 3)
  amount := some (ofNat 10)

/-- A spend of the coin to the owners of two keys, in a confidential asset. -/
def assetSpend : OneTimeSpend NonzeroScalar NonzeroExponent where
  key := ⟨ofNat 5⟩
  inputs := [openCoin]
  payments := [⟨(KeySet.ofPrivateKey (⟨ofNat 2⟩ : PrivateKey NonzeroScalar)).address, 4, [104, 105]⟩,
    ⟨(KeySet.ofPrivateKey (⟨ofNat 3⟩ : PrivateKey NonzeroScalar)).address, 3, []⟩]
  fee := 3
  token := .native
  confidentialAsset := true
  senderShard := none

theorem check_assetSpend : assetSpend.check = .ok () := rfl

theorem reachable_assetSpend : ∀ payment ∈ assetSpend.payments,
    OneTimeCoin.Reachable { numShards := 1 }
      ⟨payment, assetSpend.senderShard.map fun shard => (shard, .transfer)⟩ := by
  have hota : ∀ payment ∈ assetSpend.payments, ∃ publicOta,
      payment.address.publicOta = some publicOta :=
    List.forall_mem_cons.mpr ⟨⟨_, rfl⟩, List.forall_mem_singleton.mpr ⟨_, rfl⟩⟩
  exact fun payment hpayment =>
    OneTimeCoin.reachable_of_single_shard rfl (by decide) (hota payment hpayment)

end OneTimeSpend

open OneTimeSpend in
/-- The payment is accepted as it was made and as it is read, and delivers both coins. -/
theorem OneTimePayment.made_accepted_assetSpend :
    ∃ payment received, (assetSpend.prove { numShards := 1 }).Returns payment ∧
      ofBytes payment.toBytes = .ok received ∧
      payment.verify { fee := 3, shard := 0, confidentialAsset := true } = .ok () ∧
      received.verify { fee := 3, shard := 0, confidentialAsset := true } = .ok () ∧
      List.Forall₂ (fun payment coin => coin.Delivers payment) assetSpend.payments received.outputs ∧
      ∃ proof masks blinders first, payment.rangeProof = some proof ∧
        assetSpend.AssetCommitments payment.outputs proof masks blinders first := by
  obtain ⟨payment, hmade⟩ := (succeeds_prove check_assetSpend reachable_assetSpend
    (List.forall_mem_singleton.mpr ⟨rfl, rfl⟩)).exists_returns
  have hdistinct : (payment.inputs.map (·.keyImage)).Nodup := by
    obtain ⟨_, _, _, _, _, hrun⟩ := run_of_returns hmade
    obtain ⟨coin, hcoin⟩ := List.length_eq_one_iff.mp hrun.inputs.length_eq.symm
    rw [hcoin]
    exact List.nodup_singleton _
  obtain ⟨⟨received, hread, -⟩, haccepted, hcommitments⟩ := OneTimePayment.made_accepted hmade
    hdistinct fun proof base _ _ => RangeProof.nonzeroChallenges proof base
  obtain ⟨hverify, -⟩ := haccepted payment (.inl rfl)
  obtain ⟨hverify', hdelivers⟩ := haccepted received (.inr hread)
  exact ⟨payment, received, hmade, hread, hverify _ rfl, hverify' _ rfl, hdelivers, hcommitments rfl⟩

end ShieldedPayments
