import ShieldedPayments.Proofs.Argument.HonestRange
import ShieldedPayments.Proofs.Coin.Concealing
import ShieldedPayments.Proofs.Payment.AccountRuns
import ShieldedPayments.Payment.Basic

/-!
# What is made of a spend into one-time coins

Making a payment draws randomness at every step. As for account coins, there is one structure for what
is known of each part, whatever was drawn, and one lemma that what is returned satisfies it.

* `OneTimeSpend.OutputMade`: an output before it is concealed.
* `OneTimeSpend.RangeMade`: the range proof over all outputs, whose blindings are shifted masks for a
  confidential asset.
* `OneTimeSpend.Run`, `ConversionSpend.Run`: a whole payment, and a whole conversion.
-/

namespace ShieldedPayments

open PointGroup

variable {F G : Type} [ScalarField F] [PointGroup F G]

/-! ## Payments -/

namespace OneTimeSpend

variable {spend : OneTimeSpend F G} {params : ShardParams}

/-- What the check of a spend makes sure of. -/
structure Checked (spend : OneTimeSpend F G) : Prop where
  inputs : spend.inputs ≠ []
  inputCount : spend.inputs.length ≤ maxInputs
  payments : spend.payments ≠ []
  paymentCount : spend.payments.length ≤ maxOutputs

theorem checked_of_check (h : spend.check = .ok ()) : spend.Checked := by
  unfold check at h
  rw [Outcome.check_bind_eq_ok_iff, checkCounts_eq_ok_iff] at h
  obtain ⟨⟨⟨hinputs, hinputCount⟩, hpayments, hpaymentCount⟩, -⟩ := h
  exact ⟨fun hnil => hinputs (congrArg List.length hnil), hinputCount,
    fun hnil => hpayments (congrArg List.length hnil), hpaymentCount⟩

/-- The asset tag of an output with the given blinder, and the tag before it is blinded. -/
def tags (spend : OneTimeSpend F G) (blinder : F) : Option G × Option G :=
  if spend.confidentialAsset then
    (some (AssetTag.blind spend.token.rawTag blinder), some spend.token.rawTag)
  else (none, none)

/-- What is known of an output and its blinder, before it is concealed. -/
def OutputMade (spend : OneTimeSpend F G) (payment : Payment G) (output : OneTimeCoin F G × F) : Prop :=
  ∃ publicOta draws, payment.address.publicOta = some publicOta ∧
    output.1 =
      OneTimeCoin.made payment publicOta draws (spend.tags output.2).1 (spend.tags output.2).2 ∧
    (spend.confidentialAsset = true →
      output.2 = AssetTag.blinder (draws.sharedRandom • publicOta))

theorem outputMade_of_returns {payment : Payment G} {output : OneTimeCoin F G × F}
    (h : (spend.output params payment).Returns output) : spend.OutputMade payment output := by
  unfold OneTimeSpend.output at h
  unfold OutputMade tags
  simp only at h
  split at h
  · next hasset =>
    obtain ⟨⟨coin, secret⟩, hcoin, h⟩ := h.bind
    obtain rfl := Proving.returns_pure_iff.mp h
    obtain ⟨publicOta, draws, hota, hsecret, hmade⟩ := OneTimeCoin.made_of_payAsset hcoin
    refine ⟨publicOta, draws, hota, ?_, fun _ => by rw [hsecret]⟩
    rw [if_pos hasset]
    exact hmade
  · next hplain =>
    obtain ⟨coin, hcoin, h⟩ := h.bind
    obtain rfl := Proving.returns_pure_iff.mp h
    obtain ⟨publicOta, draws, hota, hmade⟩ := OneTimeCoin.made_of_pay hcoin
    refine ⟨publicOta, draws, hota, ?_, fun hasset => absurd hasset hplain⟩
    rw [if_neg hplain]
    exact hmade

theorem OutputMade.assetTag_eq {payment : Payment G} {output : OneTimeCoin F G × F}
    (h : spend.OutputMade payment output) : output.1.assetTag = (spend.tags output.2).1 := by
  obtain ⟨_, _, -, hcoin, -⟩ := h
  rw [hcoin]
  rfl

/-- What is known of the range proof over outputs: its base and its blindings. For a confidential asset
the masks are shifted to the tag of the first output. -/
structure RangeMade (spend : OneTimeSpend F G) (outputs : List (OneTimeCoin F G × F)) (masks : List F)
    (base : G) (blindings : List F) (proof : RangeProof F G) : Prop where
  masksFound : List.Forall₂ (fun (output : OneTimeCoin F G × F) mask => output.1.mask = some mask)
    outputs masks
  blindingsFound : if spend.confidentialAsset then ∃ coin first, outputs.head? = some (coin, first) ∧
      coin.assetTag = some base ∧ blindings = List.zipWith (fun (maskBlinder : F × F) v =>
        shiftMask first maskBlinder.2 maskBlinder.1 (ofNat v.toNat))
        (masks.zip (outputs.map (·.2))) (spend.payments.map (·.amount))
    else base = RangeProof.defaultBase ∧ blindings = masks
  proved : proof.Proved ⟨spend.payments.map (·.amount), blindings⟩ 2 base

variable [ScalarField.Lawful F] [PointGroup.Lawful F G]

theorem rangeMade_of_returns [FullBases F G] {outputs : List (OneTimeCoin F G × F)}
    {proof : RangeProof F G} (h : (spend.proveRange outputs).Returns proof) :
    ∃ masks base blindings, spend.RangeMade outputs masks base blindings proof := by
  unfold proveRange at h
  obtain ⟨masks, hmasks, h⟩ := h.outcome_bind
  have hmasks : List.Forall₂ (fun (output : OneTimeCoin F G × F) mask => output.1.mask = some mask)
      outputs masks := by
    unfold maskList at hmasks
    rw [Outcome.mapM_eq_ok_iff, List.forall₂_map_left_iff] at hmasks
    exact hmasks.imp fun _ _ => require_eq_ok_iff.mp
  split at h
  · next hasset =>
    obtain ⟨⟨coin, first⟩, hhead, h⟩ := h.outcome_bind
    obtain ⟨base, hbase, h⟩ := h.outcome_bind
    obtain ⟨witness, hcreate, h⟩ := h.outcome_bind
    obtain ⟨rfl, hproved⟩ := RangeProof.proved_of_returns hcreate h
    refine ⟨masks, base, _, hmasks, ?_, hproved⟩
    rw [if_pos hasset]
    exact ⟨coin, first, require_eq_ok_iff.mp hhead, require_eq_ok_iff.mp hbase, rfl⟩
  · next hplain =>
    obtain ⟨witness, hcreate, h⟩ := h.outcome_bind
    obtain ⟨rfl, hproved⟩ := RangeProof.proved_of_returns hcreate h
    refine ⟨masks, _, _, hmasks, ?_, hproved⟩
    rw [if_neg hplain]
    exact ⟨rfl, rfl⟩

/-- What is known of a payment. -/
structure Run (spend : OneTimeSpend F G) (outputs : List (OneTimeCoin F G × F)) (masks : List F)
    (base : G) (blindings : List F) (rangeProof : RangeProof F G) (payment : OneTimePayment F G) :
    Prop where
  checked : spend.Checked
  outputsMade : List.Forall₂ spend.OutputMade spend.payments outputs
  range : spend.RangeMade outputs masks base blindings rangeProof
  rangeProof : payment.rangeProof = some rangeProof
  inputs : List.Forall₂ (fun _ result => ∃ keyImage, result =
    ({ keyImage := some keyImage, txRandom := some TxRandom.zero } : OneTimeCoin F G))
    spend.inputs payment.inputs
  outputs : List.Forall₂ (fun (output : OneTimeCoin F G × Payment G) coin =>
    OneTimeCoin.ConcealedTo output.2.address.publicView output.1 coin)
    ((outputs.map (·.1)).zip spend.payments) payment.outputs

omit [ScalarField.Lawful F] [PointGroup.Lawful F G] in
/-- There is a concealed coin for each payment. -/
theorem Run.forall_outputs {outputs : List (OneTimeCoin F G × F)} {masks : List F} {base : G}
    {blindings : List F} {rangeProof : RangeProof F G} {payment : OneTimePayment F G}
    (h : spend.Run outputs masks base blindings rangeProof payment) :
    List.Forall₂ (fun payment coin => ∃ output, spend.OutputMade payment output ∧
      OneTimeCoin.ConcealedTo payment.address.publicView output.1 coin)
      spend.payments payment.outputs := by
  have hconcealed := h.outputs
  rw [List.zip_map_left, List.forall₂_map_left_iff] at hconcealed
  exact Forall₂.through_zip h.outputsMade hconcealed fun _ output _ hmade hcoin =>
    ⟨output, hmade, hcoin⟩

/-- **What is known of a payment that was made.** -/
theorem run_of_returns [FullBases F G] {payment : OneTimePayment F G}
    (h : (spend.prove params).Returns payment) :
    ∃ outputs masks base blindings rangeProof,
      spend.Run outputs masks base blindings rangeProof payment := by
  unfold prove at h
  obtain ⟨_, hcheck, h⟩ := h.outcome_bind
  obtain ⟨outputs, houtputs, h⟩ := h.bind
  obtain ⟨rangeProof, hrange, h⟩ := h.bind
  obtain ⟨concealed, hconcealed, h⟩ := h.outcome_bind
  obtain ⟨inputs, hinputs, h⟩ := h.outcome_bind
  obtain rfl := Proving.returns_pure_iff.mp h
  obtain ⟨masks, base, blindings, hmade⟩ := rangeMade_of_returns hrange
  refine ⟨outputs, masks, base, blindings, rangeProof, checked_of_check hcheck,
    houtputs.mapM.imp fun _ _ => outputMade_of_returns, hmade, rfl, ?_, ?_⟩
  · unfold redactInputs at hinputs
    refine (Outcome.mapM_eq_ok_iff.mp hinputs).imp fun coin result hresult => ?_
    obtain ⟨keyImage, -, hresult⟩ := Outcome.bind_eq_ok_iff.mp hresult
    exact ⟨keyImage, (Outcome.pure_eq_ok_iff.mp hresult).symm⟩
  · unfold concealAll at hconcealed
    exact (Outcome.mapM_eq_ok_iff.mp hconcealed).imp fun _ _ => OneTimeCoin.concealedTo_of_conceal

end OneTimeSpend

/-! ## Conversions -/

namespace ConversionSpend

variable {spend : ConversionSpend F G} {params : ShardParams}

/-- What is known of a conversion. -/
structure Run (spend : ConversionSpend F G) (conversion : Conversion F G) : Prop where
  inputCount : conversion.inputs.length = spend.inputs.length ∧ spend.inputs.length ≤ maxInputs
  proofCount : conversion.serialProofs.length = spend.inputs.length
  inputs : ∀ coin ∈ conversion.inputs, coin.info = []
  outputCount : conversion.outputs.length = spend.payments.length ∧
    spend.payments.length ≤ maxOutputs
  outputs : List.Forall₂ (fun payment coin => ∃ publicOta draws,
    payment.address.publicOta = some publicOta ∧
      coin = (OneTimeCoin.made payment publicOta draws none none).forgetRandoms)
    spend.payments conversion.outputs

/-- **What is known of a conversion that was made.** -/
theorem run_of_returns {conversion : Conversion F G} (h : (spend.prove params).Returns conversion) :
    spend.Run conversion := by
  unfold prove at h
  obtain ⟨_, hcheck, h⟩ := h.outcome_bind
  obtain ⟨inputs, hinputs, h⟩ := h.bind
  obtain ⟨outputs, houtputs, h⟩ := h.bind
  obtain rfl := Proving.returns_pure_iff.mp h
  unfold check at hcheck
  rw [Outcome.check_bind_eq_ok_iff, checkCounts_eq_ok_iff] at hcheck
  obtain ⟨⟨⟨-, hinputCount⟩, -, houtputCount⟩, -⟩ := hcheck
  have hmade : List.Forall₂ (fun (payment : Payment G) (coin : OneTimeCoin F G) =>
      ∃ publicOta draws, payment.address.publicOta = some publicOta ∧
        coin = (OneTimeCoin.made payment publicOta draws none none).forgetRandoms)
      spend.payments outputs := by
    refine houtputs.mapM.imp fun payment coin hcoin => ?_
    obtain ⟨fresh, hfresh, hcoin⟩ := hcoin.bind
    obtain ⟨publicOta, draws, hota, rfl⟩ := OneTimeCoin.made_of_pay hfresh
    exact ⟨publicOta, draws, hota, (Proving.returns_pure_iff.mp hcoin).symm⟩
  have hlength := hinputs.mapM.length_eq
  refine ⟨⟨?_, hinputCount⟩, ?_, ?_, ⟨hmade.length_eq.symm, houtputCount⟩, hmade⟩
  · rw [List.length_map, ← hlength]
  · rw [List.length_map, ← hlength]
  · rw [List.forall_mem_map]
    refine forall_mem_of_forall₂ hinputs.mapM fun coin result hresult => ?_
    unfold proveInput at hresult
    obtain ⟨_, -, hresult⟩ := hresult.outcome_bind
    obtain ⟨_, -, hresult⟩ := hresult.outcome_bind
    obtain ⟨derivator, -, hresult⟩ := hresult.outcome_bind
    obtain ⟨proof, -, hresult⟩ := hresult.bind
    rw [← Proving.returns_pure_iff.mp hresult]

end ConversionSpend

end ShieldedPayments
