import ShieldedPayments.Proofs.Payment.Redacted

/-!
# Who can spend a coin

Provers of payments of account coins and of conversions refuse coins of other owners, so that each serial
number that they show is that of the coin (`AccountSpend.spentBy_of_returns`,
`ConversionSpend.spentBy_of_returns`).

The prover of payments of one-time coins computes the one-time secret of each input, but does not compare
its multiple of the base with the one-time key. What is made with one key is made with every key, apart
from the key images of the inputs (`OneTimeSpend.prove_of_other_key`); and a key image is that of the
coin exactly if the key owns the coin (`OneTimeCoin.keyImage_eq_own_iff`).
`AnyPayment.foreign_inputs_refused_except_oneTime` puts this together.
-/

namespace ShieldedPayments

open PointGroup

variable {F G : Type} [ScalarField F] [PointGroup F G]

/-! ## Account coins -/

/-- A coin of the owner of a private key that is shown with its own serial number. -/
structure AccountCoin.SpentBy (coin : AccountCoin F G) (sk : PrivateKey F) (shown : AccountCoin F G) :
    Prop where
  owner : coin.publicKey = some sk.publicSpend
  serial : ∃ derivator, coin.derivator = some derivator ∧
    shown.serialNumber = some (Pedersen.serialNumber sk.secret derivator)

theorem AccountCoin.owner_of_spentBy {coins shown : List (AccountCoin F G)} {sk : PrivateKey F}
    (h : List.Forall₂ (fun coin shown => coin.SpentBy sk shown) coins shown) :
    ∀ coin ∈ coins, coin.publicKey = some sk.publicSpend :=
  forall_mem_of_forall₂ h.flip fun _ _ hcoin => hcoin.owner

variable [ScalarField.Lawful F] [PointGroup.Lawful F G]

/-- Both kinds of payments of account coins show the serial numbers of coins that the key owns. -/
theorem AccountSpend.spentBy_of_returns [FullBases F G] {spend : AccountSpend F G}
    {params : ShardParams} {source : CommitmentSource G} {payment : AccountPayment F G}
    (h : (spend.prove params source).Returns payment) :
    List.Forall₂ (fun coin shown => coin.SpentBy spend.key shown) spend.inputs payment.inputs := by
  obtain ⟨hchecked, hrun⟩ := run_of_returns h
  have howner : ∀ coin ∈ spend.inputs, coin.publicKey = some spend.key.publicSpend := by
    intro coin hcoin
    obtain ⟨_, _, _, hopens⟩ := hchecked.opens coin hcoin
    exact hopens.publicKey_eq
  have hserial : List.Forall₂ (fun (coin shown : AccountCoin F G) => ∃ derivator,
      coin.derivator = some derivator ∧
        shown.serialNumber = some (Pedersen.serialNumber spend.key.secret derivator))
      spend.inputs payment.inputs := by
    split at hrun
    · next hprivate =>
      obtain ⟨shared, inputs, outputs, rangeProof, hrun⟩ := hrun
      rw [congrArg AccountPayment.inputs hrun.payment_eq, List.forall₂_map_right_iff]
      refine forall₂_of_map_fst (hchecked.map_fst_zip_rings hprivate)
        (hrun.inputsProved.imp fun input result ⟨derivator, hresult⟩ => ?_)
      exact ⟨derivator, hresult.derivator_eq, by rw [hresult.coin_eq]; rfl⟩
    · next hopen =>
      obtain ⟨proved, hrun⟩ := hrun
      have hindices := hchecked.indices
      rw [if_neg hopen] at hindices
      rw [congrArg AccountPayment.inputs hrun.payment_eq, List.forall₂_map_right_iff]
      refine forall₂_of_map_fst (List.map_fst_zip hindices.ge)
        (hrun.inputsProved.imp fun input result ⟨derivator, hresult⟩ => ?_)
      exact ⟨derivator, hresult.derivator_eq, by rw [hresult.coin_eq]⟩
  exact ((List.forall₂_and_left _ _).mpr ⟨howner, hserial⟩).imp fun _ _ ⟨howner, hserial⟩ =>
    ⟨howner, hserial⟩

theorem ConversionSpend.spentBy_of_returns {spend : ConversionSpend F G} {params : ShardParams}
    {conversion : Conversion F G} (h : (spend.prove params).Returns conversion) :
    List.Forall₂ (fun coin shown => coin.SpentBy spend.key shown) spend.inputs
      conversion.inputs := by
  obtain ⟨proved, hbalanced⟩ := balanced_of_returns h
  rw [hbalanced.inputs, List.forall₂_map_right_iff]
  refine hbalanced.inputsProved.imp fun coin result ⟨derivator, hresult⟩ => ?_
  obtain ⟨_, _, hopens⟩ := hresult.opens
  exact ⟨hopens.publicKey_eq, derivator, hopens.derivator_eq, by rw [hresult.coin_eq]⟩

/-! ## One-time coins -/

namespace OneTimeCoin

variable {coin : OneTimeCoin F G} {sk : PrivateKey F}

omit [ScalarField.Lawful F] [PointGroup.Lawful F G] in
theorem keyImageFor_eq_ok_iff {image : G} : coin.keyImageFor sk = .ok image ↔
    ∃ publicKey secret, coin.publicKey = some publicKey ∧ coin.oneTimeSecret sk = .ok secret ∧
      secret • (hashToPoint (PointGroup.encode publicKey) : G) = image := by
  unfold keyImageFor
  simp only [Outcome.bind_eq_ok_iff, require_eq_ok_iff, Outcome.pure_eq_ok_iff, exists_and_left]

/-- A key image that was computed from some secret is that of the coin if the secret is that of the
one-time key, and otherwise for a key that is hashed to the neutral element only. -/
theorem keyImage_eq_own_iff (hbase : (pedersen : PedersenBases G).spendKey ≠ 0) {publicKey hashed : G}
    {secret own : F} (hown : baseMultiple own = publicKey) :
    secret • hashed = own • hashed ↔ baseMultiple secret = publicKey ∨ hashed = 0 := by
  rw [← hown, baseMultiple_eq, baseMultiple_eq, smul_left_inj hbase]
  by_cases hzero : hashed = 0
  · simp [hzero]
  · rw [smul_left_inj hzero]
    exact ⟨Or.inl, fun h => h.resolve_right hzero⟩

end OneTimeCoin

namespace OneTimeSpend

variable {spend : OneTimeSpend F G} {params : ShardParams} {payment : OneTimePayment F G}

omit [ScalarField.Lawful F] [PointGroup.Lawful F G] in
/-- **Payments of one-time coins are made with any key.** What was made with one private key is made with
every other one from the same draws, apart from the inputs. -/
theorem prove_of_other_key {t : Tape} (h : ((spend.prove params).runOn t).1 = .ok payment)
    (sk : PrivateKey F) : ∃ inputs,
      ((OneTimeSpend.prove { spend with key := sk } params).runOn t).1 =
        .ok { payment with inputs } := by
  -- Only the last step computes with the key, and it succeeds for coins that have the fields it needs.
  have hpresent : ∀ coin ∈ spend.inputs,
      coin.publicKey.isSome = true ∧ coin.txRandom.isSome = true := by
    have hredacted := redacted_of_returns (Proving.returns_iff.mpr ⟨t, h⟩)
    refine forall_mem_of_forall₂ hredacted.flip fun shown coin ⟨image, himage, _⟩ => ?_
    obtain ⟨publicKey, secret, hkey, hsecret, -⟩ := OneTimeCoin.keyImageFor_eq_ok_iff.mp himage
    obtain ⟨tx, htx, -⟩ := (OneTimeCoin.oneTimeSecret_eq_ok_iff coin spend.key secret).mp hsecret
    rw [hkey, htx]
    exact ⟨rfl, rfl⟩
  unfold prove at h ⊢
  obtain ⟨_, hcheck, h⟩ := Proving.runOn_outcome_bind_eq_ok_iff.mp h
  obtain ⟨outputs, houtputs, h⟩ := Proving.runOn_bind_eq_ok_iff.mp h
  obtain ⟨rangeProof, hrange, h⟩ := Proving.runOn_bind_eq_ok_iff.mp h
  obtain ⟨concealed, hconcealed, h⟩ := Proving.runOn_outcome_bind_eq_ok_iff.mp h
  obtain ⟨_, -, h⟩ := Proving.runOn_outcome_bind_eq_ok_iff.mp h
  obtain rfl := Except.ok.inj h
  obtain ⟨inputs, hinputs⟩ : ∃ inputs, redactInputs { spend with key := sk } = .ok inputs :=
    exists_redactInputs hpresent
  refine ⟨inputs, Proving.runOn_outcome_bind_eq_ok_iff.mpr ⟨_, hcheck, ?_⟩⟩
  refine Proving.runOn_bind_eq_ok_iff.mpr ⟨outputs, houtputs, ?_⟩
  refine Proving.runOn_bind_eq_ok_iff.mpr ⟨rangeProof, hrange, ?_⟩
  refine Proving.runOn_outcome_bind_eq_ok_iff.mpr ⟨concealed, hconcealed, ?_⟩
  exact Proving.runOn_outcome_bind_eq_ok_iff.mpr ⟨inputs, hinputs, rfl⟩

end OneTimeSpend

/-! ## Which provers check the owner -/

/-- **Provers refuse coins of other owners, except for one-time coins.** Payments of account coins, of
either kind, and conversions are only made of coins whose public key is that of the private key, and show
each with its own serial number; a spend with another coin is refused on every tape.

A payment of one-time coins shows each input with the key image that the private key leads to. This is the
coin's own key image, for the secret of its one-time key, exactly if the key owns the coin (or the one-time
key is hashed to the neutral element). And nothing is refused for its owner: from the same draws the same
payment, but for its inputs, is made with any private key. -/
theorem AnyPayment.foreign_inputs_refused_except_oneTime [FullBases F G]
    (hbase : (pedersen : PedersenBases G).spendKey ≠ 0) :
    (∀ (spend : AccountSpend F G) (params : ShardParams) (source : CommitmentSource G),
      (∀ payment, (spend.prove params source).Returns payment →
        List.Forall₂ (fun coin shown => coin.SpentBy spend.key shown) spend.inputs payment.inputs) ∧
      ∀ coin ∈ spend.inputs, coin.publicKey ≠ some spend.key.publicSpend →
        ∀ t, ∃ fault, ((spend.prove params source).runOn t).1 = .error fault) ∧
    (∀ (spend : ConversionSpend F G) (params : ShardParams),
      (∀ conversion, (spend.prove params).Returns conversion →
        List.Forall₂ (fun coin shown => coin.SpentBy spend.key shown) spend.inputs
          conversion.inputs) ∧
      ∀ coin ∈ spend.inputs, coin.publicKey ≠ some spend.key.publicSpend →
        ∀ t, ∃ fault, ((spend.prove params).runOn t).1 = .error fault) ∧
    ∀ (spend : OneTimeSpend F G) (params : ShardParams) (t : Tape) (payment : OneTimePayment F G),
      ((spend.prove params).runOn t).1 = .ok payment →
      List.Forall₂ (fun coin shown => ∃ publicKey secret, coin.publicKey = some publicKey ∧
        coin.oneTimeSecret spend.key = .ok secret ∧
        shown.keyImage = some (secret • hashToPoint (PointGroup.encode publicKey)) ∧
        ∀ own : F, baseMultiple own = publicKey →
          (shown.keyImage = some (own • hashToPoint (PointGroup.encode publicKey)) ↔
            baseMultiple secret = publicKey ∨
              (hashToPoint (PointGroup.encode publicKey) : G) = 0)) spend.inputs payment.inputs ∧
      ∀ sk : PrivateKey F, ∃ inputs,
        ((OneTimeSpend.prove { spend with key := sk } params).runOn t).1 =
          .ok { payment with inputs } := by
  refine ⟨fun spend params source => ⟨fun payment => AccountSpend.spentBy_of_returns, ?_⟩,
    fun spend params => ⟨fun conversion => ConversionSpend.spentBy_of_returns, ?_⟩, ?_⟩
  · intro coin hcoin hother
    refine Proving.refuses_of_not_returns fun payment hmade => ?_
    exact hother (AccountCoin.owner_of_spentBy (AccountSpend.spentBy_of_returns hmade) coin hcoin)
  · intro coin hcoin hother
    refine Proving.refuses_of_not_returns fun conversion hmade => ?_
    exact hother (AccountCoin.owner_of_spentBy (ConversionSpend.spentBy_of_returns hmade) coin hcoin)
  · intro spend params t payment hmade
    refine ⟨?_, OneTimeSpend.prove_of_other_key hmade⟩
    have hredacted := OneTimeSpend.redacted_of_returns (Proving.returns_iff.mpr ⟨t, hmade⟩)
    refine hredacted.imp fun coin shown ⟨image, himage, hshown⟩ => ?_
    obtain ⟨publicKey, secret, hkey, hsecret, rfl⟩ := OneTimeCoin.keyImageFor_eq_ok_iff.mp himage
    have hshown : shown.keyImage = some (secret • hashToPoint (PointGroup.encode publicKey)) :=
      congrArg OneTimeCoin.keyImage hshown
    refine ⟨publicKey, secret, hkey, hsecret, hshown, fun own hown => ?_⟩
    rw [hshown, Option.some_inj]
    exact OneTimeCoin.keyImage_eq_own_iff hbase hown

open AccountSpend OneTimeSpend ConversionSpend in
/-- A private payment and a conversion of owned coins, the same conversion with a key that is not that of
the coins, and a payment of one-time coins, made with two keys. -/
theorem AnyPayment.foreign_inputs_refused_six :
    (∃ payment, (ringSpend.prove {} ringLedger).Returns payment ∧
      List.Forall₂ (fun coin shown => coin.SpentBy ringSpend.key shown) ringSpend.inputs
        payment.inputs) ∧
    (∀ t, ∃ fault, ((AccountSpend.prove { ringSpend with key := ⟨ofNat 6⟩ } {} ringLedger).runOn t).1 =
      .error fault) ∧
    (∃ conversion, (twoCoins.prove { numShards := 1 }).Returns conversion ∧
      List.Forall₂ (fun coin shown => coin.SpentBy twoCoins.key shown) twoCoins.inputs
        conversion.inputs) ∧
    (∀ t, ∃ fault, ((ConversionSpend.prove { twoCoins with key := ⟨ofNat 6⟩ }
      { numShards := 1 }).runOn t).1 = .error fault) ∧
    ∃ t payment inputs, ((assetSpend.prove { numShards := 1 }).runOn t).1 = .ok payment ∧
      ((OneTimeSpend.prove { assetSpend with key := ⟨ofNat 6⟩ } { numShards := 1 }).runOn t).1 =
        .ok { payment with inputs } := by
  have hring := (foreign_inputs_refused_except_oneTime (F := NonzeroScalar) (G := NonzeroExponent)
    (by decide)).1
  have htwo := (foreign_inputs_refused_except_oneTime (F := Curve.Scalar) (G := Exponent)
    (by decide)).2.1
  refine ⟨?_, ?_, ?_, ?_, ?_⟩
  · obtain ⟨payment, hmade⟩ := (AccountSpend.succeeds_prove check_ringSpend
      onLedger_ringSpend).exists_returns
    exact ⟨payment, hmade, (hring ringSpend {} ringLedger).1 payment hmade⟩
  · exact (hring { ringSpend with key := ⟨ofNat 6⟩ } {} ringLedger).2 ringCoin List.mem_cons_self
      (by decide)
  · obtain ⟨conversion, hmade⟩ := (ConversionSpend.succeeds_prove check_twoCoins opens_twoCoins
      reachable_twoCoins).exists_returns
    exact ⟨conversion, hmade, (htwo twoCoins { numShards := 1 }).1 conversion hmade⟩
  · exact (htwo { twoCoins with key := ⟨ofNat 6⟩ } { numShards := 1 }).2 coinOfTen List.mem_cons_self
      (by decide)
  · obtain ⟨payment, hmade⟩ := (OneTimeSpend.succeeds_prove check_assetSpend reachable_assetSpend
      (List.forall_mem_singleton.mpr ⟨rfl, rfl⟩)).exists_returns
    obtain ⟨t, hrun⟩ := Proving.returns_iff.mp hmade
    obtain ⟨inputs, hother⟩ := ((foreign_inputs_refused_except_oneTime (by decide)).2.2 assetSpend
      { numShards := 1 } t payment hrun).2 ⟨ofNat 6⟩
    exact ⟨t, payment, inputs, hrun, hother⟩

open OneTimeSpend in
/-- A payment is made of a one-time coin that the private key does not own: the offset of its one-time
secret is not zero, while the one-time key is the spend key itself. -/
theorem AnyPayment.foreign_oneTime_input_not_refused :
    ¬ ∀ (spend : OneTimeSpend NonzeroScalar NonzeroExponent) (params : ShardParams)
      (payment : OneTimePayment NonzeroScalar NonzeroExponent), (spend.prove params).Returns payment →
        ∀ coin ∈ spend.inputs, ∃ publicKey secret, coin.publicKey = some publicKey ∧
          coin.oneTimeSecret spend.key = .ok secret ∧ baseMultiple secret = publicKey := by
  intro hclaim
  obtain ⟨payment, hmade⟩ := (OneTimeSpend.succeeds_prove check_assetSpend reachable_assetSpend
    (List.forall_mem_singleton.mpr ⟨rfl, rfl⟩)).exists_returns
  obtain ⟨publicKey, secret, hkey, hsecret, howned⟩ :=
    hclaim assetSpend { numShards := 1 } payment hmade openCoin List.mem_cons_self
  obtain ⟨tx, -, rfl⟩ := (OneTimeCoin.oneTimeSecret_eq_ok_iff openCoin assetSpend.key secret).mp hsecret
  obtain rfl := Option.some.inj hkey
  have hbase : (pedersen : PedersenBases NonzeroExponent).spendKey ≠ 0 := by decide
  rw [baseMultiple_eq, baseMultiple_eq, smul_left_inj hbase] at howned
  exact ScalarField.Nonvanishing.ofUniform_ne_zero _ (add_eq_right.mp howned)

end ShieldedPayments
