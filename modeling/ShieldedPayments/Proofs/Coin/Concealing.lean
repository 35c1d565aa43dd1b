import ShieldedPayments.Proofs.Coin.OneTime
import ShieldedPayments.Proofs.Coin.OneTimeCodec
import ShieldedPayments.Proofs.Coin.OneTimeKey
import ShieldedPayments.Proofs.Coin.Recognition
import ShieldedPayments.Proofs.Coin.Revealing

/-!
# Fresh and concealed coins

A fresh one-time coin is determined by its payment, its tag and what its sender draws for it
(`OneTimeCoin.made`): whoever pays makes just these coins (`OneTimeCoin.runOn_pay_eq_ok_iff`,
`OneTimeCoin.runOn_payAsset_eq_ok_iff`). Concealing one adds offsets to mask and amount and leaves the
rest (`OneTimeCoin.ConcealedTo`).

The secrets that the sender computes from the public keys of the address are those that the recipient
computes from the randomness of the coin. So the recipient finds the offset of the one-time key
(`recognise_belongs`) and those of mask and amount (`removeOffsets_of_concealedTo`) again.
-/

namespace ShieldedPayments

open PointGroup

variable {F G : Type} [ScalarField F] [PointGroup F G]

/-! ## Fresh coins -/

/-- What a sender draws for a coin, and the index at which the one-time key was found. -/
structure CoinDraws (F : Type) where
  sharedRandom : F
  concealRandom : F
  mask : F
  index : UInt32

/-- What is drawn for a coin is read off the tape in this order. -/
def CoinDraws.read (t : Tape) (index : UInt32) : CoinDraws F :=
  let concealRandom := (Drawing.scalar : Drawing F).run ((Drawing.scalar : Drawing F).run t).2
  ⟨t.firstScalar, concealRandom.1, ((Drawing.scalar : Drawing F).run concealRandom.2).1, index⟩

@[simp] theorem CoinDraws.sharedRandom_read (t : Tape) (index : UInt32) :
    (read t index : CoinDraws F).sharedRandom = t.firstScalar := by
  rw [read]

namespace OneTimeCoin

/-- The coin for a payment with the given tag, as its sender makes it. -/
def made (payment : Payment G) (publicOta : G) (draws : CoinDraws F) (tag raw : Option G) :
    OneTimeCoin F G where
  info := payment.message.take maxInfoSize
  publicKey := some (OneTimeKey.derive (PointGroup.encode (draws.sharedRandom • publicOta)) draws.index
    payment.address.publicSpend)
  commitment := some ((ofNat payment.amount.toNat : F)
      • tag.getD (pedersen : PedersenBases G).value
    + draws.mask • (pedersen : PedersenBases G).blinding)
  sharedRandom := some draws.sharedRandom
  sharedConcealRandom := some draws.concealRandom
  txRandom := some ⟨baseMultiple draws.sharedRandom, draws.index, baseMultiple draws.concealRandom⟩
  mask := some draws.mask
  amount := some (ofNat payment.amount.toNat)
  assetTag := tag
  rawAssetTag := raw

theorem fits_made (payment : Payment G) (publicOta : G) (draws : CoinDraws F) (tag raw : Option G) :
    (made payment publicOta draws tag raw).Fits :=
  List.length_take_le _ _

/-- A coin without a commitment is made for a payment if its one-time key is found. -/
theorem runOn_prepare_eq_ok_iff {params : ShardParams} {request : CoinRequest G}
    {coin : OneTimeCoin F G} {secret : G} {t : Tape} :
    ((prepare params request).runOn t).1 = .ok (coin, secret) ↔
      ∃ publicOta index, OneTimeKey.Routed params request.payment.address request.sender
        (t.firstScalar : F) publicOta index ∧
        ({ made request.payment publicOta (.read t index) none none with commitment := none },
          (t.firstScalar : F) • publicOta) = (coin, secret) := by
  unfold prepare
  simp only [Proving.runOn_outcome_bind_eq_ok_iff, Proving.scalar, Proving.runOn_lift_bind,
    Proving.runOn_pure, PaymentAddress.requireOta, require_eq_ok_iff, Prod.exists, Except.ok.injEq,
    CoinRequest.target_eq_ok_iff, made, CoinDraws.read, Tape.firstScalar]
  exact exists_congr fun publicOta => OneTimeKey.exists_routed_iff

/-- A coin gets its tag before its commitment. -/
theorem commit_made (payment : Payment G) (publicOta : G) (draws : CoinDraws F) (tag raw : Option G) :
    commit { made payment publicOta draws none none with
      commitment := none, assetTag := tag, rawAssetTag := raw } =
    .ok (made payment publicOta draws tag raw) := rfl

theorem runOn_pay_eq_ok_iff {params : ShardParams} {request : CoinRequest G} {coin : OneTimeCoin F G}
    {t : Tape} :
    ((pay params request).runOn t).1 = .ok coin ↔
      ∃ publicOta index, OneTimeKey.Routed params request.payment.address request.sender
        (t.firstScalar : F) publicOta index ∧
        made request.payment publicOta (.read t index) none none = coin := by
  unfold pay
  simp only [Proving.runOn_bind_eq_ok_iff, Prod.exists, Proving.runOn_outcome,
    runOn_prepare_eq_ok_iff]
  constructor
  · rintro ⟨prepared, secret, ⟨publicOta, index, hrouted, h⟩, hcommit⟩
    obtain ⟨rfl, rfl⟩ := Prod.mk.inj h
    have hmade := (commit_made request.payment publicOta (.read t index) none none).symm.trans hcommit
    exact ⟨publicOta, index, hrouted, Except.ok.inj hmade⟩
  · rintro ⟨publicOta, index, hrouted, rfl⟩
    exact ⟨_, _, ⟨publicOta, index, hrouted, rfl⟩, commit_made _ _ _ _ _⟩

theorem runOn_payAsset_eq_ok_iff {params : ShardParams} {request : CoinRequest G} {token : TokenId}
    {coin : OneTimeCoin F G} {secret : G} {t : Tape} :
    ((payAsset params request token).runOn t).1 = .ok (coin, secret) ↔
      ∃ publicOta index, OneTimeKey.Routed params request.payment.address request.sender
        (t.firstScalar : F) publicOta index ∧ (t.firstScalar : F) • publicOta = secret ∧
        made request.payment publicOta (.read t index)
          (some (AssetTag.blind token.rawTag (AssetTag.blinder secret))) (some token.rawTag) = coin := by
  unfold payAsset
  simp only [Proving.runOn_bind_eq_ok_iff, Prod.exists, Proving.runOn_outcome, Proving.runOn_pure,
    runOn_prepare_eq_ok_iff]
  constructor
  · rintro ⟨prepared, secret', ⟨publicOta, index, hrouted, h⟩, committed, hcommitted, hresult⟩
    obtain ⟨rfl, rfl⟩ := Prod.mk.inj h
    obtain ⟨rfl, rfl⟩ := Prod.mk.inj (Except.ok.inj hresult)
    rw [commit_made] at hcommitted
    exact ⟨publicOta, index, hrouted, rfl, Except.ok.inj hcommitted⟩
  · rintro ⟨publicOta, index, hrouted, rfl, rfl⟩
    exact ⟨_, _, ⟨publicOta, index, hrouted, rfl⟩, _, commit_made _ _ _ _ _, rfl⟩

theorem prepared_of_returns {params : ShardParams} {request : CoinRequest G} {coin : OneTimeCoin F G}
    {secret : G} (h : (prepare params request).Returns (coin, secret)) :
    ∃ publicOta draws, request.payment.address.publicOta = some publicOta ∧
      secret = draws.sharedRandom • publicOta ∧
      coin = { made request.payment publicOta draws none none with commitment := none } := by
  obtain ⟨t, h⟩ := Proving.returns_iff.mp h
  obtain ⟨publicOta, index, hrouted, h⟩ := runOn_prepare_eq_ok_iff.mp h
  obtain ⟨rfl, rfl⟩ := Prod.mk.inj h
  exact ⟨publicOta, .read t index, hrouted.ota, by rw [CoinDraws.sharedRandom_read], rfl⟩

theorem made_of_pay {params : ShardParams} {request : CoinRequest G} {coin : OneTimeCoin F G}
    (h : (pay params request).Returns coin) :
    ∃ publicOta draws, request.payment.address.publicOta = some publicOta ∧
      coin = made request.payment publicOta draws none none := by
  obtain ⟨t, h⟩ := Proving.returns_iff.mp h
  obtain ⟨publicOta, index, hrouted, rfl⟩ := runOn_pay_eq_ok_iff.mp h
  exact ⟨publicOta, .read t index, hrouted.ota, rfl⟩

theorem made_of_payAsset {params : ShardParams} {request : CoinRequest G} {token : TokenId}
    {coin : OneTimeCoin F G} {secret : G}
    (h : (payAsset params request token).Returns (coin, secret)) :
    ∃ publicOta draws, request.payment.address.publicOta = some publicOta ∧
      secret = draws.sharedRandom • publicOta ∧
      coin = made request.payment publicOta draws
        (some (AssetTag.blind token.rawTag (AssetTag.blinder secret))) (some token.rawTag) := by
  obtain ⟨t, h⟩ := Proving.returns_iff.mp h
  obtain ⟨publicOta, index, hrouted, rfl, rfl⟩ := runOn_payAsset_eq_ok_iff.mp h
  exact ⟨publicOta, .read t index, hrouted.ota, by rw [CoinDraws.sharedRandom_read], rfl⟩

/-- A coin without the sender's random scalars, its mask and amount concealed to a public view key. -/
def ConcealedTo (publicView : G) (coin result : OneTimeCoin F G) : Prop :=
  ∃ random, coin.sharedConcealRandom = some random ∧ result = forgetRandoms
    { coin with
      mask := coin.mask.map (· + hashToScalar (maskParts (random • publicView)))
      amount := coin.amount.map (· + hashToScalar (amountParts (random • publicView))) }

theorem concealedTo_of_conceal {coin result : OneTimeCoin F G} {publicView : G}
    (h : coin.conceal publicView = .ok result) : ConcealedTo publicView coin result := by
  unfold conceal at h
  rw [ensure_bind_eq_ok_iff, require_bind_eq_ok_iff] at h
  obtain ⟨-, random, hrandom, h⟩ := h
  exact ⟨random, hrandom, (Outcome.pure_eq_ok_iff.mp h).symm⟩

theorem forgetTag_made (payment : Payment G) (publicOta : G) (draws : CoinDraws F)
    (tag raw : Option G) :
    (made payment publicOta draws tag raw).forgetTag = made payment publicOta draws tag none := rfl

theorem ConcealedTo.forgetTag {publicView : G} {coin result : OneTimeCoin F G}
    (h : ConcealedTo publicView coin result) :
    ConcealedTo publicView coin.forgetTag result.forgetTag := by
  obtain ⟨random, hrandom, rfl⟩ := h
  exact ⟨random, hrandom, rfl⟩

/-! ## What recipients find -/

/-- The owner of an address recognises a coin that pays to it and, if the coin is concealed, reveals
the amount that was paid. -/
def Delivers (coin : OneTimeCoin F G) (payment : Payment G) : Prop :=
  ∀ sk : PrivateKey F, (KeySet.ofPrivateKey sk : KeySet F G).address = payment.address →
    (coin.recognise (KeySet.ofPrivateKey sk)).belongs = true ∧
    (coin.isEncrypted = true → ∃ revealed, coin.reveal (KeySet.ofPrivateKey sk) = .ok revealed ∧
      revealed.isEncrypted = false ∧ revealed.value = payment.amount)

section

variable [PointGroup.Lawful F G] (payment : Payment G) (publicOta : G) (draws : CoinDraws F)
  (tag raw : Option G)

theorem isEncrypted_made : (made payment publicOta draws tag raw).isEncrypted = false :=
  isEncrypted_eq_false_iff.mpr ⟨draws.mask, ofNat payment.amount.toNat, rfl, rfl, rfl⟩

theorem exists_conceal (publicView : G) :
    ∃ result, (made payment publicOta draws tag raw).conceal publicView = .ok result := by
  unfold conceal
  rw [isEncrypted_made]
  exact ⟨_, rfl⟩

omit [ScalarField F] [PointGroup.Lawful F G] in
theorem isEncrypted_forgetRandoms (coin : OneTimeCoin F G) :
    coin.forgetRandoms.isEncrypted = coin.isEncrypted := rfl

/-- What a coin that was made is worth, once its sender has forgotten what was drawn for it. -/
theorem value_made [ScalarField.Canonical F] :
    (made payment publicOta draws tag raw).forgetRandoms.value = payment.amount := by
  have hopen := isEncrypted_made payment publicOta draws tag raw
  rw [← isEncrypted_forgetRandoms] at hopen
  unfold value
  rw [hopen]
  exact lowWord_ofNat payment.amount

end

variable [ScalarField.Lawful F] [PointGroup.Lawful F G] {payment : Payment G} {publicOta : G}
  {draws : CoinDraws F} {tag raw : Option G} {coin : OneTimeCoin F G}

/-- The view secret removes the offsets that a coin was concealed with. -/
theorem removeOffsets_of_concealedTo {view : F} (hview : payment.address.publicView = baseMultiple view)
    (h : ConcealedTo payment.address.publicView (made payment publicOta draws tag raw) coin) :
    coin.removeOffsets view = .ok (made payment publicOta draws tag raw).forgetRandoms := by
  obtain ⟨random, hrandom, rfl⟩ := h
  obtain rfl := Option.some.inj hrandom
  rw [hview, smul_baseMultiple draws.concealRandom view]
  unfold removeOffsets
  simp only [made, forgetRandoms, Option.map_some, require_some, bind, Except.bind, pure, Except.pure,
    add_sub_cancel_right]

/-- The one-time secret recognises the one-time key. -/
theorem recognise_belongs {keys : KeySet F G} {ota : OtaKey F G} (hkey : keys.otaKey = some ota)
    (hspend : ota.publicSpend = payment.address.publicSpend)
    (hota : publicOta = baseMultiple ota.otaSecret)
    (h : ConcealedTo payment.address.publicView (made payment publicOta draws tag raw) coin) :
    (coin.recognise keys).belongs = true := by
  obtain ⟨random, -, rfl⟩ := h
  refine (recognise_of_addressed hkey ⟨rfl, rfl, ?_⟩).1
  rw [hspend, hota, smul_baseMultiple]
  rfl

/-- **A coin that was made for a payment and concealed delivers the payment.** -/
theorem delivers_of_concealedTo [ScalarField.Canonical F]
    (hota : payment.address.publicOta = some publicOta)
    (h : ConcealedTo payment.address.publicView (made payment publicOta draws tag raw) coin) :
    coin.Delivers payment := by
  intro sk haddress
  have hpublicOta : (some (baseMultiple sk.otaSecret) : Option G) = some publicOta := by
    rw [← hota, ← haddress]
    rfl
  refine ⟨recognise_belongs rfl (by rw [← haddress]; rfl) (Option.some.inj hpublicOta).symm h,
    fun hencrypted => ?_⟩
  have hview : payment.address.publicView = baseMultiple sk.privateView := by
    rw [← haddress]
    rfl
  have hopen := isEncrypted_made payment publicOta draws tag raw
  have hopened := OpenedWith.cleared hencrypted (removeOffsets_of_concealedTo hview h) hopen
  obtain ⟨_, -, rfl⟩ := h
  obtain ⟨image, hreveal, -⟩ := exists_reveal_of_opened
    (rfl : (KeySet.ofPrivateKey sk : KeySet F G).viewSecret = _) hopened rfl rfl rfl
  exact ⟨_, hreveal, hopen, value_made payment publicOta draws tag raw⟩

end OneTimeCoin

end ShieldedPayments
