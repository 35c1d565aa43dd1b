import ShieldedPayments.Proofs.Coin.Recipient

/-!
# A coin is concealed once, and opened again

That a coin is concealed is written nowhere; it shows in the commitment, which no longer opens to mask and
amount. It shows exactly if the offsets combine to a point other than zero
(`OneTimeCoin.isEncrypted_addOffsets_iff`). Whoever has the view secret of the address then finds the coin
as it was (`OneTimeCoin.restores_of_concealedTo`).

The sender's conceal randomness goes with the first concealing, and no operation brings it back. So a coin
is concealed at most once (`OneTimeCoin.concealed_once`).
-/

namespace ShieldedPayments

open PointGroup

variable {F G : Type} [ScalarField F] [PointGroup F G]

/-- A key set decrypts with the view secret of an address. -/
def KeySet.OpensFor (keys : KeySet F G) (address : PaymentAddress G) : Prop :=
  ∃ view, keys.viewSecret = some view ∧ address.publicView = baseMultiple view

/-- The key sets of an address that have its viewing key, or no viewing key but its private key. -/
theorem KeySet.opensFor_owner (sk : PrivateKey F) {keys : KeySet F G}
    (h : keys.viewingKey.map (·.privateView) = some sk.privateView ∨
      keys.viewingKey = none ∧ keys.privateKey = some sk) :
    keys.OpensFor (ofPrivateKey sk : KeySet F G).address := by
  refine ⟨sk.privateView, ?_, rfl⟩
  rcases h with hviewing | ⟨hnone, hprivate⟩
  · obtain ⟨key, hkey, heq⟩ := Option.map_eq_some_iff.mp hviewing
    rw [viewSecret, hkey, ← heq]
  · rw [viewSecret, hnone, hprivate]

namespace OneTimeCoin

/-- The coins that a sender makes for a request, of the native token or of a confidential asset. -/
inductive Sent (params : ShardParams) (request : CoinRequest G) (coin : OneTimeCoin F G) : Prop
  | native (h : (pay params request).Returns coin)
  | asset {token : TokenId} {secret : G} (h : (payAsset params request token).Returns (coin, secret))

/-- A key set opens a coin to what another coin is, but for the sender's random scalars and the raw asset
tag; it adds a key image exactly if it has a private key. -/
def Restores (coin : OneTimeCoin F G) (keys : KeySet F G) (original : OneTimeCoin F G) : Prop :=
  ∃ restored, coin.reveal keys = .ok restored ∧
    restored = { original with
      keyImage := restored.keyImage
      sharedRandom := none
      sharedConcealRandom := none
      rawAssetTag := coin.rawAssetTag } ∧
    (restored.keyImage.isSome = true ↔ keys.privateKey.isSome = true)

variable {params : ShardParams} {request : CoinRequest G} {coin later : OneTimeCoin F G}

theorem Sent.exists_made (h : Sent params request coin) :
    ∃ publicOta draws tag raw, coin = made request.payment publicOta draws tag raw := by
  cases h with
  | native h =>
    obtain ⟨publicOta, draws, -, rfl⟩ := made_of_pay h
    exact ⟨publicOta, draws, _, _, rfl⟩
  | asset h =>
    obtain ⟨publicOta, draws, -, -, rfl⟩ := made_of_payAsset h
    exact ⟨publicOta, draws, _, _, rfl⟩

theorem ConcealedTo.fits {publicView : G} (h : ConcealedTo publicView coin later)
    (hfits : coin.Fits) : later.Fits := by
  obtain ⟨random, -, rfl⟩ := h
  exact hfits

theorem ConcealedTo.gone {publicView : G} (h : ConcealedTo publicView coin later) :
    later.sharedConcealRandom = none := by
  obtain ⟨random, -, rfl⟩ := h
  rfl

/-! ## A coin that refuses to be concealed -/

/-- Concealing in place that fails leaves the coin as it was. -/
theorem eq_of_concealInPlace_error {publicView : G} {fault : Fault}
    (h : (concealInPlace publicView).runOn coin = (.error fault, later)) : later = coin := by
  rw [runOn_concealInPlace] at h
  cases hconceal : coin.conceal publicView with
  | ok concealed =>
    rw [hconceal] at h
    cases h
  | error fault' =>
    rw [hconceal] at h
    exact (Prod.mk.inj h).2.symm

/-! ## Whether it shows that a coin is concealed -/

theorem value_of_isEncrypted (h : coin.isEncrypted = true) : coin.value = 0 := by
  unfold value
  rw [h]
  cases coin.amount with
  | none => rfl
  | some amount => rfl

section

variable [ScalarField.Lawful F] [PointGroup.Lawful F G]

/-- It shows that offsets were added to mask and amount exactly if they combine to a point other than
zero. -/
theorem isEncrypted_addOffsets_iff (hopen : coin.isEncrypted = false) (maskOffset amountOffset : F) :
    ({ coin with
        mask := coin.mask.map (· + maskOffset)
        amount := coin.amount.map (· + amountOffset) } : OneTimeCoin F G).isEncrypted = true ↔
      amountOffset • coin.amountBase + maskOffset • (pedersen : PedersenBases G).blinding ≠ 0 := by
  obtain ⟨mask, amount, hmask, hamount, hcommitment⟩ := isEncrypted_eq_false_iff.mp hopen
  have hsplit : (amount + amountOffset) • coin.amountBase
        + (mask + maskOffset) • (pedersen : PedersenBases G).blinding =
      amount • coin.amountBase + mask • (pedersen : PedersenBases G).blinding
        + (amountOffset • coin.amountBase
          + maskOffset • (pedersen : PedersenBases G).blinding) := by
    rw [add_smul, add_smul]
    abel
  rw [ne_eq, ← Bool.not_eq_false, not_iff_not, isEncrypted_eq_false_iff, hmask, hamount]
  constructor
  · rintro ⟨_, _, ⟨⟩, ⟨⟩, hstored⟩
    have heq := Option.some.inj (hcommitment.symm.trans hstored)
    exact left_eq_add.mp (heq.trans hsplit)
  · intro hzero
    refine ⟨_, _, rfl, rfl, hcommitment.trans (congrArg some ?_)⟩
    exact (left_eq_add.mpr hzero).trans hsplit.symm

/-! ## Who opens what was concealed -/

/-- **A concealed coin is opened to what it was.** -/
theorem restores_of_concealedTo {payment : Payment G} {publicOta : G} {draws : CoinDraws F}
    {tag raw : Option G} {keys : KeySet F G} (hkeys : keys.OpensFor payment.address)
    (h : ConcealedTo payment.address.publicView (made payment publicOta draws tag raw) coin)
    (hencrypted : coin.isEncrypted = true) :
    coin.Restores keys (made payment publicOta draws tag raw) := by
  obtain ⟨view, hview, hpublic⟩ := hkeys
  have hremoved := removeOffsets_of_concealedTo hpublic h
  have hopened := OpenedWith.cleared hencrypted hremoved
    (isEncrypted_made payment publicOta draws tag raw)
  obtain ⟨random, -, rfl⟩ := h
  obtain ⟨image, hreveal, himage⟩ := exists_reveal_of_opened hview hopened rfl rfl rfl
  exact ⟨_, hreveal, rfl, himage⟩

variable [ScalarField.Canonical F] [PointGroup.Canonical F G]

/-- The coin that is read back after concealing is opened to what the coin was as well. -/
theorem restores_after_encoding {payment : Payment G} {publicOta : G} {draws : CoinDraws F}
    {tag raw : Option G} {keys : KeySet F G} (hkeys : keys.OpensFor payment.address)
    (h : ConcealedTo payment.address.publicView (made payment publicOta draws tag raw) coin)
    (hencrypted : coin.isEncrypted = true) :
    ∃ received, ofBytes coin.toBytes = .ok received ∧
      received.Restores keys (made payment publicOta draws tag raw) := by
  have hfits := h.fits (fits_made payment publicOta draws tag raw)
  refine ⟨coin.forgetTag, ofBytes_toBytes hfits, ?_⟩
  have hforgotten := h.forgetTag
  rw [forgetTag_made] at hforgotten
  -- What is read back is the concealed coin of one that never had a raw asset tag.
  have hrestored := restores_of_concealedTo hkeys hforgotten hencrypted
  exact hrestored

/-- **Concealing is undone by the recipient, shows, and happens at most once.** Let a sender make a coin for
an address, of the native token or of an asset. The coin is in the open. Concealing it to the address
succeeds; it adds offsets to mask and amount and drops the sender's random scalars, and changes nothing
else. The coin then shows as concealed exactly if the offsets combine to a point other than zero. If so,
its value reads zero, and every key set that has the view secret of the address restores it, as it is and
after encoding. Whatever operations follow, concealing the coin again fails. And on any coin, concealing
that fails changes nothing. -/
theorem concealed_once {params : ShardParams} {request : CoinRequest G} {coin : OneTimeCoin F G}
    (hsent : Sent params request coin) :
    coin.isEncrypted = false ∧
    (∃ (random : F) (secret : G) (concealed : OneTimeCoin F G),
      coin.sharedConcealRandom = some random ∧ secret = random • request.payment.address.publicView ∧
      (concealInPlace request.payment.address.publicView).runOn coin = (.ok (), concealed) ∧
      concealed = { coin with
        mask := coin.mask.map (· + hashToScalar (maskParts secret))
        amount := coin.amount.map (· + hashToScalar (amountParts secret))
        sharedRandom := none
        sharedConcealRandom := none } ∧
      (concealed.isEncrypted = true ↔ (hashToScalar (amountParts secret) : F) • coin.amountBase
        + (hashToScalar (maskParts secret) : F) • (pedersen : PedersenBases G).blinding ≠ 0) ∧
      (concealed.isEncrypted = true → concealed.value = 0 ∧
        ∀ keys : KeySet F G, keys.OpensFor request.payment.address →
          concealed.Restores keys coin ∧
          ∃ received, ofBytes concealed.toBytes = .ok received ∧ received.Restores keys coin) ∧
      ∀ (operations : List (Operation F G)) (publicView : G), ∃ fault,
        (concealInPlace publicView).runOn (afterAll operations concealed) =
          (.error fault, afterAll operations concealed)) ∧
    ∀ (other later : OneTimeCoin F G) (publicView : G) (fault : Fault),
      (concealInPlace publicView).runOn other = (.error fault, later) → later = other := by
  obtain ⟨publicOta, draws, tag, raw, rfl⟩ := hsent.exists_made
  have hopen := isEncrypted_made request.payment publicOta draws tag raw
  obtain ⟨concealed, hconceal⟩ :=
    exists_conceal request.payment publicOta draws tag raw request.payment.address.publicView
  have hconcealed := concealedTo_of_conceal hconceal
  refine ⟨hopen, ?_, fun other later publicView fault => eq_of_concealInPlace_error⟩
  refine ⟨draws.concealRandom, _, concealed, rfl, rfl, ?_, ?_, ?_, fun hencrypted => ⟨?_, ?_⟩, ?_⟩
  · rw [runOn_concealInPlace, hconceal]
    rfl
  · obtain ⟨_, ⟨⟩, rfl⟩ := hconcealed
    rfl
  · obtain ⟨_, ⟨⟩, rfl⟩ := hconcealed
    rw [isEncrypted_forgetRandoms]
    exact isEncrypted_addOffsets_iff hopen _ _
  · exact value_of_isEncrypted hencrypted
  · intro keys hkeys
    exact ⟨restores_of_concealedTo hkeys hconcealed hencrypted,
      restores_after_encoding hkeys hconcealed hencrypted⟩
  · intro operations publicView
    have hfits := hconcealed.fits (fits_made request.payment publicOta draws tag raw)
    have hkeeps := keeps_afterAll operations hfits
    exact runOn_concealInPlace_of_gone (hkeeps.gone hconcealed.gone) publicView

end

/-! ## A minted coin that shows as concealed -/

section

open Curve (Scalar)

theorem concealRandom_zeroTape :
    (CoinDraws.read zeroTape 1 : CoinDraws Scalar).concealRandom = 0 := by decide +kernel

/-- The offsets for the secret zero combine to a point other than zero. -/
theorem offsets_of_zero :
    (hashToScalar (amountParts (0 : Exponent)) : Scalar) • (pedersen : PedersenBases Exponent).value
      + (hashToScalar (maskParts (0 : Exponent)) : Scalar)
        • (pedersen : PedersenBases Exponent).blinding ≠ 0 := by
  decide +kernel

/-- A coin that was minted for the owner of a key is concealed, and its owner restores it. -/
theorem minted_concealed_once :
    ∃ coin concealed : OneTimeCoin Scalar Exponent,
      Sent { numShards := 1, maxTries := 2 } minterRequest coin ∧
      (concealInPlace minterRequest.payment.address.publicView).runOn coin = (.ok (), concealed) ∧
      concealed.isEncrypted = true ∧ concealed.value = 0 ∧
      concealed.Restores (KeySet.ofPrivateKey minterKey) coin := by
  have hpay := runOn_pay_eq_ok_iff.mpr ⟨_, _, routed_minterRequest, rfl⟩
  have hsent := Sent.native (Proving.returns_iff.mpr ⟨zeroTape, hpay⟩)
  obtain ⟨-, ⟨random, secret, concealed, hrandom, hsecret, hrun, -, hshows, hconcealed, -⟩, -⟩ :=
    concealed_once hsent
  have hzero : secret = 0 := by
    obtain rfl := Option.some.inj hrandom
    rw [hsecret, concealRandom_zeroTape, zero_smul]
  have hencrypted : concealed.isEncrypted = true := by
    refine hshows.mpr ?_
    rw [hzero]
    exact offsets_of_zero
  have hkeys : (KeySet.ofPrivateKey minterKey : KeySet Scalar Exponent).OpensFor
      minterRequest.payment.address := KeySet.opensFor_owner minterKey (.inl rfl)
  obtain ⟨hvalue, hrestores⟩ := hconcealed hencrypted
  exact ⟨_, concealed, hsent, hrun, hencrypted, hvalue, (hrestores _ hkeys).1⟩

end

end OneTimeCoin

end ShieldedPayments
