import ShieldedPayments.Proofs.Group.Exponents
import ShieldedPayments.Proofs.Argument.HonestSerial
import ShieldedPayments.Proofs.Fault
import ShieldedPayments.Coin.OneTime

/-!
# Whoever recognises a coin can spend it, and only once

A recipient takes the offset of a one-time key off that key and compares what is left with the own spend
key; a spender adds the offset to the own secret. Whatever a coin looks like, both come to the same: the
coin is recognised exactly if the secret that is found for it is that of its one-time key
(`OneTimeCoin.recognise_belongs_iff_spendsWith`).

A one-time key has only one secret, so all coins that it can be spent from have one key image, whatever
else they say (`OneTimeCoin.SpendsWith.keyImage_unique`). The nullifiers of account coins are as many as
their derivators. `OneTimeCoin.recognition_spends_once` puts this together.
-/

namespace ShieldedPayments

open PointGroup

variable {F G : Type} [ScalarField F] [PointGroup F G]

theorem OtaKey.ownsSpendKey_iff [PointGroup.Canonical F G] (key : OtaKey F G) (candidate : G) :
    key.ownsSpendKey candidate = true ↔ candidate = key.publicSpend := by
  unfold ownsSpendKey
  rw [beq_iff_eq, encode_injective.eq_iff]

namespace OneTimeCoin

/-! ## The owner of a one-time key -/

/-- The one-time key of a coin is a spend key, moved by the offset that the coin's randomness and the
secret of a recipient lead to. -/
structure Addressed (coin : OneTimeCoin F G) (ota : OtaKey F G) (publicKey : G) (tx : TxRandom G) :
    Prop where
  publicKey_eq : coin.publicKey = some publicKey
  txRandom_eq : coin.txRandom = some tx
  key_eq : publicKey =
    baseMultiple (OneTimeKey.offset (ota.otaSecret • tx.otaRandom) tx.index) + ota.publicSpend

/-- The secret that a private key finds for a coin is that of the coin's one-time key. -/
structure SpendsWith (coin : OneTimeCoin F G) (sk : PrivateKey F) (publicKey : G) (secret : F) :
    Prop where
  publicKey_eq : coin.publicKey = some publicKey
  secret_eq : coin.oneTimeSecret sk = .ok secret
  multiple_eq : baseMultiple secret = publicKey

variable {coin : OneTimeCoin F G} {keys : KeySet F G} {ota : OtaKey F G} {sk : PrivateKey F}

theorem oneTimeSecret_eq_ok_iff (coin : OneTimeCoin F G) (sk : PrivateKey F) (secret : F) :
    coin.oneTimeSecret sk = .ok secret ↔ ∃ tx, coin.txRandom = some tx ∧
      OneTimeKey.offset (sk.otaSecret • tx.otaRandom) tx.index + sk.secret = secret := by
  unfold oneTimeSecret sharedSecret
  rw [require_bind_eq_ok_iff]
  refine exists_congr fun tx => and_congr_right fun htx => ?_
  rw [htx]
  exact Outcome.pure_eq_ok_iff

theorem SpendsWith.keyImageFor_eq {publicKey : G} {secret : F}
    (h : coin.SpendsWith sk publicKey secret) :
    coin.keyImageFor sk = .ok (secret • (hashToPoint (PointGroup.encode publicKey) : G)) := by
  unfold keyImageFor
  rw [h.publicKey_eq, h.secret_eq]
  rfl

/-- Recognising a coin fills in its raw asset tag at most. -/
theorem eq_of_recognise (coin : OneTimeCoin F G) (keys : KeySet F G) :
    (coin.recognise keys).coin =
      { coin with rawAssetTag := (coin.recognise keys).coin.rawAssetTag } := by
  unfold recognise
  split
  · simp only
    split
    · rfl
    · rfl
  · rfl

section

variable [PointGroup.Lawful F G]

theorem recognise_of_addressed {publicKey : G} {tx : TxRandom G} (hkey : keys.otaKey = some ota)
    (h : coin.Addressed ota publicKey tx) : (coin.recognise keys).belongs = true ∧
      (coin.recognise keys).sharedSecret = some (ota.otaSecret • tx.otaRandom) := by
  have howns : ota.ownsSpendKey
      (publicKey - baseMultiple (OneTimeKey.offset (ota.otaSecret • tx.otaRandom) tx.index)) = true := by
    unfold OtaKey.ownsSpendKey
    rw [beq_iff_eq, h.key_eq, add_sub_cancel_left]
  unfold recognise
  simp only [hkey, h.publicKey_eq, h.txRandom_eq, howns, if_true, and_self]

/-- Coins without a key or without randomness belong to nobody. -/
theorem recognise_belongs_iff [PointGroup.Canonical F G] (hkey : keys.otaKey = some ota) :
    (coin.recognise keys).belongs = true ↔ ∃ publicKey tx, coin.Addressed ota publicKey tx := by
  constructor
  · intro hbelongs
    unfold recognise at hbelongs
    rw [hkey] at hbelongs
    split at hbelongs
    · next ota' publicKey tx hota hpublicKey htx =>
      obtain rfl := Option.some.inj hota
      by_cases howns : ota.ownsSpendKey
          (publicKey - baseMultiple (OneTimeKey.offset (ota.otaSecret • tx.otaRandom) tx.index)) = true
      · rw [OtaKey.ownsSpendKey_iff, sub_eq_iff_eq_add'] at howns
        exact ⟨publicKey, tx, hpublicKey, htx, howns⟩
      · simp only [howns, if_false, Bool.false_eq_true] at hbelongs
    · cases hbelongs
  · rintro ⟨publicKey, tx, h⟩
    exact (recognise_of_addressed hkey h).1

/-! ## Spending what is recognised -/

variable [ScalarField.Lawful F]

theorem exists_addressed_iff_spendsWith {publicKey : G} :
    (∃ tx, coin.Addressed ⟨sk.publicSpend, sk.otaSecret⟩ publicKey tx) ↔
      ∃ secret, coin.SpendsWith sk publicKey secret := by
  have hmultiple (tx : TxRandom G) :
      (baseMultiple (OneTimeKey.offset (sk.otaSecret • tx.otaRandom) tx.index + sk.secret) : G) =
        baseMultiple (OneTimeKey.offset (sk.otaSecret • tx.otaRandom) tx.index) + sk.publicSpend := by
    rw [PrivateKey.publicSpend, baseMultiple_eq, baseMultiple_eq, baseMultiple_eq, add_smul]
  constructor
  · rintro ⟨tx, h⟩
    have hsecret := (oneTimeSecret_eq_ok_iff coin sk _).mpr ⟨tx, h.txRandom_eq, rfl⟩
    exact ⟨_, h.publicKey_eq, hsecret, (hmultiple tx).trans h.key_eq.symm⟩
  · rintro ⟨secret, h⟩
    obtain ⟨tx, htx, rfl⟩ := (oneTimeSecret_eq_ok_iff coin sk secret).mp h.secret_eq
    exact ⟨tx, h.publicKey_eq, htx, h.multiple_eq.symm.trans (hmultiple tx)⟩

/-- **A coin is recognised exactly if it can be spent.** -/
theorem recognise_belongs_iff_spendsWith [PointGroup.Canonical F G] :
    (coin.recognise (KeySet.ofPrivateKey sk)).belongs = true ↔
      ∃ publicKey secret, coin.SpendsWith sk publicKey secret := by
  rw [recognise_belongs_iff rfl]
  exact exists_congr fun publicKey => exists_addressed_iff_spendsWith

/-- **A one-time key has one key image.** It is the same for all coins with that key which a private key
spends, because the secret of the key is. -/
theorem SpendsWith.keyImage_unique (hbase : (pedersen : PedersenBases G).spendKey ≠ 0)
    {other : OneTimeCoin F G} {publicKey : G} {secret secret' : F}
    (h : coin.SpendsWith sk publicKey secret) (h' : other.SpendsWith sk publicKey secret') :
    coin.keyImageFor sk = other.keyImageFor sk := by
  have hsecret : secret = secret' := by
    have hmultiple := h.multiple_eq.trans h'.multiple_eq.symm
    rw [baseMultiple_eq, baseMultiple_eq] at hmultiple
    exact smul_left_injective F hbase hmultiple
  rw [h.keyImageFor_eq, h'.keyImageFor_eq, hsecret]

/-- **Recognition means that a coin can be spent, and only once.** The key set of a private key recognises
a coin exactly if the coin has a one-time key and the secret that the private key finds for the coin is
that of the key. Two coins that it recognises have the same key image if they have the same one-time key,
whatever else they are made of; and account coins with different derivators have different serial
numbers. -/
theorem recognition_spends_once [PointGroup.Canonical F G]
    (hbase : (pedersen : PedersenBases G).spendKey ≠ 0) (sk : PrivateKey F) :
    (∀ coin : OneTimeCoin F G, (coin.recognise (KeySet.ofPrivateKey sk)).belongs = true ↔
      ∃ publicKey secret, coin.publicKey = some publicKey ∧ coin.oneTimeSecret sk = .ok secret ∧
        baseMultiple secret = publicKey) ∧
    (∀ coin other : OneTimeCoin F G, (coin.recognise (KeySet.ofPrivateKey sk)).belongs = true →
      (other.recognise (KeySet.ofPrivateKey sk)).belongs = true → coin.publicKey = other.publicKey →
      ∃ image, coin.keyImageFor sk = .ok image ∧ other.keyImageFor sk = .ok image) ∧
    ∀ derivator derivator' : F,
      (Pedersen.serialNumber sk.secret derivator : G) = Pedersen.serialNumber sk.secret derivator' →
        derivator = derivator' := by
  refine ⟨fun coin => ?_, fun coin other hcoin hother hsame => ?_, fun derivator derivator' heq => ?_⟩
  · rw [recognise_belongs_iff_spendsWith]
    refine exists_congr fun publicKey => exists_congr fun secret => ?_
    exact ⟨fun h => ⟨h.publicKey_eq, h.secret_eq, h.multiple_eq⟩, fun ⟨hkey, hsecret, hmultiple⟩ =>
      ⟨hkey, hsecret, hmultiple⟩⟩
  · obtain ⟨publicKey, secret, h⟩ := recognise_belongs_iff_spendsWith.mp hcoin
    obtain ⟨publicKey', secret', h'⟩ := recognise_belongs_iff_spendsWith.mp hother
    obtain rfl : publicKey = publicKey' :=
      Option.some.inj (h.publicKey_eq.symm.trans (hsame.trans h'.publicKey_eq))
    exact ⟨_, h.keyImageFor_eq, (h.keyImage_unique hbase h') ▸ h.keyImageFor_eq⟩
  · exact (Pedersen.serialNumber_inj hbase sk.secret derivator derivator').mp heq

end

/-! ## Two coins with one key -/

open Curve (Scalar)

/-- A coin for a private key, with the given randomness. -/
def addressedTo (sk : PrivateKey Scalar) (tx : TxRandom Exponent) : OneTimeCoin Scalar Exponent where
  publicKey := some (baseMultiple
    (OneTimeKey.offset (sk.otaSecret • tx.otaRandom) tx.index + sk.secret))
  txRandom := some tx

theorem recognise_addressedTo (sk : PrivateKey Scalar) (tx : TxRandom Exponent) :
    ((addressedTo sk tx).recognise (KeySet.ofPrivateKey sk)).belongs = true :=
  recognise_belongs_iff_spendsWith.mpr ⟨_, _, rfl, rfl, rfl⟩

/-- Two coins with one key and different amounts, tags and random points for concealing. -/
theorem recognition_spends_once_two_coins :
    ∃ image, (addressedTo ⟨2⟩ ⟨⟨3⟩, 1, ⟨4⟩⟩).keyImageFor ⟨2⟩ = .ok image ∧
      { addressedTo ⟨2⟩ ⟨⟨3⟩, 1, ⟨5⟩⟩ with amount := some 7, assetTag := some ⟨6⟩ }.keyImageFor ⟨2⟩ =
        .ok image :=
  (recognition_spends_once (by decide) ⟨2⟩).2.1 (addressedTo ⟨2⟩ ⟨⟨3⟩, 1, ⟨4⟩⟩)
    { addressedTo ⟨2⟩ ⟨⟨3⟩, 1, ⟨5⟩⟩ with amount := some 7, assetTag := some ⟨6⟩ }
    (recognise_addressedTo ⟨2⟩ ⟨⟨3⟩, 1, ⟨4⟩⟩)
    (recognise_belongs_iff_spendsWith.mpr ⟨_, _, rfl, rfl, rfl⟩) rfl

end OneTimeCoin

end ShieldedPayments
