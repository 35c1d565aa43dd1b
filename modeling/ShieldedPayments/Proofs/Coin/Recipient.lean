import ShieldedPayments.Proofs.Group.Exponents
import ShieldedPayments.Proofs.Coin.Operation

/-!
# Whoever is paid finds the coin and can spend it

A sender computes the one-time key of a coin from a random scalar and the public keys of an address, the
recipient from the randomness in the coin and the own secrets. Both arrive at the same key, whichever way
the coin was made (`OneTimeCoin.Paid`), so the recipient recognises it with the sender's shared secret,
has the secret of its key, and sees in the key the shards that the search was for
(`OneTimeCoin.RoutedTo.foundBy`).

All of this depends on the key and the randomness of a coin only. Unless the coin is redacted, nothing that
is done to it later changes either of them (`OneTimeCoin.keepsKey_afterAll`); so the recipient finds the coin
after any number of operations (`OneTimeCoin.recipient_finds_paid_coin`).
-/

namespace ShieldedPayments.OneTimeCoin

open PointGroup

variable {F G : Type} [ScalarField F] [PointGroup F G]

/-! ## Coins that pay to an address -/

/-- The coins that pay to an address, each with the random scalar of its shared secret and with the sender
who is to show in its key. The scalar is what is drawn first: on the tape that the coin was made on, or,
where the recipient handed over a receiver, encoded or not, on the tape of the receiver. -/
inductive Paid (params : ShardParams) (address : PaymentAddress G) :
    (random : F) → (sender : Option (UInt8 × Origin)) → (coin : OneTimeCoin F G) → Prop
  | native {request : CoinRequest G} {coin : OneTimeCoin F G} {t : Tape}
      (haddress : request.payment.address = address)
      (hpay : ((pay params request).runOn t).1 = .ok coin) :
      Paid params address t.firstScalar request.sender coin
  | asset {request : CoinRequest G} {token : TokenId} {coin : OneTimeCoin F G} {secret : G} {t : Tape}
      (haddress : request.payment.address = address)
      (hpay : ((payAsset params request token).runOn t).1 = .ok (coin, secret)) :
      Paid params address t.firstScalar request.sender coin
  | receiver {receiver handed : OtaReceiver G} {amount : UInt64} {info : Bytes}
      {coin : OneTimeCoin F G} {t t' : Tape}
      (hreceiver : ((OtaReceiver.ofAddress params address).runOn t).1 = .ok receiver)
      (hhanded : handed = receiver ∨ OtaReceiver.ofBytes receiver.toBytes = .ok handed)
      (hpay : ((payReceiver amount handed info).runOn t').1 = .ok coin) :
      Paid params address t.firstScalar none coin

/-- The one-time key of a coin was found for an address, and its randomness leads there. -/
structure RoutedTo (coin : OneTimeCoin F G) (params : ShardParams) (address : PaymentAddress G)
    (sender : Option (UInt8 × Origin)) (random : F) (publicOta : G) (index : UInt32)
    (concealRandom : G) : Prop where
  routed : OneTimeKey.Routed params address sender random publicOta index
  publicKey_eq : coin.publicKey =
    some (OneTimeKey.derive (PointGroup.encode (random • publicOta)) index address.publicSpend)
  txRandom_eq : coin.txRandom = some ⟨baseMultiple random, index, concealRandom⟩
  fits : coin.Fits

variable {params : ShardParams} {address : PaymentAddress G} {sender : Option (UInt8 × Origin)}
  {random : F} {coin later : OneTimeCoin F G}

/-- A coin that was made for a payment was routed to its address. -/
theorem routedTo_made {payment : Payment G} {publicOta : G} {index : UInt32} {t : Tape}
    (h : OneTimeKey.Routed params payment.address sender (t.firstScalar : F) publicOta index)
    (tag raw : Option G) :
    (made payment publicOta (.read t index) tag raw).RoutedTo params payment.address sender
      (t.firstScalar : F) publicOta index
      (baseMultiple (CoinDraws.read t index : CoinDraws F).concealRandom) := by
  refine ⟨h, ?_, ?_, List.length_take_le _ _⟩
  · rw [made, CoinDraws.sharedRandom_read]
    rfl
  · rw [made, CoinDraws.sharedRandom_read]
    rfl

/-- A coin for a receiver has the receiver's key and randomness. -/
theorem key_of_payReceiver {receiver : OtaReceiver G} {amount : UInt64} {info : Bytes} {t : Tape}
    (h : ((payReceiver amount receiver info).runOn t).1 = .ok coin) :
    coin.publicKey = some receiver.publicKey ∧ coin.txRandom = some receiver.txRandom ∧
      coin.Fits := by
  unfold payReceiver at h
  rw [Proving.scalar, Proving.runOn_lift_bind, Proving.runOn_outcome] at h
  obtain rfl := Except.ok.inj h
  exact ⟨rfl, rfl, List.length_take_le _ _⟩

/-- Whichever way a coin was made, its key was found for the address. -/
theorem Paid.routedTo [PointGroup.Canonical F G] (h : Paid params address random sender coin) :
    ∃ publicOta index concealRandom,
      coin.RoutedTo params address sender random publicOta index concealRandom := by
  cases h with
  | native haddress hpay =>
    obtain ⟨publicOta, index, hrouted, rfl⟩ := runOn_pay_eq_ok_iff.mp hpay
    subst haddress
    exact ⟨_, _, _, routedTo_made hrouted none none⟩
  | asset haddress hpay =>
    obtain ⟨publicOta, index, hrouted, -, rfl⟩ := runOn_payAsset_eq_ok_iff.mp hpay
    subst haddress
    exact ⟨_, _, _, routedTo_made hrouted _ _⟩
  | receiver hreceiver hhanded hpay =>
    obtain ⟨publicOta, index, hrouted, rfl⟩ := OtaReceiver.runOn_ofAddress_eq_ok_iff.mp hreceiver
    -- What is read back from the encoding is the receiver itself.
    rw [OtaReceiver.ofBytes_toBytes, Except.ok.injEq, eq_comm, or_self] at hhanded
    obtain ⟨hkey, htx, hfits⟩ := key_of_payReceiver hpay
    rw [← hhanded] at hkey htx
    exact ⟨publicOta, index, _, hrouted, hkey, htx, hfits⟩

theorem RoutedTo.of_keepsKey {publicOta : G} {index : UInt32} {concealRandom : G}
    (h : coin.RoutedTo params address sender random publicOta index concealRandom)
    (hkeeps : coin.KeepsKey later) :
    later.RoutedTo params address sender random publicOta index concealRandom :=
  ⟨h.routed, hkeeps.publicKey.trans h.publicKey_eq, hkeeps.txRandom.trans h.txRandom_eq, hkeeps.fits⟩

/-! ## What the recipient finds -/

/-- The owner of a private key recognises a coin, computes the shared secret of the sender who drew
`random`, has the secret of the coin's key and its key image, finds the shard of the own address in the key,
and next to it the sender's if the sender is to show; and the coin is read back from its encoding. -/
structure FoundBy (coin : OneTimeCoin F G) (params : ShardParams) (sk : PrivateKey F) (random : F)
    (sender : Option (UInt8 × Origin)) : Prop where
  belongs : (coin.recognise (KeySet.ofPrivateKey sk)).belongs = true
  sharedSecret : (coin.recognise (KeySet.ofPrivateKey sk)).sharedSecret =
    some (random • baseMultiple sk.otaSecret)
  spends : ∃ publicKey secret, coin.publicKey = some publicKey ∧
    coin.oneTimeSecret sk = .ok secret ∧ baseMultiple secret = publicKey ∧
    coin.keyImageFor sk = .ok (secret • (hashToPoint (PointGroup.encode publicKey) : G))
  shards : ∃ shard, params.shardOf (KeySet.ofPrivateKey sk : KeySet F G).address.lastByte = .ok shard ∧
    coin.shardId params = .ok shard ∧ ∀ source origin, sender = some (source, origin) →
      coin.shardDigits params = .ok ⟨shard, source, origin⟩
  readable : ∃ read : OneTimeCoin F G, ofBytes coin.toBytes = .ok read

variable [ScalarField.Lawful F] [PointGroup.Lawful F G] [ScalarField.Canonical F]
  [PointGroup.Canonical F G] {sk : PrivateKey F}

/-- The owner of the address that a coin was routed to finds it. -/
theorem RoutedTo.foundBy {publicOta : G} {index : UInt32} {concealRandom : G}
    (h : coin.RoutedTo params (KeySet.ofPrivateKey sk : KeySet F G).address sender random publicOta index
      concealRandom) : coin.FoundBy params sk random sender := by
  -- The address has the public key of the secret that the recipient uses, so both sides share a secret.
  obtain rfl : baseMultiple sk.otaSecret = publicOta := Option.some.inj h.routed.ota
  have hshared : sk.otaSecret • (baseMultiple random : G) = random • (baseMultiple sk.otaSecret : G) :=
    smul_baseMultiple _ _
  have haddressed : coin.Addressed ⟨sk.publicSpend, sk.otaSecret⟩
      (OneTimeKey.derive (PointGroup.encode (random • (baseMultiple sk.otaSecret : G))) index
        sk.publicSpend) ⟨baseMultiple random, index, concealRandom⟩ := by
    refine ⟨h.publicKey_eq, h.txRandom_eq, ?_⟩
    rw [hshared]
    rfl
  obtain ⟨hbelongs, hsecret⟩ :=
    recognise_of_addressed (rfl : (KeySet.ofPrivateKey sk : KeySet F G).otaKey = _) haddressed
  obtain ⟨secret, hspends⟩ := exists_addressed_iff_spendsWith.mp ⟨_, haddressed⟩
  obtain ⟨shard, hshard, hkey, hdigits⟩ := h.routed.shows
  have hlast : coin.lastByte = .ok (ShieldedPayments.lastByte (OneTimeKey.derive
      (PointGroup.encode (random • (baseMultiple sk.otaSecret : G))) index
        (sk.publicSpend : G))) := by
    unfold lastByte
    rw [h.publicKey_eq]
    rfl
  refine ⟨hbelongs, hsecret.trans (congrArg some hshared), ?_, ⟨shard, hshard, ?_, ?_⟩, ?_⟩
  · exact ⟨_, secret, hspends.publicKey_eq, hspends.secret_eq, hspends.multiple_eq,
      hspends.keyImageFor_eq⟩
  · unfold shardId
    rw [hlast]
    exact hkey
  · intro source origin hsender
    unfold shardDigits
    rw [hlast]
    exact hdigits source origin hsender
  · exact ⟨_, ofBytes_toBytes h.fits⟩

/-- **Recipients find and spend what they are paid.** A coin that pays to the address of a private key, made
in any of the three ways, is found by the owner of the key, whatever was done to it since, except that it
was redacted. -/
theorem recipient_finds_paid_coin (sk : PrivateKey F) {coin later : OneTimeCoin F G}
    (hpaid : Paid params (KeySet.ofPrivateKey sk : KeySet F G).address random sender coin)
    (operations : List (Operation F G)) (hredact : .redact ∉ operations)
    (hlater : afterAll operations coin = later) : later.FoundBy params sk random sender := by
  obtain ⟨publicOta, index, concealRandom, hrouted⟩ := hpaid.routedTo
  have hkeeps := keepsKey_afterAll operations hredact hrouted.fits
  rw [hlater] at hkeeps
  exact (hrouted.of_keepsKey hkeeps).foundBy

/-! ## A minted coin -/

section

open Curve (Scalar)

/-- The tape of zeros. -/
def zeroTape : Tape :=
  ⟨[], fun _ => [], 0⟩

/-- A private key for which a sender who draws zero finds a one-time key whose last byte is one. -/
def minterKey : PrivateKey Scalar :=
  ⟨ofNat (2 ^ 248) - OneTimeKey.offset (0 : Exponent) 1⟩

/-- A payment to the owner of this key, minted in the only shard. -/
def minterRequest : CoinRequest Exponent where
  payment := ⟨(KeySet.ofPrivateKey minterKey).address, 10, []⟩
  sender := some (0, .mint)

theorem firstScalar_zeroTape : (zeroTape.firstScalar : Scalar) = 0 := by decide +kernel

theorem lastByte_minted : ShieldedPayments.lastByte (baseMultiple (ofNat (2 ^ 248)) : Exponent) = 1 := by
  decide +kernel

theorem routed_minterRequest :
    OneTimeKey.Routed { numShards := 1, maxTries := 2 } minterRequest.payment.address
      minterRequest.sender (zeroTape.firstScalar : Scalar) (baseMultiple minterKey.otaSecret) 1 := by
  refine ⟨rfl, 0, ShardParams.shardOf_single rfl _, ?_⟩
  rw [firstScalar_zeroTape, zero_smul]
  have hkey : OneTimeKey.derive (PointGroup.encode (0 : Exponent)) 1
      minterRequest.payment.address.publicSpend = baseMultiple (ofNat (2 ^ 248)) :=
    OneTimeKey.derive_sub_offset 0 1 _
  rw [hkey]
  refine OneTimeKey.search_eq_first (Nat.le_refl 2) (fun _ => rfl) hkey ?_
  rw [lastByte_minted]
  rfl

/-- The owner finds the coin after it was concealed, encoded and read back. -/
theorem recipient_finds_minted_coin :
    ∃ coin concealed read : OneTimeCoin Scalar Exponent,
      ((pay { numShards := 1, maxTries := 2 } minterRequest).runOn zeroTape).1 = .ok coin ∧
      coin.conceal minterRequest.payment.address.publicView = .ok concealed ∧
      ofBytes concealed.toBytes = .ok read ∧
      read.FoundBy { numShards := 1, maxTries := 2 } minterKey 0 (some (0, .mint)) := by
  let publicView : Exponent := minterRequest.payment.address.publicView
  let coin : OneTimeCoin Scalar Exponent :=
    made minterRequest.payment (baseMultiple minterKey.otaSecret) (.read zeroTape 1) none none
  have hpay : ((pay { numShards := 1, maxTries := 2 } minterRequest).runOn zeroTape).1 = .ok coin :=
    runOn_pay_eq_ok_iff.mpr ⟨_, _, routed_minterRequest, rfl⟩
  have hfits : coin.Fits := (routedTo_made routed_minterRequest none none).fits
  obtain ⟨concealed, hconceal⟩ : ∃ concealed, coin.conceal publicView = .ok concealed :=
    exists_conceal _ _ _ _ _ _
  have hconcealed : ((Operation.conceal publicView).run coin).2 = concealed := by
    rw [Operation.run, runOn_concealInPlace, hconceal]
    rfl
  have hread := ofBytes_toBytes (hconcealed ▸ ((Operation.conceal publicView).keeps hfits).fits)
  have hlater : afterAll [.conceal publicView, .recode] coin = concealed.forgetTag := by
    show (Operation.recode.run ((Operation.conceal publicView).run coin).2).2 = _
    rw [hconcealed, Operation.run, hread]
    rfl
  have hpaid := Paid.native (rfl : minterRequest.payment.address = _) hpay
  have hfound := recipient_finds_paid_coin minterKey hpaid _ (by simp) hlater
  rw [firstScalar_zeroTape] at hfound
  exact ⟨coin, concealed, concealed.forgetTag, hpay, hconceal, hread, hfound⟩

end

end ShieldedPayments.OneTimeCoin
