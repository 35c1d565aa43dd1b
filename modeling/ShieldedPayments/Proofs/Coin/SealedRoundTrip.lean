import ShieldedPayments.Proofs.Coin.AccountCodec
import ShieldedPayments.Proofs.Coin.Sealing
import ShieldedPayments.Proofs.Group.Exponents

/-!
# A sealed coin opens to what was sealed

A sender commits an account coin, seals its randomness and its value to a public view key, strips the coin of
both, and encodes it. Whoever has the view secret reads the coin, and finds all of it again: the sealed bytes
are the randomness and the shortest form of the value, so they are taken apart where the randomness ends,
and what was put together opens the commitment (`SealedCoin.sealed_reveals_original`). The serial number is
not sealed. It is computed anew from the private key, or stays out where there is none.
-/

namespace ShieldedPayments.SealedCoin

variable {F G : Type} [ScalarField F] [PointGroup F G] [ScalarField.Lawful F] [PointGroup.Lawful F G]
  [ScalarField.Canonical F] [PointGroup.Canonical F G]

/-- **A sealed coin opens to what was sealed.** A coin with a public key, a derivator and a randomness can be
committed if there are shards. Let its memo have at most 255 bytes, and seal the committed coin to the public
key of a view secret, on any tape, in place of whatever was sealed in it before. The coin is read back after
it was stripped and encoded. Sealed in it are the 32 bytes of the randomness, and the value, most significant
byte first and without leading zeros: no bytes at all if it is zero. Every key set that decrypts with the
view secret, by its viewing key or for want of one by its private key, opens it to the committed coin, with
the serial number of the private key if there is one and without a serial number otherwise. -/
theorem sealed_reveals_original {coin : AccountCoin F G} {publicKey : G} {derivator randomness : F}
    (hkey : coin.publicKey = some publicKey) (hderivator : coin.derivator = some derivator)
    (hrandomness : coin.randomness = some randomness) (hinfo : coin.info.length ≤ 255)
    (params : ShardParams) :
    (params.numShards ≠ 0 → ∃ committed, coin.commit params = .ok committed) ∧
    ∀ committed, coin.commit params = .ok committed →
      ∀ (before : Option HybridCiphertext) (view : F) (t : Tape), ∃ sealed rest,
        (sealTo ⟨committed, before⟩ (baseMultiple view : G)).runOn t = (.ok sealed, rest) ∧
        ofBytes sealed.strip.toBytes = .ok sealed.strip ∧
        (∃ ct number, sealed.encrypted = some ct ∧
          ct.decrypt G view = .ok (ScalarField.encode randomness ++ number) ∧
          (ScalarField.encode randomness).length = 32 ∧ number.Shortest coin.value.toNat ∧
          (coin.value = 0 → number = [])) ∧
        ∀ keys : KeySet F G, keys.viewSecret = some view →
          sealed.strip.reveal keys params = .ok { committed with
            serialNumber := keys.privateKey.map fun sk => Pedersen.serialNumber sk.secret derivator } := by
  refine ⟨fun hshards => AccountCoin.exists_commit hshards hkey hderivator hrandomness, ?_⟩
  intro committed hcommit before view t
  obtain ⟨hfields, publicKey', derivator', shard, randomness', hopens⟩ :=
    AccountCoin.opens_of_commit hcommit
  -- Only the commitment is new in the coin that is sealed.
  obtain rfl : derivator = derivator' := by
    rw [hfields] at hopens
    exact Option.some.inj (hderivator.symm.trans hopens.derivator_eq)
  obtain rfl : randomness = randomness' := by
    rw [hfields] at hopens
    exact Option.some.inj (hrandomness.symm.trans hopens.randomness_eq)
  have hvalue : committed.value = coin.value := by rw [hfields]
  have hfits : committed.Fits := by
    rw [hfields]
    exact hinfo
  have hsealed : (⟨committed, before⟩ : SealedCoin F G).details.randomness = some randomness :=
    hopens.randomness_eq
  refine ⟨_, _, sealTo_runOn hsealed _ t, ?_,
    ⟨_, trimmedNumber committed.value, rfl, HybridCiphertext.decrypt_encrypt _ view t,
      ScalarField.Canonical.length_encode randomness, hvalue ▸ shortest_trimmedNumber committed.value,
      fun hzero => ?_⟩, fun keys hview => reveal_encrypt hview hopens t⟩
  · exact ofBytes_toBytes (fits_strip_encrypt hfits randomness _ t)
  · rw [hvalue, hzero]
    rfl

/-! ## A coin of nothing with a long memo -/

open Curve (Scalar)

/-- A coin of value zero with the longest memo, and with a serial number that is not its own. -/
def coinOfNothing : AccountCoin Scalar Exponent where
  publicKey := some ⟨2⟩
  derivator := some 3
  serialNumber := some ⟨9⟩
  randomness := some 7
  info := List.replicate 255 1

/-- The owner of a private key opens the coin and finds the serial number, whoever has only the viewing key
finds none, and nothing but the 32 bytes of the randomness was sealed. -/
theorem sealed_reveals_original_nothing :
    ∃ (committed : AccountCoin Scalar Exponent) (sealed : SealedCoin Scalar Exponent)
      (ct : HybridCiphertext),
      coinOfNothing.commit { numShards := 1 } = .ok committed ∧
      sealed.encrypted = some ct ∧
      ct.decrypt Exponent (PrivateKey.privateView ⟨4⟩ : Scalar) = .ok (ScalarField.encode (7 : Scalar)) ∧
      ofBytes sealed.strip.toBytes = .ok sealed.strip ∧
      sealed.strip.reveal (.ofPrivateKey ⟨4⟩) { numShards := 1 } =
        .ok { committed with serialNumber := some (Pedersen.serialNumber 4 3) } ∧
      sealed.strip.reveal (.ofViewingKey ⟨⟨4⟩, PrivateKey.privateView ⟨4⟩⟩ ⟨⟨4⟩, ⟨0⟩, none⟩)
        { numShards := 1 } = .ok { committed with serialNumber := none } := by
  have hinfo : coinOfNothing.info.length ≤ 255 := List.length_replicate.le
  obtain ⟨hcommits, hseals⟩ := sealed_reveals_original rfl rfl rfl hinfo { numShards := 1 }
  obtain ⟨committed, hcommit⟩ := hcommits (by decide)
  obtain ⟨sealed, -, -, hread, ⟨ct, number, hsealed, hdecrypt, -, -, hzero⟩, hreveals⟩ :=
    hseals committed hcommit none (PrivateKey.privateView ⟨4⟩) ⟨[], fun _ => [], 0⟩
  rw [hzero rfl, List.append_nil] at hdecrypt
  exact ⟨committed, sealed, ct, hcommit, hsealed, hdecrypt, hread, hreveals (.ofPrivateKey ⟨4⟩) rfl,
    hreveals (.ofViewingKey _ _) rfl⟩

end ShieldedPayments.SealedCoin
