import ShieldedPayments.Proofs.Coin.OneTime
import ShieldedPayments.Proofs.Coin.Recognition

/-!
# Outputs that a sender advertises

A sender can show the random scalar of an output, and whoever knows the address and the amount checks
the output against them (`OneTimeCoin.pays`). An output that passes was sent to the address, so that its
owner recognises it, and opens its commitment; but of the amount that it opens only the low 64 bits
are compared (`OneTimeCoin.pays_eq_true_iff`). `OneTimeCoin.advertised_checked` says when this is enough.
-/

namespace ShieldedPayments.OneTimeCoin

open PointGroup

variable {F G : Type} [ScalarField F] [PointGroup F G]

/-- The randomness of a coin is a multiple of the base by a scalar, and its one-time key the spend key of
an address, moved by the offset that this scalar and the address lead to. -/
def SentTo (coin : OneTimeCoin F G) (address : PaymentAddress G) (random : F) : Prop :=
  ∃ tx publicOta, coin.txRandom = some tx ∧ tx.otaRandom = baseMultiple random ∧
    address.publicOta = some publicOta ∧ coin.publicKey =
      some (baseMultiple (OneTimeKey.offset (random • publicOta) tx.index) + address.publicSpend)

variable {coin : OneTimeCoin F G} {address : PaymentAddress G} {random : F} {amount : UInt64}

section

variable [PointGroup.Lawful F G]

/-- The part of the check that concerns the amount. -/
theorem open_and_value_iff : (!coin.isEncrypted && coin.value == amount) = true ↔
    ∃ mask s, coin.OpensTo mask s ∧ lowWord s = amount := by
  rw [Bool.and_eq_true, Bool.not_eq_true', beq_iff_eq, isEncrypted_eq_false_iff]
  constructor
  · rintro ⟨⟨mask, s, hopens⟩, hvalue⟩
    exact ⟨mask, s, hopens, hopens.value_eq.symm.trans hvalue⟩
  · rintro ⟨mask, s, hopens, hlow⟩
    exact ⟨⟨mask, s, hopens⟩, hopens.value_eq.trans hlow⟩

/-- **Which outputs are accepted for an amount.** -/
theorem pays_eq_true_iff : coin.pays address random amount = true ↔
    coin.SentTo address random ∧ ∃ mask s, coin.OpensTo mask s ∧ lowWord s = amount := by
  unfold pays
  rw [Bool.and_eq_true, open_and_value_iff, and_comm]
  refine and_congr_left fun _ => ?_
  unfold SentTo
  cases coin.publicKey with
  | none => simp
  | some publicKey =>
    cases coin.txRandom with
    | none => simp
    | some tx =>
      cases address.publicOta with
      | none => simp
      | some publicOta =>
        show (tx.otaRandom == baseMultiple random && _ == publicKey) = true ↔ _
        rw [Bool.and_eq_true, beq_iff_eq, beq_iff_eq]
        constructor
        · rintro ⟨hrandom, hkey⟩
          exact ⟨tx, publicOta, rfl, hrandom, rfl, congrArg some hkey.symm⟩
        · rintro ⟨_, _, ⟨⟩, hrandom, ⟨⟩, hkey⟩
          exact ⟨hrandom, (Option.some.inj hkey).symm⟩

/-- The owner of the address recognises what was sent to it, with the secret of the sender. -/
theorem SentTo.recognised [ScalarField.Lawful F] {sk : PrivateKey F}
    (h : coin.SentTo (KeySet.ofPrivateKey sk : KeySet F G).address random) :
    (coin.recognise (KeySet.ofPrivateKey sk)).belongs = true ∧
      (coin.recognise (KeySet.ofPrivateKey sk)).sharedSecret =
        some (random • baseMultiple sk.otaSecret) := by
  obtain ⟨tx, publicOta, htx, hrandom, hota, hkey⟩ := h
  obtain rfl : baseMultiple sk.otaSecret = publicOta := Option.some.inj hota
  -- Sender and recipient compute one secret, so one offset, from what they know.
  have hshared : random • (baseMultiple sk.otaSecret : G) = sk.otaSecret • tx.otaRandom := by
    rw [hrandom, smul_baseMultiple]
  have haddressed : coin.Addressed ⟨sk.publicSpend, sk.otaSecret⟩
      (baseMultiple (OneTimeKey.offset (random • (baseMultiple sk.otaSecret : G)) tx.index)
        + sk.publicSpend) tx := by
    refine ⟨hkey, htx, ?_⟩
    rw [hshared]
  rw [hshared]
  exact recognise_of_addressed (rfl : (KeySet.ofPrivateKey sk : KeySet F G).otaKey = _) haddressed

end

/-- **Advertised outputs.** For every private key and its address, and for every coin, random scalar and
amount: an output is accepted exactly if it was sent to the address with this scalar and opens its
commitment to an amount whose low 64 bits are the advertised ones. Whatever is accepted is recognised by
the owner, who finds the sender's shared secret. And an output that was sent to the address opens to the
advertised amount itself exactly if it is accepted and its amount has no more than 64 bits. -/
theorem advertised_checked [ScalarField.Lawful F] [ScalarField.Canonical F] [PointGroup.Lawful F G]
    (sk : PrivateKey F) (coin : OneTimeCoin F G) (random : F) (amount : UInt64) :
    (coin.pays (KeySet.ofPrivateKey sk : KeySet F G).address random amount = true ↔
      coin.SentTo (KeySet.ofPrivateKey sk : KeySet F G).address random ∧
        ∃ mask s, coin.OpensTo mask s ∧ lowWord s = amount) ∧
    (coin.pays (KeySet.ofPrivateKey sk : KeySet F G).address random amount = true →
      (coin.recognise (KeySet.ofPrivateKey sk)).belongs = true ∧
      (coin.recognise (KeySet.ofPrivateKey sk)).sharedSecret =
        some (random • baseMultiple sk.otaSecret)) ∧
    (coin.SentTo (KeySet.ofPrivateKey sk : KeySet F G).address random ∧
        (∃ mask, coin.OpensTo mask (ofNat amount.toNat)) ↔
      coin.pays (KeySet.ofPrivateKey sk : KeySet F G).address random amount = true ∧
        ∃ s, coin.amount = some s ∧ (ScalarField.encode s).toNatLE < 2 ^ 64) := by
  refine ⟨pays_eq_true_iff, fun h => (pays_eq_true_iff.mp h).1.recognised, ?_⟩
  rw [pays_eq_true_iff, and_assoc]
  refine and_congr_right fun _ => ⟨?_, ?_⟩
  · rintro ⟨mask, hopens⟩
    have hlow : lowWord (ofNat amount.toNat : F) = amount := lowWord_ofNat amount
    refine ⟨⟨mask, _, hopens, hlow⟩, _, hopens.amount_eq, (ofNat_lowWord_eq_iff _).mp ?_⟩
    rw [hlow]
  · rintro ⟨⟨mask, s, hopens, hlow⟩, s', hamount, hsmall⟩
    obtain rfl : s = s' := Option.some.inj (hopens.amount_eq.symm.trans hamount)
    rw [← hlow, (ofNat_lowWord_eq_iff s).mpr hsmall]
    exact ⟨mask, hopens⟩

/-! ## Two outputs that pass for the same amount -/

/-- An output to the owner of a private key, without a mask. -/
def unmasked (sk : PrivateKey F) (random s : F) : OneTimeCoin F G where
  publicKey := some (baseMultiple (OneTimeKey.offset (random • (baseMultiple sk.otaSecret : G)) 1)
    + sk.publicSpend)
  commitment := some (s • (pedersen : PedersenBases G).value
    + (0 : F) • (pedersen : PedersenBases G).blinding)
  txRandom := some ⟨baseMultiple random, 1, 0⟩
  mask := some 0
  amount := some s

theorem sentTo_unmasked (sk : PrivateKey F) (random s : F) : (unmasked sk random s).SentTo
    (KeySet.ofPrivateKey sk : KeySet F G).address random :=
  ⟨_, _, rfl, rfl, rfl, rfl⟩

theorem opensTo_unmasked (sk : PrivateKey F) (random s : F) :
    (unmasked sk random s : OneTimeCoin F G).OpensTo 0 s :=
  ⟨rfl, rfl, rfl⟩

open Curve (Scalar)

/-- An output of the amount that is advertised passes. -/
theorem advertised_checked_hundred :
    (unmasked ⟨2⟩ 3 (ofNat 100) : OneTimeCoin Scalar Exponent).pays
      (KeySet.ofPrivateKey ⟨2⟩ : KeySet Scalar Exponent).address 3 100 = true :=
  ((advertised_checked ⟨2⟩ (unmasked ⟨2⟩ 3 (ofNat 100)) 3 100).2.2.mp
    ⟨sentTo_unmasked ⟨2⟩ 3 (ofNat 100), 0, opensTo_unmasked ⟨2⟩ 3 (ofNat 100)⟩).1

/-- So does an output of `2 ^ 64` more, which does not open to what is advertised. -/
theorem pays_hundred_of_more :
    (unmasked ⟨2⟩ 3 (ofNat (2 ^ 64 + 100)) : OneTimeCoin Scalar Exponent).pays
      (KeySet.ofPrivateKey ⟨2⟩ : KeySet Scalar Exponent).address 3 100 = true ∧
    ¬∃ mask, (unmasked ⟨2⟩ 3 (ofNat (2 ^ 64 + 100)) : OneTimeCoin Scalar Exponent).OpensTo mask
      (ofNat 100) := by
  have hlow : lowWord (ofNat (2 ^ 64 + 100) : Scalar) = 100 := by decide
  refine ⟨pays_eq_true_iff.mpr ⟨sentTo_unmasked _ _ _, 0, _, opensTo_unmasked _ _ _, hlow⟩, ?_⟩
  rintro ⟨mask, hopens⟩
  have hamount : (ofNat (2 ^ 64 + 100) : Scalar) = ofNat 100 := Option.some.inj hopens.amount_eq
  exact absurd hamount (by decide)

end ShieldedPayments.OneTimeCoin
