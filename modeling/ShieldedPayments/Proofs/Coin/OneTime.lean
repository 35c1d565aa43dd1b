import Mathlib.Algebra.Module.Torsion.Field
import ShieldedPayments.Proofs.Group.Pedersen
import ShieldedPayments.Proofs.Bytes
import ShieldedPayments.Coin.OneTime

/-!
# Values of one-time coins

A one-time coin shows that it is open by opening to a mask and an amount (`isEncrypted_eq_false_iff`). The
amount is a scalar, and the value of the coin the low 64 bits of that scalar (`toNat_lowWord`). So a coin
without an asset tag that opens is worth its amount exactly if the amount is a number of 64 bits
(`commitment_eq_value_iff`).
-/

namespace ShieldedPayments.OneTimeCoin

variable {F G : Type} [ScalarField F] [PointGroup F G]

/-- The commitment of a coin is that to a mask and an amount, which are stored in it. -/
structure OpensTo (coin : OneTimeCoin F G) (mask amount : F) : Prop where
  mask_eq : coin.mask = some mask
  amount_eq : coin.amount = some amount
  commitment_eq : coin.commitment = some (amount • coin.amountBase
    + mask • (pedersen : PedersenBases G).blinding)

/-- A coin without an asset tag opens, so that its amount is committed to over the value base. -/
structure PlainOpens (coin : OneTimeCoin F G) (mask amount : F) : Prop extends
    coin.OpensTo mask amount where
  assetTag_eq : coin.assetTag = none

theorem toNat_lowWord (s : F) : (lowWord s).toNat = (ScalarField.encode s).toNatLE % 2 ^ 64 := by
  have h256 : 256 ^ 8 = 2 ^ 64 := by decide
  unfold lowWord
  rw [Bytes.toNatLE_take, h256, Nat.toUInt64_eq, UInt64.toNat_ofNat', Nat.mod_mod]

/-- The value of an amount of 64 bits is the amount. -/
theorem lowWord_ofNat [ScalarField.Canonical F] (v : UInt64) : lowWord (ofNat v.toNat : F) = v := by
  rw [← UInt64.toNat_inj, toNat_lowWord,
    ScalarField.Canonical.encode_ofNat _ (ScalarField.toNat_lt_groupOrder v)]
  exact Nat.mod_eq_of_lt v.toNat_lt

theorem ofNat_lowWord_eq_iff [ScalarField.Canonical F] (s : F) :
    (ofNat (lowWord s).toNat : F) = s ↔ (ScalarField.encode s).toNatLE < 2 ^ 64 := by
  constructor
  · intro h
    have hencode := ScalarField.Canonical.encode_ofNat (F := F) _
      (ScalarField.toNat_lt_groupOrder (lowWord s))
    rw [h] at hencode
    rw [hencode]
    exact (lowWord s).toNat_lt
  · intro h
    rw [toNat_lowWord, Nat.mod_eq_of_lt h, ScalarField.Canonical.ofNat_encode]

variable {coin : OneTimeCoin F G} {mask amount : F}

omit [ScalarField F] in
theorem OpensTo.expectedCommitment_eq (h : coin.OpensTo mask amount) :
    coin.expectedCommitment = coin.commitment := by
  unfold expectedCommitment
  rw [h.mask_eq, h.amount_eq, h.commitment_eq]
  rfl

omit [ScalarField F] in
theorem PlainOpens.commitment_eq_plain (h : coin.PlainOpens mask amount) :
    coin.commitment = some (amount • (pedersen : PedersenBases G).value
      + mask • (pedersen : PedersenBases G).blinding) := by
  have hbase : coin.amountBase = (pedersen : PedersenBases G).value := by
    rw [amountBase, h.assetTag_eq]
    rfl
  rw [h.commitment_eq, hbase]

variable [PointGroup.Lawful F G]

theorem isEncrypted_eq_false_iff : coin.isEncrypted = false ↔ ∃ mask amount, coin.OpensTo mask amount := by
  constructor
  · unfold isEncrypted expectedCommitment
    intro h
    cases hmask : coin.mask with
    | none => simp [hmask] at h
    | some mask =>
      cases hamount : coin.amount with
      | none => simp [hmask, hamount] at h
      | some amount =>
        cases hstored : coin.commitment with
        | none => simp [hmask, hamount, hstored] at h
        | some stored =>
          rw [hmask, hamount, hstored] at h
          have hsame := bne_eq_false_iff_eq.mp h
          exact ⟨mask, amount, hmask, hamount, hstored.trans (congrArg some hsame.symm)⟩
  · rintro ⟨mask, amount, hopens⟩
    unfold isEncrypted
    rw [hopens.expectedCommitment_eq, hopens.commitment_eq]
    exact bne_self_eq_false _

theorem plain_and_open_iff :
    coin.assetTag = none ∧ coin.isEncrypted = false ↔ ∃ mask amount, coin.PlainOpens mask amount := by
  rw [isEncrypted_eq_false_iff]
  exact ⟨fun ⟨htag, mask, amount, hopens⟩ => ⟨mask, amount, hopens, htag⟩,
    fun ⟨mask, amount, hopens⟩ => ⟨hopens.assetTag_eq, mask, amount, hopens.toOpensTo⟩⟩

theorem OpensTo.value_eq (h : coin.OpensTo mask amount) : coin.value = lowWord amount := by
  have hopen := isEncrypted_eq_false_iff.mpr ⟨mask, amount, h⟩
  rw [value, h.amount_eq, hopen]

/-- **A coin that opens is committed to its value exactly if its amount has 64 bits.** -/
theorem commitment_eq_value_iff [ScalarField.Lawful F] [ScalarField.Canonical F]
    (h : coin.PlainOpens mask amount)
    (hbase : (pedersen : PedersenBases G).value ≠ 0) :
    coin.commitment = some ((ofNat coin.value.toNat : F) • (pedersen : PedersenBases G).value
        + mask • (pedersen : PedersenBases G).blinding) ↔
      (ScalarField.encode amount).toNatLE < 2 ^ 64 := by
  rw [h.commitment_eq_plain, h.value_eq, Option.some_inj, add_left_inj, smul_left_inj hbase, eq_comm,
    ofNat_lowWord_eq_iff]

end ShieldedPayments.OneTimeCoin
