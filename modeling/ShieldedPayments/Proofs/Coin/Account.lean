import ShieldedPayments.Proofs.Group.Pedersen
import ShieldedPayments.Proofs.Fault
import ShieldedPayments.Coin.Account

/-!
# Openings of account coins

A coin opens if its fields are there and combine to its commitment (`AccountCoin.Opens`), which is
what `verifyCommitment` checks.
-/

namespace ShieldedPayments

theorem ShardParams.exists_shardOf {params : ShardParams} (h : params.numShards ≠ 0)
    (lastByte : UInt8) : ∃ shard, params.shardOf lastByte = .ok shard :=
  ⟨lastByte % params.numShards, if_neg h⟩

namespace AccountCoin

variable {F G : Type} [ScalarField F] [PointGroup F G]

/-- A coin that has all the fields that its commitment is computed from can be committed. -/
theorem exists_commit {coin : AccountCoin F G} {params : ShardParams} {publicKey : G}
    {derivator randomness : F} (hshards : params.numShards ≠ 0) (hkey : coin.publicKey = some publicKey)
    (hderivator : coin.derivator = some derivator) (hrandomness : coin.randomness = some randomness) :
    ∃ committed, coin.commit params = .ok committed := by
  obtain ⟨shard, hshard⟩ := ShardParams.exists_shardOf hshards (lastByte publicKey)
  have hexpected : coin.expectedCommitment params = .ok (publicKey + Pedersen.commitAll 0
      (ofNat coin.value.toNat) derivator (ofNat shard.toNat) randomness) := by
    unfold expectedCommitment shardId
    simp only [require_eq_ok_iff, Outcome.bind_eq_ok_iff]
    exact ⟨publicKey, hkey, derivator, hderivator, randomness, hrandomness, shard,
      ⟨publicKey, hkey, hshard⟩, rfl⟩
  exact ⟨_, Outcome.bind_eq_ok_iff.mpr ⟨_, hexpected, rfl⟩⟩

/-- The fields of a coin open its commitment. -/
structure Opens (coin : AccountCoin F G) (params : ShardParams) (publicKey : G) (derivator : F)
    (shard : UInt8) (randomness : F) : Prop where
  publicKey_eq : coin.publicKey = some publicKey
  derivator_eq : coin.derivator = some derivator
  shard_eq : params.shardOf (lastByte publicKey) = .ok shard
  randomness_eq : coin.randomness = some randomness
  commitment_eq : coin.commitment = some (publicKey
    + (ofNat coin.value.toNat : F) • (pedersen : PedersenBases G).value
    + derivator • (pedersen : PedersenBases G).derivator
    + (ofNat shard.toNat : F) • (pedersen : PedersenBases G).shard
    + randomness • (pedersen : PedersenBases G).blinding)

variable [ScalarField.Lawful F] [PointGroup.Lawful F G]

theorem verifyCommitment_eq_ok_iff (coin : AccountCoin F G) (params : ShardParams) :
    coin.verifyCommitment params = .ok () ↔
      ∃ publicKey derivator shard randomness,
        coin.Opens params publicKey derivator shard randomness := by
  unfold verifyCommitment expectedCommitment shardId
  simp only [Outcome.bind_eq_ok_iff, require_eq_ok_iff, Outcome.pure_eq_ok_iff, ensure_eq_ok_iff,
    beq_iff_eq, Pedersen.commitAll_eq, zero_smul, zero_add]
  constructor
  · rintro ⟨stored, hstored, _, ⟨pk, hpk, d, hd, r, hr, s, ⟨pk', hpk', hs⟩, rfl⟩, rfl⟩
    obtain rfl := Option.some.inj (hpk.symm.trans hpk')
    refine ⟨pk, d, s, r, hpk, hd, hs, hr, ?_⟩
    rw [hstored]
    congr 1
    abel
  · rintro ⟨pk, d, s, r, hpk, hd, hs, hr, hcommitment⟩
    refine ⟨_, hcommitment, _, ⟨pk, hpk, d, hd, r, hr, s, ⟨pk, hpk, hs⟩, rfl⟩, ?_⟩
    abel

/-- A coin opens the commitment that was computed from its fields. -/
theorem opens_of_commit {coin committed : AccountCoin F G} {params : ShardParams}
    (h : coin.commit params = .ok committed) :
    committed = { coin with commitment := committed.commitment } ∧
      ∃ publicKey derivator shard randomness,
        committed.Opens params publicKey derivator shard randomness := by
  unfold commit at h
  obtain ⟨commitment, hexpected, h⟩ := Outcome.bind_eq_ok_iff.mp h
  obtain rfl := Outcome.pure_eq_ok_iff.mp h
  refine ⟨rfl, (verifyCommitment_eq_ok_iff _ _).mp ?_⟩
  unfold verifyCommitment
  rw [require_bind_eq_ok_iff]
  refine ⟨commitment, rfl, Outcome.bind_eq_ok_iff.mpr ⟨commitment, hexpected, ?_⟩⟩
  rw [ensure_eq_ok_iff, beq_iff_eq]

/-- The commitment that a coin opens is the one that its fields lead to. -/
theorem Opens.expectedCommitment_eq {coin : AccountCoin F G} {params : ShardParams} {publicKey : G}
    {derivator randomness : F} {shard : UInt8}
    (h : coin.Opens params publicKey derivator shard randomness) :
    ∃ commitment, coin.commitment = some commitment ∧
      coin.expectedCommitment params = .ok commitment := by
  have hverified := (verifyCommitment_eq_ok_iff coin params).mpr ⟨_, _, _, _, h⟩
  unfold verifyCommitment at hverified
  rw [require_bind_eq_ok_iff] at hverified
  obtain ⟨stored, hstored, hverified⟩ := hverified
  obtain ⟨expected, hexpected, hsame⟩ := Outcome.bind_eq_ok_iff.mp hverified
  rw [ensure_eq_ok_iff, beq_iff_eq] at hsame
  exact ⟨stored, hstored, hsame ▸ hexpected⟩

end AccountCoin

end ShieldedPayments
