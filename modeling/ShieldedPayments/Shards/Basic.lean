import ShieldedPayments.Fault

/-!
# Shards

Which shard a key belongs to is a digit of the last byte of its encoding. Either the byte modulo the
number of shards is all that counts, or, for at most eight shards, the byte is read as three digits:
the receiver's shard, the sender's shard, and whether the coin was transferred or minted.
-/

namespace ShieldedPayments

/-- The most shards whose digits fit one byte (`MAX_PACKED_SHARDS`). -/
def maxPackedShards : UInt8 := 8

/-- The number of shards, and the bound on the search for one-time addresses (`PrivacyParams`). -/
structure ShardParams where
  numShards : UInt8 := 8
  maxTries : UInt32 := 50000
  deriving DecidableEq, Repr, Inhabited

/-- Whether a coin comes from a transfer or was minted (`CoinPrivacyType`). -/
inductive Origin where
  | transfer
  | mint
  deriving DecidableEq, Repr

namespace Origin

/-- The digit of an origin. -/
def toDigit : Origin → UInt8
  | transfer => 0
  | mint => 1

/-- The origin with the given digit (`CoinPrivacyType::try_from`). -/
def ofDigit (d : UInt8) : Outcome Origin :=
  if d = 0 then .ok transfer
  else if d = 1 then .ok mint
  else .error (.malformedEncoding "coin privacy type digit")

end Origin

/-- The three digits packed into the last byte of a one-time key (`ShardInfo`). -/
structure ShardDigits where
  receiver : UInt8
  sender : UInt8
  origin : Origin
  deriving DecidableEq, Repr

namespace ShardParams

/-- Refuses parameters without shards or without tries (`PrivacyParams::validate`). -/
def validate (params : ShardParams) : Outcome Unit := do
  ensure (params.numShards != 0) (.unsupportedShardConfig params.numShards)
  ensure (params.maxTries != 0) (.invalidInput "max_tries_ota must be positive")

/-- The parameters with the given number of shards (`PrivacyParams::new`). -/
def ofNumShards (numShards : UInt8) : Outcome ShardParams := do
  let params : ShardParams := { numShards }
  params.validate
  return params

/-- The shard of a key with the given last byte (`shard_id_from_last_byte`). -/
def shardOf (params : ShardParams) (lastByte : UInt8) : Outcome UInt8 :=
  if params.numShards = 0 then .error .undefined else .ok (lastByte % params.numShards)

/-- Refuses more shards than the packed digits can tell apart (`check_packed_shards`). -/
def checkPacked (params : ShardParams) : Outcome Unit :=
  ensure (params.numShards != 0 && params.numShards ≤ maxPackedShards)
    (.unsupportedShardConfig params.numShards)

/-- The digits packed into a byte (`derive_shard_info`). -/
def unpack (params : ShardParams) (lastByte : UInt8) : Outcome ShardDigits := do
  params.checkPacked
  let n := params.numShards.toNat
  let b := lastByte.toNat
  let origin ← Origin.ofDigit (b / (n * n)).toUInt8
  return ⟨(b % n).toUInt8, (b / n % n).toUInt8, origin⟩

/-- The byte with the given digits (`encode_shard_info`). -/
def pack (params : ShardParams) (digits : ShardDigits) : Outcome UInt8 := do
  params.checkPacked
  ensure (digits.receiver < params.numShards && digits.sender < params.numShards)
    (.invalidInput "shard id out of range")
  let n := params.numShards.toNat
  return (digits.receiver.toNat + digits.sender.toNat * n
    + digits.origin.toDigit.toNat * n * n).toUInt8

end ShardParams

end ShieldedPayments
