import ShieldedPayments.Encryption.Hybrid
import ShieldedPayments.Group.Pedersen
import ShieldedPayments.Keys.Basic
import ShieldedPayments.Shards.Basic

/-!
# Account coins

Coins of version 1 belong to their owner's spend key. The coin's commitment combines the spend key,
the value, a derivator from which the serial number follows, the owner's shard and a blinding; its
opening is either in the open or sealed to the owner's view key.

* `AccountCoin`: the fields of a coin, each of which may be absent.
* `SealedCoin`: a coin as an output, with a sealed opening under privacy.
* `SealedCoin.sealTo`, `SealedCoin.reveal`: sealing and opening.
-/

namespace ShieldedPayments

/-- The most bytes of a coin's memo (`MAX_SIZE_INFO_COIN`). -/
def maxInfoSize : Nat := 255

/-- A coin of version 1: its fields in the open (`PlainCoinV1`). -/
structure AccountCoin (F G : Type) where
  publicKey : Option G := none
  commitment : Option G := none
  derivator : Option F := none
  serialNumber : Option G := none
  randomness : Option F := none
  value : UInt64 := 0
  info : Bytes := []
  deriving BEq, Inhabited

/-- An output of version 1: a coin, and its opening sealed to the owner (`CoinV1`). -/
structure SealedCoin (F G : Type) where
  details : AccountCoin F G := {}
  encrypted : Option HybridCiphertext := none
  deriving BEq, Inhabited

variable {F G : Type} [ScalarField F] [PointGroup F G]

namespace AccountCoin

/-- A coin for a public key, without a commitment (`PlainCoinV1::new`). -/
def issue (publicKey : G) (value : UInt64) (derivator : F) (info : Bytes) : AccountCoin F G :=
  { publicKey := some publicKey, value, derivator := some derivator, info := info.take maxInfoSize }

/-- The shard of the owner (`PlainCoinV1::shard_id`). -/
def shardId (coin : AccountCoin F G) (params : ShardParams) : Outcome UInt8 := do
  let publicKey ← require coin.publicKey (.invalidInput "coin has no public key")
  params.shardOf (lastByte publicKey)

/-- The commitment that the fields open (`PlainCoinV1::expected_commitment`). The spend key enters
as the public key itself. -/
def expectedCommitment (coin : AccountCoin F G) (params : ShardParams) : Outcome G := do
  let publicKey ← require coin.publicKey (.invalidInput "coin has no public key")
  let derivator ← require coin.derivator (.invalidInput "coin has no serial number derivator")
  let randomness ← require coin.randomness (.invalidInput "coin has no randomness")
  let shard ← coin.shardId params
  return publicKey + Pedersen.commitAll 0 (ofNat coin.value.toNat) derivator
    (ofNat shard.toNat) randomness

/-- The coin with the commitment that its fields open (`PlainCoinV1::commit_all`). -/
def commit (coin : AccountCoin F G) (params : ShardParams) : Outcome (AccountCoin F G) := do
  return { coin with commitment := some (← coin.expectedCommitment params) }

/-- Refuses a coin whose fields do not open its commitment (`PlainCoinV1::verify_commitment`). -/
def verifyCommitment (coin : AccountCoin F G) (params : ShardParams) : Outcome Unit := do
  let stored ← require coin.commitment (.commitmentMismatch "coin has no commitment")
  ensure (stored == (← coin.expectedCommitment params)) (.commitmentMismatch "coin v1 commitment")

/-- The coin as an input whose owner stays unknown: only its serial number is left
(`PlainCoinV1::conceal_input`). -/
def redact (coin : AccountCoin F G) : AccountCoin F G :=
  { serialNumber := coin.serialNumber }

/-- Whether a coin pays an amount to an address and opens its commitment
(`PlainCoinV1::check_coin_valid`). -/
def pays (coin : AccountCoin F G) (params : ShardParams) (address : PaymentAddress G)
    (amount : UInt64) : Outcome Bool :=
  if coin.value == amount && coin.publicKey == some address.publicSpend then
    match coin.verifyCommitment params with
    | .ok () => .ok true
    | .error .undefined => .error .undefined
    | .error _ => .ok false
  else .ok false

/-- Whether a coin belongs to the owner of a key set (`does_coin_belong_to_key_set` of
`PlainCoinV1`). -/
def belongsTo (coin : AccountCoin F G) (keys : KeySet F G) : Bool :=
  coin.publicKey == some keys.address.publicSpend

/-- The fields one after the other: optional elements, then the value and the memo with length bytes
(`PlainCoinV1::to_bytes`). -/
def toBytes (coin : AccountCoin F G) : Bytes :=
  Writer.optPoint coin.publicKey ++ Writer.optPoint coin.commitment
    ++ Writer.optScalar coin.derivator ++ Writer.optPoint coin.serialNumber
    ++ Writer.optScalar coin.randomness ++ Writer.shortPrefixed (trimmedNumber coin.value)
    ++ Writer.shortPrefixed coin.info

/-- Reads the fields of a coin. -/
def reader : Reader (AccountCoin F G) := do
  let publicKey ← Reader.optPoint
  let commitment ← Reader.optPoint
  let derivator ← Reader.optScalar
  let serialNumber ← Reader.optPoint
  let randomness ← Reader.optScalar
  let value ← numberOfTrimmed (← Reader.prefixed 1)
  let info ← Reader.prefixed 1
  return { publicKey, commitment, derivator, serialNumber, randomness, value, info }

/-- The coin whose encoding these bytes start with (`PlainCoinV1::from_bytes`). -/
def ofBytes (b : Bytes) : Outcome (AccountCoin F G) := do
  ensure (!b.isEmpty) (.malformedEncoding "empty plain coin")
  reader.result b

end AccountCoin

/-! ## Lengths of two widths -/

/-- A length below 256 in one byte, a longer one in two, most significant first
(`write_dual_len`). -/
def dualLength (n : Nat) : Bytes :=
  if n ≤ 255 then Writer.count n else Writer.number 2 n

/-- Reads bytes behind a length of one or two bytes, which the encoding does not tell apart
(`read_dual_len`). The length is taken to have one byte if it is not zero and the bytes it delimits
can be parsed, and two bytes otherwise. -/
def Reader.dualPrefixed {α : Type} (parse : Bytes → Outcome α) : Reader α := do
  let wide : Reader α := do parse (← Reader.prefixed 2)
  match ← Reader.rest with
  | [] => throw (.malformedEncoding "missing length prefix")
  | first :: tail =>
    let length := first.toNat
    if length = 0 then wide
    else
      let inner := tail.take length
      if inner.length = length then
        match parse inner with
        | .ok a =>
          set (tail.drop length)
          return a
        | .error _ => wide
      else throw (.malformedEncoding "length prefix past end")

namespace SealedCoin

/-- What the owner of a coin has to know to open its commitment: the randomness, and the value
without leading zero bytes (`msg` in `CoinV1::encrypt`). -/
def opening (randomness : F) (value : UInt64) : Bytes :=
  ScalarField.encode randomness ++ trimmedNumber value

/-- Seals the opening of a coin to a public view key (`CoinV1::encrypt`). -/
def sealTo (coin : SealedCoin F G) (publicView : G) : Proving (SealedCoin F G) := do
  let randomness ← require coin.details.randomness
    (.invalidInput "coin has no randomness to encrypt")
  let sealed ← ExceptT.lift
    (HybridCiphertext.encrypt (opening randomness coin.details.value) publicView)
  return { coin with encrypted := some sealed }

/-- The coin without what its sealed opening holds (`CoinV1::conceal_output`). -/
def strip (coin : SealedCoin F G) : SealedCoin F G :=
  { coin with
    details := { coin.details with value := 0, randomness := none, serialNumber := none } }

/-- A coin with its randomness and value taken from the bytes of an opening (the part of
`CoinV1::decrypt` that reads the opening). -/
def withOpening (coin : AccountCoin F G) (opening : Bytes) : Outcome (AccountCoin F G) := do
  ensure (elementSize ≤ opening.length) (.decryptionFailure "opening too short")
  let randomness ← (scalarOfBytes (opening.take elementSize)).mapError fun _ =>
    .decryptionFailure "opening randomness"
  let value ← (numberOfTrimmed (opening.drop elementSize)).mapError fun _ =>
    .decryptionFailure "opening value"
  return { coin with randomness := some randomness, value }

/-- The fields of a coin together with what is sealed (the part of `CoinV1::decrypt` that needs the
view key). A sealed opening has to open the commitment, if there is one. -/
def openSeal (coin : SealedCoin F G) (view : F) (params : ShardParams) : Outcome (AccountCoin F G) :=
  match coin.encrypted with
  | none => .ok coin.details
  | some ct => do
    let opened ← withOpening coin.details (← ct.decrypt G view)
    if opened.commitment.isSome then opened.verifyCommitment params
    return opened

/-- Opens a coin; a private key adds the serial number (`CoinV1::decrypt`). -/
def reveal (coin : SealedCoin F G) (keys : KeySet F G) (params : ShardParams) :
    Outcome (AccountCoin F G) := do
  let view ← keys.requireDecryption
  let opened ← coin.openSeal view params
  match keys.privateKey with
  | none => return opened
  | some sk =>
    let derivator ← require opened.derivator
      (.decryptionFailure "coin has no serial number derivator")
    return { opened with serialNumber := some (Pedersen.serialNumber sk.secret derivator) }

/-- The sealed opening with a length byte, and the coin with a length of one or two bytes
(`CoinV1::to_bytes`). -/
def toBytes (coin : SealedCoin F G) : Bytes :=
  let encrypted := match coin.encrypted with
    | some ct => ct.toBytes
    | none => []
  let details := coin.details.toBytes
  Writer.shortPrefixed encrypted ++ dualLength details.length ++ details

/-- Reads a sealed opening and a coin. -/
def reader : Reader (SealedCoin F G) := do
  let encrypted ← Reader.prefixed 1
  let encrypted ← if encrypted.isEmpty then pure none
    else do pure (some (← HybridCiphertext.ofBytes G encrypted))
  let details ← Reader.dualPrefixed AccountCoin.ofBytes
  return { details, encrypted }

/-- The coin whose encoding these bytes start with (`CoinV1::from_bytes`). -/
def ofBytes (b : Bytes) : Outcome (SealedCoin F G) := do
  ensure (!b.isEmpty) (.malformedEncoding "empty coin")
  reader.result b

end SealedCoin

end ShieldedPayments
