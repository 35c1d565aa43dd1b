import ShieldedPayments.Coin.OneTime

/-!
# Coins of any version

Inputs of a payment are coins in the open, outputs may be sealed or concealed. The first byte of an
encoding tells the versions apart: version 2 starts with the byte 2, and version 1 with the length
of a sealed opening or of a public key, which is never 2.

* `InputCoin`, `OutputCoin`: coins on the two sides of a payment.
* `CoinView`: what both versions have in common.
-/

namespace ShieldedPayments

/-- A coin as it is spent (`PlainCoin`). -/
inductive InputCoin (F G : Type) where
  | account (coin : AccountCoin F G)
  | oneTime (coin : OneTimeCoin F G)

/-- A coin as it is created (`Coin`). -/
inductive OutputCoin (F G : Type) where
  | account (coin : SealedCoin F G)
  | oneTime (coin : OneTimeCoin F G)

/-- What coins of all versions have in common (`CoinCommon`). -/
structure CoinView (F G : Type) where
  version : UInt8
  value : UInt64
  commitment : Option G
  publicKey : Option G
  /-- The serial number or the key image. -/
  nullifier : Option G
  randomness : Option F
  assetTag : Option G
  txRandom : Option (TxRandom G)
  info : Bytes
  isEncrypted : Bool
  encoding : Bytes

variable {F G : Type} [ScalarField F] [PointGroup F G]

/-- The version of account coins (`COIN_VERSION_1`). -/
def AccountCoin.version : UInt8 := 1

/-- What an account coin has in common with others. -/
def AccountCoin.view (coin : AccountCoin F G) : CoinView F G where
  version := version
  value := coin.value
  commitment := coin.commitment
  publicKey := coin.publicKey
  nullifier := coin.serialNumber
  randomness := coin.randomness
  assetTag := none
  txRandom := none
  info := coin.info
  isEncrypted := false
  encoding := coin.toBytes

/-- What a sealed coin has in common with others. -/
def SealedCoin.view (coin : SealedCoin F G) : CoinView F G :=
  { coin.details.view with isEncrypted := coin.encrypted.isSome, encoding := coin.toBytes }

/-- What a one-time coin has in common with others. -/
def OneTimeCoin.view (coin : OneTimeCoin F G) : CoinView F G where
  version := version
  value := coin.value
  commitment := coin.commitment
  publicKey := coin.publicKey
  nullifier := coin.keyImage
  randomness := coin.mask
  assetTag := coin.assetTag
  txRandom := coin.txRandom
  info := coin.info
  isEncrypted := coin.isEncrypted
  encoding := coin.toBytes

/-- The shard of a coin (`CoinCommon::shard_id`). -/
def CoinView.shardId (view : CoinView F G) (params : ShardParams) : Outcome UInt8 := do
  params.shardOf (lastByte (← require view.publicKey (.invalidInput "coin has no public key")))

/-- The sealed coin as an input whose owner stays unknown (`CoinV1::conceal_input`). -/
def SealedCoin.redact (coin : SealedCoin F G) : SealedCoin F G :=
  { coin with details := coin.details.redact }

namespace InputCoin

/-- What the versions have in common. -/
def view : InputCoin F G → CoinView F G
  | account coin => coin.view
  | oneTime coin => coin.view

/-- The name of the kind of a coin (`PlainCoin::variant_name`). -/
def kind : InputCoin F G → String
  | account _ => "PlainCoinV1"
  | oneTime _ => "CoinV2"

/-- The coin if it is an account coin. -/
def account? : InputCoin F G → Option (AccountCoin F G)
  | account coin => some coin
  | oneTime _ => none

/-- The coin if it is a one-time coin. -/
def oneTime? : InputCoin F G → Option (OneTimeCoin F G)
  | account _ => none
  | oneTime coin => some coin

/-- The coin as an output, with nothing sealed. -/
def toOutput : InputCoin F G → OutputCoin F G
  | account coin => .account { details := coin }
  | oneTime coin => .oneTime coin

/-- The coin with only its nullifier left (`CoinCommon::conceal_input`). -/
def redact : InputCoin F G → InputCoin F G
  | account coin => account coin.redact
  | oneTime coin => oneTime coin.redact

/-- Whether a coin belongs to a key set, the shared secret of a one-time coin that does, and the
coin with what was found out (`CoinCommon::does_coin_belong_to_key_set`). -/
def recognise (coin : InputCoin F G) (keys : KeySet F G) : Bool × Option G × InputCoin F G :=
  match coin with
  | account c => (c.belongsTo keys, none, account c)
  | oneTime c =>
    let found := c.recognise keys
    (found.belongs, found.sharedSecret, oneTime found.coin)

/-- The encoding of a coin. -/
def toBytes : InputCoin F G → Bytes
  | account coin => coin.toBytes
  | oneTime coin => coin.toBytes

/-- The coin with this encoding (`PlainCoin::from_bytes`). -/
def ofBytes (b : Bytes) : Outcome (InputCoin F G) :=
  match b with
  | [] => .error (.malformedEncoding "empty coin")
  | first :: _ =>
    if first = OneTimeCoin.version then (OneTimeCoin.ofBytes b).map oneTime
    else (AccountCoin.ofBytes b).map account

end InputCoin

namespace OutputCoin

/-- What the versions have in common. -/
def view : OutputCoin F G → CoinView F G
  | account coin => coin.view
  | oneTime coin => coin.view

/-- The name of the kind of a coin (`Coin::variant_name`). -/
def kind : OutputCoin F G → String
  | account _ => "CoinV1"
  | oneTime _ => "CoinV2"

/-- The coin if it is an account coin. -/
def account? : OutputCoin F G → Option (SealedCoin F G)
  | account coin => some coin
  | oneTime _ => none

/-- The coin if it is a one-time coin. -/
def oneTime? : OutputCoin F G → Option (OneTimeCoin F G)
  | account _ => none
  | oneTime coin => some coin

/-- The coin as an input, without what is sealed. -/
def toInput : OutputCoin F G → InputCoin F G
  | account coin => .account coin.details
  | oneTime coin => .oneTime coin

/-- The coin with only its nullifier, and what is sealed, left (`CoinCommon::conceal_input`). -/
def redact : OutputCoin F G → OutputCoin F G
  | account coin => account coin.redact
  | oneTime coin => oneTime coin.redact

/-- Whether a coin belongs to a key set, the shared secret of a one-time coin that does, and the
coin with what was found out (`CoinCommon::does_coin_belong_to_key_set`). -/
def recognise (coin : OutputCoin F G) (keys : KeySet F G) : Bool × Option G × OutputCoin F G :=
  match coin with
  | account c => (c.details.belongsTo keys, none, account c)
  | oneTime c =>
    let found := c.recognise keys
    (found.belongs, found.sharedSecret, oneTime found.coin)

/-- Opens a coin (`Coin::decrypt`). -/
def reveal (coin : OutputCoin F G) (keys : KeySet F G) (params : ShardParams) :
    Outcome (InputCoin F G) :=
  match coin with
  | account c => (c.reveal keys params).map .account
  | oneTime c => (c.reveal keys).map .oneTime

/-- The encoding of a coin. -/
def toBytes : OutputCoin F G → Bytes
  | account coin => coin.toBytes
  | oneTime coin => coin.toBytes

/-- The coin with this encoding (`Coin::from_bytes`). -/
def ofBytes (b : Bytes) : Outcome (OutputCoin F G) :=
  match b with
  | [] => .error (.malformedEncoding "empty coin")
  | first :: _ =>
    if first = OneTimeCoin.version then (OneTimeCoin.ofBytes b).map oneTime
    else (SealedCoin.ofBytes b).map account

end OutputCoin

end ShieldedPayments
