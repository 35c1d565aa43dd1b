import ShieldedPayments.Coin.Account
import ShieldedPayments.Coin.OneTimeKey
import ShieldedPayments.Coin.Token

/-!
# One-time coins

Coins of version 2 belong to a one-time key. Their commitment opens to an amount and a mask, over
the value base or, for a confidential asset, over the coin's asset tag. To conceal a coin, offsets
hashed from a secret shared with the recipient's view key are added to mask and amount; whether a
coin is concealed shows in its commitment no longer opening to them.

* `OneTimeCoin.pay`, `payAsset`, `payReceiver`: fresh coins.
* `OneTimeCoin.conceal`, `reveal`: adding and removing the offsets.
* `OneTimeCoin.recognise`, `oneTimeSecret`, `keyImageFor`: the recipient's view.
-/

namespace ShieldedPayments

/-- A coin of version 2 (`CoinV2`). The raw asset tag is only remembered, not part of the coin:
equality and encoding leave it out. -/
structure OneTimeCoin (F G : Type) where
  info : Bytes := []
  publicKey : Option G := none
  commitment : Option G := none
  keyImage : Option G := none
  sharedRandom : Option F := none
  sharedConcealRandom : Option F := none
  txRandom : Option (TxRandom G) := none
  mask : Option F := none
  amount : Option F := none
  assetTag : Option G := none
  rawAssetTag : Option G := none
  deriving Inhabited

/-- A payment, and how its one-time key is routed if the sender's shard is to show in it
(`CoinParams`). -/
structure CoinRequest (G : Type) where
  payment : Payment G
  sender : Option (UInt8 × Origin) := none

/-- What a key set finds out about a coin: the coin with its raw asset tag filled in, and the shared
secret if the coin belongs to it. -/
structure Recognition (F G : Type) where
  belongs : Bool
  sharedSecret : Option G
  coin : OneTimeCoin F G

variable {F G : Type} [ScalarField F] [PointGroup F G]

/-- What the last byte of the one-time key of a payment has to show (`CoinParams::target`). -/
def CoinRequest.target (request : CoinRequest G) (params : ShardParams) :
    Outcome OneTimeKey.Target := do
  let target ← OneTimeKey.Target.ofAddress params request.payment.address
  match request.sender with
  | some (sender, origin) => return target.withSender sender origin
  | none => return target

namespace OneTimeCoin

instance : BEq (OneTimeCoin F G) where
  beq a b :=
    a.info == b.info && a.publicKey == b.publicKey && a.commitment == b.commitment
      && a.keyImage == b.keyImage && a.sharedRandom == b.sharedRandom
      && a.sharedConcealRandom == b.sharedConcealRandom && a.txRandom == b.txRandom
      && a.mask == b.mask && a.amount == b.amount && a.assetTag == b.assetTag

/-! ## Commitments and values -/

/-- The base that amounts are committed on: the asset tag, or the value base. -/
def amountBase (coin : OneTimeCoin F G) : G :=
  coin.assetTag.getD (pedersen : PedersenBases G).value

/-- The commitment that mask and amount open, if both are present
(`CoinV2::expected_commitment`). -/
def expectedCommitment (coin : OneTimeCoin F G) : Option G := do
  let mask ← coin.mask
  let amount ← coin.amount
  return amount • coin.amountBase + mask • (pedersen : PedersenBases G).blinding

/-- The coin with the commitment that mask and amount open (`CoinV2::commit`). -/
def commit (coin : OneTimeCoin F G) : Outcome (OneTimeCoin F G) := do
  let commitment ← require coin.expectedCommitment (.invalidInput "coin has no amount or mask")
  return { coin with commitment := some commitment }

/-- Whether the commitment fails to open to mask and amount (`CoinV2::is_encrypted`). -/
def isEncrypted (coin : OneTimeCoin F G) : Bool :=
  match coin.expectedCommitment, coin.commitment with
  | some expected, some stored => expected != stored
  | _, _ => true

/-- The low 64 bits of a scalar (`scalar_to_u64`). -/
def lowWord (s : F) : UInt64 :=
  (Bytes.toNatLE ((ScalarField.encode s).take 8)).toUInt64

/-- The value of a coin, and zero while it is concealed (`CoinV2::value`). -/
def value (coin : OneTimeCoin F G) : UInt64 :=
  match coin.amount, coin.isEncrypted with
  | some amount, false => lowWord amount
  | _, _ => 0

/-- The last byte of the one-time key (`CoinV2::last_byte`). -/
def lastByte (coin : OneTimeCoin F G) : Outcome UInt8 := do
  return ShieldedPayments.lastByte
    (← require coin.publicKey (.invalidInput "coin has no public key"))

/-- The shard of the one-time key (`CoinV2::shard_id`). -/
def shardId (coin : OneTimeCoin F G) (params : ShardParams) : Outcome UInt8 := do
  params.shardOf (← coin.lastByte)

/-- The digits packed into the one-time key (`CoinV2::shard_info`). -/
def shardDigits (coin : OneTimeCoin F G) (params : ShardParams) : Outcome ShardDigits := do
  params.unpack (← coin.lastByte)

/-! ## Fresh coins -/

/-- A coin for a payment, without a commitment, and the shared secret (`CoinV2::with_ota`). -/
def prepare (params : ShardParams) (request : CoinRequest G) :
    Proving (OneTimeCoin F G × G) := do
  let address := request.payment.address
  let publicOta ← address.requireOta
  let sharedRandom ← Proving.scalar
  let sharedConcealRandom ← Proving.scalar
  let sharedSecret : G := sharedRandom • publicOta
  let target ← request.target params
  let (publicKey, index) ←
    OneTimeKey.search params target sharedSecret address.publicSpend
  let mask ← Proving.scalar
  let coin : OneTimeCoin F G :=
    { info := request.payment.message.take maxInfoSize
      publicKey := some publicKey
      sharedRandom := some sharedRandom
      sharedConcealRandom := some sharedConcealRandom
      txRandom := some ⟨baseMultiple sharedRandom, index, baseMultiple sharedConcealRandom⟩
      mask := some mask
      amount := some (ofNat request.payment.amount.toNat) }
  return (coin, sharedSecret)

/-- A coin of the native token for a payment (`CoinV2::new_from_payment_info`). -/
def pay (params : ShardParams) (request : CoinRequest G) : Proving (OneTimeCoin F G) := do
  let (coin, _) ← prepare params request
  coin.commit

/-- A coin of a confidential asset for a payment, and the secret that its tag is blinded with
(`CoinV2::new_ca`). -/
def payAsset (params : ShardParams) (request : CoinRequest G) (token : TokenId) :
    Proving (OneTimeCoin F G × G) := do
  let (coin, sharedSecret) ← prepare params request
  let raw : G := token.rawTag
  let tagged : OneTimeCoin F G :=
    { coin with
      assetTag := some (AssetTag.blind raw (AssetTag.blinder sharedSecret))
      rawAssetTag := some raw }
  return (← tagged.commit, sharedSecret)

/-- A coin for a destination that the recipient computed ahead of time
(`CoinV2::new_from_amount_and_tx_random`). -/
def payReceiver (amount : UInt64) (receiver : OtaReceiver G) (info : Bytes) :
    Proving (OneTimeCoin F G) := do
  let mask ← Proving.scalar
  let coin : OneTimeCoin F G :=
    { info := info.take maxInfoSize
      publicKey := some receiver.publicKey
      txRandom := some receiver.txRandom
      mask := some mask
      amount := some (ofNat amount.toNat) }
  coin.commit

/-! ## Concealing and revealing -/

/-- The parts that the offset of the mask is hashed from (`conceal_offsets`, the first of the
two). -/
def maskParts (sharedSecret : G) : List Bytes :=
  [Bytes.ascii "mask", PointGroup.encode sharedSecret]

/-- The parts that the offset of the amount is hashed from (`conceal_offsets`, the second of the
two). -/
def amountParts (sharedSecret : G) : List Bytes :=
  [Bytes.ascii "amount", PointGroup.encode sharedSecret]

/-- The coin with another memo, cut to its limit (`CoinV2::set_info`). -/
def withInfo (coin : OneTimeCoin F G) (info : Bytes) : OneTimeCoin F G :=
  { coin with info := info.take maxInfoSize }

/-- The coin without the sender's random scalars (`CoinV2::clear_shared_randoms`). -/
def forgetRandoms (coin : OneTimeCoin F G) : OneTimeCoin F G :=
  { coin with sharedRandom := none, sharedConcealRandom := none }

/-- Conceals mask and amount from all but the owner of a view key (`CoinV2::conceal_output_coin`).
The commitment stays. -/
def conceal (coin : OneTimeCoin F G) (publicView : G) : Outcome (OneTimeCoin F G) := do
  ensure (!coin.isEncrypted) (.invalidInput "coin is already concealed")
  let random ← require coin.sharedConcealRandom (.invalidInput "coin has no conceal randomness")
  let sharedSecret : G := random • publicView
  return forgetRandoms
    { coin with
      mask := coin.mask.map (· + hashToScalar (maskParts sharedSecret))
      amount := coin.amount.map (· + hashToScalar (amountParts sharedSecret)) }

/-- The coin as an input whose owner stays unknown: only its key image is left
(`CoinV2::conceal_input_coin`). -/
def redact (coin : OneTimeCoin F G) : OneTimeCoin F G :=
  { keyImage := coin.keyImage, txRandom := some TxRandom.zero }

/-- The secret that sender and recipient share, from the recipient's side
(`CoinV2::recompute_shared_secret`). -/
def sharedSecret (coin : OneTimeCoin F G) (otaSecret : F) : Outcome G := do
  let tx ← require coin.txRandom (.invalidInput "coin has no tx random")
  return otaSecret • tx.otaRandom

/-- The scalar whose multiple of the base is the one-time key (`CoinV2::private_key_of_coin`). -/
def oneTimeSecret (coin : OneTimeCoin F G) (sk : PrivateKey F) : Outcome F := do
  let tx ← require coin.txRandom (.invalidInput "coin has no tx random")
  return OneTimeKey.offset (← coin.sharedSecret sk.otaSecret) tx.index + sk.secret

/-- The point that gives away a spent coin: the one-time secret times a point hashed from the
one-time key (`CoinV2::key_image_with_private_key`). -/
def keyImageFor (coin : OneTimeCoin F G) (sk : PrivateKey F) : Outcome G := do
  let publicKey ← require coin.publicKey (.invalidInput "coin has no public key")
  let secret ← coin.oneTimeSecret sk
  return secret • (hashToPoint (PointGroup.encode publicKey) : G)

/-- The coin with the offsets for a view secret removed from mask and amount (the part of
`CoinV2::decrypt` that subtracts the `conceal_offsets`). -/
def removeOffsets (coin : OneTimeCoin F G) (view : F) : Outcome (OneTimeCoin F G) := do
  let tx ← require coin.txRandom (.decryptionFailure "coin has no tx random")
  let sharedSecret : G := view • tx.concealRandom
  let mask ← require coin.mask (.decryptionFailure "coin has no mask")
  let amount ← require coin.amount (.decryptionFailure "coin has no amount")
  return { coin with
    mask := some (mask - hashToScalar (maskParts sharedSecret))
    amount := some (amount - hashToScalar (amountParts sharedSecret)) }

/-- Opens a coin (`CoinV2::decrypt`). What was concealed has to open the commitment; a private key
adds the key image. -/
def reveal (coin : OneTimeCoin F G) (keys : KeySet F G) : Outcome (OneTimeCoin F G) := do
  let view ← keys.requireDecryption
  let opened ←
    if coin.isEncrypted then do
      let opened ← coin.removeOffsets view
      ensure (!opened.isEncrypted) (.commitmentMismatch "coin v2 opening")
      pure opened
    else pure coin
  match keys.privateKey with
  | none => return opened
  | some sk => return { opened with keyImage := some (← coin.keyImageFor sk) }

/-! ## Ownership -/

/-- Finds out whether the spend key behind the one-time key is that of a key set
(`CoinV2::does_coin_belong_to_key_set`). -/
def recognise (coin : OneTimeCoin F G) (keys : KeySet F G) : Recognition F G :=
  match keys.otaKey, coin.publicKey, coin.txRandom with
  | some ota, some publicKey, some tx =>
    let sharedSecret : G := ota.otaSecret • tx.otaRandom
    let spend := publicKey - baseMultiple (OneTimeKey.offset sharedSecret tx.index)
    if ota.ownsSpendKey spend then
      let raw := match coin.assetTag with
        | some tag => some (AssetTag.unblind tag (AssetTag.blinder sharedSecret))
        | none => coin.rawAssetTag
      ⟨true, some sharedSecret, { coin with rawAssetTag := raw }⟩
    else ⟨false, none, coin⟩
  | _, _, _ => ⟨false, none, coin⟩

/-- Whether a coin pays an amount to an address, as its sender says by showing the random scalar
(`CoinV2::check_coin_valid`). -/
def pays (coin : OneTimeCoin F G) (address : PaymentAddress G) (sharedRandom : F)
    (amount : UInt64) : Bool :=
  !coin.isEncrypted && coin.value == amount &&
    match coin.publicKey, coin.txRandom, address.publicOta with
    | some publicKey, some tx, some publicOta =>
      tx.otaRandom == baseMultiple sharedRandom &&
        OneTimeKey.derive (PointGroup.encode (sharedRandom • publicOta)) tx.index
          address.publicSpend == publicKey
    | _, _, _ => false

/-- Whether a coin is of a token, given the secret that its tag is blinded with
(`CoinV2::validate_asset_tag`). -/
def isOfToken (coin : OneTimeCoin F G) (sharedSecret : G) (token : TokenId) : Bool :=
  match coin.assetTag with
  | none => token.isNative
  | some tag => AssetTag.blind token.rawTag (AssetTag.blinder sharedSecret) == tag

/-- The coin with its raw asset tag, computed if it is not remembered (the part of
`CoinV2::token_id` before the look-up). -/
def rememberTag (coin : OneTimeCoin F G) (keys : KeySet F G) : Outcome Unit × OneTimeCoin F G :=
  if coin.rawAssetTag.isSome then (.ok (), coin)
  else
    let found := coin.recognise keys
    (ensure found.belongs (.invalidInput "coin does not belong to key set"), found.coin)

/-- The token of a coin, and the coin with its raw asset tag remembered (`CoinV2::token_id`). -/
def token (coin : OneTimeCoin F G) (keys : KeySet F G) (table : TagTable) :
    Outcome TokenId × OneTimeCoin F G :=
  if coin.assetTag.isNone then (.ok .native, coin)
  else
    let (remembered, coin) := coin.rememberTag keys
    let token := do
      remembered
      let raw ← require coin.rawAssetTag (.invalidInput "raw asset tag unavailable")
      require (table.find? (PointGroup.encode raw)) (.invalidInput "unknown asset tag")
    (token, coin)

/-! ## Encoding -/

/-- The byte that starts the encoding of a coin of version 2 (`COIN_VERSION_2`). -/
def version : UInt8 := 2

/-- The fields one after the other, behind the version (`CoinV2::to_bytes`). -/
def toBytes (coin : OneTimeCoin F G) : Bytes :=
  version :: Writer.shortPrefixed coin.info ++ Writer.optPoint coin.publicKey
    ++ Writer.optPoint coin.commitment ++ Writer.optPoint coin.keyImage
    ++ Writer.optScalar coin.sharedRandom ++ Writer.optScalar coin.sharedConcealRandom
    ++ Writer.shortPrefixed ((coin.txRandom.map TxRandom.toBytes).getD [])
    ++ Writer.optScalar coin.mask ++ Writer.optScalar coin.amount
    ++ Writer.optPoint coin.assetTag

/-- Reads public randomness with a length byte, which is zero if there is none. -/
def txRandomReader : Reader (Option (TxRandom G)) := do
  let length := (← Reader.byte).toNat
  if length = 0 then return none
  else if length = TxRandom.size then
    let tx ← TxRandom.ofBytes (← Reader.bytes TxRandom.size)
    return some tx
  else throw (.malformedEncoding "tx random field length")

/-- Reads the fields of a coin. The asset tag may be missing altogether. -/
def reader : Reader (OneTimeCoin F G) := do
  if (← Reader.byte) ≠ version then throw (.malformedEncoding "coin version")
  let info ← Reader.prefixed 1
  let publicKey ← Reader.optPoint
  let commitment ← Reader.optPoint
  let keyImage ← Reader.optPoint
  let sharedRandom ← Reader.optScalar
  let sharedConcealRandom ← Reader.optScalar
  let txRandom ← txRandomReader
  let mask ← Reader.optScalar
  let amount ← Reader.optScalar
  let assetTag ← if (← Reader.rest).isEmpty then pure none else Reader.optPoint
  Reader.finish
  return { info, publicKey, commitment, keyImage, sharedRandom, sharedConcealRandom, txRandom, mask,
           amount, assetTag }

/-- The coin with this encoding (`CoinV2::from_bytes`). -/
def ofBytes (b : Bytes) : Outcome (OneTimeCoin F G) :=
  reader.result b

end OneTimeCoin

end ShieldedPayments
