import ShieldedPayments.Coin.TxRandom
import ShieldedPayments.Keys.Basic
import ShieldedPayments.Shards.Basic
import ShieldedPayments.Text.Base58

/-!
# One-time keys

A sender picks a random scalar `r`, shares the secret `r` times the recipient's one-time-address key,
and walks the indices 1, 2, … until the spend key plus the offset hashed from secret and index falls
into the wanted shard. The recipient recomputes the secret from the published point and subtracts the
offset.

* `OneTimeKey.search`: the key at the lowest index that hits the target.
* `OtaReceiver`: a destination that a recipient has computed ahead of time.
-/

namespace ShieldedPayments

variable {F G : Type} [ScalarField F] [PointGroup F G]

namespace OneTimeKey

/-- The parts that an offset is hashed from, given the encoding of the shared secret. -/
def offsetParts (sharedSecret : Bytes) (index : UInt32) : List Bytes :=
  [sharedSecret, Bytes.ofNatBE 4 index.toNat]

/-- The offset of a one-time secret from the spend secret (`ota_offset`). -/
def offset (sharedSecret : G) (index : UInt32) : F :=
  hashToScalar (offsetParts (PointGroup.encode sharedSecret) index)

/-- The one-time key at an index, given the encoding of the shared secret
(`derive_one_time_public_key`). -/
def derive (sharedSecret : Bytes) (index : UInt32) (publicSpend : G) : G :=
  baseMultiple (hashToScalar (offsetParts sharedSecret index)) + publicSpend

/-- The digits that a one-time key has to show (`OtaTarget`). Without a sender only the receiver's
shard counts. -/
structure Target where
  receiver : UInt8
  sender : Option UInt8
  origin : Origin
  deriving DecidableEq, Repr

namespace Target

/-- The shard of an address (`OtaTarget::for_address`). -/
def ofAddress (params : ShardParams) (address : PaymentAddress G) : Outcome Target := do
  return ⟨← params.shardOf address.lastByte, none, .transfer⟩

/-- A target with the sender's shard and the origin as well (`OtaTarget::with_sender`). -/
def withSender (target : Target) (sender : UInt8) (origin : Origin) : Target :=
  { target with sender := some sender, origin }

/-- Whether a last byte shows the digits of a target (`OtaTarget::matches`). A byte whose origin
digit means nothing does not. -/
def accepts (target : Target) (params : ShardParams) (lastByte : UInt8) : Outcome Bool :=
  match target.sender with
  | none => do return (← params.shardOf lastByte) == target.receiver
  | some sender =>
    match params.unpack lastByte with
    | .ok digits => .ok (digits == ⟨target.receiver, sender, target.origin⟩)
    | .error (.malformedEncoding _) => .ok false
    | .error fault => .error fault

end Target

/-- The first key among `count` indices that hits the target (the loop of
`search_one_time_address`). -/
def searchFrom (params : ShardParams) (target : Target) (sharedSecret : Bytes) (publicSpend : G) :
    (count index : Nat) → Outcome (G × UInt32)
  | 0, _ => .error (.otaExhausted params.maxTries)
  | count + 1, index =>
    let candidate := derive sharedSecret index.toUInt32 publicSpend
    match target.accepts params (lastByte candidate) with
    | .ok true => .ok (candidate, index.toUInt32)
    | .ok false => searchFrom params target sharedSecret publicSpend count (index + 1)
    | .error fault => .error fault

/-- The key at the lowest index, from one on, that hits the target, and that index
(`search_one_time_address`). -/
def search (params : ShardParams) (target : Target) (sharedSecret publicSpend : G) :
    Outcome (G × UInt32) := do
  if target.sender.isSome then params.checkPacked
  searchFrom params target (PointGroup.encode sharedSecret) publicSpend (params.maxTries.toNat - 1) 1

end OneTimeKey

/-- A one-time destination that a recipient can hand to a payer. -/
structure OtaReceiver (G : Type) where
  publicKey : G
  txRandom : TxRandom G

namespace OtaReceiver

/-- The byte that marks the encoding of a receiver (`PRIVATE_RECEIVING_ADDRESS_TYPE`). -/
def mark : UInt8 := 1

/-- Bytes in an encoding (`OTA_RECEIVER_SIZE`). -/
def size : Nat := 1 + elementSize + TxRandom.size

/-- A fresh receiver for an address (`OtaReceiver::from_address`). Nobody knows the scalar of its
second random point. -/
def ofAddress (params : ShardParams) (address : PaymentAddress G) : Proving (OtaReceiver G) := do
  let publicOta ← address.requireOta
  let target ← OneTimeKey.Target.ofAddress params address
  let r : F ← Proving.scalar
  let (publicKey, index) ← OneTimeKey.search params target (r • publicOta) address.publicSpend
  let conceal : F ← Proving.scalar
  return ⟨publicKey, baseMultiple r, index, baseMultiple conceal⟩

/-- Whether both random points survive encoding (`OtaReceiver::is_valid`). -/
def isValid (receiver : OtaReceiver G) : Bool :=
  let survives := fun (p : G) => (PointGroup.decode (PointGroup.encode p) : Option G).isSome
  survives receiver.txRandom.otaRandom && survives receiver.txRandom.concealRandom

/-- The mark, the key, and the randomness (`OtaReceiver::to_bytes`). -/
def toBytes (receiver : OtaReceiver G) : Bytes :=
  mark :: PointGroup.encode receiver.publicKey ++ receiver.txRandom.toBytes

/-- Reads the mark, the key, and the randomness. -/
def reader : Reader (OtaReceiver G) := do
  if (← Reader.byte) = mark then
    let publicKey ← Reader.point
    let txRandom ← TxRandom.reader
    return ⟨publicKey, txRandom⟩
  else throw (.malformedEncoding "ota receiver prefix")

/-- The receiver with this encoding (`OtaReceiver::from_bytes`). -/
def ofBytes (b : Bytes) : Outcome (OtaReceiver G) := do
  ensure (b.length == size) (.malformedEncoding "ota receiver length")
  reader.result b

/-- The encoding as text with a checksum (`OtaReceiver::fmt`). -/
def toText (receiver : OtaReceiver G) : String :=
  Text.Base58.encodeChecked receiver.toBytes

/-- The receiver with this text (`OtaReceiver::from_str`). -/
def ofText (s : String) : Outcome (OtaReceiver G) := do
  ofBytes (← require (Text.Base58.decodeChecked? s)
    (.malformedEncoding "ota receiver base58check"))

end OtaReceiver

end ShieldedPayments
