import ShieldedPayments.Group.Hashing
import ShieldedPayments.Wire

/-!
# Keys and addresses

A wallet has one private key. The view secret and the one-time-address secret are hashed from it;
every public key is the base of spend keys times a secret. A `KeySet` holds what its owner knows: a
full one spends, decrypts and recognises coins, others only some of this.

* `PrivateKey`, `ViewingKey`, `OtaKey`: the secrets by what they allow.
* `PaymentAddress`: what a payer needs to know.
* `KeySet.ofPrivateKey`: the full key set.
-/

namespace ShieldedPayments

/-- The secret that spends coins. -/
structure PrivateKey (F : Type) where
  secret : F

/-- The public keys of a recipient. Addresses older than one-time keys lack the last one. -/
structure PaymentAddress (G : Type) where
  publicSpend : G
  publicView : G
  publicOta : Option G

/-- The secret that opens coin amounts. -/
structure ViewingKey (F G : Type) where
  publicSpend : G
  privateView : F

/-- The secret that recognises one-time keys. -/
structure OtaKey (F G : Type) where
  publicSpend : G
  otaSecret : F

/-- What the owner of coins knows. -/
structure KeySet (F G : Type) where
  privateKey : Option (PrivateKey F)
  address : PaymentAddress G
  viewingKey : Option (ViewingKey F G)
  otaKey : Option (OtaKey F G)

/-- A recipient, an amount, and a message for the recipient (`PaymentInfo`). -/
structure Payment (G : Type) where
  address : PaymentAddress G
  amount : UInt64
  message : Bytes

variable {F G : Type} [ScalarField F] [PointGroup F G]

/-- The last byte of a point's encoding, in which the shard is written. -/
def lastByte (p : G) : UInt8 :=
  (PointGroup.encode p).getLastD 0

namespace PrivateKey

/-- The key hashed from a seed (`PrivateKey::from_seed`). -/
def ofSeed (seed : Bytes) : PrivateKey F :=
  ⟨hashToScalar [seed]⟩

/-- A random key (`PrivateKey::random`). -/
def random : Drawing (PrivateKey F) := do
  return ⟨← Drawing.scalar⟩

/-- The key with this encoding (`PrivateKey::from_bytes`). -/
def ofBytes (b : Bytes) : Outcome (PrivateKey F) := do
  return ⟨← scalarOfBytes b⟩

/-- The encoding of a key (`PrivateKey::to_bytes`). -/
def toBytes (sk : PrivateKey F) : Bytes :=
  ScalarField.encode sk.secret

/-- The public spend key (`PrivateKey::public_spend`). -/
def publicSpend (sk : PrivateKey F) : G :=
  baseMultiple sk.secret

/-- The parts that the view secret is hashed from. -/
def viewParts (sk : PrivateKey F) : List Bytes :=
  [Bytes.ascii "view", sk.toBytes]

/-- The parts that the one-time-address secret is hashed from. -/
def otaParts (sk : PrivateKey F) : List Bytes :=
  [Bytes.ascii "ota", sk.toBytes]

/-- The view secret (`PrivateKey::private_view`). -/
def privateView (sk : PrivateKey F) : F :=
  hashToScalar sk.viewParts

/-- The one-time-address secret (`PrivateKey::ota_secret`). -/
def otaSecret (sk : PrivateKey F) : F :=
  hashToScalar sk.otaParts

end PrivateKey

namespace PaymentAddress

/-- The last byte of the spend key (`PaymentAddress::last_byte`). -/
def lastByte (address : PaymentAddress G) : UInt8 :=
  ShieldedPayments.lastByte address.publicSpend

/-- The public key of one-time addresses (`PaymentAddress::ota_public`). -/
def requireOta (address : PaymentAddress G) : Outcome G :=
  require address.publicOta (.invalidInput "payment address has no OTA public key")

/-- The two or three public keys, one after the other (`PaymentAddress::to_bytes`). -/
def toBytes (address : PaymentAddress G) : Bytes :=
  PointGroup.encode address.publicSpend ++ PointGroup.encode address.publicView
    ++ (address.publicOta.map PointGroup.encode).getD []

/-- Reads the public keys of an address; the third one is absent if nothing follows the second. -/
def reader : Reader (PaymentAddress G) := do
  let publicSpend ← Reader.point
  let publicView ← Reader.point
  if (← Reader.rest).isEmpty then return ⟨publicSpend, publicView, none⟩
  else return ⟨publicSpend, publicView, some (← Reader.point)⟩

/-- The address with this encoding of 64 or 96 bytes (`PaymentAddress::from_bytes`). -/
def ofBytes (b : Bytes) : Outcome (PaymentAddress G) := do
  ensure (b.length == 2 * elementSize || b.length == 3 * elementSize)
    (.malformedEncoding "payment address length")
  reader.result b

end PaymentAddress

namespace ViewingKey

/-- The public view key (`ViewingKey::public_view`). -/
def publicView (key : ViewingKey F G) : G :=
  baseMultiple key.privateView

end ViewingKey

namespace OtaKey

/-- The public key of one-time addresses (`OtaKey::public_ota`). -/
def publicOta (key : OtaKey F G) : G :=
  baseMultiple key.otaSecret

/-- Whether a point is the spend key of this key's owner (`OtaKey::owns_spend_key`). -/
def ownsSpendKey (key : OtaKey F G) (candidate : G) : Bool :=
  PointGroup.encode candidate == PointGroup.encode key.publicSpend

end OtaKey

namespace KeySet

/-- All that follows from a private key (`KeySet::from_private_key`). -/
def ofPrivateKey (sk : PrivateKey F) : KeySet F G :=
  let publicSpend : G := sk.publicSpend
  { privateKey := some sk
    address := ⟨publicSpend, baseMultiple sk.privateView, some (baseMultiple sk.otaSecret)⟩
    viewingKey := some ⟨publicSpend, sk.privateView⟩
    otaKey := some ⟨publicSpend, sk.otaSecret⟩ }

/-- A set that only opens amounts (`KeySet::from_viewing_key`). -/
def ofViewingKey (key : ViewingKey F G) (address : PaymentAddress G) : KeySet F G :=
  ⟨none, address, some key, none⟩

/-- A set that only recognises one-time keys (`KeySet::from_ota_key`). -/
def ofOtaKey (key : OtaKey F G) (address : PaymentAddress G) : KeySet F G :=
  ⟨none, address, none, some key⟩

/-- A set that knows nothing secret (`KeySet::from_payment_address`). -/
def ofAddress (address : PaymentAddress G) : KeySet F G :=
  ⟨none, address, none, none⟩

/-- The view secret, from the viewing key or else from the private key. -/
def viewSecret (keys : KeySet F G) : Option F :=
  match keys.viewingKey, keys.privateKey with
  | some key, _ => some key.privateView
  | none, some sk => some sk.privateView
  | none, none => none

/-- The view secret of a set that may decrypt (the first test of `CoinV1::decrypt` and
`CoinV2::decrypt`). -/
def requireDecryption (keys : KeySet F G) : Outcome F :=
  require keys.viewSecret
    (.decryptionFailure "key set has neither a private key nor a viewing key")

end KeySet

end ShieldedPayments
