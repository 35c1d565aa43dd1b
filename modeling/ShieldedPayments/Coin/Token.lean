import ShieldedPayments.Group.Hashing
import ShieldedPayments.Text.Hex
import ShieldedPayments.Wire

/-!
# Tokens and asset tags

A token is named by 32 bytes. A coin of a confidential asset carries its token as an asset tag: the
point hashed from the name, the raw tag, blinded by a scalar that sender and recipient derive from
their shared secret. A coin without a tag is of the native token.

* `AssetTag.blind`, `AssetTag.unblind`: adding and removing the blinder.
* `TagTable`: which token a raw tag belongs to.
-/

namespace ShieldedPayments

/-- Bytes in the name of a token. -/
def tokenSize : Nat := 32

/-- The name of a token. -/
structure TokenId where
  bytes : Bytes
  length_eq : bytes.length = tokenSize
  deriving DecidableEq

namespace TokenId

/-- The native token: 31 zero bytes and a four (`TokenId::PRV`). -/
def native : TokenId :=
  ⟨List.replicate 31 0 ++ [4], by decide⟩

/-- The token with the given name (`TokenId::from_bytes`). -/
def ofBytes (b : Bytes) : Outcome TokenId :=
  if h : b.length = tokenSize then .ok ⟨b, h⟩ else .error (.malformedEncoding "token id length")

/-- Whether a token is the native one (`TokenId::is_native`). -/
def isNative (t : TokenId) : Bool :=
  t == native

/-- The name in hexadecimal. -/
def toText (t : TokenId) : String :=
  Text.Hex.encode t.bytes

/-- The name as it is shown in logs (`TokenId::fmt`). -/
def describe (t : TokenId) : String :=
  "TokenId(" ++ t.toText ++ ")"

variable {F G : Type} [ScalarField F] [PointGroup F G]

/-- The point hashed from the name (`TokenId::raw_asset_tag`). -/
def rawTag (t : TokenId) : G :=
  hashToPoint t.bytes

end TokenId

namespace AssetTag

variable {F G : Type} [ScalarField F] [PointGroup F G]

/-- The parts that the blinder for a shared secret is hashed from. -/
def blinderParts (sharedSecret : G) : List Bytes :=
  [PointGroup.encode sharedSecret, Bytes.ascii "assettag"]

/-- The scalar that blinds the tag of a coin sent under a shared secret (`asset_tag_blinder`). -/
def blinder (sharedSecret : G) : F :=
  hashToScalar (blinderParts sharedSecret)

/-- A tag with the blinder added (`blind_asset_tag`). -/
def blind (tag : G) (blinder : F) : G :=
  tag + blinder • (pedersen : PedersenBases G).blinding

/-- A tag with the blinder removed (`unblind_asset_tag`). -/
def unblind (tag : G) (blinder : F) : G :=
  tag - blinder • (pedersen : PedersenBases G).blinding

end AssetTag

/-- The tokens by the encodings of their raw tags, each encoding once. -/
abbrev TagTable := List (Bytes × TokenId)

namespace TagTable

/-- A table with one more token; it takes the place of an entry with the same tag. -/
def insert (table : TagTable) (tag : Bytes) (t : TokenId) : TagTable :=
  table.filter (fun entry => entry.1 != tag) ++ [(tag, t)]

/-- The table of a list of tokens over the group `G` (`raw_asset_tag_map`). -/
def ofTokens (G : Type) {F : Type} [ScalarField F] [PointGroup F G] (tokens : List TokenId) :
    TagTable :=
  tokens.foldl (fun table t => table.insert (PointGroup.encode (t.rawTag : G)) t) []

/-- The token with the given raw tag. -/
def find? (table : TagTable) (tag : Bytes) : Option TokenId :=
  table.lookup tag

end TagTable

end ShieldedPayments
