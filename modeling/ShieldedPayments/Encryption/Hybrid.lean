import ShieldedPayments.Encryption.ElGamal
import ShieldedPayments.Cipher.Counter

/-!
# Hybrid encryption

A random point is encrypted with ElGamal, and its encoding is the key under which the message is
encrypted in counter mode. A ciphertext is the encrypted point (66 bytes), the initial value of the
counter (16 bytes), and the encrypted message.
-/

namespace ShieldedPayments

/-- A ciphertext as its two parts; the default one is empty and opens to nothing
(`HybridCipherText`). -/
structure HybridCiphertext where
  /-- The encrypted key. -/
  encryptedKey : Bytes := []
  /-- The initial value of the counter and the encrypted message. -/
  encryptedMessage : Bytes := []
  deriving DecidableEq, Inhabited

namespace HybridCiphertext

variable {F G : Type} [ScalarField F] [PointGroup F G]

/-- Bytes in the initial value of the counter (`AES_IV_SIZE`). -/
def ivSize : Nat := Cipher.Counter.blockSize

/-- Bytes in the encoding of an encrypted empty message (`HYBRID_MIN_SIZE`). -/
def minSize : Nat := ElGamalCiphertext.size + ivSize

/-- Whether a ciphertext has no bytes at all (`HybridCipherText::is_empty`). -/
def isEmpty (ct : HybridCiphertext) : Bool :=
  ct.encryptedKey.isEmpty && ct.encryptedMessage.isEmpty

/-- The two parts one after the other (`HybridCipherText::to_bytes`). -/
def toBytes (ct : HybridCiphertext) : Bytes :=
  ct.encryptedKey ++ ct.encryptedMessage

/-- The ciphertext with this encoding; the encrypted key must consist of two points of the group `G`
(`HybridCipherText::from_bytes`). -/
def ofBytes (G : Type) {F : Type} [ScalarField F] [PointGroup F G] (b : Bytes) :
    Outcome HybridCiphertext := do
  ensure (minSize ≤ b.length) (.malformedEncoding "hybrid ciphertext too short")
  let _ ← (ElGamalCiphertext.ofBytes (b.take ElGamalCiphertext.size) : Outcome (ElGamalCiphertext G))
  return ⟨b.take ElGamalCiphertext.size, b.drop ElGamalCiphertext.size⟩

/-- Encrypts a message to the owner of a public key (`hybrid_encrypt`). -/
def encrypt (message : Bytes) (publicKey : G) : Drawing HybridCiphertext := do
  let keyPoint : G ← Drawing.point
  let iv ← Drawing.bytes ivSize
  let encryptedKey ← ElGamalCiphertext.encrypt publicKey keyPoint
  return ⟨encryptedKey.toBytes, iv ++ Cipher.Counter.apply (PointGroup.encode keyPoint) iv message⟩

/-- The encrypted message (`hybrid_decrypt`). -/
def decrypt (G : Type) {F : Type} [ScalarField F] [PointGroup F G] (ct : HybridCiphertext)
    (secretKey : F) : Outcome Bytes := do
  ensure (ivSize ≤ ct.encryptedMessage.length) (.decryptionFailure "aes ciphertext too short")
  let encryptedKey : ElGamalCiphertext G ←
    (ElGamalCiphertext.ofBytes ct.encryptedKey).mapError fun _ =>
      .decryptionFailure "elgamal ciphertext"
  let keyPoint := encryptedKey.decrypt secretKey
  return Cipher.Counter.apply (PointGroup.encode keyPoint) (ct.encryptedMessage.take ivSize)
    (ct.encryptedMessage.drop ivSize)

/-- The message of an encoded ciphertext (`hybrid_decrypt_bytes`). -/
def decryptBytes (G : Type) {F : Type} [ScalarField F] [PointGroup F G] (b : Bytes) (secretKey : F) :
    Outcome Bytes := do
  (← ofBytes G b).decrypt G secretKey

end HybridCiphertext

end ShieldedPayments
