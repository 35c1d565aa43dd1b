import ShieldedPayments.Cipher.Aes

/-!
# Counter mode

A stream cipher from AES-256: block `i` of the key stream is the encryption of the initial value
plus `i`, taken as a number of 128 bits, most significant byte first. Encryption adds the key stream
to the message.
-/

namespace ShieldedPayments.Cipher.Counter

/-- Bytes in the initial value, and in a block of the key stream (`AES_IV_SIZE`). -/
def blockSize : Nat := 16

/-- Block `i` of the key stream. -/
def streamBlock (keys : List Aes.Block) (start : Nat) (i : Nat) : Bytes :=
  let counter := Bytes.ofNatBE blockSize ((start + i) % 1 <<< 128)
  (Aes.encryptBlock keys (Vector.ofFn fun j => counter.getD j.val 0)).toList

/-- The first `n` bytes of the key stream for a key and an initial value. -/
def keyStream (key iv : Bytes) (n : Nat) : Bytes :=
  let keys := Aes.roundKeys key
  let start := iv.toNatBE
  ((List.range ((n + blockSize - 1) / blockSize)).flatMap (streamBlock keys start)).take n

/-- A message with the key stream added (`apply_aes`). -/
def apply (key iv message : Bytes) : Bytes :=
  Bytes.xor message (keyStream key iv message.length)

end ShieldedPayments.Cipher.Counter
