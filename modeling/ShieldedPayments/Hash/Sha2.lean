import ShieldedPayments.Bytes

/-!
# SHA-256 and SHA-512

The hash functions of FIPS 180-4. Both pad a message with the byte `0x80`, zeros, and the message
length in bits, and fold the padded blocks into eight chaining words. They differ in the word size,
the number of rounds, the constants and the rotation amounts.
-/

namespace ShieldedPayments.Hash

/-- The message, the byte `0x80`, the fewest zeros that fill up a block, and the bit length of the
message in `lengthSize` bytes. -/
def padded (blockSize lengthSize : Nat) (message : Bytes) : Bytes :=
  let used := (message.length + 1 + lengthSize) % blockSize
  message ++ 0x80 :: List.replicate ((blockSize - used) % blockSize) 0
    ++ Bytes.ofNatBE lengthSize (8 * message.length)

/-- The blocks of a padded message. -/
def paddedBlocks (blockSize lengthSize : Nat) (message : Bytes) : List Bytes :=
  let all := padded blockSize lengthSize message
  Bytes.blocks blockSize (all.length / blockSize) all

namespace Sha256

/-- The round constants: the first 32 bits of the fractional parts of the cube roots of the first
64 primes. -/
def constants : Vector UInt32 64 :=
  #v[0x428a2f98, 0x71374491, 0xb5c0fbcf, 0xe9b5dba5, 0x3956c25b, 0x59f111f1, 0x923f82a4, 0xab1c5ed5,
     0xd807aa98, 0x12835b01, 0x243185be, 0x550c7dc3, 0x72be5d74, 0x80deb1fe, 0x9bdc06a7, 0xc19bf174,
     0xe49b69c1, 0xefbe4786, 0x0fc19dc6, 0x240ca1cc, 0x2de92c6f, 0x4a7484aa, 0x5cb0a9dc, 0x76f988da,
     0x983e5152, 0xa831c66d, 0xb00327c8, 0xbf597fc7, 0xc6e00bf3, 0xd5a79147, 0x06ca6351, 0x14292967,
     0x27b70a85, 0x2e1b2138, 0x4d2c6dfc, 0x53380d13, 0x650a7354, 0x766a0abb, 0x81c2c92e, 0x92722c85,
     0xa2bfe8a1, 0xa81a664b, 0xc24b8b70, 0xc76c51a3, 0xd192e819, 0xd6990624, 0xf40e3585, 0x106aa070,
     0x19a4c116, 0x1e376c08, 0x2748774c, 0x34b0bcb5, 0x391c0cb3, 0x4ed8aa4a, 0x5b9cca4f, 0x682e6ff3,
     0x748f82ee, 0x78a5636f, 0x84c87814, 0x8cc70208, 0x90befffa, 0xa4506ceb, 0xbef9a3f7, 0xc67178f2]

/-- The initial chaining words. -/
def iv : Vector UInt32 8 :=
  #v[0x6a09e667, 0xbb67ae85, 0x3c6ef372, 0xa54ff53a, 0x510e527f, 0x9b05688c, 0x1f83d9ab, 0x5be0cd19]

/-- The word `x` rotated right by `n` bits, for `n` between 1 and 31. -/
def rotateRight (x n : UInt32) : UInt32 :=
  (x >>> n) ||| (x <<< (32 - n))

/-- The next window of the message schedule: the oldest word goes, the next one comes. -/
def extend (w : Vector UInt32 16) : Vector UInt32 16 :=
  let word := fun i => w.getD i 0
  let s0 := rotateRight (word 1) 7 ^^^ rotateRight (word 1) 18 ^^^ (word 1 >>> 3)
  let s1 := rotateRight (word 14) 17 ^^^ rotateRight (word 14) 19 ^^^ (word 14 >>> 10)
  Vector.ofFn fun i => if i.val + 1 < 16 then word (i.val + 1) else word 0 + s0 + word 9 + s1

/-- One round on the working words with the round constant `k` and the schedule word `w`. -/
def round (v : Vector UInt32 8) (k w : UInt32) : Vector UInt32 8 :=
  let (a, b, c, d) := (v.get 0, v.get 1, v.get 2, v.get 3)
  let (e, f, g, h) := (v.get 4, v.get 5, v.get 6, v.get 7)
  let s1 := rotateRight e 6 ^^^ rotateRight e 11 ^^^ rotateRight e 25
  let choice := (e &&& f) ^^^ (~~~e &&& g)
  let t1 := h + s1 + choice + k + w
  let s0 := rotateRight a 2 ^^^ rotateRight a 13 ^^^ rotateRight a 22
  let majority := (a &&& b) ^^^ (a &&& c) ^^^ (b &&& c)
  #v[t1 + (s0 + majority), a, b, c, d + t1, e, f, g]

/-- The sixteen words of a block, most significant byte first. -/
def blockWords (block : Bytes) : Vector UInt32 16 :=
  Vector.ofFn fun i => (Bytes.toNatBE ((block.drop (4 * i)).take 4)).toUInt32

/-- Absorbs one block of 64 bytes. -/
def compress (h : Vector UInt32 8) (block : Bytes) : Vector UInt32 8 :=
  let step := fun (state : Vector UInt32 8 × Vector UInt32 16) (k : UInt32) =>
    (round state.1 k (state.2.getD 0 0), extend state.2)
  let (v, _) := constants.foldl step (h, blockWords block)
  Vector.zipWith (· + ·) h v

/-- The 32-byte SHA-256 digest of a message. -/
def digest (message : Bytes) : Bytes :=
  ((paddedBlocks 64 8 message).foldl compress iv).toList.flatMap fun w => Bytes.ofNatBE 4 w.toNat

end Sha256

namespace Sha512

/-- The round constants: the first 64 bits of the fractional parts of the cube roots of the first
80 primes. -/
def constants : Vector UInt64 80 :=
  #v[0x428a2f98d728ae22, 0x7137449123ef65cd, 0xb5c0fbcfec4d3b2f, 0xe9b5dba58189dbbc,
     0x3956c25bf348b538, 0x59f111f1b605d019, 0x923f82a4af194f9b, 0xab1c5ed5da6d8118,
     0xd807aa98a3030242, 0x12835b0145706fbe, 0x243185be4ee4b28c, 0x550c7dc3d5ffb4e2,
     0x72be5d74f27b896f, 0x80deb1fe3b1696b1, 0x9bdc06a725c71235, 0xc19bf174cf692694,
     0xe49b69c19ef14ad2, 0xefbe4786384f25e3, 0x0fc19dc68b8cd5b5, 0x240ca1cc77ac9c65,
     0x2de92c6f592b0275, 0x4a7484aa6ea6e483, 0x5cb0a9dcbd41fbd4, 0x76f988da831153b5,
     0x983e5152ee66dfab, 0xa831c66d2db43210, 0xb00327c898fb213f, 0xbf597fc7beef0ee4,
     0xc6e00bf33da88fc2, 0xd5a79147930aa725, 0x06ca6351e003826f, 0x142929670a0e6e70,
     0x27b70a8546d22ffc, 0x2e1b21385c26c926, 0x4d2c6dfc5ac42aed, 0x53380d139d95b3df,
     0x650a73548baf63de, 0x766a0abb3c77b2a8, 0x81c2c92e47edaee6, 0x92722c851482353b,
     0xa2bfe8a14cf10364, 0xa81a664bbc423001, 0xc24b8b70d0f89791, 0xc76c51a30654be30,
     0xd192e819d6ef5218, 0xd69906245565a910, 0xf40e35855771202a, 0x106aa07032bbd1b8,
     0x19a4c116b8d2d0c8, 0x1e376c085141ab53, 0x2748774cdf8eeb99, 0x34b0bcb5e19b48a8,
     0x391c0cb3c5c95a63, 0x4ed8aa4ae3418acb, 0x5b9cca4f7763e373, 0x682e6ff3d6b2b8a3,
     0x748f82ee5defb2fc, 0x78a5636f43172f60, 0x84c87814a1f0ab72, 0x8cc702081a6439ec,
     0x90befffa23631e28, 0xa4506cebde82bde9, 0xbef9a3f7b2c67915, 0xc67178f2e372532b,
     0xca273eceea26619c, 0xd186b8c721c0c207, 0xeada7dd6cde0eb1e, 0xf57d4f7fee6ed178,
     0x06f067aa72176fba, 0x0a637dc5a2c898a6, 0x113f9804bef90dae, 0x1b710b35131c471b,
     0x28db77f523047d84, 0x32caab7b40c72493, 0x3c9ebe0a15c9bebc, 0x431d67c49c100d4c,
     0x4cc5d4becb3e42b6, 0x597f299cfc657e2a, 0x5fcb6fab3ad6faec, 0x6c44198c4a475817]

/-- The initial chaining words. -/
def iv : Vector UInt64 8 :=
  #v[0x6a09e667f3bcc908, 0xbb67ae8584caa73b, 0x3c6ef372fe94f82b, 0xa54ff53a5f1d36f1,
     0x510e527fade682d1, 0x9b05688c2b3e6c1f, 0x1f83d9abfb41bd6b, 0x5be0cd19137e2179]

/-- The word `x` rotated right by `n` bits, for `n` between 1 and 63. -/
def rotateRight (x n : UInt64) : UInt64 :=
  (x >>> n) ||| (x <<< (64 - n))

/-- The next window of the message schedule: the oldest word goes, the next one comes. -/
def extend (w : Vector UInt64 16) : Vector UInt64 16 :=
  let word := fun i => w.getD i 0
  let s0 := rotateRight (word 1) 1 ^^^ rotateRight (word 1) 8 ^^^ (word 1 >>> 7)
  let s1 := rotateRight (word 14) 19 ^^^ rotateRight (word 14) 61 ^^^ (word 14 >>> 6)
  Vector.ofFn fun i => if i.val + 1 < 16 then word (i.val + 1) else word 0 + s0 + word 9 + s1

/-- One round on the working words with the round constant `k` and the schedule word `w`. -/
def round (v : Vector UInt64 8) (k w : UInt64) : Vector UInt64 8 :=
  let (a, b, c, d) := (v.get 0, v.get 1, v.get 2, v.get 3)
  let (e, f, g, h) := (v.get 4, v.get 5, v.get 6, v.get 7)
  let s1 := rotateRight e 14 ^^^ rotateRight e 18 ^^^ rotateRight e 41
  let choice := (e &&& f) ^^^ (~~~e &&& g)
  let t1 := h + s1 + choice + k + w
  let s0 := rotateRight a 28 ^^^ rotateRight a 34 ^^^ rotateRight a 39
  let majority := (a &&& b) ^^^ (a &&& c) ^^^ (b &&& c)
  #v[t1 + (s0 + majority), a, b, c, d + t1, e, f, g]

/-- The sixteen words of a block, most significant byte first. -/
def blockWords (block : Bytes) : Vector UInt64 16 :=
  Vector.ofFn fun i => (Bytes.toNatBE ((block.drop (8 * i)).take 8)).toUInt64

/-- Absorbs one block of 128 bytes. -/
def compress (h : Vector UInt64 8) (block : Bytes) : Vector UInt64 8 :=
  let step := fun (state : Vector UInt64 8 × Vector UInt64 16) (k : UInt64) =>
    (round state.1 k (state.2.getD 0 0), extend state.2)
  let (v, _) := constants.foldl step (h, blockWords block)
  Vector.zipWith (· + ·) h v

/-- The 64-byte SHA-512 digest of a message. -/
def digest (message : Bytes) : Bytes :=
  ((paddedBlocks 128 16 message).foldl compress iv).toList.flatMap fun w => Bytes.ofNatBE 8 w.toNat

end Sha512

end ShieldedPayments.Hash
