import ShieldedPayments.Hash.Sha2

/-!
# BLAKE2b

The hash function of RFC 7693 with a 64-byte digest and no key. A message is cut into blocks of
128 bytes; every block but the last is full, and the last one (the only one of an empty message)
is filled up with zeros. The counter holds the number of message bytes compressed so far.
-/

namespace ShieldedPayments.Hash.Blake2b

/-- Bytes per block. -/
def blockSize : Nat := 128

/-- The parameters, which are added to the initial chaining words of SHA-512: a digest of 64 bytes, no
key, and no tree. -/
def parameters : Vector UInt64 8 :=
  #v[0x01010040, 0, 0, 0, 0, 0, 0, 0]

/-- The order in which the ten distinct rounds take the message words. -/
def schedule : Vector (Vector (Fin 16) 16) 10 :=
  #v[#v[0, 1, 2, 3, 4, 5, 6, 7, 8, 9, 10, 11, 12, 13, 14, 15],
     #v[14, 10, 4, 8, 9, 15, 13, 6, 1, 12, 0, 2, 11, 7, 5, 3],
     #v[11, 8, 12, 0, 5, 2, 15, 13, 10, 14, 3, 6, 7, 1, 9, 4],
     #v[7, 9, 3, 1, 13, 12, 11, 14, 2, 6, 5, 10, 4, 0, 15, 8],
     #v[9, 0, 5, 7, 2, 4, 10, 15, 14, 1, 11, 12, 6, 8, 3, 13],
     #v[2, 12, 6, 10, 0, 11, 8, 3, 4, 13, 7, 5, 15, 14, 1, 9],
     #v[12, 5, 1, 15, 14, 13, 4, 10, 0, 7, 6, 3, 9, 2, 8, 11],
     #v[13, 11, 7, 14, 12, 1, 3, 9, 5, 0, 15, 4, 8, 6, 2, 10],
     #v[6, 15, 14, 9, 11, 3, 0, 8, 12, 2, 13, 7, 1, 4, 10, 5],
     #v[10, 2, 8, 4, 7, 6, 1, 5, 15, 11, 9, 14, 3, 12, 13, 0]]

/-- The word `x` rotated right by `n` bits, for `n` between 1 and 63. -/
def rotateRight (x n : UInt64) : UInt64 :=
  (x >>> n) ||| (x <<< (64 - n))

/-- Mixes two message words into a column or diagonal `a b c d` of the working state. -/
def mix (v : Vector UInt64 16) (a b c d : Fin 16) (x y : UInt64) : Vector UInt64 16 :=
  let va := v[a] + v[b] + x
  let vd := rotateRight (v[d] ^^^ va) 32
  let vc := v[c] + vd
  let vb := rotateRight (v[b] ^^^ vc) 24
  let va := va + vb + y
  let vd := rotateRight (vd ^^^ va) 16
  let vc := vc + vd
  let vb := rotateRight (vb ^^^ vc) 63
  (((v.set a va).set b vb).set c vc).set d vd

/-- One round: the four columns, then the four diagonals. -/
def round (m : Vector UInt64 16) (v : Vector UInt64 16) (s : Vector (Fin 16) 16) :
    Vector UInt64 16 :=
  let v := mix v 0 4 8 12 m[s[0]] m[s[1]]
  let v := mix v 1 5 9 13 m[s[2]] m[s[3]]
  let v := mix v 2 6 10 14 m[s[4]] m[s[5]]
  let v := mix v 3 7 11 15 m[s[6]] m[s[7]]
  let v := mix v 0 5 10 15 m[s[8]] m[s[9]]
  let v := mix v 1 6 11 12 m[s[10]] m[s[11]]
  let v := mix v 2 7 8 13 m[s[12]] m[s[13]]
  mix v 3 4 9 14 m[s[14]] m[s[15]]

/-- The sixteen words of a block, least significant byte first. -/
def blockWords (block : Bytes) : Vector UInt64 16 :=
  Vector.ofFn fun i => (Bytes.toNatLE ((block.drop (8 * i)).take 8)).toUInt64

/-- Absorbs one block: twelve rounds, of which the last two repeat the first two schedules. -/
def compress (h : Vector UInt64 8) (block : Bytes) (counter : Nat) (last : Bool) :
    Vector UInt64 8 :=
  let m := blockWords block
  let v : Vector UInt64 16 := h ++ Sha512.iv
  let v := v.set 12 (v[12] ^^^ counter.toUInt64)
  let v := v.set 13 (v[13] ^^^ (counter / UInt64.size).toUInt64)
  let v := if last then v.set 14 (v[14] ^^^ 0xffffffffffffffff) else v
  let v := schedule.foldl (round m) v
  let v := round m (round m v schedule[0]) schedule[1]
  Vector.ofFn fun i => h[i] ^^^ v[i.val] ^^^ v[i.val + 8]

/-- Absorbs `full` full blocks and then the rest of the message as the last block. -/
def absorb : (full : Nat) → (h : Vector UInt64 8) → (counter : Nat) → Bytes → Vector UInt64 8
  | 0, h, counter, rest => compress h (Bytes.padTo blockSize rest) (counter + rest.length) true
  | full + 1, h, counter, rest =>
    absorb full (compress h (rest.take blockSize) (counter + blockSize) false)
      (counter + blockSize) (rest.drop blockSize)

/-- The 64-byte BLAKE2b digest of a message. -/
def digest (message : Bytes) : Bytes :=
  let start := Vector.zipWith (· ^^^ ·) Sha512.iv parameters
  let h := absorb ((message.length - 1) / blockSize) start 0 message
  h.toList.flatMap fun w => Bytes.ofNatLE 8 w.toNat

end ShieldedPayments.Hash.Blake2b
