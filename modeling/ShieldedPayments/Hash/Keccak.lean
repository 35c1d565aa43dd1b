import ShieldedPayments.Bytes

/-!
# Keccak-f[1600]

The permutation of FIPS 202 on a state of 200 bytes. The state is an array of 25 lanes of 64 bits;
the lane at column `x` and row `y` has position `x + 5 * y`, and each lane is written least
significant byte first.
-/

namespace ShieldedPayments.Hash.Keccak

/-- The 25 lanes of the permutation. -/
abbrev Lanes := Vector UInt64 25

/-- The constants added to lane 0, one for each of the 24 rounds. -/
def roundConstants : List UInt64 :=
  [0x0000000000000001, 0x0000000000008082, 0x800000000000808a, 0x8000000080008000,
   0x000000000000808b, 0x0000000080000001, 0x8000000080008081, 0x8000000000008009,
   0x000000000000008a, 0x0000000000000088, 0x0000000080008009, 0x000000008000000a,
   0x000000008000808b, 0x800000000000008b, 0x8000000000008089, 0x8000000000008003,
   0x8000000000008002, 0x8000000000000080, 0x000000000000800a, 0x800000008000000a,
   0x8000000080008081, 0x8000000000008080, 0x0000000080000001, 0x8000000080008008]

/-- How far the lane at each position is rotated. -/
def offsets : Vector UInt64 25 :=
  #v[0, 1, 62, 28, 27, 36, 44, 6, 55, 20, 3, 10, 43, 25, 39, 41, 45, 15, 21, 8, 18, 2, 61, 56, 14]

/-- The word `x` rotated left by `n` bits, for `n` below 64. -/
def rotateLeft (x n : UInt64) : UInt64 :=
  (x <<< n) ||| (x >>> ((64 - n) % 64))

/-- Adds to every lane the parities of two neighbouring columns. -/
def theta (a : Lanes) : Lanes :=
  let parity : Vector UInt64 5 := Vector.ofFn fun x =>
    a[x.val] ^^^ a[x.val + 5] ^^^ a[x.val + 10] ^^^ a[x.val + 15] ^^^ a[x.val + 20]
  let effect : Vector UInt64 5 := Vector.ofFn fun x =>
    parity[x + 4] ^^^ rotateLeft parity[x + 1] 1
  Vector.ofFn fun i => a[i] ^^^ effect[i.val % 5]

/-- The position whose lane moves to position `i`. -/
def source (i : Fin 25) : Fin 25 :=
  let x := i.val % 5
  let y := i.val / 5
  Fin.ofNat 25 ((x + 3 * y) % 5 + 5 * x)

/-- Rotates the lanes and moves them. -/
def rhoPi (a : Lanes) : Lanes :=
  Vector.ofFn fun i => rotateLeft a[source i] offsets[source i]

/-- Combines every lane with the two to its right in the same row. -/
def chi (a : Lanes) : Lanes :=
  Vector.ofFn fun i =>
    let row := 5 * (i.val / 5)
    a[i] ^^^ (~~~a[Fin.ofNat 25 (row + (i.val + 1) % 5)] &&& a[Fin.ofNat 25 (row + (i.val + 2) % 5)])

/-- One round with its constant. -/
def round (a : Lanes) (constant : UInt64) : Lanes :=
  let b := chi (rhoPi (theta a))
  b.set 0 (b[0] ^^^ constant)

/-- The lanes of a state of 200 bytes. -/
def lanesOfBytes (b : Vector UInt8 200) : Lanes :=
  Vector.ofFn fun i =>
    (List.finRange 8).foldr
      (fun j high => (high <<< 8) ||| (b[8 * i.val + j.val]).toUInt64) 0

/-- The bytes of the lanes. -/
def bytesOfLanes (a : Lanes) : Vector UInt8 200 :=
  Vector.ofFn fun i => (a[i.val / 8] >>> (8 * (i.val % 8)).toUInt64).toUInt8

/-- The permutation Keccak-f[1600] on a state of 200 bytes. -/
def permute (b : Vector UInt8 200) : Vector UInt8 200 :=
  bytesOfLanes (roundConstants.foldl round (lanesOfBytes b))

end ShieldedPayments.Hash.Keccak
