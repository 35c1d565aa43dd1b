import ShieldedPayments.Bytes

/-!
# AES-256

The block cipher of FIPS 197 with a key of 32 bytes, in the encrypting direction. A block of 16
bytes is a matrix of four columns, written column by column: the byte in row `r` and column `c` has
position `r + 4 * c`.
-/

namespace ShieldedPayments.Cipher.Aes

/-- A block, or a round key. -/
abbrev Block := Vector UInt8 16

/-- A column of a block, or a word of the key schedule. -/
abbrev Word := Vector UInt8 4

/-- The double of a byte in the field of polynomials modulo `x^8 + x^4 + x^3 + x + 1`. -/
def double (x : UInt8) : UInt8 :=
  if x &&& 0x80 = 0 then x <<< 1 else (x <<< 1) ^^^ 0x1b

/-- The product of two bytes in that field, from the most significant bit of the first down. -/
def mul (x y : UInt8) : UInt8 :=
  [7, 6, 5, 4, 3, 2, 1, 0].foldl
    (fun acc bit => double acc ^^^ (if (x >>> bit) &&& 1 = 1 then y else 0)) 0

/-- The inverse of a byte in that field, and zero for zero: the power with the exponent 254. -/
def invert (x : UInt8) : UInt8 :=
  let x2 := mul x x
  let x4 := mul x2 x2
  let x8 := mul x4 x4
  let x16 := mul x8 x8
  let x32 := mul x16 x16
  let x64 := mul x32 x32
  mul (mul (mul x2 x4) (mul x8 x16)) (mul (mul x32 x64) (mul x64 x64))

/-- A byte rotated left by `n` bits, for `n` between 1 and 7. -/
def rotateLeft (x n : UInt8) : UInt8 :=
  (x <<< n) ||| (x >>> (8 - n))

/-- The substitution box: the inverse, followed by an affine map. -/
def substitute (x : UInt8) : UInt8 :=
  let y := invert x
  y ^^^ rotateLeft y 1 ^^^ rotateLeft y 2 ^^^ rotateLeft y 3 ^^^ rotateLeft y 4 ^^^ 0x63

/-- The values of the substitution box. -/
def substitution : Vector UInt8 256 :=
  Vector.ofFn fun i => substitute i.val.toUInt8

/-- The substitution box by look-up. -/
def lookUp (x : UInt8) : UInt8 :=
  substitution.get ⟨x.toNat, x.toNat_lt⟩

/-- The constants of the key schedule. -/
def roundConstants : Vector UInt8 7 :=
  #v[0x01, 0x02, 0x04, 0x08, 0x10, 0x20, 0x40]

/-- Eight more words of the key schedule, from the eight before them. -/
def nextWords (w : Vector Word 8) (constant : UInt8) : Vector Word 8 :=
  let add := fun (a b : Word) => Vector.zipWith (· ^^^ ·) a b
  let last := w[7]
  let turned : Word :=
    #v[lookUp last[1] ^^^ constant, lookUp last[2], lookUp last[3], lookUp last[0]]
  let w0 := add w[0] turned
  let w1 := add w[1] w0
  let w2 := add w[2] w1
  let w3 := add w[3] w2
  let w4 := add w[4] (w3.map lookUp)
  let w5 := add w[5] w4
  let w6 := add w[6] w5
  #v[w0, w1, w2, w3, w4, w5, w6, add w[7] w6]

/-- The eight words of a key. Bytes that the key lacks are zero. -/
def keyWords (key : Bytes) : Vector Word 8 :=
  Vector.ofFn fun i => Vector.ofFn fun j => key.getD (4 * i.val + j.val) 0

/-- The two round keys that eight words make up. -/
def roundKeysOf (w : Vector Word 8) : List Block :=
  [Vector.ofFn fun i => w[i.val / 4][i.val % 4], Vector.ofFn fun i => w[4 + i.val / 4][i.val % 4]]

/-- The fifteen round keys of a key. -/
def roundKeys (key : Bytes) : List Block :=
  let step := fun (state : Vector Word 8 × List Block) (constant : UInt8) =>
    let w := nextWords state.1 constant
    (w, state.2 ++ roundKeysOf w)
  let w := keyWords key
  (roundConstants.foldl step (w, roundKeysOf w)).2.take 15

/-- Adds a round key. -/
def addKey (block key : Block) : Block :=
  Vector.zipWith (· ^^^ ·) block key

/-- Substitutes every byte and rotates row `r` by `r` columns. -/
def substituteAndShift (block : Block) : Block :=
  Vector.ofFn fun i =>
    let row := i.val % 4
    let column := i.val / 4
    lookUp block[row + 4 * ((column + row) % 4)]

/-- Multiplies every column by the circulant matrix of `2, 3, 1, 1`. -/
def mixColumns (block : Block) : Block :=
  Vector.ofFn fun i =>
    let row := i.val % 4
    let column := i.val / 4
    let entry := fun (k : Nat) => block.get ⟨(row + k) % 4 + 4 * column, by omega⟩
    double (entry 0) ^^^ double (entry 1) ^^^ entry 1 ^^^ entry 2 ^^^ entry 3

/-- The rounds after the first key: all but the last mix the columns. -/
def rounds : Block → List Block → Block
  | block, [] => block
  | block, [key] => addKey (substituteAndShift block) key
  | block, key :: keys => rounds (addKey (mixColumns (substituteAndShift block)) key) keys

/-- The encryption of a block under round keys. -/
def encryptBlock (keys : List Block) (block : Block) : Block :=
  match keys with
  | [] => block
  | key :: keys => rounds (addKey block key) keys

end ShieldedPayments.Cipher.Aes
