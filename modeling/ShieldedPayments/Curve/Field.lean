import ShieldedPayments.Bytes

/-!
# The field of order 2^255 - 19

Elements are kept in ten limbs of 26 and 25 bits in turn: limb `i` has the weight `2 ^ w i` for
`w = 0, 26, 51, 77, 102, 128, 153, 179, 204, 230`. Every operation carries, so limbs exceed their
width by at most a few units and the sums of ten products below stay under `2 ^ 64`. The limbs of an
element are not unique; `FieldElement.toNat` is its value and equality compares values.

Two limbs of odd position have weights whose product is twice the weight of the position sum, and
a product that reaches position ten or more comes back nineteenfold, because `2 ^ 255 = 19`.

* `FieldElement.add`, `sub`, `mul`, `square`: the ring operations.
* `FieldElement.sqrtRatio`: square roots of quotients, from which inverses, decompression and the
  map onto the curve are built.
-/

namespace ShieldedPayments.Curve

/-- The order of the field. -/
def fieldOrder : Nat := 1 <<< 255 - 19

/-- An element of the field of order `2 ^ 255 - 19`, in ten limbs. -/
structure FieldElement where
  (l0 l1 l2 l3 l4 l5 l6 l7 l8 l9 : UInt64)

namespace FieldElement

/-- The low 26 bits. -/
def low26 (x : UInt64) : UInt64 := x &&& 0x3ffffff

/-- The low 25 bits. -/
def low25 (x : UInt64) : UInt64 := x &&& 0x1ffffff

/-- Carries from each limb to the next, and from the last limb nineteenfold to the first. -/
@[inline] def carry (h0 h1 h2 h3 h4 h5 h6 h7 h8 h9 : UInt64) : FieldElement :=
  let h1 := h1 + (h0 >>> 26)
  let h2 := h2 + (h1 >>> 25)
  let h3 := h3 + (h2 >>> 26)
  let h4 := h4 + (h3 >>> 25)
  let h5 := h5 + (h4 >>> 26)
  let h6 := h6 + (h5 >>> 25)
  let h7 := h7 + (h6 >>> 26)
  let h8 := h8 + (h7 >>> 25)
  let h9 := h9 + (h8 >>> 26)
  let h0 := low26 h0 + (19 : UInt64) * (h9 >>> 25)
  ⟨low26 h0, low25 h1 + (h0 >>> 26), low26 h2, low25 h3, low26 h4, low25 h5, low26 h6, low25 h7,
    low26 h8, low25 h9⟩

/-- The value of an element, below the field order. -/
def toNat (a : FieldElement) : Nat :=
  (a.l0.toNat + a.l1.toNat <<< 26 + a.l2.toNat <<< 51 + a.l3.toNat <<< 77
    + a.l4.toNat <<< 102 + a.l5.toNat <<< 128 + a.l6.toNat <<< 153 + a.l7.toNat <<< 179
    + a.l8.toNat <<< 204 + a.l9.toNat <<< 230) % fieldOrder

/-- The element with the value `n` modulo the field order. -/
def ofNat (n : Nat) : FieldElement :=
  let v := n % fieldOrder
  let limb := fun (weight width : Nat) => (v >>> weight % 1 <<< width).toUInt64
  ⟨limb 0 26, limb 26 25, limb 51 26, limb 77 25, limb 102 26, limb 128 25, limb 153 26,
    limb 179 25, limb 204 26, limb 230 25⟩

instance : BEq FieldElement := ⟨fun a b => a.toNat == b.toNat⟩

instance : Zero FieldElement := ⟨⟨0, 0, 0, 0, 0, 0, 0, 0, 0, 0⟩⟩

instance : One FieldElement := ⟨⟨1, 0, 0, 0, 0, 0, 0, 0, 0, 0⟩⟩

/-- The sum of two elements. -/
def add (a b : FieldElement) : FieldElement :=
  let ⟨a0, a1, a2, a3, a4, a5, a6, a7, a8, a9⟩ := a
  let ⟨b0, b1, b2, b3, b4, b5, b6, b7, b8, b9⟩ := b
  carry (a0 + b0) (a1 + b1) (a2 + b2) (a3 + b3) (a4 + b4) (a5 + b5) (a6 + b6) (a7 + b7) (a8 + b8)
    (a9 + b9)

/-- The difference of two elements. Twice the field order is added first, limb by limb, so that no
limb drops below zero. -/
def sub (a b : FieldElement) : FieldElement :=
  let ⟨a0, a1, a2, a3, a4, a5, a6, a7, a8, a9⟩ := a
  let ⟨b0, b1, b2, b3, b4, b5, b6, b7, b8, b9⟩ := b
  carry (a0 + 0x7ffffda - b0) (a1 + 0x3fffffe - b1) (a2 + 0x7fffffe - b2) (a3 + 0x3fffffe - b3)
    (a4 + 0x7fffffe - b4) (a5 + 0x3fffffe - b5) (a6 + 0x7fffffe - b6) (a7 + 0x3fffffe - b7)
    (a8 + 0x7fffffe - b8) (a9 + 0x3fffffe - b9)

/-- The product of two elements. -/
def mul (a b : FieldElement) : FieldElement :=
  let ⟨a0, a1, a2, a3, a4, a5, a6, a7, a8, a9⟩ := a
  let ⟨b0, b1, b2, b3, b4, b5, b6, b7, b8, b9⟩ := b
  let d1 := 2 * a1
  let d3 := 2 * a3
  let d5 := 2 * a5
  let d7 := 2 * a7
  let d9 := 2 * a9
  let w1 := 19 * b1
  let w2 := 19 * b2
  let w3 := 19 * b3
  let w4 := 19 * b4
  let w5 := 19 * b5
  let w6 := 19 * b6
  let w7 := 19 * b7
  let w8 := 19 * b8
  let w9 := 19 * b9
  carry
    (a0 * b0 + d1 * w9 + a2 * w8 + d3 * w7 + a4 * w6 + d5 * w5 + a6 * w4 + d7 * w3 + a8 * w2
     + d9 * w1)
    (a0 * b1 + a1 * b0 + a2 * w9 + a3 * w8 + a4 * w7 + a5 * w6 + a6 * w5 + a7 * w4 + a8 * w3
     + a9 * w2)
    (a0 * b2 + d1 * b1 + a2 * b0 + d3 * w9 + a4 * w8 + d5 * w7 + a6 * w6 + d7 * w5 + a8 * w4
     + d9 * w3)
    (a0 * b3 + a1 * b2 + a2 * b1 + a3 * b0 + a4 * w9 + a5 * w8 + a6 * w7 + a7 * w6 + a8 * w5
     + a9 * w4)
    (a0 * b4 + d1 * b3 + a2 * b2 + d3 * b1 + a4 * b0 + d5 * w9 + a6 * w8 + d7 * w7 + a8 * w6
     + d9 * w5)
    (a0 * b5 + a1 * b4 + a2 * b3 + a3 * b2 + a4 * b1 + a5 * b0 + a6 * w9 + a7 * w8 + a8 * w7
     + a9 * w6)
    (a0 * b6 + d1 * b5 + a2 * b4 + d3 * b3 + a4 * b2 + d5 * b1 + a6 * b0 + d7 * w9 + a8 * w8
     + d9 * w7)
    (a0 * b7 + a1 * b6 + a2 * b5 + a3 * b4 + a4 * b3 + a5 * b2 + a6 * b1 + a7 * b0 + a8 * w9
     + a9 * w8)
    (a0 * b8 + d1 * b7 + a2 * b6 + d3 * b5 + a4 * b4 + d5 * b3 + a6 * b2 + d7 * b1 + a8 * b0
     + d9 * w9)
    (a0 * b9 + a1 * b8 + a2 * b7 + a3 * b6 + a4 * b5 + a5 * b4 + a6 * b3 + a7 * b2 + a8 * b1
     + a9 * b0)

/-- The square of an element. -/
def square (a : FieldElement) : FieldElement :=
  let ⟨a0, a1, a2, a3, a4, a5, a6, a7, a8, a9⟩ := a
  let d0 := 2 * a0
  let d1 := 2 * a1
  let d2 := 2 * a2
  let d3 := 2 * a3
  let d4 := 2 * a4
  let d5 := 2 * a5
  let d6 := 2 * a6
  let d7 := 2 * a7
  let w5 := 38 * a5
  let w6 := 19 * a6
  let w7 := 38 * a7
  let w8 := 19 * a8
  let w9 := 38 * a9
  carry
    (a0 * a0 + d1 * w9 + d2 * w8 + d3 * w7 + d4 * w6 + a5 * w5)
    (d0 * a1 + a2 * w9 + d3 * w8 + a4 * w7 + d5 * w6)
    (d0 * a2 + d1 * a1 + d3 * w9 + d4 * w8 + d5 * w7 + a6 * w6)
    (d0 * a3 + d1 * a2 + a4 * w9 + d5 * w8 + a6 * w7)
    (d0 * a4 + d1 * d3 + a2 * a2 + d5 * w9 + d6 * w8 + a7 * w7)
    (d0 * a5 + d1 * a4 + d2 * a3 + a6 * w9 + d7 * w8)
    (d0 * a6 + d1 * d5 + d2 * a4 + d3 * a3 + d7 * w9 + a8 * w8)
    (d0 * a7 + d1 * a6 + d2 * a5 + d3 * a4 + a8 * w9)
    (d0 * a8 + d1 * d7 + d2 * a6 + d3 * d5 + a4 * a4 + a9 * w9)
    (d0 * a9 + d1 * a8 + d2 * a7 + d3 * a6 + d4 * a5)

instance : Add FieldElement := ⟨add⟩

instance : Sub FieldElement := ⟨sub⟩

instance : Mul FieldElement := ⟨mul⟩

instance : Neg FieldElement := ⟨fun a => 0 - a⟩

/-- The element squared `n` times. -/
def squares (n : Nat) (a : FieldElement) : FieldElement :=
  Nat.repeat square n a

/-- The powers of `z` with the exponents 11 and `2 ^ 250 - 1`. Each step from the exponent
`2 ^ i - 1` to `2 ^ (i + j) - 1` squares `j` times and multiplies by the power `2 ^ j - 1`. -/
def longPowers (z : FieldElement) : FieldElement × FieldElement :=
  let z2 := square z
  let z9 := z * squares 2 z2
  let z11 := z2 * z9
  let ones5 := z9 * square z11
  let ones10 := squares 5 ones5 * ones5
  let ones20 := squares 10 ones10 * ones10
  let ones40 := squares 20 ones20 * ones20
  let ones50 := squares 10 ones40 * ones10
  let ones100 := squares 50 ones50 * ones50
  let ones200 := squares 100 ones100 * ones100
  (z11, squares 50 ones200 * ones50)

/-- The power of `z` with the exponent `2 ^ 252 - 3`, which is `(p - 5) / 8`. -/
def powRoot (z : FieldElement) : FieldElement :=
  squares 2 (longPowers z).2 * z

/-- The inverse of `z`, and zero for zero: the power with the exponent `p - 2 = 2 ^ 255 - 21`. -/
def invert (z : FieldElement) : FieldElement :=
  let (z11, ones250) := longPowers z
  squares 5 ones250 * z11

/-- The 32 bytes of an element's value, least significant first. -/
def encode (a : FieldElement) : Bytes :=
  Bytes.ofNatLE 32 a.toNat

/-- The element whose value is given by the low 255 bits of 32 bytes. -/
def ofBytes (b : Bytes) : FieldElement :=
  ofNat (b.toNatLE % 1 <<< 255)

/-- Whether the value is odd, the convention for "negative". -/
def isNegative (a : FieldElement) : Bool :=
  a.toNat % 2 == 1

/-- The nonnegative one of an element and its opposite. -/
def abs (a : FieldElement) : FieldElement :=
  if a.isNegative then -a else a

/-- A square root of minus one, `2 ^ ((p - 1) / 4)`. -/
def sqrtMinusOne : FieldElement :=
  ofNat 19681161376707505956807079304988542015446066515923890162744021073123829784752

/-- Whether `u / v` is a square, and the nonnegative square root of `u / v` if it is, or of
`sqrtMinusOne * u / v` if not. Division by zero gives zero; it counts as a square if `u` is zero. -/
def sqrtRatio (u v : FieldElement) : Bool × FieldElement :=
  let v3 := square v * v
  let v7 := square v3 * v
  let r := (u * v3) * powRoot (u * v7)
  let check := v * square r
  let correct := check == u
  let flipped := check == -u
  let flippedTurned := check == -u * sqrtMinusOne
  let r := if flipped || flippedTurned then sqrtMinusOne * r else r
  (correct || flipped, r.abs)

end FieldElement

end ShieldedPayments.Curve
