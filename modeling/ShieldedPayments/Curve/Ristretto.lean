import ShieldedPayments.Curve.Multiples
import ShieldedPayments.Curve.Scalar
import ShieldedPayments.Group.Derivation

/-!
# The ristretto group

The prime-order group of RFC 9496: points of the twisted Edwards curve, of which four each stand for
the same group element and have the same encoding.

* `RistrettoPoint.encode`, `RistrettoPoint.decode`: the encoding in 32 bytes.
* `RistrettoPoint.ofUniform`: the map from 64 bytes to points.
* The instance of `PointGroup` that the protocols run on.
-/

namespace ShieldedPayments.Curve

open FieldElement (square sqrtRatio sqrtMinusOne)

/-- An element of the ristretto group, through one of the curve points that stand for it. -/
structure RistrettoPoint where
  point : EdwardsPoint

namespace RistrettoPoint

/-- The inverse square root of `-1 - d`. -/
def invSqrtOfNegOneMinusD : FieldElement :=
  FieldElement.ofNat 54469307008909316920995813868745141605393597292927456921205312896311721017578

/-- A square root of `-d - 1`. -/
def sqrtOfNegDMinusOne : FieldElement :=
  FieldElement.ofNat 25063068953384623474111414158702152701244531502492656460079210482610430750235

/-- Two curve points stand for the same element if they differ by a point of order four. -/
instance : BEq RistrettoPoint where
  beq p q :=
    p.point.x * q.point.y == p.point.y * q.point.x || p.point.x * q.point.x == p.point.y * q.point.y

/-- What is written down of an element: of the curve points that stand for it the one with `x y`
nonnegative and `x` nonnegative is chosen, and a coordinate is computed from it. -/
def coordinate (p : RistrettoPoint) : FieldElement :=
  let ⟨x, y, z, t⟩ := p.point
  let u1 := (z + y) * (z - y)
  let u2 := x * y
  let invSqrt := (sqrtRatio 1 (u1 * square u2)).2
  let den1 := invSqrt * u1
  let den2 := invSqrt * u2
  let zInv := den1 * den2 * t
  let rotate := (t * zInv).isNegative
  let (x, y, denInv) :=
    if rotate then (y * sqrtMinusOne, x * sqrtMinusOne, den1 * invSqrtOfNegOneMinusD)
    else (x, y, den2)
  let y := if (x * zInv).isNegative then -y else y
  (denInv * (z - y)).abs

/-- The encoding of an element. -/
def encode (p : RistrettoPoint) : Bytes :=
  p.coordinate.encode

/-- The element with this encoding, if the 32 bytes denote a nonnegative field element below the
field order to which a curve point belongs. -/
def decode (b : Bytes) : Option RistrettoPoint :=
  if b.length = elementSize ∧ b.toNatLE < fieldOrder ∧ b.toNatLE % 2 = 0 then
    let s := FieldElement.ofNat b.toNatLE
    let ss := square s
    let u1 := 1 - ss
    let u2 := 1 + ss
    let u2Square := square u2
    let v := -(curveD * square u1) - u2Square
    let (isSquare, invSqrt) := sqrtRatio 1 (v * u2Square)
    let denX := invSqrt * u2
    let denY := invSqrt * denX * v
    let x := ((s + s) * denX).abs
    let y := u1 * denY
    let t := x * y
    if isSquare && !t.isNegative && !(y == 0) then some ⟨x, y, 1, t⟩ else none
  else none

/-- The element that a field element is mapped to. -/
def ofField (t : FieldElement) : RistrettoPoint :=
  let r := sqrtMinusOne * square t
  let u := (r + 1) * (1 - square curveD)
  let v := (-1 - r * curveD) * (r + curveD)
  let (isSquare, root) := sqrtRatio u v
  let s := if isSquare then root else -(root * t).abs
  let c := if isSquare then -1 else r
  let n := c * (r - 1) * square (curveD - 1) - v
  let w0 := (s + s) * v
  let w1 := n * sqrtOfNegDMinusOne
  let w2 := 1 - square s
  let w3 := 1 + square s
  ⟨w0 * w3, w2 * w1, w1 * w3, w0 * w2⟩

/-- The sum of the elements that the two halves of 64 bytes are mapped to. -/
def ofUniform (b : Bytes) : RistrettoPoint :=
  ⟨(ofField (FieldElement.ofBytes (b.take 32))).point
    + (ofField (FieldElement.ofBytes (b.drop 32))).point⟩

/-- The base point: the curve point with `y = 4 / 5` and `x` nonnegative. -/
def basePoint : RistrettoPoint :=
  let y := FieldElement.ofNat 4 * (FieldElement.ofNat 5).invert
  let x := (sqrtRatio (square y - 1) (curveD * square y + 1)).2
  ⟨x, y, 1, x * y⟩

/-- The base point with the tables of its multiples. -/
def preparedBase : FixedPoint :=
  FixedPoint.ofPoint basePoint.point

/-- The fixed bases of Pedersen commitments. -/
def pedersenBases : PedersenBases RistrettoPoint :=
  PedersenBases.derive basePoint ofUniform

/-- The fixed bases of the inner-product argument. -/
def innerProductBases : InnerProductBases RistrettoPoint :=
  InnerProductBases.derive ofUniform InnerProductBases.largest

instance : PointGroup Scalar RistrettoPoint where
  add p q := ⟨p.point + q.point⟩
  sub p q := ⟨p.point - q.point⟩
  neg p := ⟨-p.point⟩
  zero := ⟨0⟩
  smul s p := ⟨multiple s.val p.point⟩
  encode := encode
  decode := decode
  ofUniform := ofUniform
  combination terms := ⟨Curve.combination (terms.map fun (s, p) => (s.val, p.point))⟩
  baseMultiple s := ⟨preparedBase.multiple s.val⟩
  pedersen := pedersenBases
  innerProduct := innerProductBases

end RistrettoPoint

end ShieldedPayments.Curve
