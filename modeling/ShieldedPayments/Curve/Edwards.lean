import ShieldedPayments.Curve.Field

/-!
# The twisted Edwards curve

The curve `-x^2 + y^2 = 1 + d x^2 y^2` over the field of order `2^255 - 19`, with points in extended
coordinates `x = X / Z`, `y = Y / Z`, `x y = T / Z`. The addition law has no exceptional cases.

A point that is added many times is kept as an `Addend`, which saves one multiplication per sum.
-/

namespace ShieldedPayments.Curve

open FieldElement (square)

/-- The curve constant `d = -121665 / 121666`. -/
def curveD : FieldElement :=
  -(FieldElement.ofNat 121665) * (FieldElement.ofNat 121666).invert

/-- Twice the curve constant. -/
def curveD2 : FieldElement := curveD + curveD

/-- A point of the curve in extended coordinates. -/
structure EdwardsPoint where
  x : FieldElement
  y : FieldElement
  z : FieldElement
  t : FieldElement

/-- A point prepared for additions. -/
structure Addend where
  yPlusX : FieldElement
  yMinusX : FieldElement
  z2 : FieldElement
  td2 : FieldElement

namespace EdwardsPoint

/-- The neutral element. -/
def identity : EdwardsPoint := ⟨0, 1, 1, 0⟩

instance : Zero EdwardsPoint := ⟨identity⟩

/-- Prepares a point for additions. -/
def toAddend (p : EdwardsPoint) : Addend :=
  ⟨p.y + p.x, p.y - p.x, p.z + p.z, p.t * curveD2⟩

/-- The sum of a point and a prepared point. -/
def addPrepared (p : EdwardsPoint) (q : Addend) : EdwardsPoint :=
  let a := (p.y - p.x) * q.yMinusX
  let b := (p.y + p.x) * q.yPlusX
  let c := p.t * q.td2
  let d := p.z * q.z2
  let e := b - a
  let f := d - c
  let g := d + c
  let h := b + a
  ⟨e * f, g * h, f * g, e * h⟩

/-- The difference of a point and a prepared point. -/
def subPrepared (p : EdwardsPoint) (q : Addend) : EdwardsPoint :=
  let a := (p.y - p.x) * q.yPlusX
  let b := (p.y + p.x) * q.yMinusX
  let c := p.t * q.td2
  let d := p.z * q.z2
  let e := b - a
  let f := d + c
  let g := d - c
  let h := b + a
  ⟨e * f, g * h, f * g, e * h⟩

/-- The sum of two points. -/
def add (p q : EdwardsPoint) : EdwardsPoint :=
  p.addPrepared q.toAddend

/-- The opposite of a point. -/
def neg (p : EdwardsPoint) : EdwardsPoint :=
  ⟨-p.x, p.y, p.z, -p.t⟩

/-- The difference of two points. -/
def sub (p q : EdwardsPoint) : EdwardsPoint :=
  p.subPrepared q.toAddend

/-- The double of a point. -/
def double (p : EdwardsPoint) : EdwardsPoint :=
  let a := square p.x
  let b := square p.y
  let zz := square p.z
  let e := square (p.x + p.y) - a - b
  let g := b - a
  let f := g - (zz + zz)
  let h := -(a + b)
  ⟨e * f, g * h, f * g, e * h⟩

instance : Add EdwardsPoint := ⟨add⟩

instance : Sub EdwardsPoint := ⟨sub⟩

instance : Neg EdwardsPoint := ⟨neg⟩

end EdwardsPoint

end ShieldedPayments.Curve
