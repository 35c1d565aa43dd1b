import ShieldedPayments.Argument.Vectors
import ShieldedPayments.Group.Hashing
import ShieldedPayments.Group.Pedersen
import ShieldedPayments.Transcript.Basic
import ShieldedPayments.Wire

/-!
# One member of a ring opens to zero

A proof that among eight points there is one that is a known multiple of the blinding base, without
telling which. The prover commits to the three bits of its position. With the challenge `x`, the
response for bit `j` is `f j = l j * x + a j`; every ring member is weighted by a product of one
factor per bit of its position, `f j` for a set bit and `x - f j` for a clear one. As polynomials in
`x` these weights have degree three only at the hidden position; the lower coefficients are cancelled
by the points `cd`.

* `RingProof.prove`, `RingProof.verify`: making and checking proofs.
* `RingProof.checkAt`: the identities for a given challenge.
-/

namespace ShieldedPayments

/-- The number of bits of a position in a ring (`COMMITMENT_RING_SIZE_EXP`). -/
def ringDepth : Nat := 3

/-- The number of points in a ring (`COMMITMENT_RING_SIZE`). -/
def ringSize : Nat := 1 <<< ringDepth

/-- A proof that one ring member opens to zero: commitments to the position's bits (`cl`), to their
masks (`ca`) and to the products of both (`cb`), the cancelling points (`cd`), and the responses
(`OneOutOfManyProof`). -/
structure RingProof (F G : Type) where
  cl : Vector G ringDepth
  ca : Vector G ringDepth
  cb : Vector G ringDepth
  cd : Vector G ringDepth
  f : Vector F ringDepth
  za : Vector F ringDepth
  zb : Vector F ringDepth
  zd : F
  deriving BEq

/-- The random scalars for one bit: the mask `a`, the blindings of the three commitments, and the
blinding of the cancelling point. -/
structure RingSecrets (F : Type) where
  r : F
  a : F
  s : F
  t : F
  u : F

namespace RingProof

variable {F G : Type} [ScalarField F] [PointGroup F G]

/-- Bit `j` of a position, as a scalar. -/
def bit (position j : Nat) : F :=
  if position.testBit j then 1 else 0

/-- The product of a polynomial, given by its coefficients, and `c0 + c1 * x` (`mul_linear`). -/
def mulLinear (p : List F) (c0 c1 : F) : List F :=
  List.zipWith (· + ·) (p.map (· * c0) ++ [0]) (0 :: p.map (· * c1))

/-- The weight of the ring member at position `i` as a polynomial in the challenge, for the hidden
position `l` and the masks of its bits (`polys` in `OneOutOfManyWitness::prove`). -/
def weightPolynomial (l : Nat) (secrets : Vector (RingSecrets F) ringDepth) (i : Nat) : List F :=
  (List.finRange ringDepth).foldl
    (fun p (j : Fin ringDepth) =>
      if i.testBit j then mulLinear p secrets[j].a (bit l j)
      else mulLinear p (-secrets[j].a) (1 - bit l j))
    [1]

/-- The weight of the ring member at position `i` for the challenge `x` and the responses `f`
(`weight` in `OneOutOfManyProof::verify`). -/
def weight (f : Vector F ringDepth) (x : F) (i : Nat) : F :=
  (List.finRange ringDepth).foldl
    (fun acc (j : Fin ringDepth) => if i.testBit j then acc * f[j] else acc * (x - f[j])) 1

/-- The challenge that a ring and the points of a proof lead to. -/
def challenge (ring : List G) (cl ca cb cd : Vector G ringDepth) : F :=
  let t := Transcript.init (Bytes.ascii "one-out-of-many")
  let t := t.appendPoints (Bytes.ascii "ring") ring
  let t := t.appendPoints (Bytes.ascii "cl") cl.toList
  let t := t.appendPoints (Bytes.ascii "ca") ca.toList
  let t := t.appendPoints (Bytes.ascii "cb") cb.toList
  let t := t.appendPoints (Bytes.ascii "cd") cd.toList
  (t.challenge (Bytes.ascii "x")).1

/-- The random scalars for one bit. -/
def drawSecrets : Drawing (RingSecrets F) := do
  let r ← Drawing.scalar
  let a ← Drawing.scalar
  let s ← Drawing.scalar
  let t ← Drawing.scalar
  let u ← Drawing.scalar
  return ⟨r, a, s, t, u⟩

/-- The random scalars for all bits. -/
def drawAllSecrets : Drawing (Vector (RingSecrets F) ringDepth) := do
  let s0 ← drawSecrets
  let s1 ← drawSecrets
  let s2 ← drawSecrets
  return #v[s0, s1, s2]

/-- The proof for the hidden position `l`, the scalar `rand` of its member, and random scalars. -/
def assemble (ring : List G) (rand : F) (l : Nat) (secrets : Vector (RingSecrets F) ringDepth) :
    RingProof F G :=
  let commit := fun (value blinding : F) => (Pedersen.commitAt .spendKey value blinding : G)
  let cl := Vector.ofFn fun j => commit (bit l j.val) secrets[j].r
  let ca := Vector.ofFn fun j => commit secrets[j].a secrets[j].s
  let cb := Vector.ofFn fun j => commit (bit l j.val * secrets[j].a) secrets[j].t
  let polynomials := (List.range ringSize).map (weightPolynomial l secrets)
  let cd := Vector.ofFn fun k =>
    combination ((polynomials.map (·.getD k.val 0)).zip ring)
      + secrets[k].u • (pedersen : PedersenBases G).blinding
  let x : F := challenge ring cl ca cb cd
  let f := Vector.ofFn fun j => bit l j.val * x + secrets[j].a
  let step := fun (state : F × F) (s : RingSecrets F) => (state.1 * x, state.2 + s.u * state.1)
  let (power, masked) := secrets.foldl step (1, 0)
  { cl, ca, cb, cd, f
    za := Vector.ofFn fun j => secrets[j].r * x + secrets[j].s
    zb := Vector.ofFn fun j => secrets[j].r * (x - f[j]) + secrets[j].t
    zd := rand * power - masked }

/-- A proof that the ring member at position `l` is `rand` times the blinding base
(`OneOutOfManyWitness::prove`). -/
def prove (ring : List G) (rand : F) (l : Nat) : Proving (RingProof F G) := do
  ensure (ring.length == ringSize) (.invalidInput "ring size")
  let member ← require ring[l]? (.invalidInput "ring index out of range")
  ensure (member == Pedersen.commitAt .spendKey (0 : F) rand)
    (.invalidInput "ring member does not open to zero")
  let secrets ← ExceptT.lift drawAllSecrets
  return assemble ring rand l secrets

/-- Refuses a proof unless the identities for bit `j` hold for the challenge `x` (the body of the
loop over the bits in `OneOutOfManyProof::verify`). -/
def checkBit (proof : RingProof F G) (x : F) (j : Fin ringDepth) : Outcome Unit := do
  ensure (x • proof.cl[j] + proof.ca[j] == Pedersen.commitAt .spendKey proof.f[j] proof.za[j])
    (.proofVerificationFailed "one-out-of-many: bit opening")
  ensure ((x - proof.f[j]) • proof.cl[j] + proof.cb[j]
      == proof.zb[j] • (pedersen : PedersenBases G).blinding)
    (.proofVerificationFailed "one-out-of-many: bit product")

/-- What the weighted ring, less the cancelling points and the last response, adds up to. -/
def remainder (proof : RingProof F G) (ring : List G) (x : F) : G :=
  combination
    (((List.range ring.length).map (weight proof.f x)).zip ring
      ++ ((powers x ringDepth).map (- ·)).zip proof.cd.toList
      ++ [(-proof.zd, (pedersen : PedersenBases G).blinding)])

/-- Refuses a proof unless all identities hold for the challenge `x`. -/
def checkAt (proof : RingProof F G) (ring : List G) (x : F) : Outcome Unit := do
  (List.finRange ringDepth).forM (proof.checkBit x)
  ensure (proof.remainder ring x == 0)
    (.proofVerificationFailed "one-out-of-many: ring relation")

/-- Refuses a proof that does not hold for a ring (`OneOutOfManyProof::verify`). -/
def verify (proof : RingProof F G) (ring : List G) : Outcome Unit := do
  ensure (ring.length == ringSize) (.invalidInput "ring size")
  proof.checkAt ring (challenge ring proof.cl proof.ca proof.cb proof.cd)

/-- Bytes in an encoding (`ONE_OF_MANY_PROOF_SIZE`). -/
def size : Nat := (7 * ringDepth + 1) * elementSize

/-- The elements one after the other (`OneOutOfManyProof::to_bytes`). -/
def toBytes (proof : RingProof F G) : Bytes :=
  let points := fun (ps : Vector G ringDepth) => ps.toList.flatMap PointGroup.encode
  let scalars := fun (ss : Vector F ringDepth) => ss.toList.flatMap ScalarField.encode
  points proof.cl ++ points proof.ca ++ points proof.cb ++ points proof.cd ++ scalars proof.f
    ++ scalars proof.za ++ scalars proof.zb ++ ScalarField.encode proof.zd

/-- Reads one element for each bit (`read_points` and `read_scalars`). -/
def perBit {α : Type} (r : Reader α) : Reader (Vector α ringDepth) := do
  let a ← r
  let b ← r
  let c ← r
  return #v[a, b, c]

/-- Reads the elements of a proof. -/
def reader : Reader (RingProof F G) := do
  let cl ← perBit Reader.point
  let ca ← perBit Reader.point
  let cb ← perBit Reader.point
  let cd ← perBit Reader.point
  let f ← perBit Reader.scalar
  let za ← perBit Reader.scalar
  let zb ← perBit Reader.scalar
  let zd ← Reader.scalar
  return { cl, ca, cb, cd, f, za, zb, zd }

/-- The proof with this encoding (`OneOutOfManyProof::from_bytes`). -/
def ofBytes (b : Bytes) : Outcome (RingProof F G) := do
  ensure (b.length == size) (.malformedEncoding "one-out-of-many proof length")
  reader.result b

end RingProof

end ShieldedPayments
