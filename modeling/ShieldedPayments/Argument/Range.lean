import ShieldedPayments.Argument.InnerProduct
import ShieldedPayments.Group.Hashing
import ShieldedPayments.Group.Pedersen

/-!
# Range proofs

A proof that up to 32 commitments open to values of 64 bits. Value `j` is committed as
`v j` times a base plus its blinding times the blinding base; the base is the value base, or the
asset tag of a confidential asset. The number of values is filled up to a power of two with zeros
that have no commitment. The bits of all values form one vector, which two polynomials of degree one
hide; an inner-product argument shows that their product has the right constant term.

* `RangeProof.prove`: making proofs.
* `RangeProof.verify`: checking them, with either check of the inner-product argument.
-/

namespace ShieldedPayments

/-- The values that a proof is made for, and their blindings (`AggregatedRangeWitness`). -/
structure RangeWitness (F : Type) where
  values : List UInt64
  blindings : List F

/-- A proof that the committed values have 64 bits (`AggregatedRangeProof`). -/
structure RangeProof (F G : Type) where
  version : UInt8
  commitments : List G
  a : G
  s : G
  t1 : G
  t2 : G
  tauX : F
  tHat : F
  mu : F
  argument : InnerProductProof F G
  deriving BEq

/-- Which check of the inner-product argument a verifier uses (the flag `faster` of
`verify_with`). -/
inductive RangeCheck where
  /-- Folding the bases round by round. -/
  | folding
  /-- One sum over all bases. -/
  | singleSum
  deriving DecidableEq, Repr

variable {F G : Type} [ScalarField F] [PointGroup F G]

namespace RangeProof

/-- The number of values filled up to a power of two (`padded_size`). -/
def paddedCount (count : Nat) : Outcome Nat := do
  ensure (count != 0 && count ≤ maxOutputs) (.invalidInput "range proof value count")
  return count.nextPowerOfTwo

end RangeProof

namespace RangeWitness

/-- The witness for values and blindings that belong together (`AggregatedRangeWitness::new`). -/
def create (values : List UInt64) (blindings : List F) : Outcome (RangeWitness F) := do
  let _ ← RangeProof.paddedCount values.length
  ensure (blindings.length == values.length) (.invalidInput "range proof randomness count")
  return ⟨values, blindings⟩

end RangeWitness

namespace RangeProof

/-- The transcript up to the number of padded values. -/
def transcript (version : UInt8) (base : G) (commitments : List G) (padded : Nat) : Transcript :=
  let t := Transcript.init (Bytes.ascii "aggregated-range-proof")
  let t := t.appendWord (Bytes.ascii "version") version.toNat
  let t := t.appendPoint (Bytes.ascii "base") base
  let t := t.appendPoints (Bytes.ascii "V") commitments
  t.appendWord (Bytes.ascii "m") padded

/-- The challenges `y` and `z`. -/
def challengesYZ (t : Transcript) (a s : G) : F × F × Transcript :=
  let t := t.appendPoint (Bytes.ascii "A") a
  let t := t.appendPoint (Bytes.ascii "S") s
  let (y, t) := t.challenge (Bytes.ascii "y")
  let (z, t) := t.challenge (Bytes.ascii "z")
  (y, z, t)

/-- The challenge `x`. -/
def challengeX (t : Transcript) (t1 t2 : G) : F × Transcript :=
  let t := t.appendPoint (Bytes.ascii "T1") t1
  let t := t.appendPoint (Bytes.ascii "T2") t2
  t.challenge (Bytes.ascii "x")

/-- The challenge `w`. -/
def challengeW (t : Transcript) (tauX tHat mu : F) : F × Transcript :=
  let t := t.appendScalar (Bytes.ascii "tau_x") tauX
  let t := t.appendScalar (Bytes.ascii "t_hat") tHat
  let t := t.appendScalar (Bytes.ascii "mu") mu
  t.challenge (Bytes.ascii "w")

/-- The powers of `z` from two up, one for each padded value (`z_weights`). -/
def zWeights (z : F) (padded : Nat) : List F :=
  (powers z padded).map (· * (z * z))

/-- The weights of the values, each spread over its bits with the powers of two. -/
def bitWeights (z : F) (padded : Nat) : List F :=
  let twos := powers (ofNat 2 : F) valueBits
  (zWeights z padded).flatMap fun zw => twos.map (zw * ·)

/-- The bits of a value, least significant first. -/
def bits (v : UInt64) : List F :=
  (List.range valueBits).map fun i => if v.toNat.testBit i then 1 else 0

/-- The bits of all values, filled up with zeros (`a_l` in `prove_using_base`). -/
def bitVector (values : List UInt64) (padded : Nat) : List F :=
  values.flatMap bits ++ List.replicate (valueBits * (padded - values.length)) 0

/-- The bases of the inner-product argument for a bit vector of the given length. -/
def vectorBases (G : Type) {F : Type} [ScalarField F] [PointGroup F G] (length : Nat) :
    List G × List G :=
  let bases : InnerProductBases G := PointGroup.innerProduct
  (bases.left.take length, bases.right.take length)

/-- The bases `h`, each divided by the power of `y` at its position (`h_prime`). -/
def scaledBases (h : List G) (yInverses : List F) : List G :=
  List.zipWith (fun p s => s • p) h yInverses

/-- A proof for a witness over a base (`AggregatedRangeWitness::prove_using_base`). -/
def prove (witness : RangeWitness F) (version : UInt8) (base : G) : Proving (RangeProof F G) := do
  let padded ← paddedCount witness.values.length
  let length := padded * valueBits
  let (g, h) := vectorBases G length
  let blinding : G := (pedersen : PedersenBases G).blinding
  let commit := fun (v r : F) => (combination [(v, base), (r, blinding)] : G)
  let commitments :=
    List.zipWith (fun v r => commit (ofNat v.toNat) r) witness.values witness.blindings
  let aL : List F := bitVector witness.values padded
  let aR := aL.map (· - 1)
  let alpha : F ← Proving.scalar
  let a := combination (aL.zip g ++ aR.zip h ++ [(alpha, blinding)])
  let sL : List F ← ExceptT.lift (Drawing.scalars length)
  let sR : List F ← ExceptT.lift (Drawing.scalars length)
  let rho : F ← Proving.scalar
  let s := combination (sL.zip g ++ sR.zip h ++ [(rho, blinding)])
  let (y, z, t) : F × F × Transcript :=
    challengesYZ (transcript version base commitments padded) a s
  let yPowers := powers y length
  let l0 := aL.map (· - z)
  let r0 := List.zipWith (· + ·)
    (List.zipWith (fun yp v => yp * (v + z)) yPowers aR) (bitWeights z padded)
  let r1 := List.zipWith (· * ·) yPowers sR
  let tau1 : F ← Proving.scalar
  let tau2 : F ← Proving.scalar
  let t1 := commit (innerProduct l0 r1 + innerProduct sL r0) tau1
  let t2 := commit (innerProduct sL r1) tau2
  let (x, t) : F × Transcript := challengeX t t1 t2
  let l := List.zipWith (fun u v => u + v * x) l0 sL
  let r := List.zipWith (fun u v => u + v * x) r0 r1
  let tHat := innerProduct l r
  let tauX := tau2 * x * x + tau1 * x + innerProduct (zWeights z padded) witness.blindings
  let mu := alpha + rho * x
  let (w, t) := challengeW t tauX tHat mu
  let u := w • (PointGroup.innerProduct : InnerProductBases G).inner
  let hScaled := scaledBases h (powers y⁻¹ length)
  let p := InnerProductProof.statement g hScaled u l r
  let argument ← InnerProductProof.prove t g hScaled u p l r
  return { version, commitments, a, s, t1, t2, tauX, tHat, mu, argument }

/-- The public part of the constant term, `(z - z^2) <1, y> - sum_j z^(3 + j) <1, 2>` (`delta` in
`verify_with`). -/
def delta (y z : F) (padded : Nat) : F :=
  (z - z * z) * (powers y (padded * valueBits)).sum
    - ((zWeights z padded).map (· * z)).sum * ofNat (1 <<< valueBits - 1)

/-- What is left of the commitment to the constant term after all that it should be (`poly_check` in
`verify_with`). -/
def polynomialRemainder (proof : RangeProof F G) (base : G) (padded : Nat) (x y z : F) : G :=
  combination
    ([(proof.tHat - delta y z padded, base), (proof.tauX, (pedersen : PedersenBases G).blinding),
        (-x, proof.t1), (-(x * x), proof.t2)]
      ++ ((zWeights z padded).map (- ·)).zip proof.commitments)

/-- The statement that the inner-product argument has to be about (`expected_p` in
`verify_with`). -/
def expectedStatement (proof : RangeProof F G) (g h : List G) (padded : Nat) (x y z w : F) : G :=
  let yInverses := powers y⁻¹ (padded * valueBits)
  let hFactors := List.zipWith (fun weight yi => z + weight * yi) (bitWeights z padded) yInverses
  combination
    ([(1, proof.a), (x, proof.s), (-proof.mu, (pedersen : PedersenBases G).blinding),
        (w * proof.tHat, (PointGroup.innerProduct : InnerProductBases G).inner)]
      ++ g.map (fun p => (-z, p)) ++ hFactors.zip h)

/-- Refuses a proof that does not hold over a base (`AggregatedRangeProof::verify_with`). -/
def verify (proof : RangeProof F G) (check : RangeCheck) (base : G) : Outcome Unit := do
  let padded ← paddedCount proof.commitments.length
  let length := padded * valueBits
  ensure (1 <<< proof.argument.rounds.length == length)
    (.proofVerificationFailed "range proof: inner product size")
  let (g, h) := vectorBases G length
  let (y, z, t) : F × F × Transcript :=
    challengesYZ (transcript proof.version base proof.commitments padded) proof.a proof.s
  let (x, t) : F × Transcript := challengeX t proof.t1 proof.t2
  let (w, t) := challengeW t proof.tauX proof.tHat proof.mu
  ensure (proof.polynomialRemainder base padded x y z == 0)
    (.proofVerificationFailed "range proof: polynomial check")
  ensure (proof.expectedStatement g h padded x y z w == proof.argument.p)
    (.proofVerificationFailed "range proof: inner product statement")
  let u := w • (PointGroup.innerProduct : InnerProductBases G).inner
  let yInverses := powers y⁻¹ length
  let holds := match check with
    | .singleSum => proof.argument.verifyScaled t g h yInverses u
    | .folding => proof.argument.verify t g (scaledBases h yInverses) u
  ensure holds (.proofVerificationFailed "range proof: inner product argument")

/-- The base that values are committed on by default. -/
def defaultBase : G := (pedersen : PedersenBases G).value

/-! ## Encoding -/

/-- The first version whose encoding names it, behind a zero byte (`RANGE_PROOF_VERSION_2`). -/
def firstNamedVersion : UInt8 := 2

/-- The version if it is not the first one, the commitments behind a count byte, and the other
elements (`AggregatedRangeProof::to_bytes`). -/
def toBytes (proof : RangeProof F G) : Bytes :=
  (if firstNamedVersion ≤ proof.version then [0, proof.version] else [])
    ++ Writer.counted PointGroup.encode proof.commitments
    ++ PointGroup.encode proof.a ++ PointGroup.encode proof.s
    ++ PointGroup.encode proof.t1 ++ PointGroup.encode proof.t2
    ++ ScalarField.encode proof.tauX ++ ScalarField.encode proof.tHat ++ ScalarField.encode proof.mu
    ++ proof.argument.toBytes

/-- Reads the version and the number of commitments. A count is never zero, so a zero byte announces
a version. -/
def headReader : Reader (UInt8 × Nat) := do
  let first ← Reader.byte
  if first ≠ 0 then return (1, first.toNat)
  else
    let version ← Reader.byte
    if version < firstNamedVersion then throw (.malformedEncoding "range proof version prefix")
    return (version, (← Reader.byte).toNat)

/-- Reads a proof. -/
def reader : Reader (RangeProof F G) := do
  let (version, count) ← headReader
  if count = 0 ∨ maxOutputs < count then
    throw (.malformedEncoding "range proof commitment count")
  let commitments ← Reader.times Reader.point count
  let a ← Reader.point
  let s ← Reader.point
  let t1 ← Reader.point
  let t2 ← Reader.point
  let tauX ← Reader.scalar
  let tHat ← Reader.scalar
  let mu ← Reader.scalar
  let argument ← InnerProductProof.reader
  Reader.finish
  return { version, commitments, a, s, t1, t2, tauX, tHat, mu, argument }

/-- The proof with this encoding (`AggregatedRangeProof::from_bytes`). -/
def ofBytes (b : Bytes) : Outcome (RangeProof F G) :=
  reader.result b

end RangeProof

end ShieldedPayments
