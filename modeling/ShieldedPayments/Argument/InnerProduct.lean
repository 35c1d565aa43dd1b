import ShieldedPayments.Argument.Vectors
import ShieldedPayments.Group.Derivation
import ShieldedPayments.Transcript.Basic
import ShieldedPayments.Wire

/-!
# The inner-product argument

A proof of knowledge of two vectors `a` and `b` of scalars such that a point `p` is the sum of
`a` over the bases `g`, `b` over the bases `h`, and their inner product over `u`. Each round halves
the vectors: with the challenge `x`, the halves `lo` and `hi` become

* `a' = x lo + x⁻¹ hi` and `h' = x lo + x⁻¹ hi`,
* `b' = x⁻¹ lo + x hi` and `g' = x⁻¹ lo + x hi`,

and the two points of the round account for what the halving mixes up.

* `InnerProductProof.prove`: making proofs.
* `InnerProductProof.verify`: checking round by round, as the prover folds.
* `InnerProductProof.verifyScaled`: checking with a single sum over all bases.
-/

namespace ShieldedPayments

/-- A proof: the two points of each round, the scalars that are left, and the statement. -/
structure InnerProductProof (F G : Type) where
  rounds : List (G × G)
  a : F
  b : F
  p : G
  deriving BEq

namespace InnerProductProof

variable {F G : Type} [ScalarField F] [PointGroup F G]

/-- The most rounds that a proof is read with: the bits of the largest range proof
(`MAX_ROUNDS`). -/
def maxRounds : Nat := 11

/-- The statement about two vectors: one sum over all bases. -/
def statement (g h : List G) (u : G) (a b : List F) : G :=
  combination (a.zip g ++ b.zip h ++ [(innerProduct a b, u)])

/-- The challenge of a round (`round_challenge`). -/
def roundChallenge (t : Transcript) (round : G × G) : F × Transcript :=
  let t := t.appendPoint (Bytes.ascii "L") round.1
  let t := t.appendPoint (Bytes.ascii "R") round.2
  t.challenge (Bytes.ascii "ipa-u")

/-- Two halves of a vector of scalars, folded with the factors `x` and `y`. -/
def foldScalars (x y : F) (lo hi : List F) : List F :=
  List.zipWith (fun a b => a * x + b * y) lo hi

/-- Two halves of a vector of points, folded with the factors `x` and `y`. -/
def foldPoints (x y : F) (lo hi : List G) : List G :=
  List.zipWith (fun p q => combination [(x, p), (y, q)]) lo hi

/-- The two points of a round (`l` and `r` in `InnerProductProof::prove`). -/
def roundPoints (u : G) (aLo aHi bLo bHi : List F) (gLo gHi hLo hHi : List G) : G × G :=
  (combination (aLo.zip gHi ++ bHi.zip hLo ++ [(innerProduct aLo bHi, u)]),
    combination (aHi.zip gLo ++ bLo.zip hHi ++ [(innerProduct aHi bLo, u)]))

/-- The rounds of a proof for vectors of length `2 ^ depth`, and the scalars that are left (the loop
of `InnerProductProof::prove`). -/
def proveRounds (u : G) :
    (depth : Nat) → Transcript → (g h : List G) → (a b : List F) → List (G × G) × F × F
  | 0, _, _, _, a, b => ([], a.headD 0, b.headD 0)
  | depth + 1, t, g, h, a, b =>
    let n := 1 <<< depth
    let round := roundPoints u (a.take n) (a.drop n) (b.take n) (b.drop n) (g.take n) (g.drop n)
      (h.take n) (h.drop n)
    let (x, t) : F × Transcript := roundChallenge t round
    let y := x⁻¹
    let (rounds, last) := proveRounds u depth t
      (foldPoints y x (g.take n) (g.drop n)) (foldPoints x y (h.take n) (h.drop n))
      (foldScalars x y (a.take n) (a.drop n)) (foldScalars y x (b.take n) (b.drop n))
    (round :: rounds, last)

/-- A proof for the statement `p` (`InnerProductProof::prove`). The vectors must have one length, a
power of two. -/
def prove (t : Transcript) (g h : List G) (u p : G) (a b : List F) :
    Outcome (InnerProductProof F G) := do
  let n := a.length
  ensure (1 <<< n.log2 == n && b.length == n && g.length == n && h.length == n)
    (.invalidInput "inner product vector lengths")
  let (rounds, a, b) := proveRounds u n.log2 t g h a b
  return ⟨rounds, a, b, p⟩

/-- Whether the bases have the length that the number of rounds calls for (`check_shape`, after the
test that `g` and `h` have one length). -/
def fits (proof : InnerProductProof F G) (g h : List G) : Bool :=
  h.length == g.length && 1 <<< proof.rounds.length == g.length

/-- Folds bases and statement through the rounds, and checks what is left (the loop and the last
test of `InnerProductProof::verify`). -/
def checkRounds (u : G) (a b : F) :
    (rounds : List (G × G)) → Transcript → (g h : List G) → (p : G) → Bool
  | [], _, g, h, p => combination [(a, g.headD 0), (b, h.headD 0), (a * b, u)] == p
  | round :: rounds, t, g, h, p =>
    let n := g.length / 2
    let (x, t) : F × Transcript := roundChallenge t round
    let y := x⁻¹
    checkRounds u a b rounds t
      (foldPoints y x (g.take n) (g.drop n)) (foldPoints x y (h.take n) (h.drop n))
      (combination [(x * x, round.1), (1, p), (y * y, round.2)])

/-- Whether a proof holds, by folding the bases round by round (`InnerProductProof::verify`). -/
def verify (proof : InnerProductProof F G) (t : Transcript) (g h : List G) (u : G) : Bool :=
  proof.fits g h && checkRounds u proof.a proof.b proof.rounds t g h proof.p

/-- The challenges of all rounds. -/
def challenges : (rounds : List (G × G)) → Transcript → List F
  | [], _ => []
  | round :: rounds, t =>
    let (x, t) : F × Transcript := roundChallenge t round
    x :: challenges rounds t

/-- The square of the challenge that decides a bit of a position: the last round decides the lowest
bit. -/
def bitSquare (xs : List F) (bit : Nat) : F :=
  let x := xs.getD (xs.length - 1 - bit) 0
  x * x

/-- Adds the factor for position `i`: that of the position without its highest bit, times the square
of the challenge that decides this bit (the body of the loop over the positions in
`verify_scaled`). -/
def pushFactor (xs : List F) (s : Array F) (i : Nat) : Array F :=
  s.push (s.getD (i - 1 <<< i.log2) 0 * bitSquare xs i.log2)

/-- The factors with which the bases `g` enter the last one, in the order of the bases (`s` in
`verify_scaled`). -/
def foldFactors (xs : List F) : List F :=
  let first := xs.foldl (fun acc x => acc * x⁻¹) 1
  ((List.range' 1 (1 <<< xs.length - 1)).foldl (pushFactor xs) #[first]).toList

/-- Whether a proof holds for the bases `g` and `h`, the latter scaled, by one sum
(`verify_scaled`). -/
def verifyScaled (proof : InnerProductProof F G) (t : Transcript) (g h : List G) (scale : List F)
    (u : G) : Bool :=
  proof.fits g h && scale.length == g.length &&
    let xs : List F := challenges proof.rounds t
    let s := foldFactors xs
    let hFactors := List.zipWith (fun s c => proof.b * s * c) s.reverse scale
    let sum : G := combination
      ((s.map (proof.a * ·)).zip g ++ hFactors.zip h ++ [(proof.a * proof.b, u)]
        ++ List.zipWith (fun x round => (-(x * x), round.1)) xs proof.rounds
        ++ List.zipWith (fun x round => (-(x⁻¹ * x⁻¹), round.2)) xs proof.rounds
        ++ [(-1, proof.p)])
    sum == 0

/-- Whether a proof holds, by one sum (`InnerProductProof::verify_faster`). -/
def verifyFaster (proof : InnerProductProof F G) (t : Transcript) (g h : List G) (u : G) : Bool :=
  proof.verifyScaled t g h (List.replicate g.length 1) u

/-- A count byte, the two points of each round, the scalars, and the statement
(`InnerProductProof::to_bytes`). -/
def toBytes (proof : InnerProductProof F G) : Bytes :=
  Writer.counted (fun (l, r) => PointGroup.encode l ++ PointGroup.encode r) proof.rounds
    ++ ScalarField.encode proof.a ++ ScalarField.encode proof.b ++ PointGroup.encode proof.p

/-- Reads the two points of a round. -/
def roundReader : Reader (G × G) := do
  let l ← Reader.point
  let r ← Reader.point
  return (l, r)

/-- Reads a proof with a bounded number of rounds (`InnerProductProof::read`). -/
def reader : Reader (InnerProductProof F G) := do
  let count := (← Reader.byte).toNat
  if maxRounds < count then throw (.malformedEncoding "inner product round count")
  let rounds ← Reader.times roundReader count
  let a ← Reader.scalar
  let b ← Reader.scalar
  let p ← Reader.point
  return ⟨rounds, a, b, p⟩

/-- The proof with this encoding (`InnerProductProof::from_bytes`). -/
def ofBytes (b : Bytes) : Outcome (InnerProductProof F G) :=
  Reader.result (do let proof ← reader; Reader.finish; return proof) b

end InnerProductProof

end ShieldedPayments
