import ShieldedPayments.Group.Hashing
import ShieldedPayments.Group.Pedersen
import ShieldedPayments.Transcript.Basic
import ShieldedPayments.Wire

/-!
# Serial numbers of hidden coins

A proof that a serial number belongs to the spend key and the derivator inside two commitments. The
commitment to the spend key is shared by all inputs of a payment, so it is not part of the proof.

* `HiddenSerialProof.prove`, `HiddenSerialProof.verify`: making and checking proofs.
* `HiddenSerialProof.checkAt`: the three identities for a given challenge.
-/

namespace ShieldedPayments

/-- What is proved: the serial number belongs to the committed spend key and derivator
(`SnPrivacyStatement`). -/
structure HiddenSerialStatement (G : Type) where
  serial : G
  keyCommitment : G
  derivatorCommitment : G
  deriving BEq

/-- What the prover knows: the openings of both commitments (`SnPrivacyWitness`). -/
structure HiddenSerialOpening (F : Type) where
  key : F
  keyBlinding : F
  derivator : F
  derivatorBlinding : F
  deriving BEq

/-- A proof: the statement without the commitment to the spend key, a mask for each relation, and a
response for each part of the opening (`SnPrivacyProof`). -/
structure HiddenSerialProof (F G : Type) where
  serial : G
  derivatorCommitment : G
  keyMask : G
  derivatorMask : G
  serialMask : G
  response : HiddenSerialOpening F
  deriving BEq

namespace HiddenSerialProof

variable {F G : Type} [ScalarField F] [PointGroup F G]

/-- The challenge that a statement and masks lead to. -/
def challenge (statement : HiddenSerialStatement G) (keyMask derivatorMask serialMask : G) : F :=
  let t := Transcript.init (Bytes.ascii "sn-privacy")
  let t := t.appendPoint (Bytes.ascii "sn") statement.serial
  let t := t.appendPoint (Bytes.ascii "com_sk") statement.keyCommitment
  let t := t.appendPoint (Bytes.ascii "com_input") statement.derivatorCommitment
  let t := t.appendPoint (Bytes.ascii "t_sk") keyMask
  let t := t.appendPoint (Bytes.ascii "t_input") derivatorMask
  let t := t.appendPoint (Bytes.ascii "t_sn") serialMask
  (t.challenge (Bytes.ascii "x")).1

/-- A proof of a statement from the openings of its commitments (`SnPrivacyWitness::prove`). A given
challenge replaces the computed one. -/
def prove (statement : HiddenSerialStatement G) (opening : HiddenSerialOpening F)
    (given : Option F) : Drawing (HiddenSerialProof F G) := do
  let eKey : F ← Drawing.scalar
  let eDerivator : F ← Drawing.scalar
  let dKey : F ← Drawing.scalar
  let dDerivator : F ← Drawing.scalar
  let keyMask : G := Pedersen.commitAt .spendKey eKey dKey
  let derivatorMask : G := Pedersen.commitAt .derivator eDerivator dDerivator
  let serialMask := (eKey + eDerivator) • statement.serial
  let x := given.getD (challenge statement keyMask derivatorMask serialMask)
  return {
    serial := statement.serial
    derivatorCommitment := statement.derivatorCommitment
    keyMask, derivatorMask, serialMask
    response := ⟨eKey + opening.key * x, dKey + opening.keyBlinding * x,
      eDerivator + opening.derivator * x, dDerivator + opening.derivatorBlinding * x⟩ }

/-- The statement of a proof, given the commitment to the spend key. -/
def statement (proof : HiddenSerialProof F G) (keyCommitment : G) : HiddenSerialStatement G :=
  ⟨proof.serial, keyCommitment, proof.derivatorCommitment⟩

/-- Refuses a proof unless the three identities hold for the challenge `x` (the checks of
`SnPrivacyProof::verify`). -/
def checkAt (proof : HiddenSerialProof F G) (keyCommitment : G) (x : F) : Outcome Unit := do
  let z := proof.response
  ensure (x • keyCommitment + proof.keyMask == Pedersen.commitAt .spendKey z.key z.keyBlinding)
    (.proofVerificationFailed "serial number privacy: secret key opening")
  ensure (x • proof.derivatorCommitment + proof.derivatorMask
      == Pedersen.commitAt .derivator z.derivator z.derivatorBlinding)
    (.proofVerificationFailed "serial number privacy: derivator opening")
  ensure ((z.key + z.derivator) • proof.serial == baseMultiple x + proof.serialMask)
    (.proofVerificationFailed "serial number privacy: serial number relation")

/-- Refuses a proof that does not hold for a commitment to the spend key (`SnPrivacyProof::verify`).
A given challenge replaces the computed one. -/
def verify (proof : HiddenSerialProof F G) (keyCommitment : G) (given : Option F) : Outcome Unit :=
  proof.checkAt keyCommitment
    (given.getD (challenge (proof.statement keyCommitment) proof.keyMask proof.derivatorMask
      proof.serialMask))

/-- Bytes in an encoding (`SN_PRIVACY_PROOF_SIZE`). -/
def size : Nat := 9 * elementSize

/-- The nine elements one after the other (`SnPrivacyProof::to_bytes`). -/
def toBytes (proof : HiddenSerialProof F G) : Bytes :=
  PointGroup.encode proof.serial ++ PointGroup.encode proof.derivatorCommitment
    ++ PointGroup.encode proof.keyMask ++ PointGroup.encode proof.derivatorMask
    ++ PointGroup.encode proof.serialMask ++ ScalarField.encode proof.response.key
    ++ ScalarField.encode proof.response.keyBlinding ++ ScalarField.encode proof.response.derivator
    ++ ScalarField.encode proof.response.derivatorBlinding

/-- Reads the nine elements. -/
def reader : Reader (HiddenSerialProof F G) := do
  let serial ← Reader.point
  let derivatorCommitment ← Reader.point
  let keyMask ← Reader.point
  let derivatorMask ← Reader.point
  let serialMask ← Reader.point
  let key ← Reader.scalar
  let keyBlinding ← Reader.scalar
  let derivator ← Reader.scalar
  let derivatorBlinding ← Reader.scalar
  return {
    serial, derivatorCommitment, keyMask, derivatorMask, serialMask
    response := ⟨key, keyBlinding, derivator, derivatorBlinding⟩ }

/-- The proof with this encoding (`SnPrivacyProof::from_bytes`). -/
def ofBytes (b : Bytes) : Outcome (HiddenSerialProof F G) := do
  ensure (b.length == size) (.malformedEncoding "serial number privacy proof length")
  reader.result b

end HiddenSerialProof

end ShieldedPayments
