import ShieldedPayments.Group.Hashing
import ShieldedPayments.Group.Pedersen
import ShieldedPayments.Transcript.Basic
import ShieldedPayments.Wire

/-!
# Serial numbers of known coins

A proof that a serial number belongs to a public key and a derivator, all three of them public: its
maker knows the spend key `k` of the public key, and the serial number times `k` plus the derivator
is the base of spend keys. One random multiple of both points, and one response, serve both
relations.

* `SerialProof.prove`, `SerialProof.verify`: making and checking proofs.
* `SerialProof.checkAt`: the two identities for a given challenge.
-/

namespace ShieldedPayments

/-- What is proved: the serial number belongs to the public key and the derivator
(`SnNoPrivacyStatement`). -/
structure SerialStatement (F G : Type) where
  serial : G
  publicKey : G
  derivator : F
  deriving BEq

/-- A proof of a statement: the random multiples of the base and of the serial number, and the
response (`SnNoPrivacyProof`). -/
structure SerialProof (F G : Type) where
  statement : SerialStatement F G
  keyMask : G
  serialMask : G
  response : F
  deriving BEq

namespace SerialProof

variable {F G : Type} [ScalarField F] [PointGroup F G]

/-- The challenge that a statement and masks lead to. -/
def challenge (statement : SerialStatement F G) (keyMask serialMask : G) : F :=
  let t := Transcript.init (Bytes.ascii "sn-no-privacy")
  let t := t.appendPoint (Bytes.ascii "sn") statement.serial
  let t := t.appendPoint (Bytes.ascii "pk") statement.publicKey
  let t := t.appendScalar (Bytes.ascii "snd") statement.derivator
  let t := t.appendPoint (Bytes.ascii "t_seed") keyMask
  let t := t.appendPoint (Bytes.ascii "t_output") serialMask
  (t.challenge (Bytes.ascii "x")).1

/-- A proof that `key` is the spend key of a statement (`SnNoPrivacyWitness::prove`). A given
challenge replaces the computed one. -/
def prove (statement : SerialStatement F G) (key : F) (given : Option F) :
    Drawing (SerialProof F G) := do
  let e : F ← Drawing.scalar
  let keyMask : G := baseMultiple e
  let serialMask := e • statement.serial
  let x := given.getD (challenge statement keyMask serialMask)
  return ⟨statement, keyMask, serialMask, key * x + e⟩

/-- Refuses a proof unless both identities hold for the challenge `x` (the checks of
`SnNoPrivacyProof::verify`). -/
def checkAt (proof : SerialProof F G) (x : F) : Outcome Unit := do
  let s := proof.statement
  ensure ((baseMultiple proof.response : G) == x • s.publicKey + proof.keyMask)
    (.proofVerificationFailed "serial number no-privacy: public key relation")
  ensure ((proof.response + x * s.derivator) • s.serial == baseMultiple x + proof.serialMask)
    (.proofVerificationFailed "serial number no-privacy: serial number relation")

/-- Refuses a proof that does not hold (`SnNoPrivacyProof::verify`). A given challenge replaces the
computed one. -/
def verify (proof : SerialProof F G) (given : Option F) : Outcome Unit :=
  proof.checkAt (given.getD (challenge proof.statement proof.keyMask proof.serialMask))

/-- Bytes in an encoding (`SN_NO_PRIVACY_PROOF_SIZE`). -/
def size : Nat := 6 * elementSize

/-- The six elements one after the other (`SnNoPrivacyProof::to_bytes`). -/
def toBytes (proof : SerialProof F G) : Bytes :=
  PointGroup.encode proof.statement.serial ++ PointGroup.encode proof.statement.publicKey
    ++ ScalarField.encode proof.statement.derivator ++ PointGroup.encode proof.keyMask
    ++ PointGroup.encode proof.serialMask ++ ScalarField.encode proof.response

/-- Reads the six elements. -/
def reader : Reader (SerialProof F G) := do
  let serial ← Reader.point
  let publicKey ← Reader.point
  let derivator ← Reader.scalar
  let keyMask ← Reader.point
  let serialMask ← Reader.point
  let response ← Reader.scalar
  return ⟨⟨serial, publicKey, derivator⟩, keyMask, serialMask, response⟩

/-- The proof with this encoding (`SnNoPrivacyProof::from_bytes`). -/
def ofBytes (b : Bytes) : Outcome (SerialProof F G) := do
  ensure (b.length == size) (.malformedEncoding "serial number no-privacy proof length")
  reader.result b

end SerialProof

end ShieldedPayments
