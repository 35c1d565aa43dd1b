import ShieldedPayments.Proofs.Argument.HonestSerial
import ShieldedPayments.Proofs.Group.Exponents
import ShieldedPayments.Proofs.Group.Interpolation

/-!
# Serial numbers are tied to secrets

Whoever answers two challenges for the same masks knows the secrets behind a serial number: the
quotients of the differences of responses and of challenges open the public key, or the commitments,
and their sum times the serial number is the base of spend keys (`serial_secrets_of_two_answers`). So a
serial number cannot be chosen apart from the spend key.

* `SerialProof.extract`, `HiddenSerialProof.extract`: the secrets that two answers lead to.
-/

namespace ShieldedPayments

open PointGroup

section

variable {F G : Type} [ScalarField F] [PointGroup F G]

/-! ## Known coins -/

namespace SerialProof

/-- Two proofs of one statement that start with the same masks. -/
structure SameStart (p q : SerialProof F G) : Prop where
  statement : p.statement = q.statement
  keyMask : p.keyMask = q.keyMask
  serialMask : p.serialMask = q.serialMask

/-- The spend key that two responses, to the challenges `x` and `y`, lead to. -/
def extract (p q : SerialProof F G) (x y : F) : F :=
  (p.response - q.response) * (x - y)⁻¹

variable [ScalarField.Lawful F] [PointGroup.Lawful F G] {p q : SerialProof F G} {x y : F}

theorem Holds.baseMultiple_extract (hp : p.Holds x) (hq : q.Holds y) (h : p.SameStart q)
    (hxy : x ≠ y) : (baseMultiple (p.extract q x y) : G) = p.statement.publicKey := by
  have hx := hp.publicKey
  have hy := hq.publicKey
  rw [← h.statement, ← h.keyMask] at hy
  rw [eq_inv_smul_sub hxy hx.symm hy.symm, extract, baseMultiple_eq, baseMultiple_eq, baseMultiple_eq]
  module

/-- The equation of the serial number as a line in the challenge. -/
theorem Holds.serial_line (h : p.Holds x) :
    x • (baseMultiple 1 - p.statement.derivator • p.statement.serial) + p.serialMask =
      p.response • p.statement.serial := by
  have hserial := h.serial
  rw [add_smul, ← eq_sub_iff_add_eq] at hserial
  rw [hserial, baseMultiple_eq, baseMultiple_eq]
  module

theorem Holds.extract_add_smul (hp : p.Holds x) (hq : q.Holds y) (h : p.SameStart q) (hxy : x ≠ y) :
    (p.extract q x y + p.statement.derivator) • p.statement.serial = baseMultiple 1 := by
  have hy := hq.serial_line
  rw [← h.statement, ← h.serialMask] at hy
  have hslope := eq_inv_smul_sub hxy hp.serial_line hy
  rw [sub_eq_iff_eq_add] at hslope
  rw [hslope, extract]
  module

end SerialProof

/-! ## Hidden coins -/

namespace HiddenSerialProof

/-- Two proofs about one serial number and one derivator commitment that start with the same masks. -/
structure SameStart (p q : HiddenSerialProof F G) : Prop where
  serial : p.serial = q.serial
  derivatorCommitment : p.derivatorCommitment = q.derivatorCommitment
  keyMask : p.keyMask = q.keyMask
  derivatorMask : p.derivatorMask = q.derivatorMask
  serialMask : p.serialMask = q.serialMask

/-- The openings that two sets of responses, to the challenges `x` and `y`, lead to. -/
def extract (p q : HiddenSerialProof F G) (x y : F) : HiddenSerialOpening F where
  key := (p.response.key - q.response.key) * (x - y)⁻¹
  keyBlinding := (p.response.keyBlinding - q.response.keyBlinding) * (x - y)⁻¹
  derivator := (p.response.derivator - q.response.derivator) * (x - y)⁻¹
  derivatorBlinding := (p.response.derivatorBlinding - q.response.derivatorBlinding) * (x - y)⁻¹

variable [ScalarField.Lawful F] [PointGroup.Lawful F G] {p q : HiddenSerialProof F G}
  {keyCommitment : G} {x y : F}

theorem Holds.keyCommitment_eq (hp : p.Holds keyCommitment x) (hq : q.Holds keyCommitment y)
    (h : p.SameStart q) (hxy : x ≠ y) :
    keyCommitment =
      Pedersen.commitAt .spendKey (p.extract q x y).key (p.extract q x y).keyBlinding := by
  have hy := hq.key
  rw [← h.keyMask] at hy
  exact (eq_inv_smul_sub hxy hp.key hy).trans (Pedersen.smul_commitAt_sub _ _ _ _ _ _)

theorem Holds.derivatorCommitment_eq (hp : p.Holds keyCommitment x) (hq : q.Holds keyCommitment y)
    (h : p.SameStart q) (hxy : x ≠ y) :
    p.derivatorCommitment =
      Pedersen.commitAt .derivator (p.extract q x y).derivator (p.extract q x y).derivatorBlinding := by
  have hy := hq.derivator
  rw [← h.derivatorCommitment, ← h.derivatorMask] at hy
  exact (eq_inv_smul_sub hxy hp.derivator hy).trans (Pedersen.smul_commitAt_sub _ _ _ _ _ _)

theorem Holds.extract_add_smul (hp : p.Holds keyCommitment x) (hq : q.Holds keyCommitment y)
    (h : p.SameStart q) (hxy : x ≠ y) :
    ((p.extract q x y).key + (p.extract q x y).derivator) • p.serial = baseMultiple 1 := by
  have hx := hp.serial
  have hy := hq.serial
  rw [← h.serial, ← h.serialMask] at hy
  rw [baseMultiple_eq] at hx hy
  rw [baseMultiple_eq, one_smul, eq_inv_smul_sub hxy hx.symm hy.symm, extract]
  module

end HiddenSerialProof

variable [ScalarField.Lawful F] [PointGroup.Lawful F G]

/-- **Proofs of serial numbers are special sound.** From two accepted proofs that start with the same
masks and answer different challenges, the spend key of a known coin follows, and for a hidden one the
openings of the commitments to spend key and derivator. The serial number times the sum of spend key
and derivator is the base of spend keys. -/
theorem serial_secrets_of_two_answers :
    (∀ (p q : SerialProof F G) (x y : F), p.SameStart q → x ≠ y →
      p.verify (some x) = .ok () → q.verify (some y) = .ok () →
      p.extract q x y • (pedersen : PedersenBases G).spendKey = p.statement.publicKey ∧
      (p.extract q x y + p.statement.derivator) • p.statement.serial =
        (pedersen : PedersenBases G).spendKey) ∧
    ∀ (p q : HiddenSerialProof F G) (keyCommitment : G) (x y : F), p.SameStart q → x ≠ y →
      p.verify keyCommitment (some x) = .ok () → q.verify keyCommitment (some y) = .ok () →
      keyCommitment = (p.extract q x y).key • (pedersen : PedersenBases G).spendKey
        + (p.extract q x y).keyBlinding • (pedersen : PedersenBases G).blinding ∧
      p.derivatorCommitment = (p.extract q x y).derivator • (pedersen : PedersenBases G).derivator
        + (p.extract q x y).derivatorBlinding • (pedersen : PedersenBases G).blinding ∧
      ((p.extract q x y).key + (p.extract q x y).derivator) • p.serial =
        (pedersen : PedersenBases G).spendKey := by
  have hbase : (baseMultiple 1 : G) = (pedersen : PedersenBases G).spendKey := by
    rw [baseMultiple_eq, one_smul]
  constructor
  · intro p q x y h hxy hp hq
    rw [SerialProof.verify_eq_ok_iff, Option.getD_some] at hp hq
    rw [← baseMultiple_eq, ← hbase]
    exact ⟨hp.baseMultiple_extract hq h hxy, hp.extract_add_smul hq h hxy⟩
  · intro p q keyCommitment x y h hxy hp hq
    rw [HiddenSerialProof.verify_eq_ok_iff, Option.getD_some] at hp hq
    exact ⟨hp.keyCommitment_eq hq h hxy, hp.derivatorCommitment_eq hq h hxy,
      (hp.extract_add_smul hq h hxy).trans hbase⟩

/-! ## Rewound provers -/

omit [ScalarField.Lawful F] [PointGroup.Lawful F G] in
/-- A prover who is given another challenge on the same tape starts with the same masks. -/
theorem SerialProof.sameStart_prove (statement : SerialStatement F G) (key : F) (x y : Option F)
    (t : Tape) :
    ((prove statement key x).run t).1.SameStart ((prove statement key y).run t).1 := by
  simp only [prove, Drawing.run_bind, Drawing.run_pure]
  exact ⟨rfl, rfl, rfl⟩

omit [ScalarField.Lawful F] [PointGroup.Lawful F G] in
theorem HiddenSerialProof.sameStart_prove (statement : HiddenSerialStatement G)
    (opening : HiddenSerialOpening F) (x y : Option F) (t : Tape) :
    ((prove statement opening x).run t).1.SameStart ((prove statement opening y).run t).1 := by
  simp only [prove, Drawing.run_bind, Drawing.run_pure]
  exact ⟨rfl, rfl, rfl, rfl, rfl⟩

end

open Curve (Scalar)

/-- The coin with derivator seven of the owner of the key five. -/
def knownCoin : SerialStatement Scalar Exponent :=
  ⟨Pedersen.serialNumber 5 7, baseMultiple 5, 7⟩

/-- The same coin with its key and derivator hidden. -/
def hiddenCoin : HiddenSerialStatement Exponent :=
  ⟨Pedersen.serialNumber 5 7, Pedersen.commitAt .spendKey 5 2, Pedersen.commitAt .derivator 7 3⟩

/-- The proofs of the owner, who is asked the challenge `x` on a fixed tape. -/
def answerKnown (x : Scalar) : SerialProof Scalar Exponent :=
  ((SerialProof.prove knownCoin 5 (some x)).run (Tape.expand [] [])).1

@[inherit_doc answerKnown]
def answerHidden (x : Scalar) : HiddenSerialProof Scalar Exponent :=
  ((HiddenSerialProof.prove hiddenCoin ⟨5, 2, 7, 3⟩ (some x)).run (Tape.expand [] [])).1

theorem smul_serialNumber_five_seven :
    ((5 : Scalar) + 7) • (Pedersen.serialNumber 5 7 : Exponent) = baseMultiple 1 :=
  Pedersen.smul_serialNumber (by decide)

theorem verify_answerKnown (x : Scalar) : (answerKnown x).verify (some x) = .ok () :=
  SerialProof.verify_prove rfl smul_serialNumber_five_seven (some x) _

theorem verify_answerHidden (x : Scalar) :
    (answerHidden x).verify hiddenCoin.keyCommitment (some x) = .ok () :=
  HiddenSerialProof.verify_prove rfl rfl smul_serialNumber_five_seven (some x) _

/-- The challenges one and two, asked of both provers. -/
theorem serial_secrets_of_rewound_provers :
    let known := (answerKnown 1).extract (answerKnown 2) 1 2
    let hidden := (answerHidden 1).extract (answerHidden 2) 1 2
    (1 : Scalar) ≠ 2 ∧
    ((answerKnown 1).SameStart (answerKnown 2) ∧
      (answerKnown 1).verify (some 1) = .ok () ∧ (answerKnown 2).verify (some 2) = .ok () ∧
      known • (pedersen : PedersenBases Exponent).spendKey = baseMultiple 5 ∧
      (known + 7) • Pedersen.serialNumber 5 7 = (pedersen : PedersenBases Exponent).spendKey) ∧
    (answerHidden 1).SameStart (answerHidden 2) ∧
      (answerHidden 1).verify hiddenCoin.keyCommitment (some 1) = .ok () ∧
      (answerHidden 2).verify hiddenCoin.keyCommitment (some 2) = .ok () ∧
      hiddenCoin.keyCommitment = hidden.key • (pedersen : PedersenBases Exponent).spendKey
        + hidden.keyBlinding • (pedersen : PedersenBases Exponent).blinding ∧
      hiddenCoin.derivatorCommitment =
        hidden.derivator • (pedersen : PedersenBases Exponent).derivator
          + hidden.derivatorBlinding • (pedersen : PedersenBases Exponent).blinding ∧
      (hidden.key + hidden.derivator) • Pedersen.serialNumber 5 7 =
        (pedersen : PedersenBases Exponent).spendKey := by
  have hne : (1 : Scalar) ≠ 2 := by decide
  have hknown : (answerKnown 1).SameStart (answerKnown 2) := SerialProof.sameStart_prove _ _ _ _ _
  have hhidden : (answerHidden 1).SameStart (answerHidden 2) :=
    HiddenSerialProof.sameStart_prove _ _ _ _ _
  have hknownCoin : (answerKnown 1).statement = knownCoin := SerialProof.statement_prove _ _ _ _
  have hhiddenCoin : (answerHidden 1).statement hiddenCoin.keyCommitment = hiddenCoin :=
    HiddenSerialProof.statement_prove _ _ _ _
  have hserial : (answerHidden 1).serial = Pedersen.serialNumber 5 7 :=
    congrArg HiddenSerialStatement.serial hhiddenCoin
  have hderivator : (answerHidden 1).derivatorCommitment = hiddenCoin.derivatorCommitment :=
    congrArg HiddenSerialStatement.derivatorCommitment hhiddenCoin
  have hone := serial_secrets_of_two_answers.1 _ _ 1 2 hknown hne (verify_answerKnown 1)
    (verify_answerKnown 2)
  have htwo := serial_secrets_of_two_answers.2 _ _ _ 1 2 hhidden hne (verify_answerHidden 1)
    (verify_answerHidden 2)
  rw [hknownCoin] at hone
  rw [hserial, hderivator] at htwo
  exact ⟨hne, ⟨hknown, verify_answerKnown 1, verify_answerKnown 2, hone⟩, hhidden,
    verify_answerHidden 1, verify_answerHidden 2, htwo⟩

end ShieldedPayments
