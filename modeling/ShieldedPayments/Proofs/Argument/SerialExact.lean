import Mathlib.Tactic.Module
import ShieldedPayments.Proofs.Argument.Codec
import ShieldedPayments.Proofs.Argument.HonestSerial
import ShieldedPayments.Proofs.Group.Exponents

/-!
# What serial-number proofs accept

The provers of serial numbers do not compare the secrets that they are given with the statement. They
need not: each equation of a proof is a relation between the secrets and the statement, taken `x`
times and masked on either side, for the challenge `x`. So it holds if the relation does, and
otherwise for the challenge zero only (`smul_add_inj`).

* `SerialProof.holds_prove_iff`, `HiddenSerialProof.holds_prove_iff`: which secrets lead to proofs
  that are accepted.
* `serial_accepted_iff_true_witness`: the same for the verifiers, and for proofs that were encoded.
-/

namespace ShieldedPayments

open PointGroup

variable {F G : Type} [ScalarField F] [ScalarField.Lawful F] [PointGroup F G] [PointGroup.Lawful F G]

/-- A relation that is taken `x` times and masked holds if it did before, or if `x` is zero. -/
theorem smul_add_inj {x : F} {p q : G} (mask : G) : x • p + mask = x • q + mask ↔ x = 0 ∨ p = q := by
  rw [add_left_inj]
  by_cases hx : x = 0
  · simp [hx]
  · rw [smul_right_inj hx]
    exact ⟨Or.inr, fun h => h.resolve_left hx⟩

/-! ## Known coins -/

namespace SerialProof

/-- A proof holds for the key that belongs to the statement, and for others if the challenge is
zero. -/
theorem holds_prove_iff (statement : SerialStatement F G) (key e x : F) :
    (SerialProof.mk statement (baseMultiple e) (e • statement.serial) (key * x + e)).Holds x ↔
      x = 0 ∨ statement.publicKey = key • pedersen.spendKey ∧
        (key + statement.derivator) • statement.serial = pedersen.spendKey := by
  have hkey : (baseMultiple (key * x + e) : G) = x • key • pedersen.spendKey + baseMultiple e := by
    rw [baseMultiple_eq, baseMultiple_eq]
    module
  have hserial : (key * x + e + x * statement.derivator) • statement.serial =
      x • (key + statement.derivator) • statement.serial + e • statement.serial := by
    module
  rw [or_and_left, eq_comm (a := statement.publicKey), ← smul_add_inj (baseMultiple e),
    ← smul_add_inj (e • statement.serial), ← hkey, ← hserial, ← baseMultiple_eq]
  exact ⟨fun h => ⟨h.publicKey, h.serial⟩, fun h => ⟨h.1, h.2⟩⟩

theorem verify_prove_iff (statement : SerialStatement F G) (key : F) (given : Option F) (t : Tape) :
    let proof := ((prove statement key given).run t).1
    proof.verify given = .ok () ↔
      given.getD (challenge statement proof.keyMask proof.serialMask) = 0 ∨
        statement.publicKey = key • pedersen.spendKey ∧
          (key + statement.derivator) • statement.serial = pedersen.spendKey := by
  intro proof
  rw [verify_eq_ok_iff, statement_prove]
  simp only [proof, prove, Drawing.run_bind, Drawing.run_pure]
  exact holds_prove_iff statement key _ _

end SerialProof

/-! ## Hidden coins -/

namespace HiddenSerialProof

/-- A proof holds for the openings of both commitments if they belong to the serial number, and for
others if the challenge is zero. -/
theorem holds_prove_iff (statement : HiddenSerialStatement G) (opening : HiddenSerialOpening F)
    (eKey eDerivator dKey dDerivator x : F) :
    (HiddenSerialProof.mk statement.serial statement.derivatorCommitment
      (Pedersen.commitAt .spendKey eKey dKey) (Pedersen.commitAt .derivator eDerivator dDerivator)
      ((eKey + eDerivator) • statement.serial)
      ⟨eKey + opening.key * x, dKey + opening.keyBlinding * x, eDerivator + opening.derivator * x,
        dDerivator + opening.derivatorBlinding * x⟩).Holds statement.keyCommitment x ↔
      x = 0 ∨
        statement.keyCommitment = Pedersen.commitAt .spendKey opening.key opening.keyBlinding ∧
        statement.derivatorCommitment =
          Pedersen.commitAt .derivator opening.derivator opening.derivatorBlinding ∧
        (opening.key + opening.derivator) • statement.serial = pedersen.spendKey := by
  have hopening : ∀ (role : Role) (value blinding e d : F),
      (Pedersen.commitAt role (e + value * x) (d + blinding * x) : G) =
        x • Pedersen.commitAt role value blinding + Pedersen.commitAt role e d := by
    intro role value blinding e d
    simp only [Pedersen.commitAt]
    module
  have hserial : (eKey + opening.key * x + (eDerivator + opening.derivator * x)) • statement.serial =
      x • (opening.key + opening.derivator) • statement.serial
        + (eKey + eDerivator) • statement.serial := by
    module
  rw [or_and_left, or_and_left, ← smul_add_inj (Pedersen.commitAt .spendKey eKey dKey),
    ← smul_add_inj (Pedersen.commitAt .derivator eDerivator dDerivator),
    ← smul_add_inj ((eKey + eDerivator) • statement.serial), ← hopening, ← hopening,
    ← hserial, ← baseMultiple_eq]
  exact ⟨fun h => ⟨h.key, h.derivator, h.serial⟩, fun h => ⟨h.1, h.2.1, h.2.2⟩⟩

theorem verify_prove_iff (statement : HiddenSerialStatement G) (opening : HiddenSerialOpening F)
    (given : Option F) (t : Tape) :
    let proof := ((prove statement opening given).run t).1
    proof.verify statement.keyCommitment given = .ok () ↔
      given.getD (challenge statement proof.keyMask proof.derivatorMask proof.serialMask) = 0 ∨
        statement.keyCommitment = Pedersen.commitAt .spendKey opening.key opening.keyBlinding ∧
        statement.derivatorCommitment =
          Pedersen.commitAt .derivator opening.derivator opening.derivatorBlinding ∧
        (opening.key + opening.derivator) • statement.serial = pedersen.spendKey := by
  intro proof
  rw [verify_eq_ok_iff, statement_prove]
  simp only [proof, prove, Drawing.run_bind, Drawing.run_pure]
  exact holds_prove_iff statement opening _ _ _ _ _

end HiddenSerialProof

/-! ## Verdicts -/

variable [ScalarField.Canonical F] [PointGroup.Canonical F G]

/-- **Proofs of serial numbers accept exactly true witnesses.** Whatever the statement and the secrets
given to the prover, whatever is drawn, and for any challenge, given or computed: the verifier accepts
what comes out if and only if the challenge is zero or the secrets belong to the statement. For a known
coin this means that the key opens the public key, and with the derivator the serial number; for a
hidden one, that the openings open both commitments, and their keys the serial number. It is the same
proof, and so the same verdict, after encoding and decoding. -/
theorem serial_accepted_iff_true_witness :
    (∀ (statement : SerialStatement F G) (key : F) (given : Option F) (t : Tape),
      let proof := ((SerialProof.prove statement key given).run t).1
      let x := given.getD (SerialProof.challenge statement proof.keyMask proof.serialMask)
      (proof.verify given = .ok () ↔
        x = 0 ∨ statement.publicKey = key • pedersen.spendKey ∧
          (key + statement.derivator) • statement.serial = pedersen.spendKey) ∧
      SerialProof.ofBytes proof.toBytes = .ok proof ∧
      (SerialProof.ofBytes proof.toBytes >>= fun decoded : SerialProof F G => decoded.verify given) =
        proof.verify given) ∧
    ∀ (statement : HiddenSerialStatement G) (opening : HiddenSerialOpening F) (given : Option F)
      (t : Tape),
      let proof := ((HiddenSerialProof.prove statement opening given).run t).1
      let x := given.getD (HiddenSerialProof.challenge statement proof.keyMask proof.derivatorMask
        proof.serialMask)
      (proof.verify statement.keyCommitment given = .ok () ↔
        x = 0 ∨ statement.keyCommitment =
            opening.key • pedersen.spendKey + opening.keyBlinding • pedersen.blinding ∧
          statement.derivatorCommitment =
            opening.derivator • pedersen.derivator
              + opening.derivatorBlinding • pedersen.blinding ∧
          (opening.key + opening.derivator) • statement.serial = pedersen.spendKey) ∧
      HiddenSerialProof.ofBytes proof.toBytes = .ok proof ∧
      (HiddenSerialProof.ofBytes proof.toBytes >>= fun decoded : HiddenSerialProof F G =>
          decoded.verify statement.keyCommitment given) =
        proof.verify statement.keyCommitment given := by
  constructor
  · intro statement key given t proof x
    have hdecode := SerialProof.ofBytes_toBytes proof
    exact ⟨SerialProof.verify_prove_iff statement key given t, hdecode, by rw [hdecode]; rfl⟩
  · intro statement opening given t proof x
    have hdecode := HiddenSerialProof.ofBytes_toBytes proof
    exact ⟨HiddenSerialProof.verify_prove_iff statement opening given t, hdecode,
      by rw [hdecode]; rfl⟩

/-- The serial number of key three and derivator four: the key is accepted, and another one for the
challenge zero only; and so it is with the openings of commitments. -/
theorem serial_accepted_iff_true_witness_three_four :
    let t : Tape := ⟨[], fun _ => [], 0⟩
    let serial : Exponent := Pedersen.serialNumber (3 : Curve.Scalar) 4
    let statement : SerialStatement Curve.Scalar Exponent := ⟨serial, ⟨3⟩, 4⟩
    let hidden : HiddenSerialStatement Exponent := ⟨serial, ⟨28⟩, ⟨42⟩⟩
    let verdict (key : Curve.Scalar) (given : Option Curve.Scalar) :=
      ((SerialProof.prove statement key given).run t).1.verify given
    let hiddenVerdict (key : Curve.Scalar) (given : Option Curve.Scalar) :=
      ((HiddenSerialProof.prove hidden ⟨key, 5, 4, 6⟩ given).run t).1.verify hidden.keyCommitment given
    verdict 3 none = .ok () ∧ ¬verdict 2 (some 1) = .ok () ∧ verdict 2 (some 0) = .ok () ∧
      hiddenVerdict 3 none = .ok () ∧ ¬hiddenVerdict 2 (some 1) = .ok () ∧
      hiddenVerdict 2 (some 0) = .ok () := by
  intro t serial statement hidden verdict hiddenVerdict
  have hserial : ((3 : Curve.Scalar) + 4) • serial = (pedersen : PedersenBases Exponent).spendKey := by
    rw [Pedersen.smul_serialNumber (by decide), baseMultiple_eq, one_smul]
  have hverdict := fun key given =>
    ((serial_accepted_iff_true_witness (F := Curve.Scalar) (G := Exponent)).1 statement key given t).1
  have hhidden := fun key given =>
    ((serial_accepted_iff_true_witness (F := Curve.Scalar) (G := Exponent)).2 hidden ⟨key, 5, 4, 6⟩
      given t).1
  have hone : (1 : Curve.Scalar) ≠ 0 := by decide
  refine ⟨(hverdict 3 none).mpr (.inr ⟨by decide, hserial⟩), ?_,
    (hverdict 2 (some 0)).mpr (.inl rfl), (hhidden 3 none).mpr (.inr ⟨by decide, by decide, hserial⟩),
    ?_, (hhidden 2 (some 0)).mpr (.inl rfl)⟩
  · intro haccepted
    obtain ⟨hkey, -⟩ := ((hverdict 2 (some 1)).mp haccepted).resolve_left hone
    exact absurd hkey (by decide)
  · intro haccepted
    obtain ⟨hkey, -⟩ := ((hhidden 2 (some 1)).mp haccepted).resolve_left hone
    exact absurd hkey (by decide)

end ShieldedPayments
