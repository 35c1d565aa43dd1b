import Mathlib.Tactic.Module
import ShieldedPayments.Proofs.Argument.Serial
import ShieldedPayments.Proofs.Tape

/-!
# Honest proofs of serial numbers

Whoever knows the spend key and the derivator of a coin makes proofs of its serial number that are
accepted, whatever is drawn and whatever the challenge is. All that is needed is that the two do not
add up to zero, since their sum has no inverse then.

* `Pedersen.smul_serialNumber`, `Pedersen.serialNumber_inj`: what a serial number is.
* `SerialProof.verify_prove`, `HiddenSerialProof.verify_prove`: honest proofs are accepted.
-/

namespace ShieldedPayments

open PointGroup

variable {F G : Type} [ScalarField F] [ScalarField.Lawful F] [PointGroup F G] [PointGroup.Lawful F G]

namespace Pedersen

theorem smul_serialNumber {key derivator : F} (h : key + derivator ≠ 0) :
    (key + derivator) • (serialNumber key derivator : G) = baseMultiple 1 := by
  rw [serialNumber, baseMultiple_eq, baseMultiple_eq, smul_smul, mul_inv_cancel₀ h]

/-- Coins of one owner with different derivators have different serial numbers. -/
theorem serialNumber_inj (hbase : (pedersen : PedersenBases G).spendKey ≠ 0) (key d d' : F) :
    (serialNumber key d : G) = serialNumber key d' ↔ d = d' := by
  rw [serialNumber, serialNumber, baseMultiple_eq, baseMultiple_eq, smul_left_inj hbase, inv_inj,
    add_right_inj]

end Pedersen

namespace SerialProof

omit [ScalarField.Lawful F] [PointGroup.Lawful F G] in
theorem statement_prove (statement : SerialStatement F G) (key : F) (given : Option F) (t : Tape) :
    ((prove statement key given).run t).1.statement = statement := by
  simp only [prove, Drawing.run_bind, Drawing.run_pure]

/-- An honest proof for a known coin is accepted. -/
theorem verify_prove {statement : SerialStatement F G} {key : F}
    (hkey : statement.publicKey = baseMultiple key)
    (hserial : (key + statement.derivator) • statement.serial = baseMultiple 1) (given : Option F)
    (t : Tape) : ((prove statement key given).run t).1.verify given = .ok () := by
  rw [verify_eq_ok_iff]
  simp only [prove, Drawing.run_bind, Drawing.run_pure]
  generalize (Drawing.scalar.run t : F × Tape).1 = e
  generalize given.getD _ = x
  rw [baseMultiple_eq] at hkey hserial
  constructor
  · rw [hkey, baseMultiple_eq, baseMultiple_eq]
    module
  · calc (key * x + e + x * statement.derivator) • statement.serial
        = x • (key + statement.derivator) • statement.serial + e • statement.serial := by module
      _ = baseMultiple x + e • statement.serial := by rw [hserial, baseMultiple_eq, one_smul]

/-- What the owner of a coin proves is about the serial number of the coin, and is accepted if key and
derivator do not add up to zero. -/
theorem honest_of_returns {key derivator : F} {proof : SerialProof F G}
    (h : Proving.Returns (ExceptT.lift (prove
      ⟨Pedersen.serialNumber key derivator, baseMultiple key, derivator⟩ key none)) proof) :
    proof.statement = ⟨Pedersen.serialNumber key derivator, baseMultiple key, derivator⟩ ∧
      (key + derivator ≠ 0 → proof.verify none = .ok ()) := by
  obtain ⟨t, rfl⟩ := Proving.Returns.lift h
  exact ⟨statement_prove _ _ _ _,
    fun hsum => verify_prove rfl (Pedersen.smul_serialNumber hsum) none t⟩

end SerialProof

namespace HiddenSerialProof

omit [ScalarField.Lawful F] [PointGroup.Lawful F G] in
theorem statement_prove (statement : HiddenSerialStatement G) (opening : HiddenSerialOpening F)
    (given : Option F) (t : Tape) :
    ((prove statement opening given).run t).1.statement statement.keyCommitment = statement := by
  simp only [prove, HiddenSerialProof.statement, Drawing.run_bind, Drawing.run_pure]

/-- An honest proof for a hidden coin is accepted. -/
theorem verify_prove {statement : HiddenSerialStatement G} {opening : HiddenSerialOpening F}
    (hkey : statement.keyCommitment = Pedersen.commitAt .spendKey opening.key opening.keyBlinding)
    (hderivator : statement.derivatorCommitment =
      Pedersen.commitAt .derivator opening.derivator opening.derivatorBlinding)
    (hserial : (opening.key + opening.derivator) • statement.serial = baseMultiple 1)
    (given : Option F) (t : Tape) :
    ((prove statement opening given).run t).1.verify statement.keyCommitment given = .ok () := by
  rw [verify_eq_ok_iff, statement_prove]
  simp only [prove, Drawing.run_bind, Drawing.run_pure]
  generalize (Drawing.scalar.run t : F × Tape) = drawn
  obtain ⟨eKey, t⟩ := drawn
  generalize (Drawing.scalar.run t : F × Tape) = drawn
  obtain ⟨eDerivator, t⟩ := drawn
  generalize (Drawing.scalar.run t : F × Tape) = drawn
  obtain ⟨dKey, t⟩ := drawn
  generalize (Drawing.scalar.run t : F × Tape) = drawn
  obtain ⟨dDerivator, t⟩ := drawn
  generalize given.getD _ = x
  rw [baseMultiple_eq] at hserial
  constructor
  · simp only [hkey, Pedersen.commitAt]
    module
  · simp only [hderivator, Pedersen.commitAt]
    module
  · calc (eKey + opening.key * x + (eDerivator + opening.derivator * x)) • statement.serial
        = x • (opening.key + opening.derivator) • statement.serial
            + (eKey + eDerivator) • statement.serial := by module
      _ = baseMultiple x + (eKey + eDerivator) • statement.serial := by
        rw [hserial, baseMultiple_eq, one_smul]

end HiddenSerialProof

end ShieldedPayments
