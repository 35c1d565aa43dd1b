import ShieldedPayments.Proofs.Group.Pedersen
import ShieldedPayments.Proofs.Fault
import ShieldedPayments.Argument.HiddenSerial
import ShieldedPayments.Argument.Serial

/-!
# What serial-number proofs show

Both kinds of serial-number proofs are accepted if a fixed list of linear equations holds for the
challenge: two for known coins (`SerialProof.verify_eq_ok_iff`), and three for hidden ones
(`HiddenSerialProof.verify_eq_ok_iff`).
-/

namespace ShieldedPayments

variable {F G : Type} [ScalarField F] [PointGroup F G] [PointGroup.Lawful F G]

/-- The equations of a serial-number proof of a known coin. -/
structure SerialProof.Holds (proof : SerialProof F G) (x : F) : Prop where
  publicKey : (baseMultiple proof.response : G) = x • proof.statement.publicKey + proof.keyMask
  serial : (proof.response + x * proof.statement.derivator) • proof.statement.serial =
    baseMultiple x + proof.serialMask

theorem SerialProof.checkAt_eq_ok_iff (proof : SerialProof F G) (x : F) :
    proof.checkAt x = .ok () ↔ proof.Holds x := by
  unfold checkAt
  rw [ensure_bind_eq_ok_iff, ensure_eq_ok_iff, beq_iff_eq, beq_iff_eq]
  constructor
  · rintro ⟨hkey, hserial⟩
    exact ⟨hkey, hserial⟩
  · rintro ⟨hkey, hserial⟩
    exact ⟨hkey, hserial⟩

theorem SerialProof.verify_eq_ok_iff (proof : SerialProof F G) (given : Option F) :
    proof.verify given = .ok () ↔
      proof.Holds (given.getD (challenge proof.statement proof.keyMask proof.serialMask)) :=
  checkAt_eq_ok_iff _ _

omit [PointGroup.Lawful F G] in
theorem SerialProof.defined_verify (proof : SerialProof F G) (given : Option F) :
    (proof.verify given).Defined :=
  (Outcome.defined_ensure (by nofun)).bind fun _ _ => Outcome.defined_ensure (by nofun)

/-- The equations of a serial-number proof of a hidden coin. -/
structure HiddenSerialProof.Holds (proof : HiddenSerialProof F G) (keyCommitment : G) (x : F) :
    Prop where
  key : x • keyCommitment + proof.keyMask =
    Pedersen.commitAt .spendKey proof.response.key proof.response.keyBlinding
  derivator : x • proof.derivatorCommitment + proof.derivatorMask =
    Pedersen.commitAt .derivator proof.response.derivator proof.response.derivatorBlinding
  serial : (proof.response.key + proof.response.derivator) • proof.serial =
    baseMultiple x + proof.serialMask

theorem HiddenSerialProof.checkAt_eq_ok_iff (proof : HiddenSerialProof F G) (keyCommitment : G)
    (x : F) : proof.checkAt keyCommitment x = .ok () ↔ proof.Holds keyCommitment x := by
  unfold checkAt
  simp only [ensure_bind_eq_ok_iff, ensure_eq_ok_iff, beq_iff_eq]
  constructor
  · rintro ⟨hkey, hderivator, hserial⟩
    exact ⟨hkey, hderivator, hserial⟩
  · rintro ⟨hkey, hderivator, hserial⟩
    exact ⟨hkey, hderivator, hserial⟩

theorem HiddenSerialProof.verify_eq_ok_iff (proof : HiddenSerialProof F G) (keyCommitment : G)
    (given : Option F) :
    proof.verify keyCommitment given = .ok () ↔
      proof.Holds keyCommitment (given.getD (challenge (proof.statement keyCommitment) proof.keyMask
        proof.derivatorMask proof.serialMask)) :=
  checkAt_eq_ok_iff _ _ _

omit [PointGroup.Lawful F G] in
theorem HiddenSerialProof.defined_verify (proof : HiddenSerialProof F G) (keyCommitment : G)
    (given : Option F) : (proof.verify keyCommitment given).Defined := by
  refine (Outcome.defined_ensure (by nofun)).bind fun _ _ => ?_
  exact (Outcome.defined_ensure (by nofun)).bind fun _ _ => Outcome.defined_ensure (by nofun)

end ShieldedPayments
