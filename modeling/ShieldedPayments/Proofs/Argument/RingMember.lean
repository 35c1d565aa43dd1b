import ShieldedPayments.Proofs.Group.Pedersen
import ShieldedPayments.Proofs.Fault
import ShieldedPayments.Argument.RingMember

/-!
# What ring proofs show

A ring proof is accepted if two equations hold for each bit of the hidden position and one for the
ring as a whole (`RingProof.verify_eq_ok_iff`).
-/

namespace ShieldedPayments.RingProof

variable {F G : Type} [ScalarField F] [PointGroup F G] [PointGroup.Lawful F G]

/-- The equations of a ring proof for a challenge. -/
structure Holds (proof : RingProof F G) (ring : List G) (x : F) : Prop where
  opening : ∀ j : Fin ringDepth,
    x • proof.cl.get j + proof.ca.get j =
      Pedersen.commitAt .spendKey (proof.f.get j) (proof.za.get j)
  product : ∀ j : Fin ringDepth, (x - proof.f.get j) • proof.cl.get j + proof.cb.get j =
    proof.zb.get j • (pedersen : PedersenBases G).blinding
  relation : proof.remainder ring x = 0

theorem checkBit_eq_ok_iff (proof : RingProof F G) (x : F) (j : Fin ringDepth) :
    proof.checkBit x j = .ok () ↔
      x • proof.cl.get j + proof.ca.get j =
          Pedersen.commitAt .spendKey (proof.f.get j) (proof.za.get j) ∧
        (x - proof.f.get j) • proof.cl.get j + proof.cb.get j =
          proof.zb.get j • (pedersen : PedersenBases G).blinding := by
  unfold checkBit
  rw [ensure_bind_eq_ok_iff, ensure_eq_ok_iff, beq_iff_eq, beq_iff_eq]
  rfl

theorem checkAt_eq_ok_iff (proof : RingProof F G) (ring : List G) (x : F) :
    proof.checkAt ring x = .ok () ↔ proof.Holds ring x := by
  unfold checkAt
  rw [Outcome.check_bind_eq_ok_iff]
  simp only [Outcome.forM_eq_ok_iff, checkBit_eq_ok_iff, ensure_eq_ok_iff, beq_iff_eq,
    List.mem_finRange, true_implies]
  constructor
  · rintro ⟨hbits, hrelation⟩
    exact ⟨fun j => (hbits j).1, fun j => (hbits j).2, hrelation⟩
  · rintro ⟨hopening, hproduct, hrelation⟩
    exact ⟨fun j => ⟨hopening j, hproduct j⟩, hrelation⟩

theorem verify_eq_ok_iff (proof : RingProof F G) (ring : List G) :
    proof.verify ring = .ok () ↔
      ring.length = ringSize ∧
        proof.Holds ring (challenge ring proof.cl proof.ca proof.cb proof.cd) := by
  unfold verify
  rw [ensure_bind_eq_ok_iff, beq_iff_eq, checkAt_eq_ok_iff]

end ShieldedPayments.RingProof
