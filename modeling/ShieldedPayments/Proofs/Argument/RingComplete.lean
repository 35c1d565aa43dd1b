import ShieldedPayments.Proofs.Argument.HonestRing
import ShieldedPayments.Proofs.Argument.Codec
import ShieldedPayments.Proofs.Group.Exponents

/-!
# Ring proofs are complete

The prover makes a proof exactly for a ring of the right size whose member at the given position is the
given multiple of the blinding base (`RingProof.proved_iff_member_opens`). The proof is accepted, and
still accepted when it is read back from its encoding; the other members and the challenge do not
matter.
-/

namespace ShieldedPayments.RingProof

section

variable {F G : Type} [ScalarField F] [PointGroup F G]

/-- Rings of another size are refused before anything is drawn. -/
theorem runOn_prove_of_length_ne {ring : List G} (h : ring.length ≠ ringSize) (rand : F) (l : Nat)
    (t : Tape) : (prove ring rand l).runOn t = (.error (.invalidInput "ring size"), t) := by
  have hsize : (ring.length == ringSize) = false := beq_false_of_ne h
  rw [prove, Proving.runOn_bind, Proving.runOn_outcome, hsize]
  rfl

variable [ScalarField.Lawful F] [PointGroup.Lawful F G]

/-- **Ring proofs are complete.** On every tape, a proof is made exactly if the ring has the right size
and its member at the position opens to zero; another size is a fault of its own. What is made is
accepted on the ring, directly and after it was read back from its encoding, and its points have
accepted responses to every challenge. -/
theorem proved_iff_member_opens [ScalarField.Canonical F] [PointGroup.Canonical F G] (ring : List G)
    (rand : F) (l : Nat) (t : Tape) :
    ((∃ proof, ((prove ring rand l).runOn t).1 = .ok proof) ↔
      ring.length = ringSize ∧ ring[l]? = some (rand • (pedersen : PedersenBases G).blinding)) ∧
    (ring.length ≠ ringSize → ((prove ring rand l).runOn t).1 = .error (.invalidInput "ring size")) ∧
    ∀ proof, ((prove ring rand l).runOn t).1 = .ok proof →
      proof.verify ring = .ok () ∧
      (∃ decoded, ofBytes proof.toBytes = .ok decoded ∧ decoded.verify ring = .ok ()) ∧
      ∃ secrets, assemble ring rand l secrets = proof ∧
        ∀ x, (proof.withResponses (respond l secrets rand x)).checkAt ring x = .ok () := by
  simp only [runOn_prove_eq_ok_iff]
  refine ⟨?_, ?_, ?_⟩
  · constructor
    · rintro ⟨_, hring, hmember, _⟩
      exact ⟨hring, hmember⟩
    · rintro ⟨hring, hmember⟩
      exact ⟨_, hring, hmember, rfl⟩
  · intro h
    rw [runOn_prove_of_length_ne h]
  · rintro proof ⟨hring, hmember, rfl⟩
    have haccepted := verify_assemble l (drawAllSecrets.run t).1 rand hring hmember
    refine ⟨haccepted, ⟨_, ofBytes_toBytes _, haccepted⟩, _, rfl, fun x => ?_⟩
    rw [checkAt_eq_ok_iff]
    exact holds_respond l _ rand x hring hmember

end

/-! ## A ring of multiples -/

open Curve (Scalar)

/-- Eight points, of which the one at position five is three times the blinding base. -/
def ringOfFive : List Exponent :=
  [⟨1⟩, ⟨2⟩, ⟨2⟩, ⟨0⟩, ⟨5⟩, ⟨15⟩, ⟨100⟩, ⟨7⟩]

/-- A proof is made at position five, and none at position four. -/
theorem proved_iff_member_opens_ringOfFive :
    (∃ proof, ((prove ringOfFive 3 5).runOn (Tape.expand [] [1])).1 = .ok proof ∧
      proof.verify ringOfFive = .ok () ∧
      ∃ decoded, ofBytes proof.toBytes = .ok decoded ∧ decoded.verify ringOfFive = .ok ()) ∧
    ¬∃ proof, ((prove ringOfFive 3 4).runOn (Tape.expand [] [1])).1 = .ok proof := by
  have hfive := proved_iff_member_opens ringOfFive 3 5 (Tape.expand [] [1])
  have hfour := proved_iff_member_opens ringOfFive 3 4 (Tape.expand [] [1])
  obtain ⟨proof, hproof⟩ := hfive.1.mpr ⟨rfl, by decide⟩
  obtain ⟨haccepted, hdecoded, _⟩ := hfive.2.2 proof hproof
  refine ⟨⟨proof, hproof, haccepted, hdecoded⟩, ?_⟩
  rw [hfour.1]
  rintro ⟨_, hmember⟩
  exact absurd hmember (by decide)

end ShieldedPayments.RingProof
