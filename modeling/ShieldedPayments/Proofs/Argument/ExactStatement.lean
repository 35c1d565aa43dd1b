import ShieldedPayments.Proofs.Argument.Folding
import ShieldedPayments.Proofs.Group.Nonvanishing

/-!
# Which statement an inner-product argument shows

The rounds of an argument are made from the vectors and the bases alone. The point that the argument
is made for only enters the last equation of the check, so that of all points just one passes it: the
statement about the vectors (`verify_iff_eq_statement`).

* `InnerProductProof.prove_eq_error_iff`: the lengths for which no argument can be made.
* `InnerProductProof.accepted_iff_true_statement`: every other argument has as many rounds as the
  length has halvings, and both checks accept it exactly if its point is the statement.
-/

namespace ShieldedPayments.InnerProductProof

open PointGroup

variable {F G : Type} [ScalarField F] [PointGroup F G]

/-! ## When arguments can be made -/

theorem shiftLeft_log2_eq_iff {n : Nat} : 1 <<< n.log2 = n ↔ ∃ depth, n = 2 ^ depth := by
  rw [Nat.one_shiftLeft]
  constructor
  · exact fun h => ⟨n.log2, h.symm⟩
  · rintro ⟨depth, rfl⟩
    rw [Nat.log2_two_pow]

/-- The prover refuses vectors and bases for their lengths only. -/
theorem prove_eq_error_iff (t : Transcript) (g h : List G) (u p : G) (a b : List F) (fault : Fault) :
    prove t g h u p a b = .error fault ↔
      fault = .invalidInput "inner product vector lengths" ∧
        ¬((∃ depth, a.length = 2 ^ depth) ∧ b.length = a.length ∧ g.length = a.length ∧
          h.length = a.length) := by
  by_cases hlengths : (∃ depth, a.length = 2 ^ depth) ∧ b.length = a.length ∧
    g.length = a.length ∧ h.length = a.length
  · obtain ⟨⟨depth, ha⟩, hb, hg, hh⟩ := id hlengths
    rw [exists_prove depth t g h u p a b (hg.trans ha) (hh.trans ha) ha (hb.trans ha)]
    exact ⟨nofun, fun hrefused => absurd hlengths hrefused.2⟩
  · have hguard : ¬(1 <<< a.length.log2 == a.length && b.length == a.length
        && g.length == a.length && h.length == a.length) = true := by
      simpa only [Bool.and_eq_true, beq_iff_eq, shiftLeft_log2_eq_iff, and_assoc] using hlengths
    have hprove : prove t g h u p a b = .error (.invalidInput "inner product vector lengths") := by
      unfold prove
      exact ensure_bind_of_not hguard
    rw [hprove]
    exact ⟨fun herror => ⟨(Except.error.inj herror).symm, hlengths⟩, fun h => congrArg _ h.1.symm⟩

/-! ## Which arguments are accepted -/

variable [ScalarField.Lawful F] [PointGroup.Lawful F G]

/-- An argument is accepted for the statement about its vectors, and for no other point. -/
theorem verify_iff_eq_statement {depth : Nat} {t : Transcript} {g h : List G} {u p : G}
    {a b : List F} {proof : InnerProductProof F G} (hg : g.length = 2 ^ depth)
    (hh : h.length = 2 ^ depth) (ha : a.length = 2 ^ depth) (hb : b.length = 2 ^ depth)
    (hproof : prove t g h u p a b = .ok proof) (hx : ∀ x ∈ challenges proof.rounds t, x ≠ (0 : F)) :
    proof.verify t g h u = true ↔ p = statement g h u a b := by
  rw [exists_prove depth t g h u p a b hg hh ha hb] at hproof
  obtain rfl := Except.ok.inj hproof
  -- The same rounds are made for the statement, for which they are accepted.
  have htrue := verify_of_prove hg hh ha hb
    (exists_prove depth t g h u (statement g h u a b) a b hg hh ha hb) hx
  obtain ⟨hfits, hstatement⟩ := (verify_iff _ t g h u).mp htrue
  rw [verify_iff, hstatement, add_left_inj]
  exact ⟨fun heq => heq.2.symm, fun heq => ⟨hfits, heq.symm⟩⟩

/-- **An inner-product argument proves exactly its statement.** No argument is made for vectors whose
length is zero or no power of two, or that differ in length from each other or from the bases. All
others have one round for each halving; and unless one of their challenges is zero, either check
accepts them exactly if the point that they are made for is the sum of the vectors over their bases
and of their inner product over `u`. -/
theorem accepted_iff_true_statement (t : Transcript) (g h : List G) (u p : G) (a b : List F) :
    ((∃ fault, prove t g h u p a b = .error fault) ↔
      a.length = 0 ∨ (¬∃ depth, a.length = 2 ^ depth) ∨ b.length ≠ a.length ∨
        g.length ≠ a.length ∨ h.length ≠ a.length) ∧
    ∀ depth, a.length = 2 ^ depth → b.length = a.length → g.length = a.length →
      h.length = a.length →
      ∃ proof, prove t g h u p a b = .ok proof ∧ proof.rounds.length = a.length.log2 ∧
        ((∀ x ∈ challenges proof.rounds t, x ≠ (0 : F)) →
          (proof.verify t g h u = true ↔
            p = combination (a.zip g) + combination (b.zip h) + innerProduct a b • u) ∧
          (proof.verifyFaster t g h u = true ↔
            p = combination (a.zip g) + combination (b.zip h) + innerProduct a b • u)) := by
  constructor
  · have hzero : a.length = 0 → ¬∃ depth, a.length = 2 ^ depth := by
      rintro h0 ⟨depth, hdepth⟩
      exact (Nat.two_pow_pos depth).ne' (hdepth.symm.trans h0)
    simp only [prove_eq_error_iff, exists_eq_left, not_and_or]
    exact ⟨Or.inr, fun hlengths => hlengths.elim (fun h0 => .inl (hzero h0)) id⟩
  · intro depth ha hb hg hh
    rw [ha] at hb hg hh
    have hproof := exists_prove depth t g h u p a b hg hh ha hb
    refine ⟨_, hproof, ?_, fun hx => ?_⟩
    · rw [length_proveRounds, ha, Nat.log2_two_pow]
    · have hverify := verify_iff_eq_statement hg hh ha hb hproof hx
      rw [statement_eq] at hverify
      exact ⟨hverify, by rw [← verify_verifyFaster]; exact hverify⟩

/-- Two vectors of length two, with one round: an argument for their statement is accepted, and one
for zero is not. -/
theorem accepted_iff_true_statement_two :
    let t := Transcript.init []
    let g : List NonzeroExponent := [Exponent.mk 1, Exponent.mk 2]
    let h : List NonzeroExponent := [Exponent.mk 3, Exponent.mk 4]
    let u : NonzeroExponent := Exponent.mk 5
    let a : List NonzeroScalar := [ScalarField.ofNat 2, ScalarField.ofNat 3]
    let b : List NonzeroScalar := [ScalarField.ofNat 5, ScalarField.ofNat 7]
    (∃ proof, prove t g h u (Exponent.mk 206) a b = .ok proof ∧ proof.rounds.length = 1 ∧
      proof.verify t g h u = true ∧ proof.verifyFaster t g h u = true) ∧
    ∃ proof, prove t g h u (Exponent.mk 0) a b = .ok proof ∧
      ¬proof.verify t g h u = true ∧ ¬proof.verifyFaster t g h u = true := by
  intro t g h u a b
  have hsum : combination (a.zip g) + combination (b.zip h) + innerProduct a b • u =
      Exponent.mk 206 := rfl
  constructor
  · obtain ⟨proof, hproof, hrounds, haccepted⟩ :=
      (accepted_iff_true_statement t g h u (Exponent.mk 206) a b).2 1 rfl rfl rfl rfl
    obtain ⟨hverify, hfaster⟩ := haccepted (challenges_ne_zero _ _)
    exact ⟨proof, hproof, hrounds.trans (by decide), hverify.mpr hsum.symm, hfaster.mpr hsum.symm⟩
  · obtain ⟨proof, hproof, -, haccepted⟩ :=
      (accepted_iff_true_statement t g h u (Exponent.mk 0) a b).2 1 rfl rfl rfl rfl
    obtain ⟨hverify, hfaster⟩ := haccepted (challenges_ne_zero _ _)
    have hne : (Exponent.mk 0 : NonzeroExponent) ≠ Exponent.mk 206 := by decide
    rw [hsum] at hverify hfaster
    exact ⟨proof, hproof, fun h => hne (hverify.mp h), fun h => hne (hfaster.mp h)⟩

end ShieldedPayments.InnerProductProof
