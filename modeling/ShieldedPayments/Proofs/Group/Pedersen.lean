import Mathlib.Algebra.Module.Torsion.Field
import Mathlib.Tactic.Abel
import ShieldedPayments.Proofs.Group.Laws
import ShieldedPayments.Group.Pedersen

/-!
# Pedersen commitments as sums

The commitments of a coin written out over the five bases. All of them are linear in what they commit
to, so commitments add up part by part.
-/

namespace ShieldedPayments.Pedersen

open PointGroup

variable {F G : Type} [ScalarField F] [PointGroup F G] [PointGroup.Lawful F G]

theorem commitAll_eq (spendKey value derivator shard blinding : F) :
    (commitAll spendKey value derivator shard blinding : G) =
      spendKey • (pedersen : PedersenBases G).spendKey + value • (pedersen : PedersenBases G).value
        + derivator • (pedersen : PedersenBases G).derivator
        + shard • (pedersen : PedersenBases G).shard
        + blinding • (pedersen : PedersenBases G).blinding := by
  unfold commitAll
  simp only [combination_cons, combination_nil]
  abel

variable [ScalarField.Lawful F]

theorem commitAt_zero_right (role : Role) (value : F) :
    (commitAt role value 0 : G) = value • (pedersen : PedersenBases G).base role := by
  rw [commitAt, zero_smul, add_zero]

theorem commitAt_zero_left (role : Role) (blinding : F) :
    (commitAt role 0 blinding : G) = blinding • (pedersen : PedersenBases G).blinding := by
  rw [commitAt, zero_smul, zero_add]

/-- Two openings of one commitment differ in both parts or in none. -/
theorem eq_of_commitAt_eq (role : Role) {value value' rand rand' : F}
    (hbase : (pedersen : PedersenBases G).base role ≠ 0)
    (hblinding : (pedersen : PedersenBases G).blinding ≠ 0)
    (h : (commitAt role value rand : G) = commitAt role value' rand')
    (hone : value = value' ∨ rand = rand') : value = value' ∧ rand = rand' := by
  unfold commitAt at h
  rcases hone with rfl | rfl
  · exact ⟨rfl, smul_left_injective F hblinding (add_left_cancel h)⟩
  · exact ⟨smul_left_injective F hbase (add_right_cancel h), rfl⟩

end ShieldedPayments.Pedersen
