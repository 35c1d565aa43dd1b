import Mathlib.LinearAlgebra.Lagrange
import Mathlib.Tactic.Module
import ShieldedPayments.Proofs.Group.Pedersen

/-!
# What several answers have in common

Points that were fixed before a challenge `x` was known enter a check with powers of `x`. Answers to
enough challenges take such a check apart: two of them determine the slope of a line
(`eq_inv_smul_sub`), and `n + 1` of them the highest coefficient of a polynomial of degree `n`
(`sum_topWeight_smul`). Both are combinations of the answers, so whoever has the answers has an opening
of the point.
-/

namespace ShieldedPayments

variable {F G : Type} [ScalarField F] [ScalarField.Lawful F] [PointGroup F G] [PointGroup.Lawful F G]

namespace PointGroup

/-- Two points of a line determine its slope. -/
theorem eq_inv_smul_sub {x y : F} (hxy : x ≠ y) {a b p q : G} (hx : x • a + b = p)
    (hy : y • a + b = q) : a = (x - y)⁻¹ • (p - q) := by
  have hslope : p - q = (x - y) • a := by
    rw [← hx, ← hy, add_sub_add_right_eq_sub, sub_smul]
  rw [hslope, smul_smul, inv_mul_cancel₀ (sub_ne_zero.mpr hxy), one_smul]

/-- The weight of the value at `x i` in the highest coefficient of the polynomial through all values. -/
def topWeight {n : Nat} (x : Fin n → F) (i : Fin n) : F :=
  (∏ j ∈ Finset.univ.erase i, (x i - x j))⁻¹

omit [PointGroup F G] [PointGroup.Lawful F G] in
theorem sum_topWeight_mul_pow {n : Nat} {x : Fin (n + 1) → F} (hx : Function.Injective x)
    (k : Fin (n + 1)) :
    ∑ i, topWeight x i * x i ^ k.val = if k = Fin.last n then 1 else 0 := by
  have hdegree : (Polynomial.X ^ k.val : Polynomial F).degree <
      (Finset.univ : Finset (Fin (n + 1))).card := by
    rw [Polynomial.degree_X_pow, Finset.card_univ, Fintype.card_fin]
    exact_mod_cast k.isLt
  have hcoeff := Lagrange.coeff_eq_sum hx.injOn hdegree
  rw [Finset.card_univ, Fintype.card_fin, Nat.add_sub_cancel, Polynomial.coeff_X_pow] at hcoeff
  have hlast : n = k.val ↔ k = Fin.last n := by
    rw [Fin.ext_iff, Fin.val_last, eq_comm]
  simp only [hlast, Polynomial.eval_pow, Polynomial.eval_X] at hcoeff
  rw [hcoeff]
  refine Finset.sum_congr rfl fun i _ => ?_
  rw [topWeight, div_eq_mul_inv, mul_comm]

/-- The highest coefficient of a polynomial is the weighted sum of its values. -/
theorem sum_topWeight_smul {n : Nat} {x : Fin (n + 1) → F} (hx : Function.Injective x)
    (c : Fin (n + 1) → G) :
    ∑ i, topWeight x i • ∑ k : Fin (n + 1), x i ^ k.val • c k = c (Fin.last n) := by
  calc ∑ i, topWeight x i • ∑ k : Fin (n + 1), x i ^ k.val • c k
      = ∑ k : Fin (n + 1), (∑ i, topWeight x i * x i ^ k.val) • c k := by
        simp only [Finset.smul_sum, smul_smul, Finset.sum_smul]
        exact Finset.sum_comm
    _ = c (Fin.last n) := by
        simp only [sum_topWeight_mul_pow hx, ite_smul, one_smul, zero_smul, Finset.sum_ite_eq',
          Finset.mem_univ, if_true]

end PointGroup

namespace Pedersen

/-- The slope of a line through two commitments is a commitment. -/
theorem smul_commitAt_sub (c : F) (role : Role) (v w r s : F) :
    c • ((commitAt role v r : G) - commitAt role w s) = commitAt role ((v - w) * c) ((r - s) * c) := by
  unfold commitAt
  module

/-- The constant term of the line is a commitment as well. -/
theorem commitAt_sub_smul (x : F) (role : Role) (v w r s : F) :
    (commitAt role v r : G) - x • commitAt role w s = commitAt role (v - x * w) (r - x * s) := by
  unfold commitAt
  module

end Pedersen

end ShieldedPayments
