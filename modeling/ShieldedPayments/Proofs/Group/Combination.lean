import Mathlib.Tactic.Module
import ShieldedPayments.Proofs.Group.Laws
import ShieldedPayments.Argument.InnerProduct

/-!
# Combinations of two lists

A combination of a list of factors with a list of points is bilinear: `combination_zip_append`,
`combination_zip_scale` and `combination_zip_fold` are its three rules, for parts of a list, a common
factor and two halves that are folded onto each other.
-/

namespace ShieldedPayments.PointGroup

variable {F G : Type} [ScalarField F] [ScalarField.Lawful F] [PointGroup F G] [Lawful F G]

omit [ScalarField.Lawful F] in
theorem combination_zip_append {xs ys : List F} {ps qs : List G} (h : xs.length = ps.length) :
    combination ((xs ++ ys).zip (ps ++ qs)) = combination (xs.zip ps) + combination (ys.zip qs) := by
  rw [List.zip_append h, combination_append]

theorem combination_zip_scale (c : F) (xs : List F) (ps : List G) :
    combination ((xs.map (c * ·)).zip ps) = c • combination (xs.zip ps) := by
  induction xs generalizing ps with
  | nil => simp
  | cons x xs ih =>
    cases ps with
    | nil => simp
    | cons p ps =>
      simp only [List.map_cons, List.zip_cons_cons, combination_cons, ih]
      module

/-- Folding the points is the same as repeating the factors for both halves. -/
theorem combination_zip_fold (x y : F) (ss : List F) (lo hi : List G) (h : lo.length = hi.length) :
    combination (ss.zip (InnerProductProof.foldPoints x y lo hi)) =
      x • combination (ss.zip lo) + y • combination (ss.zip hi) := by
  unfold InnerProductProof.foldPoints
  induction ss generalizing lo hi with
  | nil => simp
  | cons s ss ih =>
    cases lo with
    | nil =>
      have : hi = [] := List.eq_nil_of_length_eq_zero (by simpa using h.symm)
      subst this
      simp
    | cons p lo =>
      cases hi with
      | nil => simp at h
      | cons q hi =>
        have hlen : lo.length = hi.length := by simpa using h
        rw [List.zipWith_cons_cons, List.zip_cons_cons, combination_cons, ih lo hi hlen]
        simp only [List.zip_cons_cons, combination_cons, combination_nil]
        module

/-- Scaled points take their scales to the factors. -/
theorem combination_zip_scaled (b : F) (ss cs : List F) (ps : List G) :
    combination ((List.zipWith (fun s c => b * s * c) ss cs).zip ps) =
      b • combination (ss.zip (List.zipWith (fun p c => c • p) ps cs)) := by
  induction ss generalizing cs ps with
  | nil => simp
  | cons s ss ih =>
    cases cs with
    | nil => simp
    | cons c cs =>
      cases ps with
      | nil => simp
      | cons p ps =>
        simp only [List.zipWith_cons_cons, List.zip_cons_cons, combination_cons, ih]
        module

/-- Negated factors negate the combination. -/
theorem combination_zipWith_neg {α β : Type} (f : α → β → F) (g : α → β → G) (xs : List α)
    (ys : List β) :
    combination (List.zipWith (fun x y => (-f x y, g x y)) xs ys) =
      -combination (List.zipWith (fun x y => (f x y, g x y)) xs ys) := by
  induction xs generalizing ys with
  | nil => simp
  | cons x xs ih =>
    cases ys with
    | nil => simp
    | cons y ys =>
      simp only [List.zipWith_cons_cons, combination_cons, ih]
      module

end ShieldedPayments.PointGroup
