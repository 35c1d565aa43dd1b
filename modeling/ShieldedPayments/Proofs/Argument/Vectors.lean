import Mathlib.Algebra.BigOperators.Fin
import Mathlib.Tactic.Ring
import ShieldedPayments.Proofs.Group.Combination
import ShieldedPayments.Argument.Vectors

/-!
# Sums over vectors

Arguments about whole vectors are arguments about one position. A list of length `n` is
`List.ofFn` of a function on `Fin n`; inner products and combinations of such lists are sums over
`Fin n`, in which both sides of an equation meet term by term.

* `innerProduct_ofFn`, `combination_zip_ofFn`: inner products and combinations as sums.
* `innerProduct_take_drop`, `combination_zip_take_drop`: the same, split at a position.
* `powers_eq_map`: the powers of a scalar, position by position.
-/

namespace ShieldedPayments

/-! ## Lists as functions of the position -/

theorem exists_ofFn {α : Type} {n : Nat} {as : List α} (h : as.length = n) :
    ∃ f : Fin n → α, as = List.ofFn f := by
  subst h
  exact ⟨as.get, (List.ofFn_get as).symm⟩

theorem zipWith_ofFn {α β γ : Type} {n : Nat} (op : α → β → γ) (f : Fin n → α) (g : Fin n → β) :
    List.zipWith op (List.ofFn f) (List.ofFn g) = List.ofFn fun i => op (f i) (g i) := by
  induction n with
  | zero => rfl
  | succ n ih => rw [List.ofFn_succ, List.ofFn_succ, List.ofFn_succ, List.zipWith_cons_cons, ih]

theorem zip_ofFn {α β : Type} {n : Nat} (f : Fin n → α) (g : Fin n → β) :
    (List.ofFn f).zip (List.ofFn g) = List.ofFn fun i => (f i, g i) :=
  zipWith_ofFn Prod.mk f g

variable {F : Type} [ScalarField F]

/-! ## Inner products -/

@[simp] theorem innerProduct_nil_left (b : List F) : innerProduct [] b = 0 := rfl

@[simp] theorem innerProduct_nil_right (a : List F) : innerProduct a [] = 0 := by
  rw [innerProduct, List.zipWith_nil_right]
  rfl

@[simp] theorem innerProduct_cons (x y : F) (a b : List F) :
    innerProduct (x :: a) (y :: b) = x * y + innerProduct a b := by
  rw [innerProduct, List.zipWith_cons_cons, List.sum_cons, innerProduct]

variable [ScalarField.Lawful F]

theorem innerProduct_append {a a' b b' : List F} (h : a.length = b.length) :
    innerProduct (a ++ a') (b ++ b') = innerProduct a b + innerProduct a' b' := by
  rw [innerProduct, List.zipWith_append h, List.sum_append, innerProduct, innerProduct]

theorem innerProduct_comm (a b : List F) : innerProduct a b = innerProduct b a := by
  unfold innerProduct
  rw [List.zipWith_comm]
  simp only [mul_comm]

theorem innerProduct_take_drop (n : Nat) {a b : List F} (h : a.length = b.length) :
    innerProduct a b =
      innerProduct (a.take n) (b.take n) + innerProduct (a.drop n) (b.drop n) := by
  have hlen : (a.take n).length = (b.take n).length := by
    rw [List.length_take, List.length_take, h]
  rw [← innerProduct_append hlen, List.take_append_drop, List.take_append_drop]

theorem innerProduct_ofFn {n : Nat} (f g : Fin n → F) :
    innerProduct (List.ofFn f) (List.ofFn g) = ∑ i, f i * g i := by
  rw [innerProduct, zipWith_ofFn, List.sum_ofFn]

theorem innerProduct_replicate_zero (n : Nat) (b : List F) :
    innerProduct (List.replicate n 0) b = 0 := by
  induction n generalizing b with
  | zero => rfl
  | succ n ih =>
    cases b with
    | nil => rw [innerProduct_nil_right]
    | cons y b => rw [List.replicate_succ, innerProduct_cons, zero_mul, zero_add, ih]

theorem sum_map_range (f : Nat → F) (n : Nat) :
    ((List.range n).map f).sum = ∑ i ∈ Finset.range n, f i := by
  induction n with
  | zero => rfl
  | succ n ih =>
    rw [List.range_succ, List.map_append, List.sum_append, ih, Finset.sum_range_succ, List.map_cons,
      List.map_nil, List.sum_cons, List.sum_nil, add_zero]

theorem innerProduct_map_range (f g : Nat → F) (n : Nat) :
    innerProduct ((List.range n).map f) ((List.range n).map g) =
      ∑ i ∈ Finset.range n, f i * g i := by
  rw [innerProduct, List.zipWith_map, List.zipWith_self, sum_map_range]

/-! ## Powers -/

omit [ScalarField.Lawful F] in
@[simp] theorem powersFrom_zero (x power : F) : powersFrom x power 0 = [] := rfl

omit [ScalarField.Lawful F] in
@[simp] theorem powersFrom_succ (x power : F) (n : Nat) :
    powersFrom x power (n + 1) = power :: powersFrom x (power * x) n := rfl

omit [ScalarField.Lawful F] in
@[simp] theorem length_powersFrom (x power : F) (n : Nat) : (powersFrom x power n).length = n := by
  induction n generalizing power with
  | zero => rfl
  | succ n ih => rw [powersFrom_succ, List.length_cons, ih]

omit [ScalarField.Lawful F] in
@[simp] theorem length_powers (x : F) (n : Nat) : (powers x n).length = n :=
  length_powersFrom x 1 n

theorem powersFrom_eq_map (x power : F) (n : Nat) :
    powersFrom x power n = (List.range n).map fun i => power * x ^ i := by
  induction n generalizing power with
  | zero => rfl
  | succ n ih =>
    rw [powersFrom_succ, ih, List.range_succ_eq_map, List.map_cons, List.map_map, pow_zero, mul_one]
    refine congrArg _ (List.map_congr_left fun i _ => ?_)
    rw [Function.comp_apply, pow_succ', mul_assoc]

theorem powers_eq_map (x : F) (n : Nat) : powers x n = (List.range n).map fun i => x ^ i := by
  rw [powers, powersFrom_eq_map]
  simp only [one_mul]

theorem powers_eq_ofFn (x : F) (n : Nat) : powers x n = List.ofFn fun i : Fin n => x ^ i.val := by
  rw [powers_eq_map]
  apply List.ext_getElem
  · rw [List.length_map, List.length_range, List.length_ofFn]
  · intro i _ _
    rw [List.getElem_map, List.getElem_range, List.getElem_ofFn]

/-! ## Combinations -/

namespace PointGroup

variable {G : Type} [PointGroup F G] [PointGroup.Lawful F G]

omit [ScalarField.Lawful F] in
theorem combination_zip_take_drop (n : Nat) {xs : List F} {ps : List G}
    (h : xs.length = ps.length) :
    combination (xs.zip ps) =
      combination ((xs.take n).zip (ps.take n)) + combination ((xs.drop n).zip (ps.drop n)) := by
  have hlen : (xs.take n).length = (ps.take n).length := by
    rw [List.length_take, List.length_take, h]
  rw [← combination_zip_append hlen, List.take_append_drop, List.take_append_drop]

omit [ScalarField.Lawful F] in
theorem combination_ofFn {n : Nat} (f : Fin n → F) (p : Fin n → G) :
    combination (List.ofFn fun i => (f i, p i)) = ∑ i, f i • p i := by
  rw [combination_eq_sum, List.map_ofFn, List.sum_ofFn]
  rfl

omit [ScalarField.Lawful F] in
theorem combination_zip_ofFn {n : Nat} (f : Fin n → F) (p : Fin n → G) :
    combination ((List.ofFn f).zip (List.ofFn p)) = ∑ i, f i • p i := by
  rw [zip_ofFn, combination_ofFn]

end PointGroup

end ShieldedPayments
