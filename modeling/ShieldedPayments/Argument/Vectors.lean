import ShieldedPayments.Group.Basic

/-!
# Vectors of scalars

Inner products and powers, the vectors that arguments about many values at once are built from.
-/

namespace ShieldedPayments

variable {F : Type} [ScalarField F]

/-- The sum of the products of two vectors, as far as the shorter one goes (`inner_product`). -/
def innerProduct (a b : List F) : F :=
  (List.zipWith (· * ·) a b).sum

/-- The powers of `x` that follow `power`, `n` of them, and `power` first. -/
def powersFrom (x power : F) : (n : Nat) → List F
  | 0 => []
  | n + 1 => power :: powersFrom x (power * x) n

/-- The powers of `x` from zero up, `n` of them. -/
def powers (x : F) (n : Nat) : List F :=
  powersFrom x 1 n

end ShieldedPayments
