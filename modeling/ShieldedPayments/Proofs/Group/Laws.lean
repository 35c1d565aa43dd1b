import Mathlib.Algebra.Field.Defs
import Mathlib.Algebra.Module.Basic
import ShieldedPayments.Curve.Scalar

/-!
# Laws of scalars and points

What statements about protocols assume of the operations they run on. The laws are classes of
propositions over `ScalarField` and `PointGroup`; from them the structures of Mathlib follow, with
the operations of the library as their own.

* `ScalarField.Lawful`, `PointGroup.Lawful`: scalars form a field and points a vector space over it.
* `ScalarField.Canonical`: scalars are the numbers below the group order, and are encoded as such.
* `ScalarField.SingleForm`: nothing but its encoding is read as a scalar.
* `PointGroup.Sized`: every encoding of a point has 32 bytes.
* `PointGroup.Canonical`: every point has one encoding.
* `PointGroup.combination_eq_sum`: combinations are sums of multiples.
-/

namespace ShieldedPayments

/-! ## Scalars -/

/-- Scalars form a field, in which the inverse of zero is zero and `ofNat` counts by ones. -/
class ScalarField.Lawful (F : Type) [ScalarField F] : Prop where
  add_assoc : ∀ a b c : F, a + b + c = a + (b + c)
  add_comm : ∀ a b : F, a + b = b + a
  zero_add : ∀ a : F, 0 + a = a
  neg_add_cancel : ∀ a : F, -a + a = 0
  sub_eq_add_neg : ∀ a b : F, a - b = a + -b
  mul_assoc : ∀ a b c : F, a * b * c = a * (b * c)
  mul_comm : ∀ a b : F, a * b = b * a
  one_mul : ∀ a : F, 1 * a = a
  mul_add : ∀ a b c : F, a * (b + c) = a * b + a * c
  zero_ne_one : (0 : F) ≠ 1
  mul_inv_cancel : ∀ a : F, a ≠ 0 → a * a⁻¹ = 1
  inv_zero : (0 : F)⁻¹ = 0
  beq_iff_eq : ∀ a b : F, (a == b) = true ↔ a = b
  ofNat_zero : (ofNat 0 : F) = 0
  ofNat_succ : ∀ n : Nat, (ofNat (n + 1) : F) = ofNat n + 1

namespace ScalarField

variable {F : Type} [ScalarField F]

section

variable [Lawful F]

private theorem lawful_zero_mul (a : F) : 0 * a = 0 := by
  have h : 0 * a + 0 * a = 0 * a := by
    rw [Lawful.mul_comm, ← Lawful.mul_add, Lawful.zero_add]
  calc 0 * a = -(0 * a) + 0 * a + 0 * a := by rw [Lawful.neg_add_cancel, Lawful.zero_add]
    _ = 0 := by rw [Lawful.add_assoc, h, Lawful.neg_add_cancel]

instance : Field F where
  add_assoc := Lawful.add_assoc
  zero_add := Lawful.zero_add
  add_zero a := by rw [Lawful.add_comm, Lawful.zero_add]
  nsmul := nsmulRec
  add_comm := Lawful.add_comm
  left_distrib := Lawful.mul_add
  right_distrib a b c := by
    rw [Lawful.mul_comm, Lawful.mul_add, Lawful.mul_comm c a, Lawful.mul_comm c b]
  zero_mul := lawful_zero_mul
  mul_zero a := by rw [Lawful.mul_comm, lawful_zero_mul]
  mul_assoc := Lawful.mul_assoc
  one_mul := Lawful.one_mul
  mul_one a := by rw [Lawful.mul_comm, Lawful.one_mul]
  natCast := ofNat
  natCast_zero := Lawful.ofNat_zero
  natCast_succ := Lawful.ofNat_succ
  sub_eq_add_neg := Lawful.sub_eq_add_neg
  zsmul := zsmulRec
  neg_add_cancel := Lawful.neg_add_cancel
  mul_comm := Lawful.mul_comm
  exists_pair_ne := ⟨0, 1, Lawful.zero_ne_one⟩
  mul_inv_cancel := Lawful.mul_inv_cancel
  inv_zero := Lawful.inv_zero
  nnqsmul := _
  nnqsmul_def := fun _ _ => rfl
  qsmul := _
  qsmul_def := fun _ _ => rfl

instance : LawfulBEq F where
  eq_of_beq h := (Lawful.beq_iff_eq _ _).mp h
  rfl := (Lawful.beq_iff_eq _ _).mpr rfl

theorem ofNat_add (m n : Nat) : (ofNat (m + n) : F) = ofNat m + ofNat n :=
  Nat.cast_add (R := F) m n

end

/-- Scalars are the numbers below the group order, encoded least significant byte first. -/
class Canonical (F : Type) [ScalarField F] : Prop where
  length_encode : ∀ s : F, (encode s).length = elementSize
  decode_encode : ∀ s : F, decode (encode s) = some s
  ofNat_encode : ∀ s : F, ofNat (encode s).toNatLE = s
  encode_ofNat : ∀ n : Nat, n < Curve.groupOrder → (encode (ofNat n : F)).toNatLE = n

/-- No other bytes than the encoding of a scalar are read as that scalar. -/
class SingleForm (F : Type) [ScalarField F] : Prop where
  encode_of_decode : ∀ (b : Bytes) (s : F), decode b = some s → encode s = b

theorem encode_injective [Canonical F] : Function.Injective (encode : F → Bytes) := by
  intro a b h
  have ha := Canonical.decode_encode a
  rw [h, Canonical.decode_encode] at ha
  exact (Option.some.inj ha).symm

theorem ofNat_inj [Canonical F] {m n : Nat} (hm : m < Curve.groupOrder) (hn : n < Curve.groupOrder) :
    (ofNat m : F) = ofNat n ↔ m = n := by
  constructor
  · intro h
    rw [← Canonical.encode_ofNat (F := F) m hm, h, Canonical.encode_ofNat n hn]
  · exact congrArg _

theorem toNat_lt_groupOrder (v : UInt64) : v.toNat < Curve.groupOrder :=
  v.toNat_lt.trans (by decide)

theorem ofNat_toNat_inj [Canonical F] (v w : UInt64) :
    (ofNat v.toNat : F) = ofNat w.toNat ↔ v = w := by
  rw [ofNat_inj (toNat_lt_groupOrder v) (toNat_lt_groupOrder w), UInt64.toNat_inj]

end ScalarField

/-! ## Points -/

/-- Points form a vector space over the scalars, and combinations and multiples of the base point
are what they are called. -/
class PointGroup.Lawful (F : outParam Type) (G : Type) [ScalarField F] [PointGroup F G] : Prop where
  add_assoc : ∀ p q r : G, p + q + r = p + (q + r)
  add_comm : ∀ p q : G, p + q = q + p
  zero_add : ∀ p : G, 0 + p = p
  neg_add_cancel : ∀ p : G, -p + p = 0
  sub_eq_add_neg : ∀ p q : G, p - q = p + -q
  one_smul : ∀ p : G, (1 : F) • p = p
  mul_smul : ∀ (a b : F) (p : G), (a * b) • p = a • b • p
  add_smul : ∀ (a b : F) (p : G), (a + b) • p = a • p + b • p
  smul_add : ∀ (a : F) (p q : G), a • (p + q) = a • p + a • q
  beq_iff_eq : ∀ p q : G, (p == q) = true ↔ p = q
  combination_nil : combination ([] : List (F × G)) = 0
  combination_cons : ∀ (a : F) (p : G) (terms : List (F × G)),
    combination ((a, p) :: terms) = a • p + combination terms
  baseMultiple_eq : ∀ a : F, (baseMultiple a : G) = a • (pedersen : PedersenBases G).spendKey

namespace PointGroup

variable {F G : Type} [ScalarField F] [PointGroup F G]

section

variable [Lawful F G]

@[simp] theorem combination_nil : combination ([] : List (F × G)) = 0 :=
  Lawful.combination_nil

@[simp] theorem combination_cons (a : F) (p : G) (terms : List (F × G)) :
    combination ((a, p) :: terms) = a • p + combination terms :=
  Lawful.combination_cons a p terms

theorem combination_eq_sum (terms : List (F × G)) :
    combination terms = (terms.map fun term => term.1 • term.2).sum := by
  induction terms with
  | nil => rw [combination_nil, List.map_nil, List.sum_nil]
  | cons term terms ih => rw [combination_cons, ih, List.map_cons, List.sum_cons]

theorem baseMultiple_eq (a : F) : (baseMultiple a : G) = a • (pedersen : PedersenBases G).spendKey :=
  Lawful.baseMultiple_eq a

instance : AddCommGroup G where
  add_assoc := Lawful.add_assoc
  zero_add := Lawful.zero_add
  add_zero p := by rw [Lawful.add_comm, Lawful.zero_add]
  nsmul := nsmulRec
  neg_add_cancel := Lawful.neg_add_cancel
  add_comm := Lawful.add_comm
  sub_eq_add_neg := Lawful.sub_eq_add_neg
  zsmul := zsmulRec

@[simp] theorem combination_append (xs ys : List (F × G)) :
    combination (xs ++ ys) = combination xs + combination ys := by
  rw [combination_eq_sum, combination_eq_sum, combination_eq_sum, List.map_append, List.sum_append]

instance [ScalarField.Lawful F] : Module F G where
  one_smul := Lawful.one_smul
  mul_smul := Lawful.mul_smul
  smul_add := Lawful.smul_add
  add_smul := Lawful.add_smul
  smul_zero a := by
    have h : a • (0 : G) + a • (0 : G) = a • (0 : G) := by
      rw [← Lawful.smul_add, Lawful.zero_add]
    exact add_eq_left.mp h
  zero_smul p := by
    have h : (0 : F) • p + (0 : F) • p = (0 : F) • p := by
      rw [← Lawful.add_smul, ScalarField.Lawful.zero_add]
    exact add_eq_left.mp h

/-- A secret times the public key of another secret is the same for both. -/
theorem smul_baseMultiple [ScalarField.Lawful F] (a b : F) :
    a • (baseMultiple b : G) = b • (baseMultiple a : G) := by
  rw [baseMultiple_eq, baseMultiple_eq, smul_smul, smul_smul, mul_comm]

instance : LawfulBEq G where
  eq_of_beq h := (Lawful.beq_iff_eq _ _).mp h
  rfl := (Lawful.beq_iff_eq _ _).mpr rfl

end

/-- Every point has one encoding, of 32 bytes, and no other bytes are read as that point. -/
class Canonical (F : outParam Type) (G : Type) [ScalarField F] [PointGroup F G] : Prop where
  length_encode : ∀ p : G, (encode p).length = elementSize
  decode_encode : ∀ p : G, decode (encode p) = some p
  encode_of_decode : ∀ (b : Bytes) (p : G), decode b = some p → encode p = b

/-- Every point has an encoding of 32 bytes. -/
class Sized (F : outParam Type) (G : Type) [ScalarField F] [PointGroup F G] : Prop where
  length_encode : ∀ p : G, (encode p).length = elementSize

instance [Canonical F G] : Sized F G :=
  ⟨Canonical.length_encode⟩

/-- The bytes that are read as a point are its encoding. -/
theorem decode_eq_some_iff [Canonical F G] {b : Bytes} {p : G} : decode b = some p ↔ encode p = b :=
  ⟨Canonical.encode_of_decode b p, fun h => h ▸ Canonical.decode_encode p⟩

theorem encode_injective [Canonical F G] : Function.Injective (encode : G → Bytes) := by
  intro p q h
  have hp := Canonical.decode_encode (F := F) p
  rw [h, Canonical.decode_encode] at hp
  exact (Option.some.inj hp).symm

end PointGroup

end ShieldedPayments
