import Mathlib.Data.ZMod.Basic
import ShieldedPayments.Proofs.Curve.GroupOrder
import ShieldedPayments.Proofs.Group.Laws
import ShieldedPayments.Proofs.Bytes

/-!
# The scalar field obeys the laws

The scalars of the ristretto group form a field, because the group order is prime: the power that
`invert` computes is the inverse by Fermat's little theorem. Their encodings are the numbers below
the group order in 32 bytes.
-/

namespace ShieldedPayments.Curve.Scalar

open Fin.CommRing

/-! ## Inversion -/

theorem power_eq_pow (x : Scalar) (n : Nat) : power x n = x ^ n := by
  induction n using Nat.strong_induction_on generalizing x with
  | _ n ih =>
    rw [power]
    split
    · next h => rw [h, pow_zero]
    · next h =>
      have hrest : power (x * x) (n / 2) = x ^ (2 * (n / 2)) := by
        rw [ih (n / 2) (by omega), ← pow_two, ← pow_mul]
      simp only [hrest]
      split
      · next hodd =>
        rw [← pow_succ', show 2 * (n / 2) + 1 = n by omega]
      · next heven =>
        rw [show 2 * (n / 2) = n by omega]

theorem mul_invert {x : Scalar} (h : x ≠ 0) : x * invert x = 1 := by
  have hpow : x * invert x = x ^ (groupOrder - 1) := by
    rw [invert, power_eq_pow, ← pow_succ']
    rfl
  rw [hpow]
  let e := ZMod.finEquiv groupOrder
  apply e.injective
  rw [map_pow, map_one]
  exact ZMod.pow_card_sub_one_eq_one ((map_ne_zero_iff e e.injective).mpr h)

theorem invert_zero : invert 0 = 0 := by
  rw [invert, power_eq_pow, zero_pow]
  decide

instance : ScalarField.Lawful Scalar where
  add_assoc := add_assoc
  add_comm := add_comm
  zero_add := zero_add
  neg_add_cancel := neg_add_cancel
  sub_eq_add_neg := sub_eq_add_neg
  mul_assoc := mul_assoc
  mul_comm := mul_comm
  one_mul := one_mul
  mul_add := mul_add
  zero_ne_one := by decide
  mul_inv_cancel _ := mul_invert
  inv_zero := invert_zero
  beq_iff_eq _ _ := beq_iff_eq
  ofNat_zero := rfl
  ofNat_succ n := Nat.cast_succ n

/-! ## Encodings -/

theorem groupOrder_lt : groupOrder < 256 ^ elementSize := by decide

theorem toNatLE_encode (x : Scalar) : (encode x).toNatLE = x.val := by
  rw [encode, Bytes.toNatLE_ofNatLE, Nat.mod_eq_of_lt (x.isLt.trans groupOrder_lt)]

theorem encode_of_decode {b : Bytes} {x : Scalar} (h : decode b = some x) : encode x = b := by
  unfold decode at h
  split at h
  · next hlength =>
    split at h
    · next hlt =>
      rw [← Option.some.inj h, encode, ← hlength, Bytes.ofNatLE_toNatLE]
    · cases h
  · cases h

instance : ScalarField.Canonical Scalar where
  length_encode x := Bytes.length_ofNatLE _ _
  decode_encode x := by
    show decode (encode x) = some x
    have hlength : (encode x).length = elementSize := Bytes.length_ofNatLE _ _
    unfold decode
    rw [if_pos hlength, dif_pos (by rw [toNatLE_encode]; exact x.isLt)]
    simp only [toNatLE_encode]
  ofNat_encode x := by
    show Fin.ofNat groupOrder (encode x).toNatLE = x
    rw [toNatLE_encode, Fin.ofNat_val_eq_self]
  encode_ofNat n h := by
    show (encode (Fin.ofNat groupOrder n)).toNatLE = n
    rw [toNatLE_encode, Fin.val_ofNat, Nat.mod_eq_of_lt h]

instance : ScalarField.SingleForm Scalar where
  encode_of_decode _ _ := encode_of_decode

end ShieldedPayments.Curve.Scalar
