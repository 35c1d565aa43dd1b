import Mathlib.FieldTheory.Finite.Basic
import Mathlib.NumberTheory.LucasPrimality
import Mathlib.Tactic.NormNum.Prime
import Mathlib.Tactic.ReduceModChar
import ShieldedPayments.Curve.Scalar

/-!
# The group order is prime

Primality certificates for the order of the ristretto group. A prime factor of `n - 1` that exceeds
the square root of `n` decides whether `n` is prime (`prime_of_large_factor`); a chain of five such
steps leads from a number of 51 bits, which Lucas's criterion covers, to the group order
(`groupOrder_prime`).
-/

namespace ShieldedPayments.Curve

/-- If a prime `q` divides `n - 1` with a cofactor `r ≤ q`, and some `a` has `a ^ (n - 1) = 1` while
`a ^ r - 1` is a unit, then `n` is prime: a prime factor of `n` would be above `q`, so its square
would be above `n`. -/
theorem prime_of_large_factor {n q r : Nat} (hn : n = q * r + 1) (hq : q.Prime) (hr : r ≤ q)
    (hr₀ : r ≠ 0) (a b : ZMod n) (hone : a ^ (q * r) = 1) (hunit : b * (a ^ r - 1) = 1) :
    n.Prime := by
  have hqr : 0 < q * r := Nat.mul_pos hq.pos (Nat.pos_of_ne_zero hr₀)
  by_contra hcomposite
  have hp := Nat.minFac_prime (n := n) (by omega)
  set p := n.minFac with hpdef
  have : Fact p.Prime := ⟨hp⟩
  let φ : ZMod n →+* ZMod p := ZMod.castHom (Nat.minFac_dvd n) (ZMod p)
  have hone' : (φ a ^ r) ^ q = 1 := by
    rw [← pow_mul, mul_comm r q, ← map_pow, hone, map_one]
  have hne : φ a ^ r ≠ 1 := by
    intro h
    have himage := congrArg φ hunit
    rw [map_mul, map_sub, map_pow, map_one, h, sub_self, mul_zero] at himage
    exact zero_ne_one himage
  have : Fact q.Prime := ⟨hq⟩
  have horder : orderOf (φ a ^ r) = q := orderOf_eq_prime hone' hne
  have hnonzero : φ a ^ r ≠ 0 := by
    intro h
    rw [h, zero_pow hq.ne_zero] at hone'
    exact zero_ne_one hone'
  have hfermat : (φ a ^ r) ^ (p - 1) = 1 := ZMod.pow_card_sub_one_eq_one hnonzero
  have hdvd : q ∣ p - 1 := horder ▸ orderOf_dvd_of_pow_eq_one hfermat
  have hle : q ≤ p - 1 := Nat.le_of_dvd (Nat.sub_pos_of_lt hp.one_lt) hdvd
  have hsq : p ^ 2 ≤ n := Nat.minFac_sq_le_self (by omega) hcomposite
  have hlarge : n < p ^ 2 := by
    calc n = q * r + 1 := hn
      _ ≤ q * q + 1 := by gcongr
      _ < (q + 1) ^ 2 := by nlinarith [hq.pos]
      _ ≤ p ^ 2 := by gcongr; omega
  omega

theorem prime_1257559732178653 : Nat.Prime 1257559732178653 := by
  apply lucas_primality _ 2
  · norm_num only
    reduce_mod_char
  · intro q hq hdvd
    have hfactors : q ∣ 2 * 2 * 3 * 7 * 23 * 531581 * 1224481 := by
      norm_num only at hdvd ⊢
      exact hdvd
    simp only [hq.dvd_mul, Nat.prime_dvd_prime_iff_eq hq (show Nat.Prime 2 by norm_num),
      Nat.prime_dvd_prime_iff_eq hq (show Nat.Prime 3 by norm_num),
      Nat.prime_dvd_prime_iff_eq hq (show Nat.Prime 7 by norm_num),
      Nat.prime_dvd_prime_iff_eq hq (show Nat.Prime 23 by norm_num),
      Nat.prime_dvd_prime_iff_eq hq (show Nat.Prime 531581 by norm_num),
      Nat.prime_dvd_prime_iff_eq hq (show Nat.Prime 1224481 by norm_num)] at hfactors
    rcases hfactors with ((((((rfl | rfl) | rfl) | rfl) | rfl) | rfl) | rfl) <;>
      (norm_num only; reduce_mod_char; decide)

theorem prime_4434155615661930479 : Nat.Prime 4434155615661930479 := by
  apply prime_of_large_factor (r := 3526) (by norm_num) prime_1257559732178653 (by norm_num)
    (by norm_num) 2 1010501025739283171
  · norm_num only
    reduce_mod_char
  · reduce_mod_char

theorem prime_172054593956031949258510691 : Nat.Prime 172054593956031949258510691 := by
  apply prime_of_large_factor (r := 38802110) (by norm_num) prime_4434155615661930479 (by norm_num)
    (by norm_num) 2 154275350521713489305385904
  · norm_num only
    reduce_mod_char
  · reduce_mod_char

theorem prime_19757330305831588566944191468367130476339 :
    Nat.Prime 19757330305831588566944191468367130476339 := by
  apply prime_of_large_factor (r := 114831751082918) (by norm_num) prime_172054593956031949258510691
    (by norm_num) (by norm_num) 2 16371654433361644093796961727196399386194
  · norm_num only
    reduce_mod_char
  · reduce_mod_char

theorem prime_276602624281642239937218680557139826668747 :
    Nat.Prime 276602624281642239937218680557139826668747 := by
  apply prime_of_large_factor (r := 14) (by norm_num)
    prime_19757330305831588566944191468367130476339 (by norm_num) (by norm_num) 2
    94074944912245044309966580483695483989395
  · norm_num only
    reduce_mod_char
  · reduce_mod_char

theorem groupOrder_eq :
    groupOrder = 7237005577332262213973186563042994240857116359379907606001950938285454250989 := rfl

theorem groupOrder_prime : groupOrder.Prime := by
  rw [groupOrder_eq]
  apply prime_of_large_factor (r := 26163907866482859529727157400808004) (by norm_num)
    prime_276602624281642239937218680557139826668747 (by norm_num) (by norm_num) 2
    2233364593245673852815932892735013076939656528578070433728021143254617821614
  · norm_num only
    reduce_mod_char
  · reduce_mod_char

instance : Fact groupOrder.Prime := ⟨groupOrder_prime⟩

end ShieldedPayments.Curve
