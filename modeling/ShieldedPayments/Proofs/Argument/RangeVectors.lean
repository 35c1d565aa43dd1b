import Mathlib.Algebra.Order.Ring.GeomSum
import Mathlib.Tactic.LinearCombination
import ShieldedPayments.Argument.Range
import ShieldedPayments.Proofs.Argument.Vectors
import ShieldedPayments.Proofs.Bytes

/-!
# The vectors behind a range proof

A range proof is about two vectors of linear polynomials, one position for each bit of each value. The
constant term of their product is the public part and the weighted values, because bits are equal to
their squares (`RangeProof.innerProduct_constant`).

* `RangeProof.innerProduct_bits`: weighted bits add up to the value.
* `RangeProof.innerProduct_bitVector`: the same for all values, whatever they are filled up with.
* `RangeProof.sum_bitWeights`: what the weights of all bits add up to.
-/

namespace ShieldedPayments

theorem ScalarField.ofNat_eq_cast {F : Type} [ScalarField F] [Lawful F] (n : Nat) :
    (ofNat n : F) = (n : F) := rfl

namespace RangeProof

variable {F : Type} [ScalarField F]

/-! ## Lengths -/

@[simp] theorem length_bits (v : UInt64) : (bits v : List F).length = valueBits := by
  rw [bits, List.length_map, List.length_range]

@[simp] theorem length_zWeights (z : F) (padded : Nat) : (zWeights z padded).length = padded := by
  rw [zWeights, List.length_map, length_powers]

@[simp] theorem length_bitWeights (z : F) (padded : Nat) :
    (bitWeights z padded).length = padded * valueBits := by
  rw [bitWeights, length_flatMap_of_forall fun _ => by rw [List.length_map, length_powers],
    length_zWeights]

theorem length_bitVector {values : List UInt64} {padded : Nat} (h : values.length ≤ padded) :
    (bitVector values padded : List F).length = padded * valueBits := by
  rw [bitVector, List.length_append, length_flatMap_of_forall length_bits, List.length_replicate,
    mul_comm valueBits, ← Nat.add_mul, Nat.add_sub_cancel' h]

variable [ScalarField.Lawful F]

/-! ## Bits -/

theorem mul_self_of_mem_bitVector {values : List UInt64} {padded : Nat} {b : F}
    (h : b ∈ bitVector values padded) : b * b = b := by
  rcases List.mem_append.mp h with h | h
  · obtain ⟨v, _, hb⟩ := List.mem_flatMap.mp h
    obtain ⟨i, _, rfl⟩ := List.mem_map.mp hb
    split
    · rw [mul_one]
    · rw [mul_zero]
  · rw [List.eq_of_mem_replicate h, mul_zero]

/-- The lowest `n` bits of a number add up to its remainder. -/
theorem sum_testBit (m n : Nat) :
    ∑ i ∈ Finset.range n, (if m.testBit i then 1 else 0) * (2 : F) ^ i =
      ((m % 2 ^ n : Nat) : F) := by
  induction n with
  | zero => simp [Nat.mod_one]
  | succ n ih =>
    rw [Finset.sum_range_succ, ih, Nat.mod_pow_succ, Nat.testBit_eq_decide_div_mod_eq]
    rcases Nat.mod_two_eq_zero_or_one (m / 2 ^ n) with hbit | hbit
    · simp [hbit]
    · simp [hbit]

/-- The bits of a value, weighted with the multiples of the powers of two, add up to its multiple. -/
theorem innerProduct_bits (v : UInt64) (c : F) :
    innerProduct (bits v) ((powers (ofNat 2 : F) valueBits).map (c * ·)) = c * ofNat v.toNat := by
  have htwo : (ofNat 2 : F) = 2 := Nat.cast_ofNat
  have hterm : ∀ i, (if v.toNat.testBit i then 1 else 0) * (c * (2 : F) ^ i) =
      c * ((if v.toNat.testBit i then 1 else 0) * 2 ^ i) := by
    intro i
    ring
  rw [bits, powers_eq_map, List.map_map, Function.comp_def, innerProduct_map_range, htwo]
  simp only [hterm]
  rw [← Finset.mul_sum, sum_testBit]
  exact congrArg _ (congrArg _ (Nat.mod_eq_of_lt v.toNat_lt))

/-- Weighted bits add up to weighted values. The zeros that the values are filled up with add
nothing. -/
theorem innerProduct_bitVector (values : List UInt64) (weights : List F)
    (h : values.length ≤ weights.length) :
    innerProduct (bitVector values weights.length)
        (weights.flatMap fun zw => (powers (ofNat 2 : F) valueBits).map (zw * ·)) =
      innerProduct weights (values.map fun v => ofNat v.toNat) := by
  induction weights generalizing values with
  | nil =>
    have hnil : values = [] := List.eq_nil_of_length_eq_zero (Nat.le_zero.mp h)
    rw [hnil]
    rfl
  | cons zw weights ih =>
    cases values with
    | nil =>
      rw [bitVector, List.flatMap_nil, List.nil_append, innerProduct_replicate_zero, List.map_nil,
        innerProduct_nil_right]
    | cons v values =>
      have hlen : values.length ≤ weights.length := by simpa using h
      have hbits : bitVector (F := F) (v :: values) (zw :: weights).length =
          bits v ++ bitVector values weights.length := by
        rw [bitVector, bitVector, List.flatMap_cons, List.append_assoc, List.length_cons,
          List.length_cons, Nat.add_sub_add_right]
      rw [hbits, List.flatMap_cons, innerProduct_append (by simp), innerProduct_bits, ih values hlen,
        List.map_cons, innerProduct_cons]

/-! ## Weights -/

theorem sum_powers_two (n : Nat) : (powers (ofNat 2 : F) n).sum = ofNat (2 ^ n - 1) := by
  have hsum : ∑ i ∈ Finset.range n, 2 ^ i = 2 ^ n - 1 := by
    rw [Nat.geomSum_eq le_rfl, Nat.div_one]
  rw [powers_eq_map, sum_map_range, ← hsum]
  simp only [ScalarField.ofNat_eq_cast, Nat.cast_sum, Nat.cast_pow]

/-- The weights of all bits add up to the weights of the values, times the largest value. -/
theorem sum_bitWeights (z : F) (padded : Nat) :
    (bitWeights z padded).sum = (zWeights z padded).sum * ofNat (1 <<< valueBits - 1) := by
  rw [bitWeights, Nat.one_shiftLeft, ← sum_powers_two]
  induction zWeights z padded with
  | nil => simp
  | cons zw weights ih =>
    rw [List.flatMap_cons, List.sum_append, ih, List.sum_cons, List.sum_map_mul_left, List.map_id']
    ring

/-! ## Linear polynomials -/

/-- The constant part of the left vector: the bits, less `z`. -/
def leftConstant (aL : List F) (z : F) : List F :=
  aL.map (· - z)

/-- The constant part of the right vector: the bits less one, plus `z`, scaled with the powers of `y`,
plus the weights of the bits. -/
def rightConstant (aL : List F) (padded : Nat) (y z : F) : List F :=
  List.zipWith (· + ·)
    (List.zipWith (fun yp v => yp * (v + z)) (powers y (padded * valueBits)) (aL.map (· - 1)))
    (bitWeights z padded)

/-- The linear part of the right vector: its masks, scaled with the powers of `y`. -/
def rightLinear (sR : List F) (padded : Nat) (y : F) : List F :=
  List.zipWith (· * ·) (powers y (padded * valueBits)) sR

/-- The values of linear polynomials. -/
def evalLinear (constant linear : List F) (x : F) : List F :=
  List.zipWith (fun u v => u + v * x) constant linear

omit [ScalarField.Lawful F] in
theorem length_rightConstant {aL : List F} {padded : Nat} (h : aL.length = padded * valueBits)
    (y z : F) : (rightConstant aL padded y z).length = padded * valueBits := by
  simp [rightConstant, h]

omit [ScalarField.Lawful F] in
theorem length_rightLinear {sR : List F} {padded : Nat} (h : sR.length = padded * valueBits)
    (y : F) : (rightLinear sR padded y).length = padded * valueBits := by
  simp [rightLinear, h]

omit [ScalarField.Lawful F] in
theorem length_evalLinear {a b : List F} {n : Nat} (ha : a.length = n) (hb : b.length = n) (x : F) :
    (evalLinear a b x).length = n := by
  rw [evalLinear, List.length_zipWith, ha, hb, min_self]

theorem innerProduct_evalLinear {n : Nat} {a b a' b' : List F} (ha : a.length = n)
    (hb : b.length = n) (ha' : a'.length = n) (hb' : b'.length = n) (x : F) :
    innerProduct (evalLinear a b x) (evalLinear a' b' x) =
      innerProduct a a' + x * (innerProduct a b' + innerProduct b a')
        + x * x * innerProduct b b' := by
  obtain ⟨a, rfl⟩ := exists_ofFn ha
  obtain ⟨b, rfl⟩ := exists_ofFn hb
  obtain ⟨a', rfl⟩ := exists_ofFn ha'
  obtain ⟨b', rfl⟩ := exists_ofFn hb'
  simp only [evalLinear, zipWith_ofFn, innerProduct_ofFn, Finset.mul_sum, ← Finset.sum_add_distrib]
  refine Finset.sum_congr rfl fun i _ => ?_
  ring

/-- The constant term is the public part and the weighted values. A bit `a` has `a * a = a`, so that
`(a - z) * (a - 1 + z)` does not depend on it. -/
theorem innerProduct_constant {values : List UInt64} {padded : Nat} (h : values.length ≤ padded)
    (y z : F) :
    innerProduct (leftConstant (bitVector values padded) z)
        (rightConstant (bitVector values padded) padded y z) =
      delta y z padded + innerProduct (zWeights z padded) (values.map fun v => ofNat v.toNat) := by
  have hvalues := innerProduct_bitVector values (zWeights z padded) (by rwa [length_zWeights])
  have hweights := sum_bitWeights z padded
  have hbit : ∀ b ∈ (bitVector values padded : List F), b * b = b :=
    fun _ => mul_self_of_mem_bitVector
  rw [length_zWeights, ← bitWeights] at hvalues
  obtain ⟨a, ha⟩ := exists_ofFn (length_bitVector (F := F) h)
  obtain ⟨w, hw⟩ := exists_ofFn (length_bitWeights z padded)
  rw [ha] at hvalues hbit ⊢
  rw [hw] at hvalues hweights
  have hterm : ∀ i, (a i - z) * (y ^ i.val * (a i - 1 + z) + w i) =
      (z - z * z) * y ^ i.val + a i * w i - z * w i := by
    intro i
    have hai : a i * a i = a i := hbit (a i) (List.mem_ofFn.mpr ⟨i, rfl⟩)
    linear_combination y ^ i.val * hai
  unfold leftConstant rightConstant delta
  rw [← hvalues, hw, powers_eq_ofFn]
  simp only [List.map_ofFn, zipWith_ofFn, innerProduct_ofFn, Function.comp_def, hterm,
    List.sum_ofFn] at hweights ⊢
  rw [Finset.sum_sub_distrib, Finset.sum_add_distrib, ← Finset.mul_sum, ← Finset.mul_sum, hweights,
    List.sum_map_mul_right, List.map_id']
  ring

end RangeProof

end ShieldedPayments
