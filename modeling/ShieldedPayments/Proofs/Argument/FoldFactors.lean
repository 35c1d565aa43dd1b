import Mathlib.Data.List.Basic
import ShieldedPayments.Proofs.Group.Laws
import ShieldedPayments.Argument.InnerProduct

/-!
# The factors of folded bases

The factors are made one by one, each from the one at the position without its highest bit. This
amounts to doubling the list once for each round, the last round first (`foldFactors_eq`), and so the
first round enters the lower half of the factors with the inverse of its challenge and the upper half
with the challenge itself (`foldFactors_cons`).
-/

namespace ShieldedPayments.InnerProductProof

variable {F : Type} [ScalarField F]

/-! ## Doubling -/

/-- A list that starts as `[c]` and is doubled once for each challenge, from the last to the first. -/
def doubled (xs : List F) (c : F) : List F :=
  xs.foldr (fun x s => s ++ s.map (· * (x * x))) [c]

theorem doubled_cons (x : F) (xs : List F) (c : F) :
    doubled (x :: xs) c = doubled xs c ++ (doubled xs c).map (· * (x * x)) := rfl

theorem length_doubled (xs : List F) (c : F) : (doubled xs c).length = 2 ^ xs.length := by
  induction xs with
  | nil => rfl
  | cons x xs ih =>
    rw [doubled_cons, List.length_append, List.length_map, ih, List.length_cons, pow_succ, mul_two]

theorem bitSquare_cons_of_lt (x : F) (xs : List F) {bit : Nat} (h : bit < xs.length) :
    bitSquare (x :: xs) bit = bitSquare xs bit := by
  have hindex : (x :: xs).length - 1 - bit = xs.length - 1 - bit + 1 := by
    rw [List.length_cons]
    omega
  rw [bitSquare, bitSquare, hindex, List.getD_cons_succ]

theorem bitSquare_cons_length (x : F) (xs : List F) : bitSquare (x :: xs) xs.length = x * x := by
  have hindex : (x :: xs).length - 1 - xs.length = 0 := by
    rw [List.length_cons]
    omega
  rw [bitSquare, hindex, List.getD_cons_zero]

/-- The positions of the lower half do not see the challenge of the first round. -/
theorem foldl_pushFactor_lower (x : F) (xs : List F) (s : Array F) :
    (List.range' 1 (2 ^ xs.length - 1)).foldl (pushFactor (x :: xs)) s =
      (List.range' 1 (2 ^ xs.length - 1)).foldl (pushFactor xs) s := by
  apply List.foldl_ext
  intro t i hi
  rw [List.mem_range'_1] at hi
  have hbit : i.log2 < xs.length := by
    rw [Nat.log2_lt (by omega)]
    omega
  rw [pushFactor, pushFactor, bitSquare_cons_of_lt x xs hbit]

/-- The positions of the upper half repeat the lower one with the square of that challenge. -/
theorem foldl_pushFactor_upper (x : F) (xs : List F) (s : Array F) (hs : s.size = 2 ^ xs.length)
    (k : Nat) (hk : k ≤ 2 ^ xs.length) :
    ((List.range' (2 ^ xs.length) k).foldl (pushFactor (x :: xs)) s).toList =
      s.toList ++ (s.toList.take k).map (· * (x * x)) := by
  induction k with
  | zero => simp
  | succ k ih =>
    have hlt : k < s.toList.length := by
      rw [Array.length_toList]
      omega
    have hbit : (2 ^ xs.length + k).log2 = xs.length := by
      rw [Nat.log2_eq_iff (by omega), pow_succ]
      omega
    have hindex : 2 ^ xs.length + k - 1 <<< xs.length = k := by
      rw [Nat.one_shiftLeft]
      omega
    rw [List.range'_1_concat, List.foldl_append, List.foldl_cons, List.foldl_nil, pushFactor, hbit,
      hindex, bitSquare_cons_length, Array.toList_push, Array.getD_eq_getD_getElem?,
      ← Array.getElem?_toList, ih (by omega), List.getElem?_append_left hlt,
      List.getElem?_eq_getElem hlt, Option.getD_some, List.take_add_one,
      List.getElem?_eq_getElem hlt, List.map_append, List.append_assoc]
    rfl

theorem foldl_pushFactor (xs : List F) (c : F) :
    ((List.range' 1 (2 ^ xs.length - 1)).foldl (pushFactor xs) #[c]).toList = doubled xs c := by
  induction xs with
  | nil => rfl
  | cons x xs ih =>
    have hpos : 0 < 2 ^ xs.length := Nat.two_pow_pos xs.length
    have hcount : 2 ^ (x :: xs).length - 1 = 2 ^ xs.length - 1 + 2 ^ xs.length := by
      rw [List.length_cons, pow_succ]
      omega
    have hstart : 1 + (2 ^ xs.length - 1) = 2 ^ xs.length := by omega
    have hsize : ((List.range' 1 (2 ^ xs.length - 1)).foldl (pushFactor xs) #[c]).size =
        2 ^ xs.length := by
      rw [← Array.length_toList, ih, length_doubled]
    rw [hcount, ← List.range'_append_1, hstart, List.foldl_append, foldl_pushFactor_lower,
      foldl_pushFactor_upper x xs _ hsize _ le_rfl, ih, doubled_cons,
      List.take_of_length_le (length_doubled xs c).le]

theorem foldFactors_eq (xs : List F) :
    foldFactors xs = doubled xs (xs.foldl (fun acc x => acc * x⁻¹) 1) := by
  rw [← foldl_pushFactor, foldFactors, Nat.one_shiftLeft]

@[simp] theorem foldFactors_nil : foldFactors ([] : List F) = [1] := rfl

@[simp] theorem length_foldFactors (xs : List F) : (foldFactors xs).length = 2 ^ xs.length := by
  rw [foldFactors_eq, length_doubled]

/-! ## The first round -/

variable [ScalarField.Lawful F]

theorem inv_mul_mul_self (x : F) : x⁻¹ * (x * x) = x := by
  rcases eq_or_ne x 0 with rfl | h
  · rw [mul_zero, mul_zero]
  · rw [← mul_assoc, inv_mul_cancel₀ h, one_mul]

theorem foldl_mul_inv (xs : List F) (c : F) :
    xs.foldl (fun acc x => acc * x⁻¹) c = c * xs.foldl (fun acc x => acc * x⁻¹) 1 := by
  induction xs generalizing c with
  | nil => rw [List.foldl_nil, List.foldl_nil, mul_one]
  | cons x xs ih =>
    rw [List.foldl_cons, List.foldl_cons, ih (c * x⁻¹), ih (1 * x⁻¹), one_mul, mul_assoc]

theorem doubled_mul (xs : List F) (c d : F) : doubled xs (c * d) = (doubled xs d).map (c * ·) := by
  induction xs with
  | nil => rfl
  | cons x xs ih =>
    rw [doubled_cons, doubled_cons, ih, List.map_append, List.map_map, List.map_map]
    simp only [Function.comp_def, mul_assoc]

/-- The first round enters the factors of its lower half with the inverse of its challenge, and those
of its upper half with the challenge itself, also if the challenge is zero. -/
theorem foldFactors_cons (x : F) (xs : List F) :
    foldFactors (x :: xs) = (foldFactors xs).map (x⁻¹ * ·) ++ (foldFactors xs).map (x * ·) := by
  rw [foldFactors_eq, foldFactors_eq, doubled_cons, List.foldl_cons, one_mul, foldl_mul_inv,
    doubled_mul, List.map_map]
  congr 1
  apply List.map_congr_left
  intro s _
  show x⁻¹ * s * (x * x) = x * s
  rw [mul_right_comm, inv_mul_mul_self]

end ShieldedPayments.InnerProductProof
