import Mathlib.Algebra.Group.Nat.Defs
import ShieldedPayments.Wire

/-!
# Numbers in bytes

Reading back what was written in a fixed width gives the number modulo `256 ^ width`, and a byte
string is the encoding of the number it denotes, so encodings of one width are in bijection with the
numbers below `256 ^ width`. Leading zero bytes do not change a number that is read most significant
byte first, which is what makes trimmed numbers readable (`numberOfTrimmed_trimmedNumber`).
-/

namespace ShieldedPayments

theorem length_flatMap_of_forall {α β : Type} {f : α → List β} {n : Nat}
    (h : ∀ a, (f a).length = n) (as : List α) : (as.flatMap f).length = as.length * n := by
  induction as with
  | nil => simp
  | cons a as ih =>
    rw [List.flatMap_cons, List.length_append, h, ih, List.length_cons, Nat.succ_mul, Nat.add_comm]

theorem toNat_toUInt8 {n : Nat} (h : n ≤ 255) : n.toUInt8.toNat = n := by
  rw [Nat.toUInt8_eq, UInt8.toNat_ofNat']
  omega

namespace Bytes

@[simp] theorem length_ofNatLE (width n : Nat) : (ofNatLE width n).length = width := by
  induction width generalizing n with
  | zero => rfl
  | succ width ih => simp [ofNatLE, ih]

@[simp] theorem length_ofNatBE (width n : Nat) : (ofNatBE width n).length = width := by
  simp [ofNatBE]

@[simp] theorem toNatLE_nil : toNatLE [] = 0 := rfl

@[simp] theorem toNatLE_cons (x : UInt8) (b : Bytes) : toNatLE (x :: b) = x.toNat + 256 * toNatLE b :=
  rfl

theorem toNatBE_reverse (b : Bytes) : toNatBE b.reverse = toNatLE b := by
  simp [toNatBE, toNatLE, Nat.add_comm]

/-- Adding a byte string of the same length twice changes nothing. -/
theorem xor_xor_cancel (a b : Bytes) (h : a.length = b.length) : Bytes.xor (Bytes.xor a b) b = a := by
  induction a generalizing b with
  | nil => cases b <;> simp_all [Bytes.xor]
  | cons x a ih =>
    cases b with
    | nil => simp at h
    | cons y b =>
      have := ih b (by simpa using h)
      simp only [Bytes.xor, List.zipWith_cons_cons] at this ⊢
      rw [this, UInt8.xor_assoc, UInt8.xor_self, UInt8.xor_zero]

theorem toNatLE_ofNatLE (width n : Nat) : toNatLE (ofNatLE width n) = n % 256 ^ width := by
  induction width generalizing n with
  | zero => simp [ofNatLE, Nat.mod_one]
  | succ width ih =>
    simp only [ofNatLE, toNatLE_cons, ih]
    rw [Nat.pow_succ', Nat.mod_mul]
    simp

theorem toNatBE_ofNatBE (width n : Nat) : toNatBE (ofNatBE width n) = n % 256 ^ width := by
  rw [ofNatBE, toNatBE_reverse, toNatLE_ofNatLE]

theorem toNatLE_lt (b : Bytes) : b.toNatLE < 256 ^ b.length := by
  induction b with
  | nil => decide
  | cons x b ih =>
    have hx : x.toNat < 256 := x.toNat_lt
    rw [toNatLE_cons, List.length_cons, Nat.pow_succ]
    omega

theorem toNatBE_lt (b : Bytes) : b.toNatBE < 256 ^ b.length := by
  have h := toNatLE_lt b.reverse
  rwa [← toNatBE_reverse, List.reverse_reverse, List.length_reverse] at h

theorem ofNatLE_zero (width : Nat) : ofNatLE width 0 = List.replicate width 0 := by
  induction width with
  | zero => rfl
  | succ width ih =>
    rw [ofNatLE, Nat.zero_div, ih, List.replicate_succ]
    rfl

theorem ofNatLE_add (k m n : Nat) : ofNatLE (k + m) n = ofNatLE k n ++ ofNatLE m (n / 256 ^ k) := by
  induction k generalizing n with
  | zero => simp [ofNatLE]
  | succ k ih =>
    rw [Nat.succ_add, ofNatLE, ofNatLE, ih, Nat.div_div_eq_div_mul, ← Nat.pow_succ', List.cons_append]

theorem ofNatLE_toNatLE (b : Bytes) : ofNatLE b.length b.toNatLE = b := by
  induction b with
  | nil => rfl
  | cons x b ih =>
    have hx : x.toNat < 256 := x.toNat_lt
    rw [List.length_cons, toNatLE_cons, ofNatLE, show (x.toNat + 256 * toNatLE b) / 256 = toNatLE b by
      omega, ih]
    congr 1
    apply UInt8.toNat_inj.mp
    rw [Nat.toUInt8_eq, UInt8.toNat_ofNat']
    omega

/-- The low bytes of a number are the number modulo a power of 256. -/
theorem toNatLE_take (k : Nat) (b : Bytes) : toNatLE (b.take k) = toNatLE b % 256 ^ k := by
  induction k generalizing b with
  | zero => simp [Nat.mod_one]
  | succ k ih =>
    cases b with
    | nil => simp
    | cons x b =>
      have hx : x.toNat < 256 := x.toNat_lt
      rw [List.take_succ_cons, toNatLE_cons, toNatLE_cons, ih, Nat.pow_succ', Nat.mod_mul,
        Nat.add_mul_mod_self_left, Nat.mod_eq_of_lt hx, show (x.toNat + 256 * toNatLE b) / 256 =
          toNatLE b by omega]

theorem toNatBE_cons_zero (b : Bytes) : toNatBE (0 :: b) = toNatBE b := rfl

theorem toNatBE_dropWhile_zero (b : Bytes) : toNatBE (b.dropWhile (· == 0)) = toNatBE b := by
  induction b with
  | nil => rfl
  | cons x b ih =>
    rw [List.dropWhile_cons]
    split
    · next h =>
      rw [beq_iff_eq.mp h, toNatBE_cons_zero, ih]
    · rfl

end Bytes

theorem length_trimmedNumber_le (v : UInt64) : (trimmedNumber v).length ≤ 8 := by
  have h := (List.dropWhile_sublist (fun x : UInt8 => x == 0)
    (l := Bytes.ofNatBE 8 v.toNat)).length_le
  rwa [Bytes.length_ofNatBE] at h

/-- A number below `256 ^ k` is trimmed to at most `k` bytes. -/
theorem length_trimmedNumber_le_of_lt {v : UInt64} {k : Nat} (hk : k ≤ 8) (h : v.toNat < 256 ^ k) :
    (trimmedNumber v).length ≤ k := by
  have hsplit : Bytes.ofNatBE 8 v.toNat = List.replicate (8 - k) 0 ++ Bytes.ofNatBE k v.toNat := by
    rw [Bytes.ofNatBE, ← Nat.add_sub_cancel' hk, Bytes.ofNatLE_add, Nat.div_eq_of_lt h,
      Bytes.ofNatLE_zero, List.reverse_append, List.reverse_replicate, Nat.add_sub_cancel' hk,
      Bytes.ofNatBE]
  rw [trimmedNumber, hsplit, List.dropWhile_append_of_pos]
  · have hle := (List.dropWhile_sublist (fun x : UInt8 => x == 0)
      (l := Bytes.ofNatBE k v.toNat)).length_le
    rwa [Bytes.length_ofNatBE] at hle
  · intro x hx
    rw [List.eq_of_mem_replicate hx]
    rfl

theorem toNatBE_trimmedNumber (v : UInt64) : (trimmedNumber v).toNatBE = v.toNat := by
  have hv : v.toNat < 256 ^ 8 := v.toNat_lt
  rw [trimmedNumber, Bytes.toNatBE_dropWhile_zero, Bytes.toNatBE_ofNatBE, Nat.mod_eq_of_lt hv]

/-- Bytes are a number, most significant first, and no zero byte leads them. -/
def Bytes.Shortest (b : Bytes) (n : Nat) : Prop :=
  b.toNatBE = n ∧ b.head? ≠ some 0

theorem shortest_trimmedNumber (v : UInt64) : (trimmedNumber v).Shortest v.toNat := by
  refine ⟨toNatBE_trimmedNumber v, fun hzero => ?_⟩
  have hhead := List.head?_dropWhile_not (· == 0) (Bytes.ofNatBE 8 v.toNat)
  rw [trimmedNumber] at hzero
  rw [hzero] at hhead
  cases hhead

theorem numberOfTrimmed_trimmedNumber (v : UInt64) : numberOfTrimmed (trimmedNumber v) = .ok v := by
  rw [numberOfTrimmed, if_pos (length_trimmedNumber_le v), toNatBE_trimmedNumber]
  congr 1
  exact UInt64.ofNat_toNat

/-- A number is trimmed to no more bytes than it was read from. -/
theorem length_trimmedNumber_of_numberOfTrimmed {b : Bytes} {v : UInt64}
    (h : numberOfTrimmed b = .ok v) : (trimmedNumber v).length ≤ b.length := by
  unfold numberOfTrimmed at h
  split at h
  · next hlength =>
    obtain rfl := Except.ok.inj h
    have hlt := Bytes.toNatBE_lt b
    have hword : 256 ^ b.length ≤ 256 ^ 8 := Nat.pow_le_pow_right (by decide) hlength
    have hmod : b.toNatBE % 2 ^ 64 = b.toNatBE := Nat.mod_eq_of_lt (by omega)
    apply length_trimmedNumber_le_of_lt hlength
    rw [Nat.toUInt64_eq, UInt64.toNat_ofNat', hmod]
    exact hlt
  · cases h

end ShieldedPayments
