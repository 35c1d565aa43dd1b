import Mathlib.Tactic.Ring
import ShieldedPayments.Payment.Balance
import ShieldedPayments.Proofs.Fault

/-!
# Balance over the natural numbers

Checked sums of 64-bit numbers are sums of natural numbers (`total_eq_some_iff`), so a test of balance
that sums in this way is a test of exact balance (`holdsFeeLast_iff_exact`): a partial sum that does
not fit only occurs if the whole sum does not fit either. For the same reason a number can be added first
or last (`total_eq_bind_checkedAdd`). The test with faults of its own tells a sum that does not fit from
sums that disagree (`check_eq`).
-/

namespace ShieldedPayments.Balance

/-- Exact balance in the natural numbers, with a total of 64 bits. -/
def Exact (inputs outputs : List UInt64) (fee : UInt64) : Prop :=
  (inputs.map UInt64.toNat).sum = (outputs.map UInt64.toNat).sum + fee.toNat
    ∧ (inputs.map UInt64.toNat).sum < UInt64.size

instance (inputs outputs : List UInt64) (fee : UInt64) : Decidable (Exact inputs outputs fee) :=
  inferInstanceAs (Decidable (_ ∧ _))

theorem toNat_add_of_lt {a b : UInt64} (h : a.toNat + b.toNat < UInt64.size) :
    (a + b).toNat = a.toNat + b.toNat := by
  rw [UInt64.toNat_add]
  exact Nat.mod_eq_of_lt h

theorem checkedAdd_eq_some_iff (a b c : UInt64) :
    checkedAdd a b = some c ↔ a.toNat + b.toNat = c.toNat := by
  unfold checkedAdd
  have hc := c.toNat_lt_size
  split
  · next h =>
    rw [Option.some_inj, ← UInt64.toNat_inj, toNat_add_of_lt h]
  · next h =>
    constructor
    · intro hnone
      cases hnone
    · intro hsum
      omega

theorem total_eq_some_iff (start t : UInt64) (values : List UInt64) :
    total start values = some t ↔ start.toNat + (values.map UInt64.toNat).sum = t.toNat := by
  unfold total
  induction values generalizing start with
  | nil =>
    rw [List.foldlM_nil, List.map_nil, List.sum_nil, Nat.add_zero, UInt64.toNat_inj]
    exact Option.some_inj
  | cons v values ih =>
    rw [List.foldlM_cons, List.map_cons, List.sum_cons, ← Nat.add_assoc]
    show (checkedAdd start v).bind (fun s => values.foldlM checkedAdd s) = some t ↔ _
    rw [Option.bind_eq_some_iff]
    simp only [checkedAdd_eq_some_iff, ih]
    constructor
    · rintro ⟨s, hs, hsum⟩
      rw [hs, hsum]
    · intro hsum
      have hfits : start.toNat + v.toNat < UInt64.size := by
        have ht := t.toNat_lt_size
        omega
      refine ⟨start + v, ?_, ?_⟩
      · rw [toNat_add_of_lt hfits]
      · rw [toNat_add_of_lt hfits, hsum]

theorem exists_toNat_eq {n : Nat} (h : n < UInt64.size) : ∃ t : UInt64, t.toNat = n :=
  ⟨UInt64.ofNatLT n h, UInt64.toNat_ofNatLT⟩

theorem total_eq_none_iff (start : UInt64) (values : List UInt64) :
    total start values = none ↔ UInt64.size ≤ start.toNat + (values.map UInt64.toNat).sum := by
  rw [Option.eq_none_iff_forall_ne_some]
  simp only [ne_eq, total_eq_some_iff]
  constructor
  · intro hnone
    by_contra hfits
    obtain ⟨t, ht⟩ := exists_toNat_eq (Nat.lt_of_not_le hfits)
    exact hnone t ht.symm
  · intro hsize t ht
    have htlt := t.toNat_lt_size
    omega

/-- A number can be added first or last. -/
theorem total_eq_bind_checkedAdd (start : UInt64) (values : List UInt64) :
    total start values = (total 0 values).bind (checkedAdd · start) := by
  apply Option.ext
  intro t
  rw [Option.bind_eq_some_iff]
  simp only [total_eq_some_iff, checkedAdd_eq_some_iff, UInt64.toNat_zero, Nat.zero_add]
  constructor
  · intro ht
    have htlt := t.toNat_lt_size
    obtain ⟨s, hs⟩ := exists_toNat_eq (n := (values.map UInt64.toNat).sum) (by omega)
    exact ⟨s, hs.symm, by omega⟩
  · rintro ⟨s, hs, hsum⟩
    omega

/-- **Adding the fee last is exact balance.** -/
theorem holdsFeeLast_iff_exact (inputs outputs : List UInt64) (fee : UInt64) :
    holdsFeeLast inputs outputs fee = true ↔ Exact inputs outputs fee := by
  unfold holdsFeeLast Exact
  simp only [Bool.and_eq_true, beq_iff_eq]
  constructor
  · rintro ⟨hsome, heq⟩
    obtain ⟨t, ht⟩ := Option.isSome_iff_exists.mp hsome
    rw [ht, eq_comm, Option.bind_eq_some_iff] at heq
    obtain ⟨s, hs, hfee⟩ := heq
    rw [total_eq_some_iff] at ht hs
    rw [checkedAdd_eq_some_iff] at hfee
    have hlt := t.toNat_lt_size
    simp only [UInt64.toNat_zero, Nat.zero_add] at ht hs
    omega
  · rintro ⟨heq, hlt⟩
    obtain ⟨t, ht⟩ := exists_toNat_eq hlt
    obtain ⟨s, hs⟩ := exists_toNat_eq (n := (outputs.map UInt64.toNat).sum) (by omega)
    have hin : total 0 inputs = some t := by
      rw [total_eq_some_iff, UInt64.toNat_zero, Nat.zero_add, ht]
    have hout : total 0 outputs = some s := by
      rw [total_eq_some_iff, UInt64.toNat_zero, Nat.zero_add, hs]
    have hfee : checkedAdd s fee = some t := by
      rw [checkedAdd_eq_some_iff]
      omega
    rw [hin, hout, Option.bind_some, hfee]
    exact ⟨rfl, rfl⟩

/-- **Adding the fee first is the same test.** -/
theorem holdsFeeFirst_eq_holdsFeeLast (inputs outputs : List UInt64) (fee : UInt64) :
    holdsFeeFirst inputs outputs fee = holdsFeeLast inputs outputs fee := by
  unfold holdsFeeFirst holdsFeeLast
  rw [total_eq_bind_checkedAdd fee outputs]
  -- two sums that do not fit are equal options, and refused by both
  cases total 0 inputs with
  | none => rfl
  | some totalIn => cases (total 0 outputs).bind (checkedAdd · fee) <;> rfl

/-- The values on one side have no sum of 64 bits. -/
def Overflows (inputs outputs : List UInt64) : Prop :=
  UInt64.size ≤ (inputs.map UInt64.toNat).sum ∨ UInt64.size ≤ (outputs.map UInt64.toNat).sum

instance (inputs outputs : List UInt64) : Decidable (Overflows inputs outputs) :=
  inferInstanceAs (Decidable (_ ∨ _))

theorem overflows_iff_total_eq_none (inputs outputs : List UInt64) :
    Overflows inputs outputs ↔ total 0 inputs = none ∨ total 0 outputs = none := by
  simp only [Overflows, total_eq_none_iff, UInt64.toNat_zero, Nat.zero_add]

theorem check_of_overflows {inputs outputs : List UInt64} (h : Overflows inputs outputs) (fee : UInt64)
    (unbalanced : Fault) :
    check inputs outputs fee unbalanced = .error (.invalidInput "value sum overflows") := by
  rw [overflows_iff_total_eq_none] at h
  unfold check requireTotal
  cases hin : total 0 inputs with
  | none => rfl
  | some totalIn =>
    rw [h.resolve_left (by rw [hin]; nofun)]
    rfl

theorem check_of_not_overflows {inputs outputs : List UInt64} (h : ¬Overflows inputs outputs)
    (fee : UInt64) (unbalanced : Fault) :
    check inputs outputs fee unbalanced = ensure (holdsFeeLast inputs outputs fee) unbalanced := by
  rw [overflows_iff_total_eq_none, not_or] at h
  obtain ⟨totalIn, hin⟩ := Option.ne_none_iff_exists'.mp h.1
  obtain ⟨totalOut, hout⟩ := Option.ne_none_iff_exists'.mp h.2
  unfold check requireTotal holdsFeeLast
  rw [hin, hout]
  show ensure (checkedAdd totalOut fee == some totalIn) unbalanced =
    ensure (some totalIn == checkedAdd totalOut fee) unbalanced
  rw [BEq.comm]

theorem Exact.not_overflows {inputs outputs : List UInt64} {fee : UInt64} (h : Exact inputs outputs fee) :
    ¬Overflows inputs outputs := by
  obtain ⟨hsum, hsize⟩ := h
  unfold Overflows
  omega

/-- What the test with faults of its own returns. -/
theorem check_eq (inputs outputs : List UInt64) (fee : UInt64) (unbalanced : Fault) :
    check inputs outputs fee unbalanced =
      if Exact inputs outputs fee then .ok ()
      else if Overflows inputs outputs then .error (.invalidInput "value sum overflows")
      else .error unbalanced := by
  by_cases h : Overflows inputs outputs
  · rw [check_of_overflows h, if_neg fun hexact => hexact.not_overflows h, if_pos h]
  · rw [check_of_not_overflows h, if_neg h, ensure]
    simp only [holdsFeeLast_iff_exact]

/-- **The test with faults of its own for sums that do not fit is exact balance.** -/
theorem check_eq_ok_iff_exact (inputs outputs : List UInt64) (fee : UInt64) (unbalanced : Fault) :
    check inputs outputs fee unbalanced = .ok () ↔ Exact inputs outputs fee := by
  rw [check_eq]
  by_cases hexact : Exact inputs outputs fee
  · exact iff_of_true (if_pos hexact) hexact
  · rw [if_neg hexact]
    refine iff_of_false ?_ hexact
    split <;> nofun

/-- A sum that does not fit, or that disagrees, is refused for its own cause. -/
theorem defined_check (inputs outputs : List UInt64) (fee : UInt64) {unbalanced : Fault}
    (h : unbalanced ≠ .undefined) : (check inputs outputs fee unbalanced).Defined := by
  refine (Outcome.defined_require (by nofun)).bind fun _ _ => ?_
  exact (Outcome.defined_require (by nofun)).bind fun _ _ => Outcome.defined_ensure h

/-- Inputs and outputs balance for one fee. -/
theorem Exact.fee_iff {inputs outputs : List UInt64} {fee : UInt64} (h : Exact inputs outputs fee)
    (fee' : UInt64) : Exact inputs outputs fee' ↔ fee' = fee := by
  constructor
  · intro h'
    have hsum := h.1.symm.trans h'.1
    exact UInt64.toNat_inj.mp (by omega)
  · rintro rfl
    exact h

section

variable {inputs inputs' outputs outputs' : List UInt64}

theorem sum_eq_of_perm (h : inputs.Perm inputs') :
    (inputs.map UInt64.toNat).sum = (inputs'.map UInt64.toNat).sum :=
  (h.map UInt64.toNat).sum_nat

theorem exact_congr_perm (hin : inputs.Perm inputs') (hout : outputs.Perm outputs') (fee : UInt64) :
    Exact inputs outputs fee ↔ Exact inputs' outputs' fee := by
  unfold Exact
  rw [sum_eq_of_perm hin, sum_eq_of_perm hout]

theorem overflows_congr_perm (hin : inputs.Perm inputs') (hout : outputs.Perm outputs') :
    Overflows inputs outputs ↔ Overflows inputs' outputs' := by
  unfold Overflows
  rw [sum_eq_of_perm hin, sum_eq_of_perm hout]

end

end ShieldedPayments.Balance
