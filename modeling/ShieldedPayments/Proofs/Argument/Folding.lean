import Mathlib.Tactic.Module
import Mathlib.Tactic.Ring
import ShieldedPayments.Proofs.Argument.InnerProduct
import ShieldedPayments.Proofs.Argument.Vectors
import ShieldedPayments.Proofs.Fault

/-!
# Honest inner-product arguments

An argument that was made for a statement is accepted for it, unless one of its challenges is zero.
Folding the vectors and the bases with a challenge and its inverse turns the statement about them into
the statement about the halves, plus the two points of the round (`statement_fold`); what is left
after the last round is the statement itself.

* `InnerProductProof.checkRounds_proveRounds`: the folding check accepts honest rounds.
* `InnerProductProof.exists_prove`, `InnerProductProof.verify_of_prove`: arguments can be made for all
  vectors whose length is a power of two, and are accepted.
-/

namespace ShieldedPayments.InnerProductProof

open PointGroup

variable {F G : Type} [ScalarField F] [PointGroup F G]

/-! ## Folding -/

omit [PointGroup F G] in
theorem length_foldScalars_halves (x y : F) (as : List F) (n : Nat) (h : as.length = 2 * n) :
    (foldScalars x y (as.take n) (as.drop n)).length = n := by
  rw [foldScalars, List.length_zipWith, List.length_take, List.length_drop]
  omega

theorem length_proveRounds (u : G) (depth : Nat) (t : Transcript) (g h : List G) (a b : List F) :
    (proveRounds u depth t g h a b).1.length = depth := by
  induction depth generalizing t g h a b with
  | zero => rfl
  | succ depth ih => simp only [proveRounds, List.length_cons, ih]

variable [ScalarField.Lawful F]

omit [PointGroup F G] in
theorem innerProduct_foldScalars_left (x y : F) (lo hi b : List F) (h : lo.length = hi.length) :
    innerProduct (foldScalars x y lo hi) b = x * innerProduct lo b + y * innerProduct hi b := by
  unfold foldScalars
  induction lo generalizing hi b with
  | nil =>
    have hnil : hi = [] := List.eq_nil_of_length_eq_zero h.symm
    subst hnil
    simp
  | cons p lo ih =>
    cases hi with
    | nil => simp at h
    | cons q hi =>
      cases b with
      | nil => simp
      | cons c b =>
        have hlen : lo.length = hi.length := by simpa using h
        rw [List.zipWith_cons_cons, innerProduct_cons, ih hi b hlen, innerProduct_cons,
          innerProduct_cons]
        ring

omit [PointGroup F G] in
theorem innerProduct_foldScalars (x y : F) (aLo aHi bLo bHi : List F)
    (ha : aLo.length = aHi.length) (hb : bLo.length = bHi.length) :
    innerProduct (foldScalars x y aLo aHi) (foldScalars y x bLo bHi) =
      x * y * (innerProduct aLo bLo + innerProduct aHi bHi)
        + x * x * innerProduct aLo bHi + y * y * innerProduct aHi bLo := by
  have hright : ∀ a : List F, innerProduct a (foldScalars y x bLo bHi) =
      y * innerProduct a bLo + x * innerProduct a bHi := by
    intro a
    rw [innerProduct_comm, innerProduct_foldScalars_left y x bLo bHi a hb, innerProduct_comm bLo,
      innerProduct_comm bHi]
  rw [innerProduct_foldScalars_left x y aLo aHi _ ha, hright, hright]
  ring

variable [PointGroup.Lawful F G]

theorem combination_foldScalars (x y : F) (lo hi : List F) (ps : List G)
    (h : lo.length = hi.length) :
    combination ((foldScalars x y lo hi).zip ps) =
      x • combination (lo.zip ps) + y • combination (hi.zip ps) := by
  unfold foldScalars
  induction lo generalizing hi ps with
  | nil =>
    have hnil : hi = [] := List.eq_nil_of_length_eq_zero h.symm
    subst hnil
    simp
  | cons a lo ih =>
    cases hi with
    | nil => simp at h
    | cons b hi =>
      cases ps with
      | nil => simp
      | cons p ps =>
        have hlen : lo.length = hi.length := by simpa using h
        rw [List.zipWith_cons_cons, List.zip_cons_cons, combination_cons, ih hi ps hlen,
          List.zip_cons_cons, List.zip_cons_cons, combination_cons, combination_cons]
        module

theorem combination_fold (x y : F) (aLo aHi : List F) (gLo gHi : List G)
    (ha : aLo.length = aHi.length) (hg : gLo.length = gHi.length) :
    combination ((foldScalars x y aLo aHi).zip (foldPoints y x gLo gHi)) =
      (x * y) • (combination (aLo.zip gLo) + combination (aHi.zip gHi))
        + (x * x) • combination (aLo.zip gHi) + (y * y) • combination (aHi.zip gLo) := by
  rw [combination_foldScalars x y aLo aHi _ ha, combination_zip_fold y x aLo gLo gHi hg,
    combination_zip_fold y x aHi gLo gHi hg]
  module

omit [ScalarField.Lawful F] in
theorem statement_eq (g h : List G) (u : G) (a b : List F) :
    statement g h u a b =
      combination (a.zip g) + combination (b.zip h) + innerProduct a b • u := by
  unfold statement
  rw [combination_append, combination_append, combination_cons, combination_nil, add_zero]

/-- The statement about folded vectors and bases is the one about the whole vectors, with the points
of the round on either side. -/
theorem statement_fold (u : G) {x : F} (hx : x ≠ 0) (n : Nat) (g h : List G) (a b : List F)
    (hg : g.length = 2 * n) (hh : h.length = 2 * n) (ha : a.length = 2 * n)
    (hb : b.length = 2 * n) :
    let round := roundPoints u (a.take n) (a.drop n) (b.take n) (b.drop n) (g.take n) (g.drop n)
      (h.take n) (h.drop n)
    statement (foldPoints x⁻¹ x (g.take n) (g.drop n)) (foldPoints x x⁻¹ (h.take n) (h.drop n)) u
        (foldScalars x x⁻¹ (a.take n) (a.drop n)) (foldScalars x⁻¹ x (b.take n) (b.drop n)) =
      (x * x) • round.1 + statement g h u a b + (x⁻¹ * x⁻¹) • round.2 := by
  intro round
  have hxy : x * x⁻¹ = 1 := mul_inv_cancel₀ hx
  have hyx : x⁻¹ * x = 1 := inv_mul_cancel₀ hx
  have hhalvesF : ∀ {as : List F}, as.length = 2 * n → (as.take n).length = (as.drop n).length := by
    intro as has
    rw [List.length_take, List.length_drop]
    omega
  have hhalvesG : ∀ {ps : List G}, ps.length = 2 * n → (ps.take n).length = (ps.drop n).length := by
    intro ps hps
    rw [List.length_take, List.length_drop]
    omega
  have hwhole : statement g h u a b =
      combination ((a.take n).zip (g.take n)) + combination ((a.drop n).zip (g.drop n))
        + (combination ((b.take n).zip (h.take n)) + combination ((b.drop n).zip (h.drop n)))
        + (innerProduct (a.take n) (b.take n) + innerProduct (a.drop n) (b.drop n)) • u := by
    rw [statement_eq, combination_zip_take_drop n (ha.trans hg.symm),
      combination_zip_take_drop n (hb.trans hh.symm), innerProduct_take_drop n (ha.trans hb.symm)]
  rw [statement_eq, combination_fold x x⁻¹ _ _ _ _ (hhalvesF ha) (hhalvesG hg),
    combination_fold x⁻¹ x _ _ _ _ (hhalvesF hb) (hhalvesG hh),
    innerProduct_foldScalars x x⁻¹ _ _ _ _ (hhalvesF ha) (hhalvesF hb), hxy, hyx, hwhole]
  simp only [round, roundPoints, combination_append, combination_cons, combination_nil]
  module

/-! ## Honest rounds -/

/-- The folding check accepts honest rounds. Each round keeps the statement true, so that after the
last one the scalars that are left satisfy it. -/
theorem checkRounds_proveRounds (u : G) (depth : Nat) (t : Transcript) (g h : List G)
    (a b : List F) (hg : g.length = 2 ^ depth) (hh : h.length = 2 ^ depth)
    (ha : a.length = 2 ^ depth) (hb : b.length = 2 ^ depth)
    (hx : ∀ x ∈ challenges (proveRounds u depth t g h a b).1 t, x ≠ (0 : F)) :
    checkRounds u (proveRounds u depth t g h a b).2.1 (proveRounds u depth t g h a b).2.2
      (proveRounds u depth t g h a b).1 t g h (statement g h u a b) = true := by
  induction depth generalizing t g h a b with
  | zero =>
    obtain ⟨g₀, rfl⟩ := List.length_eq_one_iff.mp hg
    obtain ⟨h₀, rfl⟩ := List.length_eq_one_iff.mp hh
    obtain ⟨a₀, rfl⟩ := List.length_eq_one_iff.mp ha
    obtain ⟨b₀, rfl⟩ := List.length_eq_one_iff.mp hb
    simp [proveRounds, checkRounds, statement_eq, add_assoc]
  | succ depth ih =>
    have hdouble : 2 ^ (depth + 1) = 2 * 2 ^ depth := pow_succ' 2 depth
    rw [hdouble] at hg hh ha hb
    have hhalf : g.length / 2 = 2 ^ depth := by omega
    revert hx
    simp only [proveRounds, Nat.one_shiftLeft]
    generalize hround : roundPoints u (a.take (2 ^ depth)) (a.drop (2 ^ depth))
      (b.take (2 ^ depth)) (b.drop (2 ^ depth)) (g.take (2 ^ depth)) (g.drop (2 ^ depth))
      (h.take (2 ^ depth)) (h.drop (2 ^ depth)) = round
    generalize hchallenge : (roundChallenge t round : F × Transcript) = challenge
    obtain ⟨x, t'⟩ := challenge
    simp only [checkRounds, challenges, hchallenge, hhalf, List.forall_mem_cons]
    rintro ⟨hx, hxs⟩
    have hnext := ih t' _ _ _ _ (length_foldPoints_halves x⁻¹ x g _ hg)
      (length_foldPoints_halves x x⁻¹ h _ hh) (length_foldScalars_halves x x⁻¹ a _ ha)
      (length_foldScalars_halves x⁻¹ x b _ hb) hxs
    rw [statement_fold u hx _ g h a b hg hh ha hb, hround] at hnext
    simp only [combination_cons, combination_nil, one_smul, add_zero]
    rw [← add_assoc]
    exact hnext

/-! ## Honest arguments -/

omit [ScalarField.Lawful F] [PointGroup.Lawful F G] in
/-- An argument can be made for any vectors of one length that is a power of two, about any
statement. -/
theorem exists_prove (depth : Nat) (t : Transcript) (g h : List G) (u p : G) (a b : List F)
    (hg : g.length = 2 ^ depth) (hh : h.length = 2 ^ depth) (ha : a.length = 2 ^ depth)
    (hb : b.length = 2 ^ depth) :
    prove t g h u p a b =
      .ok ⟨(proveRounds u depth t g h a b).1, (proveRounds u depth t g h a b).2.1,
        (proveRounds u depth t g h a b).2.2, p⟩ := by
  have hsame : (1 <<< (2 ^ depth).log2 == 2 ^ depth && b.length == 2 ^ depth
      && g.length == 2 ^ depth && h.length == 2 ^ depth) = true := by
    rw [Nat.log2_two_pow, Nat.one_shiftLeft, hg, hh, hb, beq_self_eq_true]
    rfl
  unfold prove
  rw [ha]
  refine ensure_bind_eq_ok_iff.mpr ⟨hsame, ?_⟩
  rw [Nat.log2_two_pow]
  rfl

/-- An argument about its own statement is accepted, unless a challenge is zero. -/
theorem verify_of_prove {depth : Nat} {t : Transcript} {g h : List G} {u : G} {a b : List F}
    {proof : InnerProductProof F G} (hg : g.length = 2 ^ depth) (hh : h.length = 2 ^ depth)
    (ha : a.length = 2 ^ depth) (hb : b.length = 2 ^ depth)
    (hproof : prove t g h u (statement g h u a b) a b = .ok proof)
    (hx : ∀ x ∈ challenges proof.rounds t, x ≠ (0 : F)) :
    proof.verify t g h u = true := by
  rw [exists_prove depth t g h u _ a b hg hh ha hb] at hproof
  obtain rfl := Except.ok.inj hproof
  rw [verify, Bool.and_eq_true, fits_iff, length_proveRounds]
  exact ⟨⟨hh.trans hg.symm, hg.symm⟩, checkRounds_proveRounds u depth t g h a b hg hh ha hb hx⟩

end ShieldedPayments.InnerProductProof
