import ShieldedPayments.Proofs.Argument.Folding
import ShieldedPayments.Proofs.Argument.Range
import ShieldedPayments.Proofs.Argument.RangeVectors
import ShieldedPayments.Proofs.Group.Nonvanishing
import ShieldedPayments.Proofs.Tape

/-!
# Honest range proofs

A range proof can be made for any values, and is accepted unless one of its challenges is zero. The
elements of a proof satisfy the prover's equations for the challenges that they lead to
(`RangeProof.Honest`); for any challenges at all, those equations imply the verifier's.

* `RangeProof.exists_honest`: a run of the prover on any tape.
* `RangeProof.Honest.polynomial`, `RangeProof.Honest.statement`: what the verifier recomputes.
* `RangeProof.Honest.holds`: the verifier's equations.
-/

namespace ShieldedPayments.RangeProof

open PointGroup

variable {F G : Type} [ScalarField F] [PointGroup F G]

/-! ## What a prover draws and computes -/

/-- What a prover draws: masks for the vectors, and the blindings of its four points. -/
structure Secrets (F : Type) where
  alpha : F
  sL : List F
  sR : List F
  rho : F
  tau1 : F
  tau2 : F

namespace Secrets

/-- The masks cover vectors of the given length. -/
structure Covers (secrets : Secrets F) (length : Nat) : Prop where
  left : secrets.sL.length = length
  right : secrets.sR.length = length

/-- The left vector of the inner-product argument. -/
def left (secrets : Secrets F) (aL : List F) (c : Challenges F) : List F :=
  evalLinear (leftConstant aL c.z) secrets.sL c.x

/-- The right vector of the inner-product argument. -/
def right (secrets : Secrets F) (aL : List F) (padded : Nat) (c : Challenges F) : List F :=
  evalLinear (rightConstant aL padded c.y c.z) (rightLinear secrets.sR padded c.y) c.x

variable {secrets : Secrets F} {aL : List F} {padded : Nat}

omit [PointGroup F G] in
theorem Covers.length_left (h : secrets.Covers (padded * valueBits))
    (haL : aL.length = padded * valueBits) (c : Challenges F) :
    (secrets.left aL c).length = padded * valueBits :=
  length_evalLinear (by rw [leftConstant, List.length_map, haL]) h.left c.x

theorem Covers.length_right (h : secrets.Covers (padded * valueBits))
    (haL : aL.length = padded * valueBits) (c : Challenges F) :
    (secrets.right aL padded c).length = padded * valueBits :=
  length_evalLinear (length_rightConstant haL c.y c.z) (length_rightLinear h.right c.y) c.x

end Secrets

/-- The commitments to values over a base. -/
def commitmentsTo (values : List UInt64) (blindings : List F) (base : G) : List G :=
  List.zipWith (fun v r => combination [(ofNat v.toNat, base),
    (r, (pedersen : PedersenBases G).blinding)]) values blindings

/-- The elements of an honest proof for its challenges, over bases `g` and `h`. -/
structure Honest (witness : RangeWitness F) (base : G) (padded : Nat) (g h : List G)
    (secrets : Secrets F) (proof : RangeProof F G) (c : Challenges F) : Prop where
  commitments : proof.commitments = commitmentsTo witness.values witness.blindings base
  a : proof.a = combination ((bitVector witness.values padded).zip g
    ++ ((bitVector witness.values padded).map (· - 1)).zip h
    ++ [(secrets.alpha, (pedersen : PedersenBases G).blinding)])
  s : proof.s = combination (secrets.sL.zip g ++ secrets.sR.zip h
    ++ [(secrets.rho, (pedersen : PedersenBases G).blinding)])
  t1 : proof.t1 = combination
    [(innerProduct (leftConstant (bitVector witness.values padded) c.z)
          (rightLinear secrets.sR padded c.y)
        + innerProduct secrets.sL (rightConstant (bitVector witness.values padded) padded c.y c.z),
      base), (secrets.tau1, (pedersen : PedersenBases G).blinding)]
  t2 : proof.t2 = combination
    [(innerProduct secrets.sL (rightLinear secrets.sR padded c.y), base),
      (secrets.tau2, (pedersen : PedersenBases G).blinding)]
  tauX : proof.tauX = secrets.tau2 * c.x * c.x + secrets.tau1 * c.x
    + innerProduct (zWeights c.z padded) witness.blindings
  tHat : proof.tHat = innerProduct (secrets.left (bitVector witness.values padded) c)
    (secrets.right (bitVector witness.values padded) padded c)
  mu : proof.mu = secrets.alpha + secrets.rho * c.x
  argument :
    let u := c.w • (PointGroup.innerProduct : InnerProductBases G).inner
    let hScaled := scaledBases h (powers c.y⁻¹ (padded * valueBits))
    let l := secrets.left (bitVector witness.values padded) c
    let r := secrets.right (bitVector witness.values padded) padded c
    InnerProductProof.prove c.transcript g hScaled u (InnerProductProof.statement g hScaled u l r)
      l r = .ok proof.argument

/-! ## Sizes -/

/-- The number of padded values is a power of two that covers all values and leaves enough bases. -/
theorem paddedCount_bounds {count padded : Nat} (h : paddedCount count = .ok padded) :
    count ≤ padded ∧ padded * valueBits ≤ InnerProductBases.largest ∧
      ∃ depth, padded * valueBits = 2 ^ depth := by
  obtain ⟨⟨_, hcount⟩, rfl⟩ := (paddedCount_eq_ok_iff count padded).mp h
  have hall : ∀ n ≤ maxOutputs, n ≤ n.nextPowerOfTwo ∧ n.nextPowerOfTwo ≤ maxOutputs := by
    decide +kernel
  obtain ⟨hle, hmax⟩ := hall count hcount
  obtain ⟨k, hk⟩ := Nat.isPowerOfTwo_nextPowerOfTwo count
  refine ⟨hle, ?_, k + 6, ?_⟩
  · rw [InnerProductBases.largest, mul_comm]
    exact Nat.mul_le_mul_left valueBits hmax
  · rw [hk, pow_add]
    rfl

omit [PointGroup F G] in
theorem length_run_scalars (n : Nat) (t : Tape) :
    ((Drawing.scalars n).run t : List F × Tape).1.length = n := by
  induction n generalizing t with
  | zero => rfl
  | succ n ih =>
    simp only [Drawing.scalars, Drawing.run_bind, Drawing.run_pure, List.length_cons, ih]

/-! ## Runs of the prover -/

/-- The prover succeeds on any tape, and what it returns satisfies its equations. -/
theorem exists_honest [FullBases F G] (witness : RangeWitness F) (version : UInt8) (base : G)
    (t : Tape) {padded : Nat} (hcount : paddedCount witness.values.length = .ok padded) :
    ∃ proof secrets t', (prove witness version base).runOn t = (.ok proof, t') ∧
      proof.version = version ∧ Secrets.Covers secrets (padded * valueBits) ∧
      proof.Honest witness base padded (vectorBases G (padded * valueBits)).1
        (vectorBases G (padded * valueBits)).2 secrets (proof.challenges base padded) := by
  obtain ⟨hvalues, hlargest, depth, hdepth⟩ := paddedCount_bounds hcount
  obtain ⟨hg, hh⟩ := length_vectorBases_of_le (G := G) hlargest
  have haL := length_bitVector (F := F) hvalues
  unfold prove
  simp only [Proving.runOn_bind, Proving.runOn_outcome, hcount, Proving.scalar, Proving.runOn_lift]
  generalize (Drawing.scalar.run t : F × Tape) = drawn
  obtain ⟨alpha, t⟩ := drawn
  have hsL := length_run_scalars (F := F) (padded * valueBits) t
  generalize ((Drawing.scalars (padded * valueBits)).run t : List F × Tape) = drawn at hsL ⊢
  obtain ⟨sL, t⟩ := drawn
  have hsR := length_run_scalars (F := F) (padded * valueBits) t
  simp only at hsL ⊢
  generalize ((Drawing.scalars (padded * valueBits)).run t : List F × Tape) = drawn at hsR ⊢
  obtain ⟨sR, t⟩ := drawn
  simp only at hsR ⊢
  generalize (Drawing.scalar.run t : F × Tape) = drawn
  obtain ⟨rho, t⟩ := drawn
  simp only
  generalize hyz : (challengesYZ _ (_ : G) _ : F × F × Transcript) = yz
  obtain ⟨y, z, transcript⟩ := yz
  simp only
  generalize (Drawing.scalar.run t : F × Tape) = drawn
  obtain ⟨tau1, t⟩ := drawn
  simp only
  generalize (Drawing.scalar.run t : F × Tape) = drawn
  obtain ⟨tau2, t⟩ := drawn
  simp only
  generalize hx : (challengeX _ (_ : G) _ : F × Transcript) = xt
  obtain ⟨x, transcript⟩ := xt
  simp only
  generalize hw : (challengeW _ _ _ _ : F × Transcript) = wt
  obtain ⟨w, transcript⟩ := wt
  have hcovers : Secrets.Covers ⟨alpha, sL, sR, rho, tau1, tau2⟩ (padded * valueBits) := ⟨hsL, hsR⟩
  have hscaled : (scaledBases (vectorBases G (padded * valueBits)).2
      (powers y⁻¹ (padded * valueBits))).length = 2 ^ depth := by
    rw [InnerProductProof.length_scaledBases, length_powers, hh, min_self, hdepth]
  have hprove := fun p => InnerProductProof.exists_prove depth transcript
    (vectorBases G (padded * valueBits)).1 _
    (w • (PointGroup.innerProduct : InnerProductBases G).inner) p _ _
    (hg.trans hdepth) hscaled ((hcovers.length_left haL ⟨y, z, x, w, transcript⟩).trans hdepth)
    ((hcovers.length_right haL ⟨y, z, x, w, transcript⟩).trans hdepth)
  simp only [Secrets.left, Secrets.right, leftConstant, rightConstant, rightLinear,
    evalLinear] at hprove
  simp only [hprove]
  refine ⟨_, ⟨alpha, sL, sR, rho, tau1, tau2⟩, t, rfl, rfl, hcovers, ?_⟩
  simp only [challenges, hyz, hx, hw]
  exact ⟨rfl, rfl, rfl, rfl, rfl, rfl, rfl, rfl, hprove _⟩

/-! ## What the verifier recomputes -/

section

variable [ScalarField.Lawful F] [PointGroup.Lawful F G]

theorem combination_commitmentsTo (weights : List F) (values : List UInt64) (blindings : List F)
    (base : G) (h : blindings.length = values.length) :
    combination ((weights.map (- ·)).zip (commitmentsTo values blindings base)) =
      -(innerProduct weights (values.map fun v => ofNat v.toNat) • base)
        - innerProduct weights blindings • (pedersen : PedersenBases G).blinding := by
  unfold commitmentsTo
  induction weights generalizing values blindings with
  | nil => simp
  | cons zw weights ih =>
    cases values with
    | nil =>
      have hnil : blindings = [] := List.eq_nil_of_length_eq_zero h
      simp [hnil]
    | cons v values =>
      cases blindings with
      | nil => simp at h
      | cons r blindings =>
        have hlen : blindings.length = values.length := by simpa using h
        rw [List.map_cons, List.zipWith_cons_cons, List.zip_cons_cons, combination_cons,
          ih values blindings hlen, List.map_cons, innerProduct_cons, innerProduct_cons,
          combination_cons, combination_cons, combination_nil]
        module

namespace Honest

variable {witness : RangeWitness F} {base : G} {padded : Nat} {g h : List G} {secrets : Secrets F}
  {proof : RangeProof F G} {c : Challenges F}

/-- The commitment to the constant term opens to what the other commitments open to. -/
theorem polynomial (honest : Honest witness base padded g h secrets proof c)
    (hcovers : secrets.Covers (padded * valueBits)) (hvalues : witness.values.length ≤ padded)
    (hblindings : witness.blindings.length = witness.values.length) :
    proof.polynomialRemainder base padded c.x c.y c.z = 0 := by
  have haL := length_bitVector (F := F) hvalues
  have hl0 : (leftConstant (bitVector witness.values padded) c.z).length = padded * valueBits := by
    rw [leftConstant, List.length_map, haL]
  have htHat : proof.tHat = _ := honest.tHat
  unfold Secrets.left Secrets.right at htHat
  rw [innerProduct_evalLinear hl0 hcovers.left (length_rightConstant haL c.y c.z)
    (length_rightLinear hcovers.right c.y), innerProduct_constant hvalues] at htHat
  unfold polynomialRemainder
  rw [combination_append, honest.commitments, combination_commitmentsTo _ _ _ _ hblindings]
  simp only [combination_cons, combination_nil, honest.t1, honest.t2, honest.tauX, htHat]
  module

/-- The statement that the verifier recomputes is the one that the argument was made for. Both are
sums over the bases; the powers of `y` in the right vector cancel against the scale of its bases. -/
theorem statement (honest : Honest witness base padded g h secrets proof c)
    (hcovers : secrets.Covers (padded * valueBits)) (hvalues : witness.values.length ≤ padded)
    (hg : g.length = padded * valueBits) (hh : h.length = padded * valueBits) (hy : c.y ≠ 0) :
    proof.expectedStatement g h padded c.x c.y c.z c.w =
      InnerProductProof.statement g (scaledBases h (powers c.y⁻¹ (padded * valueBits)))
        (c.w • (PointGroup.innerProduct : InnerProductBases G).inner)
        (secrets.left (bitVector witness.values padded) c)
        (secrets.right (bitVector witness.values padded) padded c) := by
  have hcancel : ∀ i : Nat, c.y ^ i * c.y⁻¹ ^ i = 1 := by
    intro i
    rw [← mul_pow, mul_inv_cancel₀ hy, one_pow]
  rw [InnerProductProof.statement_eq, ← honest.tHat]
  unfold expectedStatement
  rw [honest.a, honest.s, honest.mu]
  unfold Secrets.left Secrets.right evalLinear leftConstant rightConstant rightLinear scaledBases
  obtain ⟨a, ha⟩ := exists_ofFn (length_bitVector (F := F) hvalues)
  obtain ⟨w, hw⟩ := exists_ofFn (length_bitWeights c.z padded)
  obtain ⟨sL, hsL⟩ := exists_ofFn hcovers.left
  obtain ⟨sR, hsR⟩ := exists_ofFn hcovers.right
  obtain ⟨g, rfl⟩ := exists_ofFn hg
  obtain ⟨h, rfl⟩ := exists_ofFn hh
  rw [ha, hw, hsL, hsR, powers_eq_ofFn, powers_eq_ofFn]
  simp only [List.map_ofFn, zipWith_ofFn, zip_ofFn, Function.comp_def, combination_append,
    combination_cons, combination_nil, combination_ofFn]
  have hleft : ∑ i, (a i - c.z + sL i * c.x) • g i =
      ∑ i, a i • g i + c.x • ∑ i, sL i • g i + ∑ i, -c.z • g i := by
    rw [Finset.smul_sum, ← Finset.sum_add_distrib, ← Finset.sum_add_distrib]
    refine Finset.sum_congr rfl fun i _ => ?_
    module
  have hright : ∑ i, (c.y ^ i.val * (a i - 1 + c.z) + w i + c.y ^ i.val * sR i * c.x)
        • c.y⁻¹ ^ i.val • h i =
      ∑ i, (a i - 1) • h i + c.x • ∑ i, sR i • h i + ∑ i, (c.z + w i * c.y⁻¹ ^ i.val) • h i := by
    rw [Finset.smul_sum, ← Finset.sum_add_distrib, ← Finset.sum_add_distrib]
    refine Finset.sum_congr rfl fun i _ => ?_
    rw [smul_smul, smul_smul, ← add_smul, ← add_smul]
    congr 1
    linear_combination (a i - 1 + c.z + sR i * c.x) * hcancel i.val
  rw [hleft, hright]
  module

variable [FullBases F G]

/-- The argument of an honest proof: its value, and its number of rounds. -/
theorem argument_eq (honest : Honest witness base padded (vectorBases G (padded * valueBits)).1
      (vectorBases G (padded * valueBits)).2 secrets proof c)
    (hcount : paddedCount witness.values.length = .ok padded)
    (hcovers : secrets.Covers (padded * valueBits)) :
    1 <<< proof.argument.rounds.length = padded * valueBits ∧
      proof.argument.p = InnerProductProof.statement (vectorBases G (padded * valueBits)).1
        (scaledBases (vectorBases G (padded * valueBits)).2 (powers c.y⁻¹ (padded * valueBits)))
        (c.w • (PointGroup.innerProduct : InnerProductBases G).inner)
        (secrets.left (bitVector witness.values padded) c)
        (secrets.right (bitVector witness.values padded) padded c) ∧
      ((∀ x ∈ InnerProductProof.challenges proof.argument.rounds c.transcript, x ≠ (0 : F)) →
        proof.argument.verify c.transcript (vectorBases G (padded * valueBits)).1
          (scaledBases (vectorBases G (padded * valueBits)).2 (powers c.y⁻¹ (padded * valueBits)))
          (c.w • (PointGroup.innerProduct : InnerProductBases G).inner) = true) := by
  obtain ⟨hvalues, hlargest, depth, hdepth⟩ := paddedCount_bounds hcount
  obtain ⟨hg, hh⟩ := length_vectorBases_of_le (G := G) hlargest
  have haL := length_bitVector (F := F) hvalues
  have hl := (hcovers.length_left haL c).trans hdepth
  have hr := (hcovers.length_right haL c).trans hdepth
  have hscaled : (scaledBases (vectorBases G (padded * valueBits)).2
      (powers c.y⁻¹ (padded * valueBits))).length = 2 ^ depth := by
    rw [InnerProductProof.length_scaledBases, length_powers, hh, min_self, hdepth]
  have hargument := honest.argument
  have heq := Except.ok.inj (hargument.symm.trans
    (InnerProductProof.exists_prove depth _ _ _ _ _ _ _ (hg.trans hdepth) hscaled hl hr))
  refine ⟨?_, ?_, InnerProductProof.verify_of_prove (hg.trans hdepth) hscaled hl hr hargument⟩
  · rw [heq, Nat.one_shiftLeft, InnerProductProof.length_proveRounds, hdepth]
  · rw [heq]

/-- The equations of an honest proof imply those of the verifier, unless a challenge is zero. -/
theorem holds (honest : Honest witness base padded (vectorBases G (padded * valueBits)).1
      (vectorBases G (padded * valueBits)).2 secrets proof c)
    (hcount : paddedCount witness.values.length = .ok padded)
    (hblindings : witness.blindings.length = witness.values.length)
    (hcovers : secrets.Covers (padded * valueBits)) (hy : c.y ≠ 0)
    (hrounds : ∀ x ∈ InnerProductProof.challenges proof.argument.rounds c.transcript, x ≠ (0 : F)) :
    proof.Holds base padded c := by
  obtain ⟨hvalues, hlargest, -⟩ := paddedCount_bounds hcount
  obtain ⟨hg, hh⟩ := length_vectorBases_of_le (G := G) hlargest
  obtain ⟨hlength, hp, hverify⟩ := honest.argument_eq hcount hcovers
  refine ⟨hlength, honest.polynomial hcovers hvalues hblindings, ?_, ?_⟩
  · rw [hp]
    exact honest.statement hcovers hvalues hg hh hy
  · rw [← InnerProductProof.verify_scaledBases _ _ _ _ _ _ (by rw [length_powers, hh])]
    exact hverify hrounds

end Honest

/-! ## Completeness -/

/-- The challenges of a proof that its check divides by, `y` and those of the rounds, are not zero. -/
structure NonzeroChallenges (proof : RangeProof F G) (base : G) : Prop where
  y : (proof.challenges base proof.commitments.length.nextPowerOfTwo).y ≠ 0
  rounds : ∀ x ∈ InnerProductProof.challenges proof.argument.rounds
    (proof.challenges base proof.commitments.length.nextPowerOfTwo).transcript, x ≠ (0 : F)

omit [ScalarField.Lawful F] [PointGroup.Lawful F G] in
theorem nonzeroChallenges [ScalarField.Nonvanishing F] (proof : RangeProof F G) (base : G) :
    proof.NonzeroChallenges base where
  y := by
    unfold challenges challengesYZ
    exact Transcript.challenge_ne_zero _ _
  rounds := InnerProductProof.challenges_ne_zero _ _

/-- What the prover returns for a witness of one to 32 values. -/
structure Proved (witness : RangeWitness F) (version : UInt8) (base : G) (proof : RangeProof F G) :
    Prop where
  version : proof.version = version
  commitments : proof.commitments = commitmentsTo witness.values witness.blindings base
  count : proof.commitments.length = witness.values.length
  rounds : proof.argument.rounds.length ≤ InnerProductProof.maxRounds
  verify : proof.NonzeroChallenges base → ∀ check, proof.verify check base = .ok ()

/-- The prover returns an accepted proof for every witness, on every tape. -/
theorem exists_proved [FullBases F G] (witness : RangeWitness F) (version : UInt8) (base : G)
    (t : Tape) (hvalues : witness.values ≠ []) (hcount : witness.values.length ≤ maxOutputs)
    (hblindings : witness.blindings.length = witness.values.length) :
    ∃ proof t', (prove witness version base).runOn t = (.ok proof, t') ∧
      proof.Proved witness version base := by
  have hnonzero : witness.values.length ≠ 0 := fun h => hvalues (List.eq_nil_of_length_eq_zero h)
  have hpadded : paddedCount witness.values.length = .ok witness.values.length.nextPowerOfTwo :=
    (paddedCount_eq_ok_iff _ _).mpr ⟨⟨hnonzero, hcount⟩, rfl⟩
  obtain ⟨proof, secrets, t', hrun, hversion, hcovers, honest⟩ :=
    exists_honest witness version base t hpadded
  have hlength : proof.commitments.length = witness.values.length := by
    rw [honest.commitments, commitmentsTo, List.length_zipWith, hblindings, min_self]
  have hrounds : proof.argument.rounds.length ≤ InnerProductProof.maxRounds := by
    obtain ⟨-, hlargest, -⟩ := paddedCount_bounds hpadded
    have hargument := (honest.argument_eq hpadded hcovers).1
    rw [Nat.one_shiftLeft] at hargument
    refine (Nat.pow_le_pow_iff_right (Nat.lt_succ_self 1)).mp (?_ : _ ≤ 2 ^ InnerProductProof.maxRounds)
    rwa [hargument]
  refine ⟨proof, t', hrun, hversion, honest.commitments, hlength, hrounds, fun hchallenges check => ?_⟩
  obtain ⟨hy, hrounds⟩ := hchallenges
  rw [hlength] at hy hrounds
  rw [verify_eq_ok_iff, hlength]
  exact ⟨_, hpadded, honest.holds hpadded hblindings hcovers hy hrounds⟩

omit [ScalarField F] [ScalarField.Lawful F] in
/-- A witness can be created for one to 32 values and as many blindings. -/
theorem create_eq {values : List UInt64} {blindings : List F} (hvalues : values ≠ [])
    (hcount : values.length ≤ maxOutputs) (hblindings : blindings.length = values.length) :
    RangeWitness.create values blindings = .ok ⟨values, blindings⟩ := by
  have hnonzero : values.length ≠ 0 := fun h => hvalues (List.eq_nil_of_length_eq_zero h)
  refine Outcome.bind_eq_ok_iff.mpr ⟨_, (paddedCount_eq_ok_iff _ _).mpr ⟨⟨hnonzero, hcount⟩, rfl⟩, ?_⟩
  rw [ensure_bind_eq_ok_iff, beq_iff_eq]
  exact ⟨hblindings, rfl⟩

theorem succeeds_prove [FullBases F G] {values : List UInt64} {blindings : List F}
    (version : UInt8) (base : G) (hvalues : values ≠ []) (hcount : values.length ≤ maxOutputs)
    (hblindings : blindings.length = values.length) :
    (prove ⟨values, blindings⟩ version base).Succeeds := by
  intro t
  obtain ⟨proof, t', hrun, -⟩ :=
    exists_proved ⟨values, blindings⟩ version base t hvalues hcount hblindings
  exact ⟨proof, t', hrun⟩

/-- What is returned for a witness that could be created. -/
theorem proved_of_returns [FullBases F G] {witness : RangeWitness F} {version : UInt8} {base : G}
    {proof : RangeProof F G} {values : List UInt64} {blindings : List F}
    (hcreate : RangeWitness.create values blindings = .ok witness)
    (h : (prove witness version base).Returns proof) :
    witness = ⟨values, blindings⟩ ∧ proof.Proved ⟨values, blindings⟩ version base := by
  obtain ⟨_, hpadded, hcreate⟩ := Outcome.bind_eq_ok_iff.mp hcreate
  obtain ⟨⟨hnonzero, hcount⟩, -⟩ := (paddedCount_eq_ok_iff _ _).mp hpadded
  rw [ensure_bind_eq_ok_iff, beq_iff_eq, Outcome.pure_eq_ok_iff] at hcreate
  obtain ⟨hblindings, rfl⟩ := hcreate
  obtain ⟨t, t', hrun⟩ := h
  obtain ⟨proof', _, hrun', hproved⟩ := exists_proved ⟨values, blindings⟩ version base t
    (fun hnil => hnonzero (congrArg List.length hnil)) hcount hblindings
  rw [hrun] at hrun'
  rw [Except.ok.inj (congrArg Prod.fst hrun')]
  exact ⟨rfl, hproved⟩

/-- **Range proofs are complete**: for one to 32 values, as many blindings, any version and base, and on
any tape, a witness can be created and a proof be made. The proof commits to the values in order, and
is accepted by either check unless `y` or a challenge of a round is zero. -/
theorem complete [FullBases F G] (values : List UInt64) (blindings : List F) (version : UInt8)
    (base : G) (t : Tape) (hvalues : values ≠ []) (hcount : values.length ≤ maxOutputs)
    (hblindings : blindings.length = values.length) :
    ∃ (witness : RangeWitness F) (proof : RangeProof F G) (t' : Tape),
      RangeWitness.create values blindings = .ok witness ∧
      (prove witness version base).runOn t = (.ok proof, t') ∧
      proof.commitments =
        List.zipWith
          (fun v r => (ofNat v.toNat : F) • base + r • (pedersen : PedersenBases G).blinding)
          values blindings ∧
      (proof.NonzeroChallenges base → ∀ check, proof.verify check base = .ok ()) := by
  have hcreate := create_eq hvalues hcount hblindings
  obtain ⟨proof, t', hrun, hproved⟩ :=
    exists_proved ⟨values, blindings⟩ version base t hvalues hcount hblindings
  refine ⟨_, proof, t', hcreate, hrun, ?_, hproved.verify⟩
  rw [hproved.commitments, commitmentsTo]
  simp only [combination_cons, combination_nil, add_zero]

/-- Three values, which are filled up to four: a proof is made, and accepted by both checks. -/
theorem complete_three_values :
    let values : List UInt64 := [0, 5, 18446744073709551615]
    let blindings : List NonzeroScalar := [ofNat 3, ofNat 1, ofNat 4]
    let base : NonzeroExponent := defaultBase
    ∃ (witness : RangeWitness NonzeroScalar) (proof : RangeProof NonzeroScalar NonzeroExponent)
      (t : Tape), RangeWitness.create values blindings = .ok witness ∧
      (prove witness 1 base).runOn ⟨[], fun _ => [], 0⟩ = (.ok proof, t) ∧
      proof.commitments.length = 3 ∧ proof.verify .folding base = .ok () ∧
      proof.verify .singleSum base = .ok () := by
  intro values blindings base
  obtain ⟨witness, proof, t, hcreate, hrun, hcommitments, hverify⟩ :=
    complete values blindings 1 base ⟨[], fun _ => [], 0⟩ (by decide) (by decide) rfl
  have haccepted := hverify (nonzeroChallenges proof base)
  refine ⟨witness, proof, t, hcreate, hrun, ?_, haccepted .folding, haccepted .singleSum⟩
  rw [hcommitments]
  rfl

end

end ShieldedPayments.RangeProof
