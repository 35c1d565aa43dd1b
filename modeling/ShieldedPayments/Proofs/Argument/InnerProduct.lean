import Mathlib.Tactic.Abel
import ShieldedPayments.Proofs.Argument.FoldFactors
import ShieldedPayments.Proofs.Argument.Vectors
import ShieldedPayments.Proofs.Group.Combination
import ShieldedPayments.Proofs.Group.Exponents
import ShieldedPayments.Argument.Range

/-!
# The two checks of the inner-product argument

Folding the bases round by round and taking one sum over all of them are the same test. The factors
of the single sum are those with which the bases enter the last round (`foldFactors_cons`), so that
one round of folding leaves the combination of the bases as it is (`foldedSum_fold`).

* `InnerProductProof.checkRounds_iff`: what the folding check tests, in terms of the given bases.
* `InnerProductProof.verifyScaled_iff`: the same for the single sum.
* `InnerProductProof.verify_scaledBases`: both checks agree on bases with a scale.
* `RangeProof.verify_check`: range proofs do not depend on the check.
* `InnerProductProof.checks_agree`: all of this in one statement.
-/

namespace ShieldedPayments.InnerProductProof

open PointGroup

variable {F G : Type}

/-! ## Lengths -/

theorem fits_iff (proof : InnerProductProof F G) (g h : List G) :
    proof.fits g h = true ↔ h.length = g.length ∧ 2 ^ proof.rounds.length = g.length := by
  unfold fits
  rw [Bool.and_eq_true, beq_iff_eq, beq_iff_eq, Nat.one_shiftLeft]

section

variable [PointGroup F G]

theorem length_foldPoints (x y : F) (lo hi : List G) :
    (foldPoints x y lo hi).length = min lo.length hi.length := by
  rw [foldPoints, List.length_zipWith]

theorem length_foldPoints_halves (x y : F) (ps : List G) (n : Nat) (h : ps.length = 2 * n) :
    (foldPoints x y (ps.take n) (ps.drop n)).length = n := by
  rw [length_foldPoints, List.length_take, List.length_drop]
  omega

theorem length_scaledBases (h : List G) (scale : List F) :
    (RangeProof.scaledBases h scale).length = min h.length scale.length := by
  rw [RangeProof.scaledBases, List.length_zipWith]

@[simp] theorem length_challenges [ScalarField F] (rounds : List (G × G)) (t : Transcript) :
    (challenges rounds t : List F).length = rounds.length := by
  induction rounds generalizing t with
  | nil => rfl
  | cons round rounds ih => simp only [challenges, List.length_cons, ih]

end

variable [ScalarField F] [ScalarField.Lawful F] [PointGroup F G] [PointGroup.Lawful F G]

/-! ## What the rounds amount to -/

/-- What the last round checks against the statement, in terms of the bases of the first one. -/
def foldedSum (u : G) (a b : F) (xs : List F) (g h : List G) : G :=
  a • combination ((foldFactors xs).zip g) + b • combination ((foldFactors xs).reverse.zip h)
    + (a * b) • u

/-- What the rounds add to the statement. -/
def roundSum (xs : List F) (rounds : List (G × G)) : G :=
  combination (List.zipWith (fun x round => (x * x, round.1)) xs rounds)
    + combination (List.zipWith (fun x round => (x⁻¹ * x⁻¹, round.2)) xs rounds)

/-- A round of folding leaves the sum over the bases as it is. -/
theorem foldedSum_fold (u : G) (a b x : F) (xs : List F) (gLo gHi hLo hHi : List G)
    (hgLo : gLo.length = 2 ^ xs.length) (hgHi : gHi.length = 2 ^ xs.length)
    (hhLo : hLo.length = 2 ^ xs.length) (hhHi : hHi.length = 2 ^ xs.length) :
    foldedSum u a b xs (foldPoints x⁻¹ x gLo gHi) (foldPoints x x⁻¹ hLo hHi) =
      foldedSum u a b (x :: xs) (gLo ++ gHi) (hLo ++ hHi) := by
  unfold foldedSum
  have hlo : ((foldFactors xs).map (x⁻¹ * ·)).length = gLo.length := by
    rw [List.length_map, length_foldFactors, hgLo]
  have hrev : ((foldFactors xs).reverse.map (x * ·)).length = hLo.length := by
    rw [List.length_map, List.length_reverse, length_foldFactors, hhLo]
  rw [foldFactors_cons, List.reverse_append, ← List.map_reverse, ← List.map_reverse,
    combination_zip_append hlo, combination_zip_append hrev, combination_zip_scale,
    combination_zip_scale, combination_zip_scale, combination_zip_scale,
    combination_zip_fold _ _ _ _ _ (hgLo.trans hgHi.symm),
    combination_zip_fold _ _ _ _ _ (hhLo.trans hhHi.symm)]

omit [ScalarField.Lawful F] in
theorem roundSum_cons (x : F) (xs : List F) (round : G × G) (rounds : List (G × G)) :
    roundSum (x :: xs) (round :: rounds) =
      (x * x) • round.1 + (x⁻¹ * x⁻¹) • round.2 + roundSum xs rounds := by
  unfold roundSum
  rw [List.zipWith_cons_cons, List.zipWith_cons_cons, combination_cons, combination_cons]
  abel

/-- The folding check is one equation about the bases that it starts from. Each round moves its two
points to the side of the statement. -/
theorem checkRounds_iff (u : G) (a b : F) (rounds : List (G × G)) (t : Transcript) (g h : List G)
    (p : G) (hg : g.length = 2 ^ rounds.length) (hh : h.length = 2 ^ rounds.length) :
    checkRounds u a b rounds t g h p = true ↔
      foldedSum u a b (challenges rounds t) g h = p + roundSum (challenges rounds t) rounds := by
  induction rounds generalizing t g h p with
  | nil =>
    obtain ⟨g₀, rfl⟩ := List.length_eq_one_iff.mp hg
    obtain ⟨h₀, rfl⟩ := List.length_eq_one_iff.mp hh
    simp [checkRounds, challenges, foldedSum, roundSum, add_assoc]
  | cons round rounds ih =>
    have hdouble : 2 ^ (round :: rounds).length = 2 * 2 ^ rounds.length := by
      rw [List.length_cons, pow_succ']
    rw [hdouble] at hg hh
    have hhalf : g.length / 2 = 2 ^ rounds.length := by omega
    simp only [checkRounds, challenges, hhalf]
    obtain ⟨x, t⟩ : F × Transcript := roundChallenge t round
    simp only
    rw [ih _ _ _ _ (length_foldPoints_halves _ _ g _ hg) (length_foldPoints_halves _ _ h _ hh),
      foldedSum_fold, List.take_append_drop, List.take_append_drop, roundSum_cons]
    · simp only [combination_cons, combination_nil, one_smul, add_zero]
      rw [show ∀ q r s : G, q + (p + r) + s = p + (q + r + s) by intro q r s; abel]
    all_goals
      simp only [length_challenges, List.length_take, List.length_drop]
      omega

/-! ## The agreement of the checks -/

/-- The check by a single sum is the same equation, about bases that are scaled first. -/
theorem verifyScaled_iff (proof : InnerProductProof F G) (t : Transcript) (g h : List G)
    (scale : List F) (u : G) :
    proof.verifyScaled t g h scale u = true ↔
      (proof.fits g h = true ∧ scale.length = g.length) ∧
        foldedSum u proof.a proof.b (challenges proof.rounds t) g (RangeProof.scaledBases h scale) =
          proof.p + roundSum (challenges proof.rounds t) proof.rounds := by
  unfold verifyScaled
  rw [Bool.and_eq_true, Bool.and_eq_true, beq_iff_eq]
  refine and_congr_right fun _ => ?_
  rw [← sub_eq_zero (b := proof.p + _)]
  simp only [beq_iff_eq, combination_append, combination_cons, combination_nil,
    combination_zip_scale, combination_zip_scaled, combination_zipWith_neg]
  unfold foldedSum roundSum RangeProof.scaledBases
  apply iff_of_eq
  congr 1
  module

theorem verify_iff (proof : InnerProductProof F G) (t : Transcript) (g h : List G) (u : G) :
    proof.verify t g h u = true ↔
      proof.fits g h = true ∧
        foldedSum u proof.a proof.b (challenges proof.rounds t) g h =
          proof.p + roundSum (challenges proof.rounds t) proof.rounds := by
  unfold verify
  rw [Bool.and_eq_true]
  refine and_congr_right fun hfits => ?_
  obtain ⟨hh, hg⟩ := (fits_iff proof g h).mp hfits
  exact checkRounds_iff _ _ _ _ _ _ _ _ hg.symm (hh.trans hg.symm)

theorem verify_scaledBases (proof : InnerProductProof F G) (t : Transcript) (g h : List G)
    (scale : List F) (u : G) (hscale : scale.length = h.length) :
    proof.verify t g (RangeProof.scaledBases h scale) u = proof.verifyScaled t g h scale u := by
  rw [Bool.eq_iff_iff, verify_iff, verifyScaled_iff]
  refine and_congr_left fun _ => ?_
  rw [fits_iff, fits_iff, length_scaledBases, hscale, min_self]
  exact ⟨fun ⟨hh, hg⟩ => ⟨⟨hh, hg⟩, hh⟩, fun ⟨hfits, _⟩ => hfits⟩

/-- Bases that run out before their scale does fit neither check. -/
theorem verify_scaledBases_of_le (proof : InnerProductProof F G) (t : Transcript) (g h : List G)
    (scale : List F) (u : G) (hrounds : 2 ^ proof.rounds.length = scale.length)
    (hle : h.length ≤ scale.length) :
    proof.verify t g (RangeProof.scaledBases h scale) u = proof.verifyScaled t g h scale u := by
  rcases hle.lt_or_eq with hlt | heq
  · rw [Bool.eq_iff_iff, verify_iff, verifyScaled_iff, fits_iff, fits_iff, length_scaledBases,
      min_eq_left hle]
    constructor
    · rintro ⟨⟨hh, hg⟩, _⟩
      omega
    · rintro ⟨⟨⟨hh, hg⟩, _⟩, _⟩
      omega
  · exact verify_scaledBases proof t g h scale u heq.symm

theorem scaledBases_replicate_one (h : List G) :
    RangeProof.scaledBases h (List.replicate h.length (1 : F)) = h := by
  unfold RangeProof.scaledBases
  induction h with
  | nil => rfl
  | cons p h ih =>
    rw [List.length_cons, List.replicate_succ, List.zipWith_cons_cons, one_smul, ih]

theorem verify_verifyFaster (proof : InnerProductProof F G) (t : Transcript) (g h : List G) (u : G) :
    proof.verify t g h u = proof.verifyFaster t g h u := by
  unfold verifyFaster
  by_cases hlen : h.length = g.length
  · have hone := verify_scaledBases proof t g h (List.replicate g.length 1) u (by simp [hlen])
    rw [← hlen, scaledBases_replicate_one] at hone
    rw [hone, hlen]
  · have hfits : proof.fits g h = false := by
      rw [fits, beq_eq_false_iff_ne.mpr hlen, Bool.false_and]
    rw [verify, verifyScaled, hfits, Bool.false_and, Bool.false_and, Bool.false_and]

end ShieldedPayments.InnerProductProof

namespace ShieldedPayments.RangeProof

variable {F G : Type} [ScalarField F] [PointGroup F G]

theorem length_vectorBases_right_le (n : Nat) : (vectorBases G n).2.length ≤ n := by
  simp only [vectorBases, List.length_take]
  exact min_le_left _ _

variable [ScalarField.Lawful F] [PointGroup.Lawful F G]

/-- A range proof is accepted or refused in the same way by both checks. -/
theorem verify_check (proof : RangeProof F G) (base : G) :
    proof.verify .folding base = proof.verify .singleSum base := by
  unfold verify
  refine bind_congr fun padded => ?_
  by_cases hrounds : 1 <<< proof.argument.rounds.length = padded * valueBits
  · refine bind_congr fun _ => ?_
    have hchecks : ∀ (t : Transcript) (y : F) (u : G),
        proof.argument.verify t (vectorBases G (padded * valueBits)).1
            (scaledBases (vectorBases G (padded * valueBits)).2
              (powers y (padded * valueBits))) u =
          proof.argument.verifyScaled t (vectorBases G (padded * valueBits)).1
            (vectorBases G (padded * valueBits)).2 (powers y (padded * valueBits)) u := by
      intro t y u
      apply InnerProductProof.verify_scaledBases_of_le
      · rw [length_powers, ← Nat.one_shiftLeft, hrounds]
      · rw [length_powers]
        exact length_vectorBases_right_le _
    simp only [hchecks]
  · have hrefused : (1 <<< proof.argument.rounds.length == padded * valueBits) = false :=
      beq_eq_false_iff_ne.mpr hrounds
    simp only [hrefused, ensure]
    rfl

end ShieldedPayments.RangeProof

namespace ShieldedPayments.InnerProductProof

variable {F G : Type} [ScalarField F] [ScalarField.Lawful F] [PointGroup F G] [PointGroup.Lawful F G]

/-- **The folding check and the check by a single sum agree on every input**: on any proof and
transcript and any bases, the second ones with a scale of their length or with none, and hence on any
range proof over any base. -/
theorem checks_agree :
    (∀ (proof : InnerProductProof F G) (t : Transcript) (g h : List G) (scale : List F) (u : G),
      scale.length = h.length →
        proof.verify t g (RangeProof.scaledBases h scale) u = proof.verifyScaled t g h scale u) ∧
    (∀ (proof : InnerProductProof F G) (t : Transcript) (g h : List G) (u : G),
      proof.verify t g h u = proof.verifyFaster t g h u) ∧
    ∀ (proof : RangeProof F G) (base : G),
      proof.verify .folding base = proof.verify .singleSum base :=
  ⟨verify_scaledBases, verify_verifyFaster, RangeProof.verify_check⟩

/-- One round over bases of which the second ones are scaled: of all points that its proof can be about, both
checks accept the same one. -/
theorem checks_agree_one_round :
    let rounds : List (Exponent × Exponent) := [(⟨8⟩, ⟨9⟩)]
    let proof (q : Exponent) : InnerProductProof Curve.Scalar Exponent := ⟨rounds, 2, 3, q⟩
    let t := Transcript.init []
    let g : List Exponent := [⟨1⟩, ⟨2⟩]
    let h : List Exponent := [⟨3⟩, ⟨4⟩]
    let scale : List Curve.Scalar := [5, 6]
    ∃ p : Exponent, ∀ q : Exponent,
      ((proof q).verify t g (RangeProof.scaledBases h scale) ⟨7⟩ = true ↔ q = p) ∧
        ((proof q).verifyScaled t g h scale ⟨7⟩ = true ↔ q = p) := by
  intro rounds proof t g h scale
  let xs : List Curve.Scalar := challenges rounds t
  let p : Exponent := foldedSum ⟨7⟩ 2 3 xs g (RangeProof.scaledBases h scale) - roundSum xs rounds
  have hscaled (q : Exponent) : (proof q).verifyScaled t g h scale ⟨7⟩ = true ↔ q = p := by
    have hfits : (proof q).fits g h = true ∧ scale.length = g.length := ⟨rfl, rfl⟩
    rw [verifyScaled_iff, and_iff_right hfits, eq_sub_iff_add_eq]
    exact eq_comm
  refine ⟨p, fun q => ⟨?_, hscaled q⟩⟩
  rw [checks_agree.1 (proof q) t g h scale ⟨7⟩ rfl]
  exact hscaled q

end ShieldedPayments.InnerProductProof
