import Mathlib.Algebra.Module.BigOperators
import Mathlib.Tactic.Module
import ShieldedPayments.Proofs.Argument.RingMember
import ShieldedPayments.Proofs.Argument.Vectors
import ShieldedPayments.Proofs.Tape

/-!
# Honest ring proofs

The proof for a ring member that is a known multiple of the blinding base is accepted, whatever the
other members are, whatever is drawn, and whatever the challenge is. The weight of a member is the
value at the challenge of the polynomial that the prover computed for it (`weight_eq_evalAt`), and this
polynomial has degree three only at the hidden position (`exists_weightPolynomial_eq`). The cancelling
points take away the lower degrees, so that the hidden member is all that remains of the ring.

* `RingProof.respond`: the responses of the prover to any challenge.
* `RingProof.Honest`: the equations by which the prover computes a proof.
* `RingProof.verify_of_returns`: every proof that is returned is accepted.
-/

namespace ShieldedPayments.RingProof

open PointGroup

variable {F G : Type} [ScalarField F] [ScalarField.Lawful F]

/-! ## Polynomials as lists of coefficients -/

/-- The value of a polynomial, given by its coefficients, lowest degree first. -/
def evalAt (p : List F) (x : F) : F :=
  p.foldr (fun c rest => c + x * rest) 0

theorem evalAt_zipWith_add (x : F) {p q : List F} (h : p.length = q.length) :
    evalAt (List.zipWith (· + ·) p q) x = evalAt p x + evalAt q x := by
  induction p generalizing q with
  | nil =>
    rw [List.eq_nil_of_length_eq_zero h.symm]
    exact (add_zero 0).symm
  | cons a p ih =>
    cases q with
    | nil => cases h
    | cons b q =>
      have ih := ih (Nat.succ.inj h)
      unfold evalAt at ih ⊢
      rw [List.zipWith_cons_cons, List.foldr_cons, List.foldr_cons, List.foldr_cons, ih]
      ring

theorem evalAt_map_mul (p : List F) (c x : F) : evalAt (p.map (· * c)) x = evalAt p x * c := by
  unfold evalAt
  induction p with
  | nil => exact (zero_mul c).symm
  | cons a p ih =>
    rw [List.map_cons, List.foldr_cons, List.foldr_cons, ih]
    ring

theorem evalAt_append_zero (p : List F) (x : F) : evalAt (p ++ [0]) x = evalAt p x := by
  unfold evalAt
  rw [List.foldr_append, List.foldr_cons, List.foldr_nil, mul_zero, add_zero]

theorem evalAt_mulLinear (p : List F) (c0 c1 x : F) :
    evalAt (mulLinear p c0 c1) x = evalAt p x * (c0 + c1 * x) := by
  have hlength : (p.map (· * c0) ++ [0]).length = (0 :: p.map (· * c1)).length := by
    simp only [List.length_append, List.length_map, List.length_cons, List.length_nil]
  have hcons : evalAt (0 :: p.map (· * c1)) x = x * evalAt (p.map (· * c1)) x := zero_add _
  rw [mulLinear, evalAt_zipWith_add x hlength, evalAt_append_zero, hcons, evalAt_map_mul,
    evalAt_map_mul]
  ring

/-- The highest coefficient is multiplied by that of the linear factor. -/
theorem exists_mulLinear_concat (q : List F) (a c0 c1 : F) :
    ∃ q', q'.length = q.length + 1 ∧ mulLinear (q ++ [a]) c0 c1 = q' ++ [a * c1] := by
  have hlength : ((q ++ [a]).map (· * c0)).length = (0 :: q.map (· * c1)).length := by
    rw [List.length_map, List.length_append, List.length_singleton, List.length_cons, List.length_map]
  have hshifted : 0 :: (q ++ [a]).map (· * c1) = (0 :: q.map (· * c1)) ++ [a * c1] := by
    rw [List.map_append, List.map_singleton, List.cons_append]
  refine ⟨List.zipWith (· + ·) ((q ++ [a]).map (· * c0)) (0 :: q.map (· * c1)), ?_, ?_⟩
  · rw [List.length_zipWith, hlength, min_self, List.length_cons, List.length_map]
  · rw [mulLinear, hshifted, List.zipWith_append hlength, List.zipWith_cons_cons,
      List.zipWith_nil_left, zero_add]

/-! ## The weights of the members -/

variable (l i : Nat) (secrets : Vector (RingSecrets F) ringDepth)

/-- The factor of one bit, multiplied to a weight polynomial. -/
def weightStep (p : List F) (j : Fin ringDepth) : List F :=
  if i.testBit j then mulLinear p (secrets.get j).a (bit l j)
  else mulLinear p (-(secrets.get j).a) (1 - bit l j)

omit [ScalarField.Lawful F] in
theorem weightPolynomial_eq :
    weightPolynomial l secrets i = (List.finRange ringDepth).foldl (weightStep l i secrets) [1] := rfl

theorem evalAt_weightStep (p : List F) (j : Fin ringDepth) (x : F) :
    evalAt (weightStep l i secrets p j) x =
      if i.testBit j then evalAt p x * (bit l j * x + (secrets.get j).a)
      else evalAt p x * (x - (bit l j * x + (secrets.get j).a)) := by
  unfold weightStep
  split
  · rw [evalAt_mulLinear]
    ring
  · rw [evalAt_mulLinear]
    ring

/-- The weight is the value of the weight polynomial at the challenge. -/
theorem weight_eq_evalAt (x : F) :
    weight (Vector.ofFn fun j => bit l j.val * x + (secrets.get j).a) x i =
      evalAt (weightPolynomial l secrets i) x := by
  have hfold : ∀ (js : List (Fin ringDepth)) (p : List F),
      js.foldl (fun acc (j : Fin ringDepth) =>
          if i.testBit j then acc * (bit l j * x + (secrets.get j).a)
          else acc * (x - (bit l j * x + (secrets.get j).a))) (evalAt p x) =
        evalAt (js.foldl (weightStep l i secrets) p) x := by
    intro js
    induction js with
    | nil => exact fun _ => rfl
    | cons j js ih =>
      intro p
      rw [List.foldl_cons, List.foldl_cons, ← ih, evalAt_weightStep]
  have hone : evalAt [(1 : F)] x = 1 := by
    rw [evalAt, List.foldr_cons, List.foldr_nil, mul_zero, add_zero]
  rw [weightPolynomial_eq, ← hfold, hone, weight]
  simp only [Fin.getElem_fin, Vector.getElem_ofFn]

/-- The highest coefficient of the factor of a bit: one if the bit agrees with that of the hidden
position. -/
theorem exists_weightStep_concat (q : List F) (a : F) (j : Fin ringDepth) :
    ∃ q', q'.length = q.length + 1 ∧ weightStep l i secrets (q ++ [a]) j =
      q' ++ [a * if i.testBit j = l.testBit j then 1 else 0] := by
  unfold weightStep bit
  cases i.testBit j <;> cases l.testBit j
  · simpa using exists_mulLinear_concat q a (-(secrets.get j).a) (1 - 0)
  · simpa using exists_mulLinear_concat q a (-(secrets.get j).a) (1 - 1)
  · simpa using exists_mulLinear_concat q a (secrets.get j).a 0
  · simpa using exists_mulLinear_concat q a (secrets.get j).a 1

theorem exists_foldl_weightStep_concat (js : List (Fin ringDepth)) (q : List F) (a : F) :
    ∃ q', q'.length = q.length + js.length ∧ js.foldl (weightStep l i secrets) (q ++ [a]) =
      q' ++ [a * (js.map fun j : Fin ringDepth =>
        if i.testBit j = l.testBit j then (1 : F) else 0).prod] := by
  induction js generalizing q a with
  | nil => exact ⟨q, rfl, by rw [List.map_nil, List.prod_nil, mul_one, List.foldl_nil]⟩
  | cons j js ih =>
    obtain ⟨q₁, hq₁, hstep⟩ := exists_weightStep_concat l i secrets q a j
    obtain ⟨q₂, hq₂, hfold⟩ := ih q₁ (a * if i.testBit j = l.testBit j then 1 else 0)
    refine ⟨q₂, ?_, ?_⟩
    · rw [hq₂, hq₁, List.length_cons]
      omega
    · rw [List.foldl_cons, hstep, hfold, List.map_cons, List.prod_cons, mul_assoc]

/-- The weight polynomial has degree three at the hidden position, and a lower degree elsewhere. -/
theorem exists_weightPolynomial_eq (hi : i < ringSize) (hl : l < ringSize) :
    ∃ c0 c1 c2 : F, weightPolynomial l secrets i = [c0, c1, c2, if i = l then 1 else 0] := by
  obtain ⟨q, hq, hfold⟩ := exists_foldl_weightStep_concat l i secrets (List.finRange ringDepth) [] 1
  have hlead : ((List.finRange ringDepth).map fun j : Fin ringDepth =>
      if i.testBit j = l.testBit j then (1 : F) else 0).prod = if i = l then 1 else 0 := by
    by_cases h : i = l
    · subst h
      simp
    · have hdiffers : ∀ i < ringSize, ∀ l < ringSize, i ≠ l →
          ∃ j : Fin ringDepth, i.testBit j ≠ l.testBit j := by decide
      obtain ⟨j, hj⟩ := hdiffers i hi l hl h
      rw [if_neg h]
      exact List.prod_eq_zero (List.mem_map.mpr ⟨j, List.mem_finRange j, if_neg hj⟩)
  rw [hlead, one_mul] at hfold
  rw [weightPolynomial_eq]
  match q, hq with
  | [c0, c1, c2], _ => exact ⟨c0, c1, c2, hfold⟩

/-! ## Honest proofs -/

variable [PointGroup F G] [PointGroup.Lawful F G]

omit [ScalarField F] [ScalarField.Lawful F] [PointGroup F G] [PointGroup.Lawful F G] in
theorem exists_eq_vector {α : Type} (v : Vector α ringDepth) : ∃ a b c, v = #v[a, b, c] := by
  obtain ⟨⟨as⟩, hsize⟩ := v
  match as, hsize with
  | [a, b, c], _ => exact ⟨a, b, c, rfl⟩

theorem bit_mul_one_sub (j : Nat) : (bit l j * (1 - bit l j) : F) = 0 := by
  unfold bit
  split
  · rw [sub_self, mul_zero]
  · rw [zero_mul]

omit [PointGroup F G] [PointGroup.Lawful F G] in
theorem evalAt_weightPolynomial (x : F) (hi : i < ringSize) (hl : l < ringSize) :
    evalAt (weightPolynomial l secrets i) x =
      ∑ k : Fin ringDepth, (weightPolynomial l secrets i).getD k 0 * x ^ k.val
        + (if i = l then 1 else 0) * x ^ ringDepth := by
  obtain ⟨c0, c1, c2, h⟩ := exists_weightPolynomial_eq l i secrets hi hl
  rw [h, evalAt, ringDepth, Fin.sum_univ_three]
  simp only [List.foldr_cons, List.foldr_nil, List.getD_cons_zero, List.getD_cons_succ, Fin.val_zero,
    Fin.val_one, Fin.val_two]
  ring

/-- The sum of the ring, weighted with the coefficients of one degree. -/
def degreeSum (ring : List G) (k : Nat) : G :=
  combination ((((List.range ringSize).map (weightPolynomial l secrets)).map (·.getD k 0)).zip ring)

/-- What the weighted ring adds up to: a sum for each degree, and the hidden member at degree three. -/
theorem combination_weights (x : F) {ring : List G} (hring : ring.length = ringSize) {member : G}
    (hmember : ring[l]? = some member) :
    combination (((List.range ring.length).map fun i => evalAt (weightPolynomial l secrets i) x).zip
        ring) =
      ∑ k : Fin ringDepth, x ^ k.val • degreeSum l secrets ring k + x ^ ringDepth • member := by
  have hl : l < ringSize := by
    rw [← hring]
    exact (List.getElem?_eq_some_iff.mp hmember).1
  have hrange : ∀ f : Nat → F, (List.range ringSize).map f = List.ofFn fun i : Fin ringSize => f i := by
    intro f
    rw [List.ofFn_eq_map, ← List.map_coe_finRange_eq_range, List.map_map]
    rfl
  unfold degreeSum
  rw [hring]
  obtain ⟨r, rfl⟩ := exists_ofFn hring
  simp only [List.map_map, hrange, combination_zip_ofFn, Function.comp_def]
  have hmember : r ⟨l, hl⟩ = member := by
    simpa [hl] using hmember
  have hlead : ∑ i : Fin ringSize, (if i.val = l then (1 : F) else 0) • r i = member := by
    rw [Finset.sum_eq_single_of_mem ⟨l, hl⟩ (Finset.mem_univ _), if_pos rfl, one_smul, hmember]
    intro i _ hne
    rw [if_neg fun h => hne (Fin.ext h), zero_smul]
  calc ∑ i : Fin ringSize, evalAt (weightPolynomial l secrets i) x • r i
      = ∑ i : Fin ringSize, (∑ k : Fin ringDepth,
            x ^ k.val • (weightPolynomial l secrets i).getD k 0 • r i
          + x ^ ringDepth • (if i.val = l then (1 : F) else 0) • r i) := by
        refine Finset.sum_congr rfl fun i _ => ?_
        rw [evalAt_weightPolynomial l i secrets x i.isLt hl, add_smul, Finset.sum_smul]
        simp only [smul_smul, mul_comm]
    _ = _ := by
        rw [Finset.sum_add_distrib, Finset.sum_comm, ← Finset.smul_sum, hlead]
        simp only [Finset.smul_sum]

/-- What remains of a ring for responses that are linear in the challenge: a point for each degree, the
member at the position at degree three, and a blinding. -/
theorem remainder_eq {proof : RingProof F G} {x : F}
    (hf : proof.f = Vector.ofFn fun j : Fin ringDepth => bit l j.val * x + (secrets.get j).a)
    {ring : List G} (hring : ring.length = ringSize) {member : G} (hmember : ring[l]? = some member) :
    proof.remainder ring x =
      ∑ k : Fin ringDepth, x ^ k.val • (degreeSum l secrets ring k - proof.cd.get k)
        + x ^ ringDepth • member - proof.zd • (pedersen : PedersenBases G).blinding := by
  have hweight : weight proof.f x = fun i => evalAt (weightPolynomial l secrets i) x := by
    rw [hf]
    exact funext fun i => weight_eq_evalAt l i secrets x
  have hpoints : combination (((powers x ringDepth).map (- ·)).zip proof.cd.toList) =
      -∑ k : Fin ringDepth, x ^ k.val • proof.cd.get k := by
    have hcd : proof.cd.toList = List.ofFn fun k => proof.cd.get k := by
      obtain ⟨a, b, c, h⟩ := exists_eq_vector proof.cd
      rw [h]
      rfl
    rw [hcd, powers_eq_ofFn, List.map_ofFn, combination_zip_ofFn, ← Finset.sum_neg_distrib]
    exact Finset.sum_congr rfl fun k _ => neg_smul _ _
  unfold remainder
  rw [hweight, combination_append, combination_append, combination_weights l secrets x hring hmember,
    hpoints, combination_cons, combination_nil]
  simp only [smul_sub, Finset.sum_sub_distrib]
  module

/-- The equations by which the prover computes each part of a proof, for the challenge `x`. -/
structure Honest (ring : List G) (rand : F) (proof : RingProof F G) (x : F) : Prop where
  cl : ∀ j : Fin ringDepth, proof.cl.get j =
    Pedersen.commitAt .spendKey (bit l j.val) (secrets.get j).r
  ca : ∀ j : Fin ringDepth, proof.ca.get j =
    Pedersen.commitAt .spendKey (secrets.get j).a (secrets.get j).s
  cb : ∀ j : Fin ringDepth, proof.cb.get j =
    Pedersen.commitAt .spendKey (bit l j.val * (secrets.get j).a) (secrets.get j).t
  cd : proof.cd.toList = List.ofFn fun k : Fin ringDepth => degreeSum l secrets ring k
    + (secrets.get k).u • (pedersen : PedersenBases G).blinding
  f : proof.f = Vector.ofFn fun j => bit l j.val * x + (secrets.get j).a
  za : ∀ j : Fin ringDepth, proof.za.get j = (secrets.get j).r * x + (secrets.get j).s
  zb : ∀ j : Fin ringDepth, proof.zb.get j =
    (secrets.get j).r * (x - proof.f.get j) + (secrets.get j).t
  zd : proof.zd = rand * x ^ ringDepth - ∑ k : Fin ringDepth, (secrets.get k).u * x ^ k.val

/-! ## Responses -/

/-- The responses of a proof: all that depends on the challenge. -/
structure Responses (F : Type) where
  f : Vector F ringDepth
  za : Vector F ringDepth
  zb : Vector F ringDepth
  zd : F

omit [ScalarField F] [ScalarField.Lawful F] [PointGroup F G] [PointGroup.Lawful F G] in
/-- The points of a proof with other responses. -/
def withResponses (proof : RingProof F G) (z : Responses F) : RingProof F G :=
  { proof with f := z.f, za := z.za, zb := z.zb, zd := z.zd }

/-- The responses of the prover to the challenge `x`. -/
def respond (rand x : F) : Responses F :=
  let f := Vector.ofFn fun j : Fin ringDepth => bit l j.val * x + (secrets.get j).a
  let step := fun (state : F × F) (s : RingSecrets F) => (state.1 * x, state.2 + s.u * state.1)
  let masked := secrets.foldl step (1, 0)
  { f
    za := Vector.ofFn fun j => (secrets.get j).r * x + (secrets.get j).s
    zb := Vector.ofFn fun j => (secrets.get j).r * (x - f.get j) + (secrets.get j).t
    zd := rand * masked.1 - masked.2 }

omit [ScalarField.Lawful F] [PointGroup.Lawful F G] in
/-- The prover responds to the challenge that its points lead to. -/
theorem assemble_eq_withResponses (ring : List G) (rand : F) :
    let proof := assemble ring rand l secrets
    proof = proof.withResponses
      (respond l secrets rand (challenge ring proof.cl proof.ca proof.cb proof.cd)) := rfl

omit [PointGroup.Lawful F G] in
theorem honest_respond (ring : List G) (rand x : F) :
    Honest l secrets ring rand
      ((assemble ring rand l secrets).withResponses (respond l secrets rand x)) x where
  cl j := Vector.getElem_ofFn _
  ca j := Vector.getElem_ofFn _
  cb j := Vector.getElem_ofFn _
  cd := Vector.toList_ofFn
  f := rfl
  za j := Vector.getElem_ofFn _
  zb j := Vector.getElem_ofFn _
  zd := by
    have hfold : (respond l secrets rand x).zd = rand * (1 * x * x * x)
        - (0 + (secrets.get (0 : Fin 3)).u * 1 + (secrets.get (1 : Fin 3)).u * (1 * x)
          + (secrets.get (2 : Fin 3)).u * (1 * x * x)) := by
      obtain ⟨s0, s1, s2, rfl⟩ := exists_eq_vector secrets
      rfl
    have hsum : ∑ k : Fin ringDepth, (secrets.get k).u * x ^ k.val =
        (secrets.get (0 : Fin 3)).u * x ^ 0 + (secrets.get (1 : Fin 3)).u * x ^ 1
          + (secrets.get (2 : Fin 3)).u * x ^ 2 := Fin.sum_univ_three _
    have hpower : x ^ ringDepth = x * x * x := pow_three' x
    show (respond l secrets rand x).zd = _
    rw [hfold, hsum, hpower]
    ring

namespace Honest

variable {l secrets} {ring : List G} {rand : F} {proof : RingProof F G} {x : F}

omit [PointGroup.Lawful F G] in
theorem f_get (h : Honest l secrets ring rand proof x) (j : Fin ringDepth) :
    proof.f.get j = bit l j.val * x + (secrets.get j).a := by
  rw [h.f]
  exact Vector.getElem_ofFn _

omit [PointGroup.Lawful F G] in
theorem cd_get (h : Honest l secrets ring rand proof x) (k : Fin ringDepth) :
    proof.cd.get k = degreeSum l secrets ring k
      + (secrets.get k).u • (pedersen : PedersenBases G).blinding := by
  rw [Vector.toList_inj.mp (h.cd.trans Vector.toList_ofFn.symm)]
  exact Vector.getElem_ofFn _

/-- The response for a bit opens the challenge times its commitment plus that of its mask. -/
theorem bit_opening (h : Honest l secrets ring rand proof x) (j : Fin ringDepth) :
    x • proof.cl.get j + proof.ca.get j =
      Pedersen.commitAt .spendKey (proof.f.get j) (proof.za.get j) := by
  rw [h.cl, h.ca, h.f_get, h.za]
  unfold Pedersen.commitAt
  module

/-- As a bit times its complement is zero, only a blinding is left of the product. -/
theorem bit_product (h : Honest l secrets ring rand proof x) (j : Fin ringDepth) :
    (x - proof.f.get j) • proof.cl.get j + proof.cb.get j =
      proof.zb.get j • (pedersen : PedersenBases G).blinding := by
  have hbit := bit_mul_one_sub (F := F) l j
  rw [h.cl, h.cb, h.zb, h.f_get]
  unfold Pedersen.commitAt
  generalize (bit l j.val : F) = b at hbit ⊢
  generalize (pedersen : PedersenBases G).base Role.spendKey = base
  have hsplit : (x - (b * x + (secrets.get j).a)) • (b • base
        + (secrets.get j).r • (pedersen : PedersenBases G).blinding)
      + ((b * (secrets.get j).a) • base + (secrets.get j).t • (pedersen : PedersenBases G).blinding) =
      (x * (b * (1 - b))) • base
        + ((secrets.get j).r * (x - (b * x + (secrets.get j).a)) + (secrets.get j).t)
          • (pedersen : PedersenBases G).blinding := by module
  rw [hsplit, hbit, mul_zero, zero_smul, zero_add]

/-- Nothing remains of a ring whose hidden member opens to zero. -/
theorem remainder_eq_zero (h : Honest l secrets ring rand proof x) (hring : ring.length = ringSize)
    (hmember : ring[l]? = some (rand • (pedersen : PedersenBases G).blinding)) :
    proof.remainder ring x = 0 := by
  rw [remainder_eq l secrets h.f hring hmember, h.zd]
  simp only [h.cd_get, sub_add_cancel_left, smul_neg, Finset.sum_neg_distrib, smul_smul, mul_comm,
    ← Finset.sum_smul]
  module

end Honest

/-- The responses to any challenge are accepted. -/
theorem holds_respond {ring : List G} (rand x : F) (hring : ring.length = ringSize)
    (hmember : ring[l]? = some (rand • (pedersen : PedersenBases G).blinding)) :
    ((assemble ring rand l secrets).withResponses (respond l secrets rand x)).Holds ring x := by
  have h := honest_respond l secrets ring rand x
  exact ⟨h.bit_opening, h.bit_product, h.remainder_eq_zero hring hmember⟩

/-- What the prover returns on a tape: a proof if the ring has the right size and its member opens to
zero, and nothing otherwise. -/
theorem runOn_prove_eq_ok_iff {ring : List G} {rand : F} {l : Nat} {t : Tape}
    {proof : RingProof F G} :
    ((prove ring rand l).runOn t).1 = .ok proof ↔
      ring.length = ringSize ∧ ring[l]? = some (rand • (pedersen : PedersenBases G).blinding) ∧
        assemble ring rand l (drawAllSecrets.run t).1 = proof := by
  unfold prove
  simp only [Proving.runOn_outcome_bind_eq_ok_iff, Proving.runOn_lift_bind, Proving.runOn_pure,
    ensure_eq_ok_iff, require_eq_ok_iff, beq_iff_eq, Except.ok.injEq, Pedersen.commitAt_zero_left]
  constructor
  · rintro ⟨_, hring, member, hmember, _, rfl, hproof⟩
    exact ⟨hring, hmember, hproof⟩
  · rintro ⟨hring, hmember, hproof⟩
    exact ⟨(), hring, _, hmember, (), rfl, hproof⟩

/-- A proof is returned for a ring of the right size whose member opens to zero. -/
theorem succeeds_prove {ring : List G} {rand : F} {l : Nat} (hring : ring.length = ringSize)
    (hmember : ring[l]? = some (Pedersen.commitAt .spendKey (0 : F) rand)) :
    (prove ring rand l).Succeeds := by
  intro t
  rw [Pedersen.commitAt_zero_left] at hmember
  exact ⟨_, _, Prod.ext (runOn_prove_eq_ok_iff.mpr ⟨hring, hmember, rfl⟩) rfl⟩

/-- A proof made by the prover is accepted on the ring that it was made for. -/
theorem verify_assemble {ring : List G} (rand : F) (hring : ring.length = ringSize)
    (hmember : ring[l]? = some (rand • (pedersen : PedersenBases G).blinding)) :
    (assemble ring rand l secrets).verify ring = .ok () := by
  rw [verify_eq_ok_iff, assemble_eq_withResponses]
  exact ⟨hring, holds_respond l secrets rand _ hring hmember⟩

/-- **Every ring proof that is returned is accepted**, on the ring that it was made for. -/
theorem verify_of_returns {ring : List G} {rand : F} {l : Nat} {proof : RingProof F G}
    (h : (prove ring rand l).Returns proof) : proof.verify ring = .ok () := by
  obtain ⟨t, t', hrun⟩ := h
  obtain ⟨hring, hmember, rfl⟩ := runOn_prove_eq_ok_iff.mp (congrArg Prod.fst hrun)
  exact verify_assemble l _ rand hring hmember

end ShieldedPayments.RingProof
