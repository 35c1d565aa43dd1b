import ShieldedPayments.Proofs.Argument.HonestRing
import ShieldedPayments.Proofs.Group.Interpolation
import ShieldedPayments.Proofs.Group.Plane

/-!
# Ring proofs are special sound

Whoever responds to four challenges for the same points of a ring proof knows a member of the ring that
opens to zero. The argument needs bases of spend keys and blindings that are linearly independent, so
that no commitment has two openings.

* `RingProof.exists_openings`: two responses open the commitments to a bit of the position and to its
  mask.
* `RingProof.bit_of_openings`: the product of the bit and its complement is zero.
* `RingProof.f_get_of_openings`: every other accepted response for the bit is linear in the challenge.
* `RingProof.member_opens_of_four_answers`: the weighted ring is a polynomial of degree three in the
  challenge, whose highest coefficient is the member at the position. Its values are multiples of the
  blinding base, up to points that were fixed before, and so is the member.
-/

namespace ShieldedPayments.RingProof

open PointGroup

section

variable {F G : Type} [ScalarField F] [ScalarField.Lawful F] [PointGroup F G] [PointGroup.Lawful F G]

omit [PointGroup F G] [PointGroup.Lawful F G] in
/-- Scalars that are zero or one are the bits of a position. -/
theorem exists_position {b : Fin ringDepth → F} (hb : ∀ j, b j = 0 ∨ b j = 1) :
    ∃ l < ringSize, ∀ j : Fin ringDepth, bit l j.val = b j := by
  have hposition : ∀ c : Fin ringDepth → Bool, ∃ l < ringSize, ∀ j : Fin ringDepth,
      l.testBit j = c j := by decide
  obtain ⟨l, hl, hbits⟩ := hposition fun j => b j == 1
  refine ⟨l, hl, fun j => ?_⟩
  rw [bit, hbits j]
  rcases hb j with h | h
  · rw [h, if_neg (by simp)]
  · rw [h, if_pos (by simp)]

/-! ## Openings of the bits -/

section

variable {proof : RingProof F G} {ring : List G} {z w : Responses F} {x y : F}

/-- Two responses open the commitments to a bit and to its mask. -/
theorem exists_openings (hxy : x ≠ y) (hx : (proof.withResponses z).Holds ring x)
    (hy : (proof.withResponses w).Holds ring y) (j : Fin ringDepth) :
    ∃ b r a s, proof.cl.get j = Pedersen.commitAt .spendKey b r ∧
      proof.ca.get j = Pedersen.commitAt .spendKey a s := by
  have hopening : x • proof.cl.get j + proof.ca.get j =
      Pedersen.commitAt .spendKey (z.f.get j) (z.za.get j) := hx.opening j
  have hslope := (eq_inv_smul_sub hxy hopening (hy.opening j)).trans
    (Pedersen.smul_commitAt_sub _ _ _ _ _ _)
  have hmask := eq_sub_of_add_eq' hopening
  rw [hslope, Pedersen.commitAt_sub_smul] at hmask
  exact ⟨_, _, _, _, hslope, hmask⟩

variable (hbases : LinearIndependent F
  ![(pedersen : PedersenBases G).spendKey, (pedersen : PedersenBases G).blinding])
include hbases

/-- Commitments under independent bases have one opening. -/
theorem commitAt_spendKey_inj {v v' r r' : F}
    (h : (Pedersen.commitAt .spendKey v r : G) = Pedersen.commitAt .spendKey v' r') :
    v = v' ∧ r = r' :=
  hbases.eq_of_pair h

variable {j : Fin ringDepth} {b r a s : F} (hcl : proof.cl.get j = Pedersen.commitAt .spendKey b r)
  (hca : proof.ca.get j = Pedersen.commitAt .spendKey a s)
include hcl hca

/-- Once the commitments to a bit and to its mask are open, the response is linear in the challenge. -/
theorem f_get_of_openings (h : (proof.withResponses z).Holds ring x) : z.f.get j = b * x + a := by
  have hopening : x • proof.cl.get j + proof.ca.get j =
      Pedersen.commitAt .spendKey (z.f.get j) (z.za.get j) := h.opening j
  have hlinear : x • (Pedersen.commitAt .spendKey b r : G) + Pedersen.commitAt .spendKey a s =
      Pedersen.commitAt .spendKey (b * x + a) (r * x + s) := by
    unfold Pedersen.commitAt
    module
  rw [hcl, hca, hlinear] at hopening
  exact (commitAt_spendKey_inj hbases hopening).1.symm

/-- What is committed to as a bit is zero or one: the difference of both product equations is a
commitment to a multiple of the bit and its complement, and has nothing but a blinding. -/
theorem bit_of_openings (hxy : x ≠ y) (hx : (proof.withResponses z).Holds ring x)
    (hy : (proof.withResponses w).Holds ring y) : b = 0 ∨ b = 1 := by
  have hproductx : (x - z.f.get j) • proof.cl.get j + proof.cb.get j =
      z.zb.get j • (pedersen : PedersenBases G).blinding := hx.product j
  have hproducty : (y - w.f.get j) • proof.cl.get j + proof.cb.get j =
      w.zb.get j • (pedersen : PedersenBases G).blinding := hy.product j
  have hdifference : ((x - z.f.get j) - (y - w.f.get j)) • proof.cl.get j =
      (z.zb.get j - w.zb.get j) • (pedersen : PedersenBases G).blinding := by
    rw [sub_smul, sub_smul (z.zb.get j), ← hproductx, ← hproducty, add_sub_add_right_eq_sub]
  rw [f_get_of_openings hbases hcl hca hx, f_get_of_openings hbases hcl hca hy, hcl] at hdifference
  have hcommitments :
      Pedersen.commitAt .spendKey ((x - y) * ((1 - b) * b)) ((x - y) * ((1 - b) * r)) =
        (Pedersen.commitAt .spendKey 0 (z.zb.get j - w.zb.get j) : G) := by
    rw [Pedersen.commitAt_zero_left, ← hdifference]
    unfold Pedersen.commitAt
    module
  have hzero := (commitAt_spendKey_inj hbases hcommitments).1
  have hbit : (1 - b) * b = 0 := (mul_eq_zero.mp hzero).resolve_left (sub_ne_zero.mpr hxy)
  rcases mul_eq_zero.mp hbit with h | h
  · exact .inr (sub_eq_zero.mp h).symm
  · exact .inl h

end

/-! ## The member at the position -/

/-- Responses that are linear in the challenge make the weighted ring a polynomial, of which the member
at the position is the highest coefficient. Where nothing remains, its values are multiples of the
blinding base. -/
theorem member_opens_of_linear {ring : List G} (hring : ring.length = ringSize)
    {proof : RingProof F G} {l : Nat} (hl : l < ringSize)
    {secrets : Vector (RingSecrets F) ringDepth} {responses : Fin (ringDepth + 1) → Responses F}
    {x : Fin (ringDepth + 1) → F} (hx : Function.Injective x)
    (hf : ∀ i, (responses i).f =
      Vector.ofFn fun j : Fin ringDepth => bit l j.val * x i + (secrets.get j).a)
    (hrelation : ∀ i, (proof.withResponses (responses i)).remainder ring (x i) = 0) :
    ∃ rand : F, ring[l]? = some (rand • (pedersen : PedersenBases G).blinding) := by
  obtain ⟨member, hmember⟩ : ∃ member, ring[l]? = some member :=
    ⟨_, List.getElem?_eq_getElem (hring ▸ hl)⟩
  let coefficient : Fin (ringDepth + 1) → G :=
    Fin.snoc (fun k : Fin ringDepth => degreeSum l secrets ring k - proof.cd.get k) member
  have hvalue : ∀ i, ∑ k : Fin (ringDepth + 1), x i ^ k.val • coefficient k =
      (responses i).zd • (pedersen : PedersenBases G).blinding := by
    intro i
    have hremainder := hrelation i
    rw [remainder_eq l secrets (hf i) hring hmember, sub_eq_zero] at hremainder
    simp only [Fin.sum_univ_castSucc, coefficient, Fin.snoc_castSucc, Fin.snoc_last, Fin.val_castSucc,
      Fin.val_last]
    exact hremainder
  refine ⟨∑ i, topWeight x i * (responses i).zd, hmember.trans (congrArg some ?_)⟩
  calc member = coefficient (Fin.last ringDepth) := by
        simp only [coefficient, Fin.snoc_last]
    _ = ∑ i, topWeight x i • ∑ k : Fin (ringDepth + 1), x i ^ k.val • coefficient k :=
        (sum_topWeight_smul hx coefficient).symm
    _ = (∑ i, topWeight x i * (responses i).zd) • (pedersen : PedersenBases G).blinding := by
        simp only [hvalue, smul_smul, Finset.sum_smul]

/-- **Ring proofs are special sound.** If the points of a proof have accepted responses to four different
challenges, the proof commits to the bits of a position, and the ring member at that position is a
multiple of the blinding base. -/
theorem member_opens_of_four_answers
    (hbases : LinearIndependent F
      ![(pedersen : PedersenBases G).spendKey, (pedersen : PedersenBases G).blinding])
    {ring : List G} (hring : ring.length = ringSize) (proof : RingProof F G)
    {responses : Fin 4 → Responses F} {x : Fin 4 → F} (hx : Function.Injective x)
    (haccepted : ∀ i, (proof.withResponses (responses i)).checkAt ring (x i) = .ok ()) :
    ∃ l < ringSize,
      (∀ j : Fin ringDepth, ∃ r, proof.cl.get j = Pedersen.commitAt .spendKey (bit l j.val) r) ∧
      ∃ rand : F, ring[l]? = some (rand • (pedersen : PedersenBases G).blinding) := by
  have hholds := fun i => (checkAt_eq_ok_iff _ _ _).mp (haccepted i)
  have hxy : x 0 ≠ x 1 := hx.ne (by decide)
  choose b r a s hcl hca using exists_openings hxy (hholds 0) (hholds 1)
  obtain ⟨l, hl, hbit⟩ := exists_position fun j =>
    bit_of_openings hbases (hcl j) (hca j) hxy (hholds 0) (hholds 1)
  refine ⟨l, hl, fun j => ⟨r j, hbit j ▸ hcl j⟩, ?_⟩
  -- Only the masks enter the weights, so the other secrets may be anything.
  let secrets : Vector (RingSecrets F) ringDepth := Vector.ofFn fun j => ⟨0, a j, 0, 0, 0⟩
  have hf : ∀ i, (responses i).f =
      Vector.ofFn fun j : Fin ringDepth => bit l j.val * x i + (secrets.get j).a := by
    intro i
    refine Vector.ext fun j hj => ?_
    have hlinear := f_get_of_openings hbases (hcl ⟨j, hj⟩) (hca ⟨j, hj⟩) (hholds i)
    rw [← hbit] at hlinear
    have hmask : (secrets.get ⟨j, hj⟩).a = a ⟨j, hj⟩ :=
      congrArg RingSecrets.a (Vector.getElem_ofFn hj)
    rw [Vector.getElem_ofFn, hmask]
    exact hlinear
  exact member_opens_of_linear hring hl hx hf fun i => (hholds i).relation

end

/-! ## Four answers of an honest prover -/

open Curve (Scalar)

/-- Eight points of the plane, of which the one at position five is three times the blinding base. -/
def planeRing : List Plane :=
  [⟨1, 0⟩, ⟨1, 1⟩, ⟨0, 0⟩, ⟨2, 3⟩, ⟨4, 4⟩, ⟨0, 3⟩, ⟨7, 0⟩, ⟨1, 9⟩]

/-- Some random scalars of a prover. -/
def planeSecrets : Vector (RingSecrets Scalar) ringDepth :=
  #v[⟨1, 2, 3, 4, 5⟩, ⟨6, 7, 8, 9, 10⟩, ⟨11, 12, 13, 14, 15⟩]

/-- The challenges one to four. -/
def planeChallenge (i : Fin 4) : Scalar :=
  ofNat (i.val + 1)

theorem member_opens_of_honest_answers :
    LinearIndependent Scalar ![(pedersen : PedersenBases Plane).spendKey,
      (pedersen : PedersenBases Plane).blinding] ∧
    planeRing.length = ringSize ∧ Function.Injective planeChallenge ∧
    (∀ i, ((assemble planeRing 3 5 planeSecrets).withResponses
      (respond 5 planeSecrets 3 (planeChallenge i))).checkAt planeRing (planeChallenge i) = .ok ()) ∧
    ∃ l < ringSize,
      (∀ j : Fin ringDepth, ∃ r, (assemble planeRing (3 : Scalar) 5 planeSecrets).cl.get j =
        Pedersen.commitAt .spendKey (bit l j.val) r) ∧
      ∃ rand : Scalar, planeRing[l]? = some (rand • (pedersen : PedersenBases Plane).blinding) := by
  have hring : planeRing.length = ringSize := rfl
  have hchallenges : Function.Injective planeChallenge := by decide
  have hmember : planeRing[5]? = some ((3 : Scalar) • (pedersen : PedersenBases Plane).blinding) := by
    decide
  have haccepted : ∀ i, ((assemble planeRing 3 5 planeSecrets).withResponses
      (respond 5 planeSecrets 3 (planeChallenge i))).checkAt planeRing (planeChallenge i) = .ok () :=
    fun i => (checkAt_eq_ok_iff _ _ _).mpr (holds_respond 5 planeSecrets 3 _ hring hmember)
  exact ⟨Plane.linearIndependent_bases, hring, hchallenges, haccepted,
    member_opens_of_four_answers Plane.linearIndependent_bases hring _ hchallenges haccepted⟩

end ShieldedPayments.RingProof
