import ShieldedPayments.Argument.RingMember
import ShieldedPayments.Proofs.Argument.HonestRange
import ShieldedPayments.Proofs.Argument.InnerProductByIndex
import ShieldedPayments.Proofs.Group.Bases

/-!
# Arguments are checked by index

The checks of ring proofs and range proofs, with an index into every vector and with operations that have
a range. They do what the checks over lists do: whatever the number of rounds and of commitments in a
proof, all that is read of bases, weights and powers is there.

* `RingProof.verifyByIndex_eq`, `RangeProof.verifyByIndex_eq`: both checks do the same.
* `RingProof.defined_verify`, `RangeProof.defined_verify`: no proof makes them undefined.
-/

namespace ShieldedPayments

variable {F G : Type} [ScalarField F] [PointGroup F G]

/-! ## Ring proofs -/

namespace RingProof

/-- Refuses a proof unless the identities for bit `j` hold for the challenge `x`. -/
def checkBitByIndex (proof : RingProof F G) (x : F) (j : Nat) : Outcome Unit := do
  let cl ← elementAt proof.cl.toList j
  let ca ← elementAt proof.ca.toList j
  let f ← elementAt proof.f.toList j
  let za ← elementAt proof.za.toList j
  ensure (x • cl + ca == Pedersen.commitAt .spendKey f za)
    (.proofVerificationFailed "one-out-of-many: bit opening")
  let cb ← elementAt proof.cb.toList j
  let zb ← elementAt proof.zb.toList j
  ensure ((x - f) • cl + cb == zb • (pedersen : PedersenBases G).blinding)
    (.proofVerificationFailed "one-out-of-many: bit product")

theorem checkBitByIndex_eq (proof : RingProof F G) (x : F) (j : Fin ringDepth) :
    proof.checkBitByIndex x j = proof.checkBit x j := by
  unfold checkBitByIndex
  simp only [elementAt_toList]
  rfl

/-- The weight of the ring member at position `i`. -/
def weightByIndex (f : Vector F ringDepth) (x : F) (i : Nat) : Outcome F :=
  (List.finRange ringDepth).foldlM (fun acc (j : Fin ringDepth) => do
    let fj ← elementAt f.toList j
    return if i.testBit j then acc * fj else acc * (x - fj)) 1

theorem weightByIndex_eq (f : Vector F ringDepth) (x : F) (i : Nat) :
    weightByIndex f x i = .ok (weight f x i) := by
  refine Outcome.foldlM_eq_foldl (fun acc j => ?_) _ _
  rw [elementAt_toList]
  rfl

/-- The sum over the ring, the cancelling points and the blinding base. -/
def remainderByIndex (proof : RingProof F G) (ring : List G) (x : F) : Outcome G := do
  let weights ← (List.range ring.length).mapM (weightByIndex proof.f x)
  pairedCombination (weights ++ (powers x ringDepth).map (- ·) ++ [-proof.zd])
    (ring ++ proof.cd.toList ++ [(pedersen : PedersenBases G).blinding])

theorem remainderByIndex_eq (proof : RingProof F G) (ring : List G) (x : F) :
    proof.remainderByIndex ring x = .ok (proof.remainder ring x) := by
  have hweights : (List.range ring.length).mapM (weightByIndex proof.f x) =
      .ok ((List.range ring.length).map (weight proof.f x)) :=
    Outcome.mapM_eq_map fun i _ => weightByIndex_eq proof.f x i
  have hring : ((List.range ring.length).map (weight proof.f x)).length = ring.length := by
    rw [List.length_map, List.length_range]
  have hcd : ((powers x ringDepth).map (- ·)).length = proof.cd.toList.length := by
    rw [List.length_map, length_powers, Vector.length_toList]
  rw [remainderByIndex, hweights]
  exact (((Paired.of_length hring).append (Paired.of_length hcd)).append
    (Paired.single _ _)).combination_eq

/-- Refuses a proof that does not hold for a ring. -/
def verifyByIndex (proof : RingProof F G) (ring : List G) : Outcome Unit := do
  ensure (ring.length == ringSize) (.invalidInput "ring size")
  let x : F := challenge ring proof.cl proof.ca proof.cb proof.cd
  (List.finRange ringDepth).forM fun j => proof.checkBitByIndex x j
  ensure ((← proof.remainderByIndex ring x) == 0)
    (.proofVerificationFailed "one-out-of-many: ring relation")

theorem verifyByIndex_eq (proof : RingProof F G) (ring : List G) :
    proof.verifyByIndex ring = proof.verify ring := by
  unfold verifyByIndex verify checkAt
  simp only [checkBitByIndex_eq, remainderByIndex_eq]
  rfl

theorem defined_verify (proof : RingProof F G) (ring : List G) : (proof.verify ring).Defined := by
  refine (Outcome.defined_ensure (by nofun)).bind fun _ _ => ?_
  refine Outcome.Defined.bind ?_ fun _ _ => Outcome.defined_ensure (by nofun)
  refine Outcome.defined_forM fun j _ => ?_
  exact (Outcome.defined_ensure (by nofun)).bind fun _ _ => Outcome.defined_ensure (by nofun)

end RingProof

/-! ## Range proofs -/

namespace RangeProof

/-- What is left of the commitment to the constant term, with a weight for each commitment. -/
def polynomialRemainderByIndex (proof : RangeProof F G) (base : G) (padded : Nat) (x y z : F) :
    Outcome G :=
  pairedCombination
    ([proof.tHat - delta y z padded, proof.tauX, -x, -(x * x)]
      ++ ((zWeights z padded).take proof.commitments.length).map (- ·))
    ([base, (pedersen : PedersenBases G).blinding, proof.t1, proof.t2] ++ proof.commitments)

theorem polynomialRemainderByIndex_eq (proof : RangeProof F G) (base : G) {padded : Nat} (x y z : F)
    (hcount : proof.commitments.length ≤ padded) :
    proof.polynomialRemainderByIndex base padded x y z =
      .ok (proof.polynomialRemainder base padded x y z) := by
  have hlength : (((zWeights z padded).take proof.commitments.length).map (- ·)).length =
      proof.commitments.length := by
    rw [List.length_map, List.length_take, length_zWeights, min_eq_left hcount]
  have hzip : ((zWeights z padded).map (- ·)).zip proof.commitments =
      (((zWeights z padded).take proof.commitments.length).map (- ·)).zip proof.commitments := by
    have hmin : min ((zWeights z padded).map (- ·)).length proof.commitments.length =
        proof.commitments.length := by
      rw [List.length_map, length_zWeights, min_eq_right hcount]
    rw [List.zip_eq_zip_take_min, hmin, List.take_length, List.map_take]
  have hfirst : Paired [proof.tHat - delta y z padded, proof.tauX, -x, -(x * x)]
      [base, (pedersen : PedersenBases G).blinding, proof.t1, proof.t2] _ := ⟨rfl, rfl⟩
  exact (hfirst.append ⟨hlength, hzip.symm⟩).combination_eq

/-- The factor of base `i` of the other kind in the statement. -/
def statementFactorByIndex (z : F) (weights twos yInverses : List F) (i : Nat) : Outcome F := do
  let weight ← elementAt weights (i / valueBits)
  let two ← elementAt twos (i % valueBits)
  return z + weight * two * (← elementAt yInverses i)

/-- An element of a list that is made of blocks, one for each element of another list. -/
theorem getElem?_flatMap_map {α β γ : Type} (f : α → β → γ) (as : List α) (bs : List β) (i : Nat)
    (hbs : bs ≠ []) : (as.flatMap fun a => bs.map (f a))[i]? =
      as[i / bs.length]?.bind fun a => bs[i % bs.length]?.map (f a) := by
  have hpos : 0 < bs.length := List.length_pos_iff.mpr hbs
  induction as generalizing i with
  | nil => rfl
  | cons a as ih =>
    rw [List.flatMap_cons]
    rcases Nat.lt_or_ge i bs.length with hlt | hge
    · rw [List.getElem?_append_left (by rw [List.length_map]; exact hlt), Nat.div_eq_of_lt hlt,
        Nat.mod_eq_of_lt hlt, List.getElem?_map]
      rfl
    · rw [List.getElem?_append_right (by rw [List.length_map]; exact hge), List.length_map, ih,
        Nat.div_eq_sub_div hpos hge, Nat.mod_eq_sub_mod hge]
      rfl

theorem bitWeights_eq_some {z : F} {padded i : Nat} {weight two : F}
    (hweight : (zWeights z padded)[i / valueBits]? = some weight)
    (htwo : (powers (ofNat 2 : F) valueBits)[i % valueBits]? = some two) :
    (bitWeights z padded)[i]? = some (weight * two) := by
  have htwos : powers (ofNat 2 : F) valueBits ≠ [] := List.cons_ne_nil _ _
  rw [bitWeights, getElem?_flatMap_map _ _ _ _ htwos, length_powers, hweight, Option.bind_some, htwo,
    Option.map_some]

theorem mapM_statementFactorByIndex (z y : F) (padded : Nat) :
    (List.range (padded * valueBits)).mapM (statementFactorByIndex z (zWeights z padded)
      (powers (ofNat 2 : F) valueBits) (powers y (padded * valueBits))) =
        .ok (List.zipWith (fun weight yi => z + weight * yi) (bitWeights z padded)
          (powers y (padded * valueBits))) := by
  have hlength : (List.zipWith (fun weight yi => z + weight * yi) (bitWeights z padded)
      (powers y (padded * valueBits))).length = padded * valueBits := by
    rw [List.length_zipWith, length_bitWeights, length_powers, min_self]
  refine Outcome.mapM_range_eq hlength fun i hi => ?_
  rw [hlength] at hi
  have hdiv : i / valueBits < (zWeights z padded).length := by
    rw [length_zWeights]
    exact Nat.div_lt_of_lt_mul (by rwa [mul_comm])
  have hmod : i % valueBits < (powers (ofNat 2 : F) valueBits).length := by
    rw [length_powers]
    exact Nat.mod_lt i (by decide)
  have hpower : i < (powers y (padded * valueBits)).length := by rwa [length_powers]
  have hbits := bitWeights_eq_some (List.getElem?_eq_getElem hdiv) (List.getElem?_eq_getElem hmod)
  rw [statementFactorByIndex, elementAt_eq hdiv, Outcome.ok_bind, elementAt_eq hmod, Outcome.ok_bind,
    elementAt_eq hpower, Outcome.ok_bind, List.getElem_zipWith,
    (List.getElem_eq_iff (by rwa [length_bitWeights])).mpr hbits]
  rfl

/-- The statement that the inner-product argument has to be about, for bases of length `length`. -/
def expectedStatementByIndex (proof : RangeProof F G) (g h : List G) (padded : Nat) (x y z w : F) :
    Outcome G := do
  let length := padded * valueBits
  let hFactors ← (List.range length).mapM (statementFactorByIndex z (zWeights z padded)
    (powers (ofNat 2 : F) valueBits) (powers y⁻¹ length))
  pairedCombination
    ([1, x, -proof.mu, w * proof.tHat] ++ List.replicate length (-z) ++ hFactors)
    ([proof.a, proof.s, (pedersen : PedersenBases G).blinding,
      (PointGroup.innerProduct : InnerProductBases G).inner] ++ g ++ h)

theorem expectedStatementByIndex_eq (proof : RangeProof F G) {g h : List G} {padded : Nat}
    (x y z w : F) (hg : g.length = padded * valueBits) (hh : h.length = padded * valueBits) :
    proof.expectedStatementByIndex g h padded x y z w =
      .ok (proof.expectedStatement g h padded x y z w) := by
  have hfirst : Paired [1, x, -proof.mu, w * proof.tHat]
      [proof.a, proof.s, (pedersen : PedersenBases G).blinding,
        (PointGroup.innerProduct : InnerProductBases G).inner] _ := ⟨rfl, rfl⟩
  have hlength : (List.zipWith (fun weight yi => z + weight * yi) (bitWeights z padded)
      (powers y⁻¹ (padded * valueBits))).length = h.length := by
    rw [List.length_zipWith, length_bitWeights, length_powers, min_self, hh]
  have hleft : Paired (List.replicate (padded * valueBits) (-z)) g (g.map fun p => (-z, p)) :=
    hg ▸ Paired.replicate (-z) g
  rw [expectedStatementByIndex, mapM_statementFactorByIndex, Outcome.ok_bind]
  exact ((hfirst.append hleft).append (Paired.of_length hlength)).combination_eq

/-- Refuses a number of rounds that does not fit bases of the given length. -/
def checkSizeByIndex (rounds length : Nat) : Outcome Unit := do
  let wrongSize := Fault.proofVerificationFailed "range proof: inner product size"
  ensure (rounds < wordBits) wrongSize
  ensure ((← shiftedOne rounds) == length) wrongSize

/-- With as many rounds as a machine word has bits there would be more bases than there are. -/
theorem rounds_lt_wordBits {rounds length : Nat} (hlargest : length ≤ InnerProductBases.largest)
    (hrounds : 1 <<< rounds = length) : rounds < wordBits := by
  by_contra hge
  have hpow : 2 ^ wordBits ≤ 2 ^ rounds := Nat.pow_le_pow_right two_pos (not_lt.mp hge)
  have hsmall : InnerProductBases.largest < 2 ^ wordBits := by decide
  rw [Nat.one_shiftLeft] at hrounds
  omega

theorem checkSizeByIndex_eq {rounds length : Nat} (hlargest : length ≤ InnerProductBases.largest) :
    checkSizeByIndex rounds length =
      ensure (1 <<< rounds == length) (.proofVerificationFailed "range proof: inner product size") := by
  unfold checkSizeByIndex
  by_cases hword : rounds < wordBits
  · rw [decide_eq_true hword, shiftedOne_eq hword]
    rfl
  · have hne : 1 <<< rounds ≠ length := fun h => hword (rounds_lt_wordBits hlargest h)
    rw [decide_eq_false hword, beq_eq_false_iff_ne.mpr hne]
    rfl

/-- Refuses a proof that does not hold over a base. -/
def verifyByIndex (proof : RangeProof F G) (check : RangeCheck) (base : G) : Outcome Unit := do
  let padded ← paddedCount proof.commitments.length
  let length := padded * valueBits
  checkSizeByIndex proof.argument.rounds.length length
  let bases : InnerProductBases G := PointGroup.innerProduct
  let g ← slice bases.left 0 length
  let h ← slice bases.right 0 length
  let (y, z, t) : F × F × Transcript :=
    challengesYZ (transcript proof.version base proof.commitments padded) proof.a proof.s
  let (x, t) : F × Transcript := challengeX t proof.t1 proof.t2
  let (w, t) := challengeW t proof.tauX proof.tHat proof.mu
  ensure ((← proof.polynomialRemainderByIndex base padded x y z) == 0)
    (.proofVerificationFailed "range proof: polynomial check")
  ensure ((← proof.expectedStatementByIndex g h padded x y z w) == proof.argument.p)
    (.proofVerificationFailed "range proof: inner product statement")
  let u := w • bases.inner
  let yInverses := powers y⁻¹ length
  let holds ← match check with
    | .singleSum => proof.argument.verifyScaledByIndex t g h yInverses u
    | .folding => proof.argument.verifyByIndex t g (scaledBases h yInverses) u
  ensure holds (.proofVerificationFailed "range proof: inner product argument")

/-- **A range proof is checked within range.** However many rounds and commitments a proof has, its
check by index does what the check over lists does. -/
theorem verifyByIndex_eq [PointGroup.FullBases F G] (proof : RangeProof F G) (check : RangeCheck)
    (base : G) : proof.verifyByIndex check base = proof.verify check base := by
  unfold verifyByIndex verify
  cases hcount : paddedCount proof.commitments.length with
  | error fault => rfl
  | ok padded =>
    obtain ⟨hle, hlargest, -⟩ := paddedCount_bounds hcount
    rw [Outcome.ok_bind, Outcome.ok_bind]
    dsimp only
    rw [checkSizeByIndex_eq hlargest]
    by_cases hsize : 1 <<< proof.argument.rounds.length = padded * valueBits
    swap
    · rw [beq_eq_false_iff_ne.mpr hsize]
      rfl
    -- The proof has as many rounds as its bases allow; there are enough bases, as there are few commitments.
    have hrounds := rounds_lt_wordBits hlargest hsize
    have hleft : padded * valueBits ≤ (PointGroup.innerProduct : InnerProductBases G).left.length := by
      rw [PointGroup.FullBases.length_left]
      exact hlargest
    have hright : padded * valueBits ≤ (PointGroup.innerProduct : InnerProductBases G).right.length := by
      rw [PointGroup.FullBases.length_right]
      exact hlargest
    have hpolynomial := fun x y z => proof.polynomialRemainderByIndex_eq base x y z hle
    have hstatement := fun x y z w => proof.expectedStatementByIndex_eq x y z w
      (List.length_take_of_le hleft) (List.length_take_of_le hright)
    rw [beq_iff_eq.mpr hsize, slice_zero hleft, slice_zero hright]
    simp only [Outcome.ok_bind, hpolynomial, hstatement]
    cases check with
    | folding =>
      simp only [InnerProductProof.verifyByIndex_eq _ _ _ _ _ hrounds]
      rfl
    | singleSum =>
      simp only [InnerProductProof.verifyScaledByIndex_eq _ _ _ _ _ _ hrounds]
      rfl

theorem defined_verify (proof : RangeProof F G) (check : RangeCheck) (base : G) :
    (proof.verify check base).Defined := by
  refine (defined_paddedCount _).bind fun padded _ => ?_
  dsimp only
  refine (Outcome.defined_ensure (by nofun)).bind fun _ _ => ?_
  refine (Outcome.defined_ensure (by nofun)).bind fun _ _ => ?_
  refine (Outcome.defined_ensure (by nofun)).bind fun _ _ => ?_
  exact Outcome.defined_ensure (by nofun)

end RangeProof

end ShieldedPayments
