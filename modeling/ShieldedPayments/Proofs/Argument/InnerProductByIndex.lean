import ShieldedPayments.Proofs.Argument.FoldFactors
import ShieldedPayments.Proofs.Argument.InnerProduct
import ShieldedPayments.Proofs.InRange

/-!
# Inner products are checked by index

Both checks of the inner-product argument, with an index into the bases, the factors and the challenges.
They do what the checks over lists do, for every proof with fewer rounds than a machine word has bits.

* `InnerProductProof.verifyByIndex_eq`: each round finds the halves of the bases that it folds.
* `InnerProductProof.verifyScaledByIndex_eq`: each factor is made from one that is there.
-/

namespace ShieldedPayments.InnerProductProof

variable {F G : Type} [ScalarField F] [PointGroup F G]

/-- Whether the number of rounds fits bases of length `n`. -/
def fitsByIndex (proof : InnerProductProof F G) (n : Nat) : Outcome Bool := do
  if 1 <<< n.log2 ≠ n then return false
  return (← shiftedOne proof.rounds.length) == n

omit [ScalarField F] [PointGroup F G] in
theorem fitsByIndex_eq (proof : InnerProductProof F G) {n : Nat}
    (hrounds : proof.rounds.length < wordBits) :
    proof.fitsByIndex n = .ok (1 <<< proof.rounds.length == n) := by
  unfold fitsByIndex
  rw [shiftedOne_eq hrounds]
  by_cases hpower : 1 <<< n.log2 = n
  · rw [if_neg (not_not_intro hpower)]
    rfl
  · have hother : 1 <<< proof.rounds.length ≠ n := by
      rintro rfl
      rw [Nat.one_shiftLeft, Nat.one_shiftLeft, Nat.log2_two_pow] at hpower
      exact hpower rfl
    rw [if_pos hpower, beq_eq_false_iff_ne.mpr hother]
    rfl

/-! ## Folding -/

/-- Folds the two halves of points, of length `n` each. -/
def foldByIndex (x y : F) (ps : List G) (n : Nat) : Outcome (List G) := do
  let lo ← slice ps 0 n
  let hi ← slice ps n ps.length
  (List.range n).mapM fun i => do
    return combination [(x, ← elementAt lo i), (y, ← elementAt hi i)]

omit [ScalarField F] in
theorem foldByIndex_eq (x y : F) {ps : List G} {n : Nat} (h : ps.length = n * 2) :
    foldByIndex x y ps n = .ok (foldPoints x y (ps.take n) (ps.drop n)) := by
  have hle : n ≤ ps.length := by omega
  have hlo : (ps.take n).length = n := List.length_take_of_le hle
  have hhi : (ps.drop n).length = n := by
    rw [List.length_drop]
    omega
  have hlength : (foldPoints x y (ps.take n) (ps.drop n)).length = n := by
    rw [length_foldPoints, hlo, hhi, min_self]
  rw [foldByIndex, slice_zero hle, slice_length hle]
  refine Outcome.mapM_range_eq hlength fun i hi => ?_
  rw [elementAt_eq (by omega), elementAt_eq (by omega)]
  simp only [foldPoints, List.getElem_zipWith]
  rfl

/-- Folds bases of length `n` and the statement through the rounds, and checks what is left. -/
def checkRoundsByIndex (u : G) (a b : F) :
    (rounds : List (G × G)) → Transcript → (g h : List G) → (n : Nat) → (p : G) → Outcome Bool
  | [], _, g, h, _, p => do
    return combination [(a, ← elementAt g 0), (b, ← elementAt h 0), (a * b, u)] == p
  | round :: rounds, t, g, h, n, p => do
    let n := n / 2
    let (x, t) : F × Transcript := roundChallenge t round
    let y := x⁻¹
    checkRoundsByIndex u a b rounds t (← foldByIndex y x g n) (← foldByIndex x y h n) n
      (combination [(x * x, round.1), (1, p), (y * y, round.2)])

/-- Each round finds both halves of the bases, and one base of either kind is left at the end. -/
theorem checkRoundsByIndex_eq (u : G) (a b : F) (rounds : List (G × G)) (t : Transcript)
    {g h : List G} (p : G) (hg : g.length = 2 ^ rounds.length) (hh : h.length = 2 ^ rounds.length) :
    checkRoundsByIndex u a b rounds t g h (2 ^ rounds.length) p =
      .ok (checkRounds u a b rounds t g h p) := by
  induction rounds generalizing t g h p with
  | nil =>
    obtain ⟨p₁, rfl⟩ := List.length_eq_one_iff.mp hg
    obtain ⟨p₂, rfl⟩ := List.length_eq_one_iff.mp hh
    rfl
  | cons round rounds ih =>
    have hhalf : 2 ^ (round :: rounds).length / 2 = 2 ^ rounds.length := by
      rw [List.length_cons, pow_succ, Nat.mul_div_cancel _ (by decide)]
    rw [List.length_cons, pow_succ] at hg hh
    have hghalf : g.length / 2 = 2 ^ rounds.length := by omega
    rw [checkRoundsByIndex, checkRounds, hhalf, hghalf]
    obtain ⟨x, t'⟩ : F × Transcript := roundChallenge t round
    simp only [foldByIndex_eq x⁻¹ x hg, foldByIndex_eq x x⁻¹ hh]
    refine ih t' _ ?_ ?_
    · rw [length_foldPoints_halves _ _ _ _ (by omega)]
    · rw [length_foldPoints_halves _ _ _ _ (by omega)]

/-- Whether a proof holds, by folding the bases round by round. -/
def verifyByIndex (proof : InnerProductProof F G) (t : Transcript) (g h : List G) (u : G) :
    Outcome Bool := do
  let n := g.length
  if h.length ≠ n then return false
  if !(← proof.fitsByIndex n) then return false
  checkRoundsByIndex u proof.a proof.b proof.rounds t g h n proof.p

theorem verifyByIndex_eq (proof : InnerProductProof F G) (t : Transcript) (g h : List G) (u : G)
    (hrounds : proof.rounds.length < wordBits) :
    proof.verifyByIndex t g h u = .ok (proof.verify t g h u) := by
  unfold verifyByIndex verify fits
  simp only [fitsByIndex_eq proof hrounds]
  by_cases hh : h.length = g.length
  · rw [if_neg (not_not_intro hh), beq_iff_eq.mpr hh, Bool.true_and]
    by_cases hg : 1 <<< proof.rounds.length = g.length
    · have hg' : g.length = 2 ^ proof.rounds.length := by rw [← hg, Nat.one_shiftLeft]
      rw [hg, beq_self_eq_true, hg']
      exact checkRoundsByIndex_eq u proof.a proof.b proof.rounds t proof.p hg' (hh.trans hg')
    · rw [beq_eq_false_iff_ne.mpr hg]
      rfl
  · rw [if_pos hh, beq_eq_false_iff_ne.mpr hh]
    rfl

/-! ## One sum -/

/-- Adds the factor for position `i`, given the squares of the challenges of all rounds. -/
def pushFactorByIndex (squares : List F) (s : Array F) (i : Nat) : Outcome (Array F) := do
  let bit ← highestBit i
  let square ← elementAt squares (← difference (← difference squares.length 1) bit)
  let factor ← elementAt s.toList (← difference i (← shiftedOne bit))
  return s.push (factor * square)

omit [PointGroup F G] in
/-- With a factor for each position before `i`, and a round for the highest bit of `i`, all that is read
is there. -/
theorem pushFactorByIndex_eq {xs : List F} {s : Array F} {i : Nat} (hrounds : xs.length < wordBits)
    (hpos : i ≠ 0) (hi : i < 2 ^ xs.length) (hs : s.size = i) :
    pushFactorByIndex (xs.map fun x => x * x) s i = .ok (pushFactor xs s i) := by
  have hbit : i.log2 < xs.length := (Nat.log2_lt hpos).mpr hi
  have hword : i < 2 ^ wordBits := hi.trans (Nat.pow_lt_pow_right one_lt_two hrounds)
  have hlow : 1 <<< i.log2 ≤ i := by
    rw [Nat.one_shiftLeft]
    exact Nat.log2_self_le hpos
  have hround : xs.length - 1 - i.log2 < xs.length := by omega
  have hbefore : i - 1 <<< i.log2 < s.toList.length := by
    rw [Array.length_toList, hs, Nat.one_shiftLeft]
    exact Nat.sub_lt (Nat.pos_of_ne_zero hpos) (Nat.two_pow_pos _)
  have hrounds' : difference (xs.map fun x => x * x).length 1 = .ok (xs.length - 1) := by
    rw [List.length_map]
    exact difference_eq (by omega)
  have hsquare : elementAt (xs.map fun x => x * x) (xs.length - 1 - i.log2) =
      .ok (xs.getD (xs.length - 1 - i.log2) 0 * xs.getD (xs.length - 1 - i.log2) 0) := by
    rw [elementAt_eq (by rw [List.length_map]; exact hround), List.getElem_map,
      List.getD_eq_getElem?_getD, List.getElem?_eq_getElem hround, Option.getD_some]
  have hfactor : elementAt s.toList (i - 1 <<< i.log2) = .ok (s.getD (i - 1 <<< i.log2) 0) := by
    rw [elementAt_eq hbefore, Array.getD_eq_getD_getElem?, ← Array.getElem?_toList,
      List.getElem?_eq_getElem hbefore, Option.getD_some]
  rw [pushFactorByIndex, highestBit_eq hpos hword, Outcome.ok_bind, hrounds', Outcome.ok_bind,
    difference_eq (Nat.le_sub_one_of_lt hbit), Outcome.ok_bind, hsquare, Outcome.ok_bind,
    shiftedOne_eq (hbit.trans hrounds), Outcome.ok_bind, difference_eq hlow, Outcome.ok_bind, hfactor,
    Outcome.ok_bind]
  rfl

omit [PointGroup F G] in
/-- Each step finds the factors of all positions before its own. -/
theorem foldlM_pushFactorByIndex {xs : List F} (hrounds : xs.length < wordBits) {s : Array F}
    {start : Nat} (count : Nat) (hpos : start ≠ 0) (hend : start + count ≤ 2 ^ xs.length)
    (hs : s.size = start) :
    (List.range' start count).foldlM (pushFactorByIndex (xs.map fun x => x * x)) s =
      .ok ((List.range' start count).foldl (pushFactor xs) s) := by
  -- The array holds the factors of the positions below `start` at every step.
  induction count generalizing start s with
  | zero => rfl
  | succ count ih =>
    rw [List.range'_succ, List.foldlM_cons, List.foldl_cons,
      pushFactorByIndex_eq hrounds hpos (by omega) hs, Outcome.ok_bind]
    refine ih (Nat.succ_ne_zero start) (by omega) ?_
    rw [pushFactor, Array.size_push, hs]

/-- The factors for the positions below `n`, given the challenges of all rounds. -/
def foldFactorsByIndex (xs : List F) (n : Nat) : Outcome (List F) := do
  let first := xs.foldl (fun acc x => acc * x⁻¹) 1
  let s ← (List.range' 1 (n - 1)).foldlM (pushFactorByIndex (xs.map fun x => x * x)) #[first]
  return s.toList

omit [PointGroup F G] in
theorem foldFactorsByIndex_eq {xs : List F} (hrounds : xs.length < wordBits) :
    foldFactorsByIndex xs (2 ^ xs.length) = .ok (foldFactors xs) := by
  have hpos : 0 < 2 ^ xs.length := Nat.two_pow_pos _
  rw [foldFactorsByIndex, foldlM_pushFactorByIndex hrounds _ one_ne_zero (by omega) rfl,
    Outcome.ok_bind, foldFactors, Nat.one_shiftLeft]
  rfl

/-- The factor with which the scaled base `i` of `n` enters: factors in reverse order. -/
def scaledFactorByIndex (b : F) (s scale : List F) (n i : Nat) : Outcome F := do
  let factor ← elementAt s (← difference (← difference n 1) i)
  return b * factor * (← elementAt scale i)

omit [PointGroup F G] in
theorem mapM_scaledFactorByIndex (b : F) {s scale : List F} {n : Nat} (hs : s.length = n)
    (hscale : scale.length = n) :
    (List.range n).mapM (scaledFactorByIndex b s scale n) =
      .ok (List.zipWith (fun s c => b * s * c) s.reverse scale) := by
  have hlength : (List.zipWith (fun s c => b * s * c) s.reverse scale).length = n := by
    rw [List.length_zipWith, List.length_reverse, hs, hscale, min_self]
  refine Outcome.mapM_range_eq hlength fun i hi => ?_
  rw [hlength] at hi
  rw [scaledFactorByIndex, difference_eq (by omega), Outcome.ok_bind, difference_eq (by omega),
    Outcome.ok_bind, elementAt_eq (by omega), Outcome.ok_bind, elementAt_eq (by omega),
    Outcome.ok_bind, List.getElem_zipWith, List.getElem_reverse]
  subst hs
  rfl

/-- Whether a proof holds for the bases `g` and `h`, the latter scaled, by one sum. -/
def verifyScaledByIndex (proof : InnerProductProof F G) (t : Transcript) (g h : List G)
    (scale : List F) (u : G) : Outcome Bool := do
  let n := g.length
  if h.length ≠ n then return false
  if !(← proof.fitsByIndex n) then return false
  if scale.length ≠ n then return false
  let xs : List F := challenges proof.rounds t
  let s ← foldFactorsByIndex xs n
  let hFactors ← (List.range n).mapM (scaledFactorByIndex proof.b s scale n)
  let sum : G ← pairedCombination
    (s.map (proof.a * ·) ++ hFactors ++ [proof.a * proof.b] ++ xs.map (fun x => -(x * x))
      ++ xs.map (fun x => -(x⁻¹ * x⁻¹)) ++ [-1])
    (g ++ h ++ [u] ++ proof.rounds.map (·.1) ++ proof.rounds.map (·.2) ++ [proof.p])
  return sum == 0

/-- The sum has as many scalars as points, and the terms of the sum that the check over lists forms. -/
theorem pairedCombination_scaled (proof : InnerProductProof F G) {xs s scale : List F} {g h : List G}
    (u : G) (hxs : xs.length = proof.rounds.length) (hs : s.length = g.length)
    (hh : h.length = g.length) (hscale : scale.length = g.length) :
    pairedCombination
      (s.map (proof.a * ·) ++ List.zipWith (fun s c => proof.b * s * c) s.reverse scale
        ++ [proof.a * proof.b] ++ xs.map (fun x => -(x * x)) ++ xs.map (fun x => -(x⁻¹ * x⁻¹)) ++ [-1])
      (g ++ h ++ [u] ++ proof.rounds.map (·.1) ++ proof.rounds.map (·.2) ++ [proof.p]) =
    .ok (combination ((s.map (proof.a * ·)).zip g
      ++ (List.zipWith (fun s c => proof.b * s * c) s.reverse scale).zip h
      ++ [(proof.a * proof.b, u)]
      ++ List.zipWith (fun x round => (-(x * x), round.1)) xs proof.rounds
      ++ List.zipWith (fun x round => (-(x⁻¹ * x⁻¹), round.2)) xs proof.rounds
      ++ [(-1, proof.p)])) := by
  have hleft : (s.map (proof.a * ·)).length = g.length := by rw [List.length_map, hs]
  have hright : (List.zipWith (fun s c => proof.b * s * c) s.reverse scale).length = h.length := by
    rw [List.length_zipWith, List.length_reverse, hs, hscale, min_self, hh]
  have hbases := (Paired.of_length hleft).append (Paired.of_length hright)
  have hsquares := Paired.map hxs (fun x => -(x * x)) (·.1)
  have hinverses := Paired.map hxs (fun x => -(x⁻¹ * x⁻¹)) (·.2)
  exact ((((hbases.append (.single _ u)).append hsquares).append hinverses).append
    (.single _ proof.p)).combination_eq

theorem verifyScaledByIndex_eq (proof : InnerProductProof F G) (t : Transcript) (g h : List G)
    (scale : List F) (u : G) (hrounds : proof.rounds.length < wordBits) :
    proof.verifyScaledByIndex t g h scale u = .ok (proof.verifyScaled t g h scale u) := by
  unfold verifyScaledByIndex verifyScaled fits
  simp only [fitsByIndex_eq proof hrounds]
  by_cases hh : h.length = g.length
  swap
  · rw [if_pos hh, beq_eq_false_iff_ne.mpr hh]
    rfl
  rw [if_neg (not_not_intro hh), beq_iff_eq.mpr hh, Bool.true_and]
  by_cases hg : 1 <<< proof.rounds.length = g.length
  swap
  · rw [beq_eq_false_iff_ne.mpr hg]
    rfl
  by_cases hscale : scale.length = g.length
  swap
  · rw [beq_iff_eq.mpr hg, beq_eq_false_iff_ne.mpr hscale, Outcome.ok_bind, if_neg (by decide),
      if_pos hscale]
    rfl
  have hxs : (challenges proof.rounds t : List F).length = proof.rounds.length :=
    length_challenges proof.rounds t
  have hn : g.length = 2 ^ (challenges proof.rounds t : List F).length := by
    rw [hxs, ← hg, Nat.one_shiftLeft]
  have hs : (foldFactors (challenges proof.rounds t : List F)).length = g.length := by
    rw [length_foldFactors, hn]
  rw [beq_iff_eq.mpr hg, beq_iff_eq.mpr hscale, Outcome.ok_bind, if_neg (by decide),
    if_neg (not_not_intro hscale), hn, foldFactorsByIndex_eq (hxs ▸ hrounds), Outcome.ok_bind, ← hn,
    mapM_scaledFactorByIndex proof.b hs hscale, Outcome.ok_bind,
    proof.pairedCombination_scaled u hxs hs hh hscale]
  rfl

end ShieldedPayments.InnerProductProof
