import ShieldedPayments.Proofs.Payment.AccountComplete
import ShieldedPayments.Proofs.Payment.AccountDefined
import ShieldedPayments.Proofs.Payment.AccountSuccess

/-!
# Which spends of account coins are made

The prover of account payments checks counts, sums and openings at once, but looks at the ledger one
input at a time, and under privacy only at what is left of ring members when the parts of an input are
taken away. All of this comes down to one condition on the spend and the ledger
(`AccountSpend.Valid`), which does not mention what is drawn.

* `AccountSpend.valid_iff`: a valid spend passes the check of the prover, and its inputs are on the
  ledger.
* `AccountSpend.onLedger_of_returns`: of a payment that was made, the inputs were on the ledger.
* `AccountSpend.made_iff_valid`: a payment is made exactly of a valid spend.
-/

namespace ShieldedPayments

open PointGroup

variable {F G : Type} [ScalarField F] [PointGroup F G]

namespace AccountSpend

variable {spend : AccountSpend F G} {params : ShardParams} {source : CommitmentSource G}

/-- There is an index for each input, and the ledger has the commitment of the input there. -/
structure HeldAtIndices (spend : AccountSpend F G) (source : CommitmentSource G) : Prop where
  count : spend.ledgerIndices.length = spend.inputs.length
  held : ∀ (i : Nat) coin index, spend.inputs[i]? = some coin →
    spend.ledgerIndices[i]? = some index → spend.Stored source coin index

/-- There are eight indices and one position for each input. The ledger has something at every index,
and the commitment of each input at the index that its position, which is below eight, points to. -/
structure HeldInRings (spend : AccountSpend F G) (source : CommitmentSource G) : Prop where
  count : spend.ledgerIndices.length = spend.inputs.length * 8
  positions : spend.ringPositions.length = spend.inputs.length
  resolved : ∀ index ∈ spend.ledgerIndices,
    ∃ stored, source spend.token spend.shard index = .ok stored
  held : ∀ (i : Nat) coin position, spend.inputs[i]? = some coin →
    spend.ringPositions[i]? = some position →
    position < 8 ∧ ∃ index, spend.ledgerIndices[i * 8 + position]? = some index ∧
      spend.Stored source coin index

/-- A spend that a payment can be made of: its counts are within bounds, its values balance over the
natural numbers, all inputs belong to the spend key and open, and the ledger holds them. -/
structure Valid (spend : AccountSpend F G) (params : ShardParams) (source : CommitmentSource G) :
    Prop where
  inputCount : 1 ≤ spend.inputs.length ∧
    spend.inputs.length ≤ if spend.isPrivate then 31 else 255
  paymentCount : 1 ≤ spend.payments.length ∧ spend.payments.length ≤ 32
  balance : (spend.inputs.map fun coin => coin.value.toNat).sum =
    (spend.payments.map fun payment => payment.amount.toNat).sum + spend.fee.toNat
  total : (spend.inputs.map fun coin => coin.value.toNat).sum < 2 ^ 64
  opens : ∀ coin ∈ spend.inputs, ∃ derivator shard randomness,
    coin.Opens params (spend.key.secret • (pedersen : PedersenBases G).spendKey) derivator shard
      randomness
  held : if spend.isPrivate then spend.HeldInRings source else spend.HeldAtIndices source

/-! ## Where the inputs are -/

omit [ScalarField F] [PointGroup F G] in
theorem heldAtIndices_iff (hopen : ¬spend.isPrivate = true) :
    spend.HeldAtIndices source ↔
      spend.ledgerIndices.length = spend.inputs.length ∧ spend.OnLedger source := by
  unfold OnLedger
  rw [if_neg hopen, forall_mem_zip_iff]
  exact ⟨fun h => ⟨h.count, h.held⟩, fun h => ⟨h.1, h.2⟩⟩

theorem getElem?_ringIndices_eq_some {n i : Nat} {indices ring : List UInt64} :
    (AccountPayment.ringIndices n indices)[i]? = some ring ↔
      i < n ∧ (indices.drop (i * 8)).take 8 = ring := by
  unfold AccountPayment.ringIndices
  rw [List.getElem?_map, Option.map_eq_some_iff]
  simp only [List.getElem?_eq_some_iff, List.length_range, List.getElem_range]
  constructor
  · rintro ⟨j, ⟨hj, rfl⟩, rfl⟩
    exact ⟨hj, rfl⟩
  · rintro ⟨hi, rfl⟩
    exact ⟨i, ⟨hi, rfl⟩, rfl⟩

/-- The member of a ring at a position is eight times the number of the ring and the position further
on. -/
theorem getElem?_ring_eq_some {i position : Nat} {indices : List UInt64} {index : UInt64} :
    ((indices.drop (i * 8)).take 8)[position]? = some index ↔
      position < 8 ∧ indices[i * 8 + position]? = some index := by
  rw [List.getElem?_take, List.getElem?_drop]
  by_cases hposition : position < 8
  · rw [if_pos hposition]
    exact ⟨fun h => ⟨hposition, h⟩, fun h => h.2⟩
  · rw [if_neg hposition]
    exact ⟨nofun, fun h => absurd h.1 hposition⟩

omit [ScalarField F] [PointGroup F G] in
theorem heldInRings_iff (hprivate : spend.isPrivate = true) :
    spend.HeldInRings source ↔
      spend.ledgerIndices.length = spend.inputs.length * 8 ∧
        spend.ringPositions.length = spend.inputs.length ∧ spend.OnLedger source := by
  unfold OnLedger
  rw [if_pos hprivate, forall_mem_zip_iff]
  constructor
  · intro h
    refine ⟨h.count, h.positions, ?_⟩
    rintro i coin ⟨ring, position⟩ hcoin hzip
    obtain ⟨hring, hposition⟩ := List.getElem?_zip_eq_some.mp hzip
    obtain ⟨-, rfl⟩ := getElem?_ringIndices_eq_some.mp hring
    obtain ⟨hlt, index, hindex, hstored⟩ := h.held i coin position hcoin hposition
    refine ⟨fun index hindex => ?_, index, getElem?_ring_eq_some.mpr ⟨hlt, hindex⟩, hstored⟩
    exact h.resolved index (List.mem_of_mem_drop (List.mem_of_mem_take hindex))
  · rintro ⟨hcount, hpositions, hledger⟩
    have hring {i : Nat} {coin : AccountCoin F G} {position : Nat}
        (hcoin : spend.inputs[i]? = some coin) (hposition : spend.ringPositions[i]? = some position) :=
      hledger i coin ((spend.ledgerIndices.drop (i * 8)).take 8, position) hcoin
        (List.getElem?_zip_eq_some.mpr ⟨getElem?_ringIndices_eq_some.mpr
          ⟨(List.getElem?_eq_some_iff.mp hcoin).1, rfl⟩, hposition⟩)
    refine ⟨hcount, hpositions, fun index hindex => ?_, fun i coin position hcoin hposition => ?_⟩
    · -- an index belongs to the ring that its place divided by eight says
      obtain ⟨k, hk⟩ := List.mem_iff_getElem?.mp hindex
      have hbound : k < spend.ledgerIndices.length := (List.getElem?_eq_some_iff.mp hk).1
      have hinput : k / 8 < spend.inputs.length := by omega
      have hplace : k / 8 < spend.ringPositions.length := by omega
      obtain ⟨hresolved, -⟩ := hring (List.getElem?_eq_getElem hinput) (List.getElem?_eq_getElem hplace)
      apply hresolved index
      apply List.mem_of_getElem? (i := k % 8)
      rw [getElem?_ring_eq_some, Nat.div_add_mod']
      exact ⟨Nat.mod_lt k (by decide), hk⟩
    · obtain ⟨-, index, hindex, hstored⟩ := hring hcoin hposition
      obtain ⟨hlt, hindex⟩ := getElem?_ring_eq_some.mp hindex
      exact ⟨hlt, index, hindex, hstored⟩

omit [ScalarField F] [PointGroup F G] in
/-- Counts and places of the inputs of a valid spend are what the prover's checks and its look at the
ledger come to. -/
theorem counted_and_held_iff :
    ((1 ≤ spend.inputs.length ∧ spend.inputs.length ≤ if spend.isPrivate then 31 else 255) ∧
        if spend.isPrivate then spend.HeldInRings source else spend.HeldAtIndices source) ↔
      (spend.inputs ≠ [] ∧ spend.inputs.length ≤ maxInputs) ∧
        (if spend.isPrivate then spend.inputs.length ≤ AccountPayment.maxPrivateInputs ∧
            spend.ledgerIndices.length = spend.inputs.length * ringSize ∧
            spend.ringPositions.length = spend.inputs.length
          else spend.ledgerIndices.length = spend.inputs.length) ∧ spend.OnLedger source := by
  have hmax : maxInputs = 255 := rfl
  have hmaxPrivate : AccountPayment.maxPrivateInputs = 31 := rfl
  have hsize : ringSize = 8 := rfl
  rw [Nat.one_le_iff_ne_zero, Ne, List.length_eq_zero_iff, hmax, hmaxPrivate, hsize]
  by_cases hprivate : spend.isPrivate = true
  · rw [if_pos hprivate, if_pos hprivate, if_pos hprivate, heldInRings_iff hprivate]
    constructor
    · rintro ⟨⟨hnonempty, hcount⟩, hindices, hpositions, hledger⟩
      exact ⟨⟨hnonempty, by omega⟩, ⟨hcount, hindices, hpositions⟩, hledger⟩
    · rintro ⟨⟨hnonempty, -⟩, ⟨hcount, hindices, hpositions⟩, hledger⟩
      exact ⟨⟨hnonempty, hcount⟩, hindices, hpositions, hledger⟩
  · rw [if_neg hprivate, if_neg hprivate, if_neg hprivate, heldAtIndices_iff hprivate]

omit [ScalarField F] [PointGroup F G] in
/-- The values of a spend balance without overflow exactly if they balance as naturals, below 2 ^ 64. -/
theorem balance_iff :
    Balance.Exact (spend.inputs.map (·.value)) (spend.payments.map (·.amount)) spend.fee ↔
      (spend.inputs.map fun coin => coin.value.toNat).sum =
          (spend.payments.map fun payment => payment.amount.toNat).sum + spend.fee.toNat ∧
        (spend.inputs.map fun coin => coin.value.toNat).sum < 2 ^ 64 := by
  rw [Balance.Exact, List.map_map, List.map_map]
  rfl

variable [ScalarField.Lawful F] [PointGroup.Lawful F G]

omit [ScalarField.Lawful F] in
/-- A valid spend passes the check of the prover, and its inputs are on the ledger. -/
theorem valid_iff : spend.Valid params source ↔ spend.Checked params ∧ spend.OnLedger source := by
  have howner : (spend.key.publicSpend : G) =
      spend.key.secret • (pedersen : PedersenBases G).spendKey := baseMultiple_eq _
  have hpayments : 1 ≤ spend.payments.length ↔ spend.payments ≠ [] := by
    rw [Nat.one_le_iff_ne_zero, Ne, List.length_eq_zero_iff]
  constructor
  · intro h
    obtain ⟨⟨hinputs, hinputCount⟩, hindices, hledger⟩ :=
      counted_and_held_iff.mp ⟨h.inputCount, h.held⟩
    have hopens := h.opens
    rw [← howner] at hopens
    exact ⟨⟨hinputs, hinputCount, hpayments.mp h.paymentCount.1, h.paymentCount.2,
      balance_iff.mpr ⟨h.balance, h.total⟩, hopens, hindices⟩, hledger⟩
  · rintro ⟨hchecked, hledger⟩
    obtain ⟨hinputCount, hheld⟩ := counted_and_held_iff.mpr
      ⟨⟨hchecked.inputs, hchecked.inputCount⟩, hchecked.indices, hledger⟩
    obtain ⟨hsum, htotal⟩ := balance_iff.mp hchecked.balance
    have hopens := hchecked.opens
    rw [howner] at hopens
    exact ⟨hinputCount, ⟨hpayments.mpr hchecked.payments, hchecked.paymentCount⟩, hsum, htotal, hopens,
      hheld⟩

/-! ## What a payment was made of -/

/-- The ring proof of an input is made only if the ledger has the commitment of the input at its
position. -/
theorem stored_of_returns {shared : SharedInput F G} {coin : AccountCoin F G}
    {indices : List UInt64} {position : Nat} {proved : HiddenInput F G} {derivator randomness : F}
    {shard : UInt8}
    (hopens : coin.Opens params (spend.key.publicSpend : G) derivator shard randomness)
    (hkey : shared.keyCommitment = Pedersen.commitAt .spendKey spend.key.secret shared.keyBlinding)
    (hshard : shared.shardCommitment =
      Pedersen.commitAt .shard (ofNat shard.toNat) shared.shardBlinding)
    (h : (spend.proveHiddenInput source shared coin indices position).Returns proved) :
    (∀ index ∈ indices, ∃ stored, source spend.token spend.shard index = .ok stored) ∧
      ∃ index, indices[position]? = some index ∧ spend.Stored source coin index := by
  unfold proveHiddenInput at h
  obtain ⟨derivator', hderivator, h⟩ := h.outcome_bind
  obtain ⟨randomness', hrandomness, h⟩ := h.outcome_bind
  obtain ⟨valueBlinding, -, h⟩ := h.bind
  obtain ⟨derivatorBlinding, -, h⟩ := h.bind
  obtain ⟨members, hmembers, h⟩ := h.outcome_bind
  obtain ⟨ringProof, hring, -⟩ := h.bind
  rw [require_eq_ok_iff, hopens.derivator_eq] at hderivator
  rw [require_eq_ok_iff, hopens.randomness_eq] at hrandomness
  obtain rfl := Option.some.inj hderivator
  obtain rfl := Option.some.inj hrandomness
  have hmatch := Outcome.mapM_eq_ok_iff.mp hmembers
  constructor
  · refine forall_mem_of_forall₂ hmatch.flip fun member index hread => ?_
    obtain ⟨stored, hstored, -⟩ := Outcome.bind_eq_ok_iff.mp hread
    exact ⟨stored, hstored⟩
  · obtain ⟨t, ht⟩ := Proving.returns_iff.mp hring
    obtain ⟨-, hmember, -⟩ := RingProof.runOn_prove_eq_ok_iff.mp ht
    obtain ⟨index, hindex, hread⟩ := exists_of_forall₂ hmatch hmember
    obtain ⟨stored, hstored, hdifference⟩ := Outcome.bind_eq_ok_iff.mp hread
    refine ⟨index, hindex, stored, hstored, ?_⟩
    -- what is left of the stored point is what is left of the commitment of the input
    have hparts : _ - (shared.keyCommitment
        + Pedersen.commitAt .value (ofNat coin.value.toNat) valueBlinding
        + Pedersen.commitAt .derivator derivator derivatorBlinding + shared.shardCommitment) = _ :=
      commitment_sub_parts hopens hopens.commitment_eq hkey hshard
    rw [Pedersen.commitAt_zero_left, ← Outcome.pure_eq_ok_iff.mp hdifference, sub_left_inj] at hparts
    rw [hopens.commitment_eq, hparts]

theorem onLedger_of_returns {payment : AccountPayment F G}
    (h : (spend.prove params source).Returns payment) : spend.OnLedger source := by
  unfold prove at h
  obtain ⟨_, hcheck, h⟩ := h.outcome_bind
  have hchecked := check_eq_ok_iff.mp hcheck
  unfold OnLedger
  split at h
  · next hprivate =>
    rw [if_pos hprivate]
    unfold proveHidden at h
    obtain ⟨shared, hshared, h⟩ := h.bind
    obtain ⟨inputs, hinputs, -⟩ := h.bind
    obtain ⟨hkey, shard, hshard, hshardCommitment⟩ := shared_of_returns hshared
    have hreturned := forall_mem_of_forall₂ (P := fun input : AccountCoin F G × List UInt64 × Nat =>
        ∃ proved, (spend.proveHiddenInput source shared input.1 input.2.1 input.2.2).Returns proved)
      hinputs.mapM.flip fun proved _ hproved => ⟨proved, hproved⟩
    intro input hinput
    obtain ⟨derivator, shard', randomness, hopens⟩ :=
      hchecked.opens input.1 (List.of_mem_zip hinput).1
    obtain rfl := Except.ok.inj (hshard.symm.trans hopens.shard_eq)
    obtain ⟨proved, hproved⟩ := hreturned input hinput
    exact stored_of_returns hopens hkey hshardCommitment hproved
  · next hopen =>
    rw [if_neg hopen]
    obtain ⟨proved, hrun⟩ := openRun_of_returns h
    exact forall_mem_of_forall₂ hrun.inputsProved.flip fun _ _ ⟨_, hinput⟩ => hinput.stored

/-- **A payment is made exactly of a valid spend.** Whatever the parameters, the ledger and the tape:
the prover returns a payment if and only if the counts of the spend are within their bounds, its values
balance without overflow, its key owns and opens every input, and the ledger holds every input where the
spend says it does. Every other spend is refused, and for a cause that has a wording if there is a shard
and the ledger itself answers or refuses. -/
theorem made_iff_valid [FullBases F G] (spend : AccountSpend F G) (params : ShardParams)
    (source : CommitmentSource G) (t : Tape) :
    ((∃ payment, ((spend.prove params source).runOn t).1 = .ok payment) ↔
        spend.Valid params source) ∧
      (¬spend.Valid params source →
        ∃ fault, ((spend.prove params source).runOn t).1 = .error fault ∧
          (params.numShards ≠ 0 → source.Answers → fault ≠ .undefined)) := by
  have hvalid : ∀ payment, (spend.prove params source).Returns payment →
      spend.Valid params source := fun payment hmade =>
    valid_iff.mpr ⟨(run_of_returns hmade).1, onLedger_of_returns hmade⟩
  refine ⟨⟨?_, fun h => ?_⟩, fun h => ?_⟩
  · rintro ⟨payment, hmade⟩
    exact hvalid payment (Proving.returns_iff.mpr ⟨t, hmade⟩)
  · obtain ⟨hchecked, hledger⟩ := valid_iff.mp h
    obtain ⟨payment, t', hmade⟩ := succeeds_prove (check_eq_ok_iff.mpr hchecked) hledger t
    exact ⟨payment, congrArg Prod.fst hmade⟩
  · obtain ⟨fault, hrefused⟩ :=
      Proving.refuses_of_not_returns (fun payment hmade => h (hvalid payment hmade)) t
    refine ⟨fault, hrefused, fun hshards hsource hundefined => ?_⟩
    have hdefined := spend.defined_prove hshards hsource t
    rw [hrefused, hundefined] at hdefined
    exact hdefined rfl

theorem valid_ringSpend : ringSpend.Valid {} ringLedger :=
  valid_iff.mpr ⟨check_eq_ok_iff.mp check_ringSpend, onLedger_ringSpend⟩

/-- The ledger has the coin at index five, and not at index four. -/
theorem not_valid_ringSpend_elsewhere : ¬{ ringSpend with ringPositions := [4] }.Valid {} ringLedger := by
  intro h
  have hheld : { ringSpend with ringPositions := [4] }.HeldInRings ringLedger := h.held
  obtain ⟨-, index, hindex, stored, hstored, hcommitment⟩ := hheld.held 0 ringCoin 4 rfl rfl
  obtain rfl := Option.some.inj hindex
  obtain rfl := Except.ok.inj hstored
  exact absurd hcommitment (by decide)

/-- A private spend is made with the position of its coin in the ring, and refused with another. -/
theorem made_iff_valid_ringSpend :
    let t : Tape := ⟨[], fun _ => [], 0⟩
    let elsewhere := { ringSpend with ringPositions := [4] }
    (∃ payment, ((ringSpend.prove {} ringLedger).runOn t).1 = .ok payment) ∧
      ∃ fault, fault ≠ .undefined ∧ ((elsewhere.prove {} ringLedger).runOn t).1 = .error fault := by
  intro t elsewhere
  obtain ⟨hmade, -⟩ := made_iff_valid ringSpend {} ringLedger t
  obtain ⟨-, hrefused⟩ := made_iff_valid elsewhere {} ringLedger t
  refine ⟨hmade.mpr valid_ringSpend, ?_⟩
  obtain ⟨fault, hfault, hworded⟩ := hrefused not_valid_ringSpend_elsewhere
  exact ⟨fault, hworded (by decide) fun _ _ _ => Outcome.defined_ok _, hfault⟩

end AccountSpend

end ShieldedPayments
