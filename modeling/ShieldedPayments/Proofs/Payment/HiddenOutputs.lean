import Mathlib.Algebra.Module.Torsion.Field
import ShieldedPayments.Proofs.Coin.Sealing
import ShieldedPayments.Proofs.Payment.Simulation

/-!
# The value commitments of hidden outputs

The commitment of a hidden output is checked to be the sum of its public key and three parts, of which
the range proof and the balance see the value part only. The owner of the output opens the whole
commitment. No proof opens the parts for the derivator and the shard, so they may differ from what the
owner finds; by how much (`slack`) is by how much the value part differs from the value that is found
(`outputValues_of_revealed`), the sum of the slacks is what the balance is off by
(`inputValues_sum_of_reveals`), and any difference can be had (`exists_resealed`).
-/

namespace ShieldedPayments.AccountPayment

variable {F G : Type}

theorem HiddenShape.exists_parts {payment : AccountPayment F G} (h : payment.HiddenShape) {j : Nat}
    {coin : SealedCoin F G} (hcoin : payment.outputs[j]? = some coin) :
    ∃ value derivator shard, payment.outputValues[j]? = some value ∧
      payment.outputDerivators[j]? = some derivator ∧ payment.outputShards[j]? = some shard := by
  obtain ⟨hj, -⟩ := List.getElem?_eq_some_iff.mp hcoin
  exact ⟨_, _, _, List.getElem?_eq_getElem (h.outputValues ▸ hj),
    List.getElem?_eq_getElem (h.outputDerivators ▸ hj),
    List.getElem?_eq_getElem (h.outputShards ▸ hj)⟩

variable [ScalarField F] [PointGroup F G]

/-- The point by which the derivator and shard parts of an output differ from what a coin that was
revealed of it opens them to, together with the randomness of that coin. -/
def slack (payment : AccountPayment F G) (params : ShardParams) (j : Nat)
    (revealed : AccountCoin F G) : Option G := do
  let derivatorPart ← payment.outputDerivators[j]?
  let shardPart ← payment.outputShards[j]?
  let derivator ← revealed.derivator
  let shard ← (revealed.shardId params).toOption
  let randomness ← revealed.randomness
  return derivatorPart + shardPart - (derivator • (pedersen : PedersenBases G).derivator
    + (ofNat shard.toNat : F) • (pedersen : PedersenBases G).shard
    + randomness • (pedersen : PedersenBases G).blinding)

theorem slack_eq {payment : AccountPayment F G} {params : ShardParams} {j : Nat}
    {revealed : AccountCoin F G} {derivatorPart shardPart publicKey : G} {derivator randomness : F}
    {shard : UInt8} (hderivator : payment.outputDerivators[j]? = some derivatorPart)
    (hshard : payment.outputShards[j]? = some shardPart)
    (hopens : revealed.Opens params publicKey derivator shard randomness) :
    payment.slack params j revealed =
      some (derivatorPart + shardPart - (derivator • (pedersen : PedersenBases G).derivator
        + (ofNat shard.toNat : F) • (pedersen : PedersenBases G).shard
        + randomness • (pedersen : PedersenBases G).blinding)) := by
  have hid : revealed.shardId params = .ok shard := by
    rw [AccountCoin.shardId, hopens.publicKey_eq, require_some]
    exact hopens.shard_eq
  rw [slack, hderivator, hshard, hopens.derivator_eq, hid, hopens.randomness_eq]
  rfl

/-- What is checked of the output at a position. -/
theorem HiddenHolds.output_at {payment : AccountPayment F G} {context : VerifyContext}
    {source : CommitmentSource G} {key shard : G} {rangeProof : RangeProof F G}
    (h : payment.HiddenHolds context source key shard rangeProof) {j : Nat} {coin : SealedCoin F G}
    {value derivator shardPart : G} (hcoin : payment.outputs[j]? = some coin)
    (hvalue : payment.outputValues[j]? = some value)
    (hderivator : payment.outputDerivators[j]? = some derivator)
    (hshard : payment.outputShards[j]? = some shardPart) :
    HiddenOutputHolds coin value derivator shardPart := by
  apply h.outputs
  apply List.mem_of_getElem? (i := j)
  simp only [List.getElem?_zip_eq_some]
  exact ⟨hcoin, hvalue, hderivator, hshard⟩

variable [ScalarField.Lawful F] [PointGroup.Lawful F G]

/-- **The value part of a revealed output** is its value over the value base, less the slack. -/
theorem outputValues_of_revealed {payment : AccountPayment F G} {context : VerifyContext}
    {source : CommitmentSource G} {key shard : G} {rangeProof : RangeProof F G}
    (h : payment.HiddenHolds context source key shard rangeProof) {keys : KeySet F G} {j : Nat}
    {coin : SealedCoin F G} {revealed : AccountCoin F G} (hcoin : payment.outputs[j]? = some coin)
    (hsealed : coin.encrypted.isSome = true)
    (hreveal : coin.reveal keys context.params = .ok revealed) :
    ∃ s, payment.slack context.params j revealed = some s ∧
      payment.outputValues[j]? =
        some ((ofNat revealed.value.toNat : F) • (pedersen : PedersenBases G).value - s) := by
  obtain ⟨value, derivatorPart, shardPart, hvalue, hderivatorPart, hshardPart⟩ :=
    h.shape.exists_parts hcoin
  obtain ⟨publicKey, hkey, hcommitment⟩ := h.output_at hcoin hvalue hderivatorPart hshardPart
  obtain ⟨publicKey', derivator, shard, randomness, hkey', -, hopens, hstored⟩ :=
    SealedCoin.opens_of_reveal hsealed hcommitment hreveal
  obtain rfl : publicKey = publicKey' := Option.some.inj (hkey.symm.trans hkey')
  refine ⟨_, slack_eq hderivatorPart hshardPart hopens, ?_⟩
  have hsum := Option.some.inj (hstored.symm.trans hopens.commitment_eq)
  rw [hvalue]
  congr 1
  rw [← sub_eq_zero] at hsum ⊢
  rw [← hsum]
  abel

/-! ## What all owners find -/

/-- Some owner finds the given coin in a sealed output. -/
def Reveals (params : ShardParams) (coin : SealedCoin F G) (revealed : AccountCoin F G) : Prop :=
  coin.encrypted.isSome = true ∧ ∃ keys, coin.reveal keys params = .ok revealed

/-- What a value part falls short of the value that was found, for each output. -/
def shortfalls (revealed : List (AccountCoin F G)) (values : List G) : List G :=
  List.zipWith (fun coin value =>
    (ofNat coin.value.toNat : F) • (pedersen : PedersenBases G).value - value) revealed values

theorem sum_add_sum_shortfalls (revealed : List (AccountCoin F G)) (values : List G)
    (h : revealed.length = values.length) :
    values.sum + (shortfalls revealed values).sum =
      (ofNat (revealed.map (·.value.toNat)).sum : F) • (pedersen : PedersenBases G).value := by
  unfold shortfalls
  induction revealed generalizing values with
  | nil =>
    obtain rfl := List.length_eq_zero_iff.mp h.symm
    rw [List.zipWith_nil_left, List.map_nil, List.sum_nil, List.sum_nil, add_zero,
      ScalarField.Lawful.ofNat_zero, zero_smul]
  | cons coin revealed ih =>
    obtain ⟨value, values, rfl⟩ := List.exists_cons_of_length_eq_add_one h.symm
    have hrest := ih values (Nat.succ.inj h)
    rw [List.zipWith_cons_cons, List.map_cons, List.sum_cons, List.sum_cons, List.sum_cons,
      ScalarField.ofNat_add, add_smul, ← hrest]
    abel

/-- **What the value commitments of the inputs add up to**: the values that the owners of the outputs
find, and the fee, less the slack of each output. -/
theorem inputValues_sum_of_reveals {payment : AccountPayment F G} {context : VerifyContext}
    {source : CommitmentSource G} {key shard : G} {rangeProof : RangeProof F G}
    (h : payment.HiddenHolds context source key shard rangeProof)
    {revealed : List (AccountCoin F G)}
    (hrevealed : List.Forall₂ (Reveals context.params) payment.outputs revealed) :
    ∃ slacks : List G,
      (∀ j coin, revealed[j]? = some coin → payment.slack context.params j coin = slacks[j]?) ∧
      payment.inputValues.sum + slacks.sum =
        (ofNat ((revealed.map (·.value.toNat)).sum + context.fee.toNat) : F)
          • (pedersen : PedersenBases G).value := by
  have hlength : revealed.length = payment.outputValues.length :=
    hrevealed.length_eq.symm.trans h.shape.outputValues.symm
  refine ⟨shortfalls revealed payment.outputValues, ?_, ?_⟩
  · intro j coin hcoin
    obtain ⟨hj, rfl⟩ := List.getElem?_eq_some_iff.mp hcoin
    obtain ⟨-, hget⟩ := List.forall₂_iff_get.mp hrevealed
    obtain ⟨hsealed, keys, hreveal⟩ := hget j (hrevealed.length_eq ▸ hj) hj
    obtain ⟨s, hs, hvalue⟩ := outputValues_of_revealed h
      (List.getElem?_eq_getElem (hrevealed.length_eq ▸ hj)) hsealed hreveal
    rw [shortfalls, List.getElem?_zipWith, hcoin, hvalue]
    exact hs.trans (congrArg some (sub_sub_cancel _ _).symm)
  · rw [h.balance, add_right_comm, sum_add_sum_shortfalls _ _ hlength, ScalarField.ofNat_add,
      add_smul]

/-! ## Resealed outputs -/

/-- The payment with another coin at a position of its outputs, and another shard part. -/
def reseal (payment : AccountPayment F G) (j : Nat) (coin : SealedCoin F G) (shardPart : G) :
    AccountPayment F G :=
  { payment with
    outputs := payment.outputs.set j coin
    outputShards := payment.outputShards.set j shardPart }

omit [ScalarField.Lawful F] [PointGroup.Lawful F G] in
/-- A payment holds as before if the new coin is the sum of its parts. -/
theorem HiddenHolds.reseal {payment : AccountPayment F G} {context : VerifyContext}
    {source : CommitmentSource G} {key shard : G} {rangeProof : RangeProof F G}
    (h : payment.HiddenHolds context source key shard rangeProof) {j : Nat} {coin : SealedCoin F G}
    {value derivator shardPart : G} (hvalue : payment.outputValues[j]? = some value)
    (hderivator : payment.outputDerivators[j]? = some derivator)
    (houtput : HiddenOutputHolds coin value derivator shardPart) :
    (payment.reseal j coin shardPart).HiddenHolds context source key shard rangeProof := by
  refine { h with
    shape := { h.shape with
      outputs := ?_
      outputValues := h.shape.outputValues.trans List.length_set.symm
      outputDerivators := h.shape.outputDerivators.trans List.length_set.symm
      outputShards := List.length_set.trans (h.shape.outputShards.trans List.length_set.symm) }
    outputs := ?_ }
  · intro hnil
    exact h.shape.outputs ((List.set_eq_nil_iff j coin).mp hnil)
  · intro c v d s hmem
    obtain ⟨i, hi⟩ := List.mem_iff_getElem?.mp hmem
    simp only [List.getElem?_zip_eq_some] at hi
    obtain ⟨hc, hv, hd, hs⟩ := hi
    by_cases hij : j = i
    · subst hij
      obtain ⟨hlt, -⟩ := List.getElem?_eq_some_iff.mp hc
      obtain ⟨hlt', -⟩ := List.getElem?_eq_some_iff.mp hs
      have hc' := List.getElem?_set_self (a := coin) (List.length_set ▸ hlt)
      have hs' := List.getElem?_set_self (a := shardPart) (List.length_set ▸ hlt')
      obtain rfl := Option.some.inj (hc'.symm.trans hc)
      obtain rfl := Option.some.inj (hs'.symm.trans hs)
      obtain rfl := Option.some.inj (hvalue.symm.trans hv)
      obtain rfl := Option.some.inj (hderivator.symm.trans hd)
      exact houtput
    · rw [show (payment.reseal j coin shardPart).outputs = payment.outputs.set j coin from rfl,
        List.getElem?_set_ne hij] at hc
      rw [show (payment.reseal j coin shardPart).outputShards = payment.outputShards.set j shardPart
        from rfl, List.getElem?_set_ne hij] at hs
      exact h.output_at hc hv hd hs

/-- **An accepted payment can be resealed with any value**: its owner finds the given value in an
output of another accepted payment, which differs from the first one in that output and its shard
part. -/
theorem exists_resealed [ScalarField.Canonical F] [PointGroup.Canonical F G]
    {payment : AccountPayment F G} {context : VerifyContext} {source : CommitmentSource G}
    {key shard : G} {rangeProof : RangeProof F G}
    (h : payment.HiddenHolds context source key shard rangeProof) {keys : KeySet F G} {j : Nat}
    {coin : SealedCoin F G} {revealed : AccountCoin F G} (hcoin : payment.outputs[j]? = some coin)
    (hsealed : coin.encrypted.isSome = true)
    (hreveal : coin.reveal keys context.params = .ok revealed) (amount : UInt64) (t : Tape) :
    ∃ (coin' : SealedCoin F G) (shardPart : G) (revealed' : AccountCoin F G),
      (payment.reseal j coin' shardPart).HiddenHolds context source key shard rangeProof ∧
      coin'.encrypted.isSome = true ∧ coin'.reveal keys context.params = .ok revealed' ∧
      revealed'.value = amount := by
  obtain ⟨value, derivatorPart, shardPart, hvalue, hderivatorPart, hshardPart⟩ :=
    h.shape.exists_parts hcoin
  obtain ⟨publicKey, hkey, hcommitment⟩ := h.output_at hcoin hvalue hderivatorPart hshardPart
  obtain ⟨publicKey', derivator, shardId, randomness, hkey', hderivator, hopens, -⟩ :=
    SealedCoin.opens_of_reveal hsealed hcommitment hreveal
  obtain ⟨view, _, hview, -⟩ := SealedCoin.reveal_eq_ok_iff.mp hreveal
  obtain rfl : publicKey = publicKey' := Option.some.inj (hkey.symm.trans hkey')
  let commitment := publicKey + (ofNat amount.toNat : F) • (pedersen : PedersenBases G).value
    + derivator • (pedersen : PedersenBases G).derivator
    + (ofNat shardId.toNat : F) • (pedersen : PedersenBases G).shard
    + randomness • (pedersen : PedersenBases G).blinding
  let issued : SealedCoin F G := { details := { coin.details with
    commitment := some commitment
    randomness := some randomness
    value := amount } }
  have hissued : issued.details.Opens context.params publicKey derivator shardId randomness :=
    ⟨hkey, hderivator, hopens.shard_eq, rfl, rfl⟩
  obtain ⟨coin', -, revealed', -, hsealed', hdetails, hreveal', hamount⟩ :=
    SealedCoin.exists_reveal_sealTo hview hissued t
  refine ⟨coin'.strip, commitment - publicKey - value - derivatorPart, revealed',
    h.reseal hvalue hderivatorPart ⟨publicKey, ?_, ?_⟩, hsealed', hreveal', hamount⟩
  · rw [hdetails]
    exact hkey
  · rw [hdetails]
    show some commitment = some _
    congr 1
    abel

/-- As `exists_resealed`, of an accepted payment. -/
theorem exists_accepted_resealed [ScalarField.Canonical F] [PointGroup.Canonical F G]
    {payment : AccountPayment F G} {context : VerifyContext} {source : CommitmentSource G}
    {keys : KeySet F G} {j : Nat} {coin : SealedCoin F G} {revealed : AccountCoin F G}
    (hprivate : payment.isPrivate = true) (haccepted : payment.verify context source = .ok ())
    (hcoin : payment.outputs[j]? = some coin) (hsealed : coin.encrypted.isSome = true)
    (hreveal : coin.reveal keys context.params = .ok revealed) (amount : UInt64) :
    ∃ outputs shards coin' revealed',
      { payment with outputs, outputShards := shards }.verify context source = .ok () ∧
        outputs[j]? = some coin' ∧ coin'.encrypted.isSome = true ∧
        coin'.reveal keys context.params = .ok revealed' ∧ revealed'.value = amount := by
  obtain ⟨key, shard, rangeProof, h⟩ :=
    (verify_eq_ok_iff_of_private payment context source hprivate).mp haccepted
  obtain ⟨coin', shardPart, revealed', h', hsealed', hreveal', hamount⟩ :=
    exists_resealed h hcoin hsealed hreveal amount ⟨[], fun _ => [], 0⟩
  refine ⟨payment.outputs.set j coin', payment.outputShards.set j shardPart, coin', revealed', ?_, ?_,
    hsealed', hreveal', hamount⟩
  · exact (verify_eq_ok_iff_of_private (payment.reseal j coin' shardPart) context source
      hprivate).mpr ⟨key, shard, rangeProof, h'⟩
  · obtain ⟨hj, -⟩ := List.getElem?_eq_some_iff.mp hcoin
    exact List.getElem?_set_self hj

/-- Two accepted payments with the same value parts: their owner finds the same value in both exactly
if the slack is the same. -/
theorem revealed_value_eq_iff [ScalarField.Canonical F] {payment payment' : AccountPayment F G}
    {context : VerifyContext} {source : CommitmentSource G} {keys : KeySet F G} {j : Nat}
    {coin coin' : SealedCoin F G} {revealed revealed' : AccountCoin F G}
    (hprivate : payment.isPrivate = true) (hprivate' : payment'.isPrivate = true)
    (haccepted : payment.verify context source = .ok ())
    (haccepted' : payment'.verify context source = .ok ())
    (hvalues : payment'.outputValues = payment.outputValues)
    (hcoin : payment.outputs[j]? = some coin) (hcoin' : payment'.outputs[j]? = some coin')
    (hsealed : coin.encrypted.isSome = true) (hsealed' : coin'.encrypted.isSome = true)
    (hreveal : coin.reveal keys context.params = .ok revealed)
    (hreveal' : coin'.reveal keys context.params = .ok revealed')
    (hbase : (pedersen : PedersenBases G).value ≠ 0) :
    revealed.value = revealed'.value ↔
      payment.slack context.params j revealed = payment'.slack context.params j revealed' := by
  obtain ⟨_, _, _, h⟩ := (verify_eq_ok_iff_of_private payment context source hprivate).mp haccepted
  obtain ⟨_, _, _, h'⟩ :=
    (verify_eq_ok_iff_of_private payment' context source hprivate').mp haccepted'
  obtain ⟨s, hs, hvalue⟩ := outputValues_of_revealed h hcoin hsealed hreveal
  obtain ⟨s', hs', hvalue'⟩ := outputValues_of_revealed h' hcoin' hsealed' hreveal'
  rw [hvalues] at hvalue'
  have hparts := Option.some.inj (hvalue.symm.trans hvalue')
  rw [hs, hs', Option.some_inj, ← ScalarField.ofNat_toNat_inj (F := F), ← smul_left_inj hbase]
  constructor
  · intro heq
    rw [heq] at hparts
    exact sub_right_injective hparts
  · intro heq
    rw [heq] at hparts
    exact sub_left_injective hparts

/-- **What binds the values of private outputs to the balance.** Given one accepted payment with a
revealed output, the value that is found in another one with the same value parts is the same exactly
if the slack is the same; and the values that are found in all outputs add up, with the fee, to what
the inputs are committed to exactly if the slacks add up to zero. No proof keeps the slack from being
another one: the owner finds any value in a payment that is accepted and shows the same inputs, value
parts and range proof. -/
theorem revealed_value_iff [ScalarField.Canonical F] [PointGroup.Canonical F G]
    {payment : AccountPayment F G} {context : VerifyContext} {source : CommitmentSource G}
    {keys : KeySet F G} {j : Nat} {coin : SealedCoin F G} {revealed : AccountCoin F G}
    (hprivate : payment.isPrivate = true) (haccepted : payment.verify context source = .ok ())
    (hcoin : payment.outputs[j]? = some coin) (hsealed : coin.encrypted.isSome = true)
    (hreveal : coin.reveal keys context.params = .ok revealed)
    (hbase : (pedersen : PedersenBases G).value ≠ 0) :
    (∀ (outputs : List (SealedCoin F G)) (derivators shards : List G) (coin' : SealedCoin F G)
        (revealed' : AccountCoin F G),
      { payment with outputs, outputDerivators := derivators, outputShards := shards }.verify context
          source = .ok () →
      outputs[j]? = some coin' → coin'.encrypted.isSome = true →
      coin'.reveal keys context.params = .ok revealed' →
      (revealed.value = revealed'.value ↔ payment.slack context.params j revealed =
        { payment with outputs, outputDerivators := derivators, outputShards := shards }.slack
          context.params j revealed')) ∧
    (∀ coins, List.Forall₂ (Reveals context.params) payment.outputs coins →
      ∃ slacks : List G,
        (∀ i found, coins[i]? = some found → payment.slack context.params i found = slacks[i]?) ∧
        (payment.inputValues.sum = (ofNat ((coins.map (·.value.toNat)).sum + context.fee.toNat) : F)
          • (pedersen : PedersenBases G).value ↔ slacks.sum = 0)) ∧
    ∀ amount : UInt64, ∃ outputs shards coin' revealed',
      { payment with outputs, outputShards := shards }.verify context source = .ok () ∧
        outputs[j]? = some coin' ∧ coin'.encrypted.isSome = true ∧
        coin'.reveal keys context.params = .ok revealed' ∧ revealed'.value = amount := by
  refine ⟨?_, ?_, exists_accepted_resealed hprivate haccepted hcoin hsealed hreveal⟩
  · intro outputs derivators shards coin' revealed' haccepted' hcoin' hsealed' hreveal'
    exact revealed_value_eq_iff hprivate
      (show ({ payment with outputs, outputDerivators := derivators, outputShards := shards } :
        AccountPayment F G).isPrivate = true from hprivate)
      haccepted haccepted' rfl hcoin hcoin' hsealed hsealed' hreveal hreveal' hbase
  · intro coins hcoins
    obtain ⟨_, _, _, h⟩ := (verify_eq_ok_iff_of_private payment context source hprivate).mp haccepted
    obtain ⟨slacks, hslacks, hsum⟩ := inputValues_sum_of_reveals h hcoins
    refine ⟨slacks, hslacks, ?_⟩
    rw [← hsum, left_eq_add]

/-! ## A resealed payment -/

/-- A key set that opens what is sealed to the view key zero. -/
def zeroView : KeySet Curve.Scalar Exponent :=
  KeySet.ofViewingKey ⟨0, 0⟩ ⟨0, 0, none⟩

/-- A payment of nothing whose output is sealed to the view key zero. -/
theorem exists_sealed_payment :
    ∃ (payment : AccountPayment Curve.Scalar Exponent) (coin : SealedCoin Curve.Scalar Exponent)
      (revealed : AccountCoin Curve.Scalar Exponent), payment.isPrivate = true ∧
        payment.verify { fee := 0, shard := 0 } zeroSource = .ok () ∧
        payment.outputs[0]? = some coin ∧ coin.encrypted.isSome = true ∧
        coin.reveal zeroView {} = .ok revealed := by
  let issued : SealedCoin Curve.Scalar Exponent := { details := {
    publicKey := some 0
    commitment := some (0 + 0 + 0 + 0)
    derivator := some 0
    randomness := some 0 } }
  have hissued : issued.details.Opens {} 0 0 0 0 := ⟨rfl, rfl, by decide, rfl, by decide⟩
  obtain ⟨coin, _, revealed, -, hsealed, hdetails, hreveal, -⟩ :=
    SealedCoin.exists_reveal_sealTo (show zeroView.viewSecret = some 0 from rfl) hissued
      ⟨[], fun _ => [], 0⟩
  refine ⟨simulate 0 0 coin.strip 0 0 0, coin.strip, revealed, rfl, ?_, rfl, hsealed, hreveal⟩
  apply verify_simulate
  · exact ⟨0, by rw [hdetails]; rfl, by rw [hdetails]; rfl⟩
  · rfl

theorem revealed_value_iff_sealed_payment :
    ∃ (payment : AccountPayment Curve.Scalar Exponent) (coin : SealedCoin Curve.Scalar Exponent)
      (revealed : AccountCoin Curve.Scalar Exponent), payment.isPrivate = true ∧
        payment.verify { fee := 0, shard := 0 } zeroSource = .ok () ∧
        payment.outputs[0]? = some coin ∧ coin.encrypted.isSome = true ∧
        coin.reveal zeroView {} = .ok revealed ∧
        (pedersen : PedersenBases Exponent).value ≠ 0 ∧
        ∃ outputs shards coin' revealed',
          { payment with outputs, outputShards := shards }.verify { fee := 0, shard := 0 }
              zeroSource = .ok () ∧
            outputs[0]? = some coin' ∧ coin'.encrypted.isSome = true ∧
            coin'.reveal zeroView {} = .ok revealed' ∧ revealed'.value = 5 := by
  obtain ⟨payment, coin, revealed, hprivate, haccepted, hcoin, hsealed, hreveal⟩ :=
    exists_sealed_payment
  have hbase : (pedersen : PedersenBases Exponent).value ≠ 0 := by decide
  exact ⟨payment, coin, revealed, hprivate, haccepted, hcoin, hsealed, hreveal, hbase,
    (revealed_value_iff hprivate haccepted hcoin hsealed hreveal hbase).2.2 5⟩

/-- What the owner of an output finds in it does not follow from the value parts that are balanced. -/
theorem revealed_value_not_determined :
    ¬ ∀ (payment : AccountPayment Curve.Scalar Exponent)
      (outputs : List (SealedCoin Curve.Scalar Exponent)) (derivators shards : List Exponent)
      (context : VerifyContext) (source : CommitmentSource Exponent)
      (keys : KeySet Curve.Scalar Exponent) (j : Nat) (coin coin' : SealedCoin Curve.Scalar Exponent)
      (revealed revealed' : AccountCoin Curve.Scalar Exponent),
      payment.isPrivate = true → payment.verify context source = .ok () →
      { payment with outputs, outputDerivators := derivators, outputShards := shards }.verify context
          source = .ok () →
      payment.outputs[j]? = some coin → outputs[j]? = some coin' →
      coin.encrypted.isSome = true → coin'.encrypted.isSome = true →
      coin.reveal keys context.params = .ok revealed →
      coin'.reveal keys context.params = .ok revealed' → revealed.value = revealed'.value := by
  intro hclaim
  obtain ⟨payment, coin, revealed, hprivate, haccepted, hcoin, hsealed, hreveal⟩ :=
    exists_sealed_payment
  obtain ⟨outputs, shards, coin', revealed', haccepted', hcoin', hsealed', hreveal', hamount⟩ :=
    exists_accepted_resealed hprivate haccepted hcoin hsealed hreveal (revealed.value + 1)
  have heq := hclaim payment outputs payment.outputDerivators shards { fee := 0, shard := 0 }
    zeroSource zeroView 0 coin coin' revealed revealed' hprivate haccepted haccepted' hcoin hcoin'
    hsealed hsealed' hreveal hreveal'
  rw [hamount, UInt64.left_eq_add] at heq
  exact absurd heq (by decide)

end ShieldedPayments.AccountPayment
